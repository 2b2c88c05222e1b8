/-
**Placing a diagram.**

The grid comes first, whatever the engine: the layered engine improves on the grid, and where its
service has no position for a node, the node stays on the grid.

Main definitions:

* `TextDiagram.Placing.onGrid?` — the positions of the nodes on the grid;
* `TextDiagram.Placing.positions?` — the positions of the nodes of a diagram.
-/

import TextDiagram.Diagram.Edit
import TextDiagram.Placement.Grid
import TextDiagram.Placement.Service

set_option relaxedAutoImplicit false
set_option autoImplicit false

namespace TextDiagram

/-- The positions of the nodes of a diagram on the grid. -/
def Placing.onGrid? (p : Placing) (d : Diagram Float32) : Option (Catalog (Point Float32)) :=
  Grid.positions? (Grid.nodesOf d) p.grid

/-- The positions of the nodes of a diagram. -/
def Placing.positions? (p : Placing) (service : LayoutService) (d : Diagram Float32) :
    Option (Catalog (Point Float32)) :=
  (p.onGrid? d).map fun base =>
    match p.engine with
    | .grid => base
    | .layered => merged base (service (LayoutRequest.ofDiagram p.layered d))

end TextDiagram
