/-
**From a text to its picture.**

A text is read, its nodes are measured and placed, and the diagram is drawn.  A placement that never
ends leaves nothing to draw.

Main definitions:

* `TextDiagram.Configuration.read` — the document of a text;
* `TextDiagram.Configuration.layOut?` — the diagram of a document;
* `TextDiagram.Configuration.draw` — the text of the picture of a diagram.

Main results:

* `TextDiagram.placelessNode?_eq_none_iff` — every node has a place when none is without one.
-/

import TextDiagram.Problem
import TextDiagram.Diagram.Measure
import TextDiagram.Placement.Position
import TextDiagram.Picture.Drawing

set_option relaxedAutoImplicit false
set_option autoImplicit false

namespace TextDiagram

/-- Whether positions give a finite place to an id. -/
def hasPlace (positions : Catalog (Point Float32)) (id : Id) : Bool :=
  (positions.get? id).any Point.isFinite

/-- The first node of a diagram that positions give no finite place to. -/
def placelessNode? (d : Diagram Float32) (positions : Catalog (Point Float32)) : Option Id :=
  d.nodes.ids.find? fun id => !hasPlace positions id

/-- Every node has a place when none is without one. -/
theorem placelessNode?_eq_none_iff {d : Diagram Float32} {positions : Catalog (Point Float32)} :
    placelessNode? d positions = none ↔ ∀ id, id ∈ d.nodes.ids → hasPlace positions id = true := by
  simp [placelessNode?]

namespace Configuration

/-- The document of a text. -/
def read (source : String) : Except Problem Document :=
  match Document.ofText source with
  | .ok document => .ok document
  | .error error => .error (.parse error source)

/-- The diagram with its nodes at given positions, if there is one for every node. -/
def settle (d : Diagram Float32) (positions : Catalog (Point Float32)) :
    Except Problem (Diagram Float32) :=
  match placelessNode? d positions with
  | some id => .error (.placeless id)
  | none => .ok (d.placed positions)

/-- The diagram of a document, if its placement ends. -/
def layOut? (c : Configuration) (service : LayoutService) (document : Document) :
    Option (Except Problem (Diagram Float32)) :=
  let fresh := Diagram.ofDocument c.style document
  (c.placing.positions? service fresh).map (settle fresh)

/-- The text of the picture of a diagram. -/
def draw (c : Configuration) (d : Diagram Float32) : Except Problem String :=
  match d.svg c.style with
  | .ok text => .ok text
  | .error flaw => .error (.unusableStyle flaw)

end Configuration

end TextDiagram
