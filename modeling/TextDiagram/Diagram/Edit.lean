/-
**Editing diagrams.**

The edits of a diagram are partial: an edit that names something unknown, or a place that is not
finite, is not made.  Every edit but the insertion of a node draws the routes anew.

Main definitions:

* `TextDiagram.Diagram.rerouted` — the diagram with all routes drawn anew;
* `TextDiagram.Diagram.placed`, `TextDiagram.Diagram.moved?`, `TextDiagram.Diagram.measured?`,
  `TextDiagram.Diagram.withNode`, `TextDiagram.Diagram.withEdge?`,
  `TextDiagram.Diagram.reconnected?`, `TextDiagram.Diagram.inheriting` — the edits.

Main results:

* `TextDiagram.Diagram.placed_nodes_ids` — placing nodes keeps the nodes there are.
-/

import TextDiagram.Diagram.Routing

set_option relaxedAutoImplicit false
set_option autoImplicit false

namespace TextDiagram.Diagram

/-! ### Routes -/

/-- A diagram with all routes drawn anew. -/
def rerouted (d : Diagram Float32) : Diagram Float32 :=
  { d with routes := TextDiagram.routes d.nodes d.edges }

/-! ### Places and sizes -/

/-- A node at another place, if that is finite. -/
def Node.placedAt (n : Node Float32) (position : Point Float32) : Node Float32 :=
  if position.isFinite then { n with position } else n

/-- A node at the place that it is given, if it is given one. -/
def Node.placedBy (n : Node Float32) (position : Option (Point Float32)) : Node Float32 :=
  position.elim n n.placedAt

/-- The diagram with its nodes moved to the given positions.  Positions of unknown nodes and
positions that are not finite mean nothing. -/
def placed (d : Diagram Float32) (positions : Catalog (Point Float32)) : Diagram Float32 :=
  rerouted { d with nodes := d.nodes.map fun id n => n.placedBy (positions.get? id) }

/-- The diagram with one node moved. -/
def moved? (d : Diagram Float32) (id : Id) (position : Point Float32) : Option (Diagram Float32) :=
  if d.nodes.contains id && position.isFinite then
    some (rerouted { d with nodes := d.nodes.modify id fun n => { n with position } })
  else none

/-- The diagram with a node of the size and the handles that it was found to have.  The size of a
single point tells nothing. -/
def measured? (d : Diagram Float32) (id : Id) (size : Size Float32)
    (handles : List (Handle Float32)) : Option (Diagram Float32) :=
  if d.nodes.contains id then
    let measure := fun (n : Node Float32) =>
      { n with size := if size.isZero then n.size else size, handles := handles }
    some (rerouted { d with nodes := d.nodes.modify id measure })
  else none

/-- The diagram with the places and handles that its nodes have in another one. -/
def inheriting (d previous : Diagram Float32) : Diagram Float32 :=
  let inherit := fun id (n : Node Float32) =>
    match previous.nodes.get? id with
    | some old => { n with position := old.position, handles := old.handles }
    | none => n
  rerouted { d with nodes := d.nodes.map inherit }

/-! ### Nodes and edges -/

/-- The diagram with a node.  A node of the same id is replaced. -/
def withNode (d : Diagram Float32) (id : Id) (n : Node Float32) : Diagram Float32 :=
  { d with nodes := d.nodes.insert id n }

/-- Whether there are nodes of two ids. -/
def joins (d : Diagram Float32) (source target : Id) : Bool :=
  d.nodes.contains source && d.nodes.contains target

/-- The diagram with an edge between nodes that exist.  An edge of the same id is replaced. -/
def withEdge? (d : Diagram Float32) (id : Id) (e : Edge) : Option (Diagram Float32) :=
  if d.joins e.source e.target then some (rerouted { d with edges := d.edges.insert id e })
  else none

/-- The diagram with an edge led between two other nodes. -/
def reconnected? (d : Diagram Float32) (id source target : Id) : Option (Diagram Float32) :=
  if d.joins source target && d.edges.contains id then
    some (rerouted { d with edges := d.edges.modify id fun e => { e with source, target } })
  else none

/-! ### What the edits keep -/

@[simp] theorem rerouted_nodes (d : Diagram Float32) : d.rerouted.nodes = d.nodes := rfl

@[simp] theorem rerouted_edges (d : Diagram Float32) : d.rerouted.edges = d.edges := rfl

@[simp] theorem rerouted_rerouted (d : Diagram Float32) : d.rerouted.rerouted = d.rerouted := rfl

/-- Placing nodes keeps the nodes there are. -/
@[simp] theorem placed_nodes_ids (d : Diagram Float32) (positions : Catalog (Point Float32)) :
    (d.placed positions).nodes.ids = d.nodes.ids := Catalog.ids_map _ _

@[simp] theorem placed_edges (d : Diagram Float32) (positions : Catalog (Point Float32)) :
    (d.placed positions).edges = d.edges := rfl

end TextDiagram.Diagram
