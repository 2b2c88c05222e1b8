/-
**Diagrams.**

A diagram is a document on the plane: its nodes have places and sizes, and its edges have routes.  A
node is kept by its top left corner.  A host that draws nodes itself may tell where edges can take
hold of them; such a handle is a box relative to the corner of its node.

Main definitions:

* `TextDiagram.Handle` — a place where edges take hold of a node;
* `TextDiagram.Diagram.Node`, `TextDiagram.Diagram.Edge`, `TextDiagram.Route` — the parts of a
  diagram;
* `TextDiagram.Diagram` — the whole, with `TextDiagram.Diagram.bounds` around everything in it;
* `TextDiagram.Identity` — which nodes and edges a diagram has, whatever their order.

Main results:

* `TextDiagram.Diagram.contains_iff` — an id is in a diagram as a node or as an edge.
-/

import TextDiagram.Vocabulary
import TextDiagram.Catalog
import TextDiagram.Geometry.Curve
import TextDiagram.Document.Basic

set_option relaxedAutoImplicit false
set_option autoImplicit false

namespace TextDiagram

variable {α : Type}

/-! ### Handles -/

/-- The kinds of nodes. -/
inductive NodeKind where
  | default
  | group
  deriving DecidableEq, Repr

/-- The name of a kind of nodes. -/
def NodeKind.name : NodeKind → String
  | default => "default"
  | group => "group"

/-- The end of an edge that a handle is for. -/
inductive HandleKind where
  | source
  | target
  deriving DecidableEq, Repr

/-- The name of an end. -/
def HandleKind.name : HandleKind → String
  | source => "source"
  | target => "target"

/-- The end of a given name. -/
def HandleKind.ofName? (name : String) : Option HandleKind :=
  [source, target].find? fun kind => kind.name = name

/-- A place where edges take hold of a node, relative to the corner of the node. -/
structure Handle (α : Type) where
  side : Side
  kind : HandleKind
  box : Box α
  deriving DecidableEq, Repr

/-- The point where an edge takes hold of a handle: the middle of the outer side of its box. -/
def Handle.hold [Scalar α] (h : Handle α) (corner : Point α) : Point α :=
  (h.box.translate corner).sideMidpoint h.side

/-! ### Parts of a diagram -/

namespace Diagram

/-- A node with its place and its size. -/
structure Node (α : Type) where
  kind : NodeKind
  position : Point α
  size : Size α
  label : String
  icon : Option String := none
  color : Option String := none
  parent : Option Id := none
  appearance : Option Appearance := none
  origin : Origin
  handles : List (Handle α) := []
  deriving DecidableEq, Repr

namespace Node

/-- Whether a node is drawn as a group. -/
def isGroup (n : Node α) : Bool := n.kind = .group

/-- The first handle of a node on a side for an end. -/
def handle? (n : Node α) (side : Side) (kind : HandleKind) : Option (Handle α) :=
  n.handles.find? fun h => h.side = side && h.kind = kind

variable [Scalar α]

/-- The box of a node. -/
def box (n : Node α) : Box α := Box.ofCorner n.position n.size

/-- The point where an edge takes hold of a side of a node: at a handle if there is one for it, and
in the middle of the side otherwise. -/
def anchor (n : Node α) (side : Side) (kind : HandleKind) : Point α :=
  match n.handle? side kind with
  | some handle => handle.hold n.position
  | none => n.box.sideMidpoint side

end Node

/-- An edge between two nodes. -/
structure Edge where
  source : Id
  target : Id
  kind : EdgeKind
  label : Option String := none
  color : Option String := none
  origin : Origin
  deriving DecidableEq, Repr

/-- Whether an edge leads back to its source. -/
def Edge.isLoop (e : Edge) : Bool := e.source = e.target

end Diagram

/-- How an edge is drawn: the sides it joins, its curve, and where its label is centered. -/
structure Route (α : Type) where
  sourceSide : Side
  targetSide : Side
  curve : Curve α
  labelAt : Point α
  deriving DecidableEq, Repr

/-! ### Diagrams -/

/-- A document on the plane. -/
structure Diagram (α : Type) where
  nodes : Catalog (Diagram.Node α) := .empty
  edges : Catalog Diagram.Edge := .empty
  routes : Catalog (Route α) := .empty
  direction : Direction := .right
  appearance : Appearance := {}

namespace Diagram

/-- Whether an id is that of a node or an edge. -/
def contains (d : Diagram α) (id : Id) : Bool := d.nodes.contains id || d.edges.contains id

/-- An id is in a diagram as a node or as an edge. -/
theorem contains_iff {d : Diagram α} {id : Id} :
    d.contains id = true ↔ d.nodes.contains id = true ∨ d.edges.contains id = true := by
  simp [contains]

/-- The ids of all nodes and edges. -/
def ids (d : Diagram α) : List Id := d.nodes.ids ++ d.edges.ids

/-- The corners of all nodes. -/
def positions (d : Diagram α) : Catalog (Point α) := d.nodes.map fun _ node => node.position

/-- The boxes of everything in a diagram: first the nodes, then the routes. -/
def boxes [Scalar α] (d : Diagram α) : List (Box α) :=
  d.nodes.values.map Node.box ++ d.routes.values.map fun route => route.curve.bounds

/-- The least box around everything in a diagram. -/
def bounds [Scalar α] (d : Diagram α) : Box α := Box.hull d.boxes

end Diagram

/-! ### Identities -/

/-- Which nodes and edges a diagram has: their ids in order, apart from each other. -/
structure Identity where
  nodes : List Id
  edges : List Id
  deriving DecidableEq, Repr

/-- The identity of the given nodes and edges, which does not depend on their order. -/
def Identity.of (nodes edges : List Id) : Identity where
  nodes := nodes.mergeSort fun a b => decide (a ≤ b)
  edges := edges.mergeSort fun a b => decide (a ≤ b)

/-- The identity of a diagram. -/
def Diagram.identity (d : Diagram α) : Identity := Identity.of d.nodes.ids d.edges.ids

end TextDiagram
