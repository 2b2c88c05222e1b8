/-
**Placement on grids.**

Nodes without a parent fill two square grids, the groups above the others.  The children of a node
fill a finer grid inside it, level by level.  Last, a node that sits exactly where an earlier one
sits is nudged to the right until it sits alone.

The grid is computed over any scalar.  With distinct ids the levels always end.  The nudging need
not: far out, single-precision numbers are too coarse for a nudge to move a node at all, and then
there is no placement.

Main definitions:

* `TextDiagram.Grid.Node` — what the grid needs to know of a node;
* `TextDiagram.Grid.columns` — the columns of a square grid;
* `TextDiagram.Grid.usableParent?` — the parent inside which a node is placed;
* `TextDiagram.Grid.spread?` — the placement before the nudging;
* `TextDiagram.Grid.separate?` — the nudging;
* `TextDiagram.Grid.positions?` — the whole placement.

Main results:

* `TextDiagram.Grid.usableParent?_eq_some_iff` — which parent is usable.
-/

import TextDiagram.Search
import TextDiagram.Catalog
import TextDiagram.Geometry.Basic
import TextDiagram.Configuration.Basic
import TextDiagram.Diagram.Basic

set_option relaxedAutoImplicit false
set_option autoImplicit false

namespace TextDiagram.Grid

variable {α : Type}

/-- What the grid needs to know of a node. -/
structure Node where
  id : Id
  parent : Option Id := none
  isGroup : Bool := false
  deriving DecidableEq, Repr

/-! ### Parents -/

/-- The node of an id: the last one, where there are several. -/
def find? (nodes : List Node) (id : Id) : Option Node :=
  nodes.reverse.find? fun n => n.id = id

/-- Whether there is a node of an id. -/
def isKnown (nodes : List Node) (id : Id) : Bool := (find? nodes id).isSome

/-- The known parent of the node of an id. -/
def parent? (nodes : List Node) (id : Id) : Option Id :=
  ((find? nodes id).bind Node.parent).filter (isKnown nodes)

/-- Whether the way up from `id` comes to `goal` within a number of steps. -/
def leadsTo (nodes : List Node) (goal : Id) : Nat → Id → Bool
  | 0, _ => false
  | steps + 1, id =>
      match parent? nodes id with
      | none => false
      | some parent => parent = goal || leadsTo nodes goal steps parent

/-- Whether the way up from an id comes back to it.  If it does, it takes no more steps than there
are nodes. -/
def isOnCycle (nodes : List Node) (id : Id) : Bool := leadsTo nodes id nodes.length id

/-- The parent inside which a node is placed.  An unknown parent does not count, and neither does
any parent of a node on a cycle. -/
def usableParent? (nodes : List Node) (n : Node) : Option Id :=
  n.parent.filter fun parent => isKnown nodes parent && !isOnCycle nodes n.id

/-- Which parent is usable. -/
theorem usableParent?_eq_some_iff {nodes : List Node} {n : Node} {parent : Id} :
    usableParent? nodes n = some parent ↔
      n.parent = some parent ∧ isKnown nodes parent = true ∧ isOnCycle nodes n.id = false := by
  simp [usableParent?, Option.filter_eq_some_iff]

/-- The nodes without a usable parent, either the groups or the others. -/
def topLevel (nodes : List Node) (groups : Bool) : List Id :=
  (nodes.filter fun n => (usableParent? nodes n).isNone && n.isGroup == groups).map Node.id

/-- The nodes that are placed inside a node. -/
def children (nodes : List Node) (parent : Id) : List Id :=
  (nodes.filter fun n => usableParent? nodes n = some parent).map Node.id

/-! ### Cells -/

/-- The columns of a square grid for a number of cells: the least positive number whose square is
not smaller. -/
def columns (cells : Nat) : Nat :=
  (firstFree? (fun c => decide (c * c < cells)) (· + 1) cells 1).getD 1

/-- The rows that a number of cells takes. -/
def rows (cells : Nat) : Nat := (cells + columns cells - 1) / columns cells

variable [Scalar α]

/-- The corner of a cell of a grid, relative to the corner of the grid. -/
def cell (columns : Nat) (columnStep rowStep : α) (i : Nat) : Point α :=
  ⟨Scalar.ofNat (i % columns) * columnStep, Scalar.ofNat (i / columns) * rowStep⟩

/-- The positions with those of a grid of nodes. -/
def fill (corner : Point α) (columnStep rowStep : α) (ids : List Id)
    (positions : Catalog (Point α)) : Catalog (Point α) :=
  ids.zipIdx.foldl
    (fun positions (id, i) =>
      positions.insert id (corner + cell (columns ids.length) columnStep rowStep i))
    positions

/-! ### Levels -/

/-- The positions of the nodes without a usable parent. -/
def topPositions (nodes : List Node) (spacing : GridSpacing α) : Catalog (Point α) :=
  let corner : Point α := ⟨spacing.origin, spacing.origin⟩
  let groups := topLevel nodes true
  let band := Scalar.ofNat (rows groups.length) * spacing.group
  let below : Point α := corner + ⟨Scalar.ofNat 0, band⟩
  fill below spacing.node spacing.node (topLevel nodes false)
    (fill corner spacing.group spacing.group groups .empty)

/-- The positions with those of the children of a node. -/
def fillInside (nodes : List Node) (spacing : GridSpacing α) (positions : Catalog (Point α))
    (parent : Id) : Catalog (Point α) :=
  match positions.get? parent with
  | none => positions
  | some corner =>
      fill (corner + ⟨spacing.childOffset, spacing.childOffset⟩) spacing.childColumn
        spacing.childRow (children nodes parent) positions

/-- The positions with those of all nodes below a level, if there are at most `depth` levels. -/
def fillLevels (nodes : List Node) (spacing : GridSpacing α) :
    Nat → List Id → Catalog (Point α) → Option (Catalog (Point α))
  | _, [], positions => some positions
  | 0, _ :: _, _ => none
  | depth + 1, level, positions =>
      fillLevels nodes spacing depth (level.flatMap (children nodes))
        (level.foldl (fillInside nodes spacing) positions)

/-- The positions of all nodes before the nudging. -/
def spread? (nodes : List Node) (spacing : GridSpacing α) : Option (Catalog (Point α)) :=
  fillLevels nodes spacing nodes.length (topLevel nodes true ++ topLevel nodes false)
    (topPositions nodes spacing)

/-! ### Nudging -/

/-- A point nudged to the right. -/
def nudged (p : Point α) : Point α := p + ⟨Scalar.ofNat 10, Scalar.ofNat 0⟩

variable [DecidableEq α]

/-- The positions with the given nodes nudged, one after the other, away from the occupied points
and from one another.  A node that is nudged more often than there are occupied points comes back to
one of them, and so it never gets free. -/
def separate? : List Id → List (Point α) → Catalog (Point α) → Option (Catalog (Point α))
  | [], _, positions => some positions
  | id :: rest, occupied, positions =>
      match positions.get? id with
      | none => separate? rest occupied positions
      | some p =>
          (firstFree? (occupied.contains ·) nudged occupied.length p).bind fun free =>
            separate? rest (free :: occupied) (positions.insert id free)

/-- The placement of all nodes, if the levels and the nudging end. -/
def positions? (nodes : List Node) (spacing : GridSpacing α) : Option (Catalog (Point α)) :=
  (spread? nodes spacing).bind (separate? (nodes.map Node.id) [])

/-! ### Diagrams -/

/-- The nodes of a diagram, as the grid sees them. -/
def nodesOf (d : Diagram α) : List Node :=
  d.nodes.entries.map fun (id, n) => { id, parent := n.parent, isGroup := n.isGroup }

end TextDiagram.Grid
