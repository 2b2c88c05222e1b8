/-
**Layered placement.**

A drawing says how the nodes with edges lie to one another; the placement turns it into cells of a
grid.  The layers of a part of the drawing are counted along the flow, and turned around when more
edges would run against the flow than with it; its slots are counted across the flow.  The parts lie
side by side, and the nodes that the drawing leaves out follow in the first layer.  Cells are as
large as the largest node.

Main definitions:

* `TextDiagram.Layered.links` — the edges of a request as links between numbered nodes;
* `TextDiagram.Layered.partCells` — the cells of the nodes of one part of a drawing;
* `TextDiagram.Layered.cells` — the cells of all nodes;
* `TextDiagram.Layered.arrange` — the positions that a request and a drawing lead to;
* `TextDiagram.Layered.service` — the layout service with the drawings of `TextDiagram.Layering`.

Main results:

* `TextDiagram.Layered.rankAmong_lt` — a layer is counted below the number of layers.
-/

import TextDiagram.Placement.Service
import TextDiagram.Placement.Layering

set_option relaxedAutoImplicit false
set_option autoImplicit false

namespace TextDiagram.Layered

open Layering (Link Spot)

/-! ### Numbered nodes -/

/-- The numbers of the nodes of a request: their places in it, the last one for an id that is listed
more than once. -/
def numbers (request : LayoutRequest) : Catalog Nat :=
  .ofList (request.nodes.zipIdx.map fun ((id, _), i) => (id, i))

/-- The id of a number. -/
def idOf? (numbers : Catalog Nat) (number : Nat) : Option Id :=
  (numbers.entries.find? fun (_, n) => n = number).map Prod.fst

/-- The edges of a request as links, each once, without those that lead back or to unknown nodes. -/
def links (request : LayoutRequest) : List Link :=
  let known := request.edges.filterMap fun (source, target) => do
    return (← (numbers request).get? source, ← (numbers request).get? target)
  let proper := (known.filter fun (m, n) => m ≠ n).eraseDups
  proper.mergeSort fun a b => decide (a.1 < b.1 ∨ a.1 = b.1 ∧ a.2 ≤ b.2)

/-! ### Cells of a part -/

/-- A cell of the grid of a layered placement. -/
structure Cell where
  layer : Nat
  slot : Nat
  deriving DecidableEq, Repr

/-- The place of a coordinate among the different ones of a list. -/
def rankAmong (coordinates : List Int) (c : Int) : Nat :=
  coordinates.eraseDups.countP fun other => decide (other < c)

/-- A coordinate of a list is counted below the number of the different ones. -/
theorem rankAmong_lt {coordinates : List Int} {c : Int} (h : c ∈ coordinates) :
    rankAmong coordinates c < coordinates.eraseDups.length := by
  have hle := List.countP_le_length (p := fun other => decide (other < c))
    (l := coordinates.eraseDups)
  refine Nat.lt_of_le_of_ne hle ?_
  intro heq
  have hall := List.countP_eq_length.1 heq c (List.mem_eraseDups.2 h)
  simp only [decide_eq_true_eq] at hall
  omega

/-- The spots of a part of a drawing with the ids of their nodes.  Spots of unknown numbers are
dropped. -/
def known (numbers : Catalog Nat) (part : List Spot) : List (Id × Spot) :=
  part.filterMap fun spot => (idOf? numbers spot.node).map fun id => (id, spot)

/-- The cells of spots as they are drawn. -/
def drawnCells (part : List (Id × Spot)) : Catalog Cell :=
  let along := part.map fun (_, spot) => spot.along
  let across := part.map fun (_, spot) => spot.across
  .ofList (part.map fun (id, spot) =>
    (id, ⟨rankAmong along spot.along, rankAmong across spot.across⟩))

/-- The layers that the edges inside a part lead from and to. -/
def crossings (edges : List (Id × Id)) (cells : Catalog Cell) : List (Nat × Nat) :=
  edges.filterMap fun (source, target) => do
    return ((← cells.get? source).layer, (← cells.get? target).layer)

/-- Whether more edges of a part run against the flow than with it. -/
def runsBackwards (edges : List (Id × Id)) (cells : Catalog Cell) : Bool :=
  let met := crossings edges cells
  (met.countP fun (source, target) => decide (source < target)) <
    met.countP fun (source, target) => decide (target < source)

/-- The number of different coordinates across the flow. -/
def slotCount (part : List (Id × Spot)) : Nat :=
  (part.map fun (_, spot) => spot.across).eraseDups.length

/-- The number of different coordinates along the flow. -/
def layerCount (part : List (Id × Spot)) : Nat :=
  (part.map fun (_, spot) => spot.along).eraseDups.length

/-- The cells of the nodes of a part, with the flow and beside the slots before it. -/
def partCells (edges : List (Id × Id)) (offset : Nat) (part : List (Id × Spot)) : Catalog Cell :=
  let drawn := drawnCells part
  let turned := runsBackwards edges drawn
  drawn.map fun _ cell =>
    ⟨if turned then layerCount part - 1 - cell.layer else cell.layer, offset + cell.slot⟩

/-! ### Cells of all nodes -/

/-- The cells of the nodes met so far, and the number of slots that they take. -/
structure Filling where
  cells : Catalog Cell := .empty
  slots : Nat := 0

/-- The filling with the nodes of one more part. -/
def Filling.withPart (edges : List (Id × Id)) (filling : Filling) (part : List (Id × Spot)) :
    Filling where
  cells := (partCells edges filling.slots part).entries.foldl
    (fun cells (id, cell) => cells.insert id cell) filling.cells
  slots := filling.slots + slotCount part

/-- The filling with a node in the first layer, unless it has a cell. -/
def Filling.withNode (filling : Filling) (id : Id) : Filling :=
  if filling.cells.contains id then filling
  else ⟨filling.cells.insert id ⟨0, filling.slots⟩, filling.slots + 1⟩

/-- The filling with the parts of a drawing. -/
def drawn (request : LayoutRequest) (drawing : List (List Spot)) : Filling :=
  (drawing.map (known (numbers request))).foldl (Filling.withPart request.edges) {}

/-- The cells of all nodes: those that are drawn, then the others in their order. -/
def cells (request : LayoutRequest) (drawing : List (List Spot)) : Catalog Cell :=
  ((request.nodes.map Prod.fst).foldl Filling.withNode (drawn request drawing)).cells

/-! ### Positions -/

/-- The size of the largest node along and across the flow. -/
def largest (request : LayoutRequest) : Float32 × Float32 :=
  request.nodes.foldl
    (fun (along, across) (_, size) =>
      if request.direction.isHorizontal then
        (Number.larger along size.width, Number.larger across size.height)
      else (Number.larger along size.height, Number.larger across size.width))
    (0, 0)

/-- The layer of a cell in the direction of a request, of which the last layer is known. -/
def directed (direction : Direction) (last layer : Nat) : Nat :=
  match direction with
  | .right | .down => layer
  | .left | .up => last - layer

/-- The positions of cells. -/
def positions (request : LayoutRequest) (cells : Catalog Cell) : Catalog (Point Float32) :=
  let last := (cells.values.map Cell.layer).foldl max 0
  let (along, across) := largest request
  cells.map fun _ cell =>
    let layer := directed request.direction last cell.layer
    let main := Float32.ofNat layer * (request.layerSpacing + along)
    let cross := Float32.ofNat cell.slot * (request.nodeSpacing + across)
    if request.direction.isHorizontal then ⟨main, cross⟩ else ⟨cross, main⟩

/-- The positions that a request and a drawing of its links lead to.  A drawing of nothing, and one
of nothing but unknown nodes, is an error where there are links. -/
def arrange (drawing : List (List Spot)) (request : LayoutRequest) : ServiceResult :=
  if request.nodes.isEmpty then .ok .empty
  else if (links request).isEmpty then .ok (positions request (cells request []))
  else if drawing.isEmpty then .error .empty
  else if (drawn request drawing).cells.entries.isEmpty then .error .unmapped
  else .ok (positions request (cells request drawing))

/-- The layout service that draws in layers. -/
def service : LayoutService := fun request => arrange (Layering.drawing (links request)) request

end TextDiagram.Layered
