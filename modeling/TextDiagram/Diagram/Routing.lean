/-
**Routing edges.**

An edge runs between the sides of its two nodes that face each other.  Edges between the same two
nodes are kept apart: in each direction they are ranked by their ids, and each is bent according to
its rank, to one side for one direction and to the other side for the other.  A single edge is a
flat cubic curve, a bent one is quadratic, and a loop goes around the top right corner of its node.

Main definitions:

* `TextDiagram.parallelRank` — how many parallel edges come before an edge;
* `TextDiagram.bend` — how strongly an edge is bent;
* `TextDiagram.Route.direct`, `TextDiagram.Route.bowed`, `TextDiagram.Route.loop` — the three
  shapes;
* `TextDiagram.routes` — the routes of all edges whose ends exist.
-/

import TextDiagram.Diagram.Basic

set_option relaxedAutoImplicit false
set_option autoImplicit false

namespace TextDiagram

open Diagram (Node Edge)

/-! ### Parallel edges -/

/-- Whether two edges lead from the same node to the same node. -/
def areParallel (e other : Edge) : Bool := e.source = other.source && e.target = other.target

/-- The number of edges parallel to an edge whose ids come before its own. -/
def parallelRank (edges : Catalog Edge) (id : Id) (e : Edge) : Nat :=
  edges.entries.countP fun (other, f) => areParallel e f && decide (other < id)

/-- Whether some edge leads back from the target of an edge to its source. -/
def hasReverse (edges : Catalog Edge) (e : Edge) : Bool :=
  edges.any fun _ f => f.source = e.target && f.target = e.source

/-- How strongly an edge between two nodes is bent.  Only the first of the edges in one direction
runs straight, and none does where others lead back. -/
def bend (edges : Catalog Edge) (id : Id) (e : Edge) : Nat :=
  parallelRank edges id e + if hasReverse edges e then 1 else 0

/-! ### Shapes -/

namespace Route

/-- Where an edge between two nodes starts and ends. -/
structure Ends where
  sourceSide : Side
  targetSide : Side
  start : Point Float32
  finish : Point Float32

/-- The ends of an edge on the sides that face each other. -/
def ends (source target : Node Float32) : Ends :=
  let sourceSide := Side.facing source.box.center target.box.center
  let targetSide := Side.facing target.box.center source.box.center
  ⟨sourceSide, targetSide, source.anchor sourceSide .source, target.anchor targetSide .target⟩

/-- How far a control point reaches out, given how far the other end lies in front of the side.
Where it lies behind, the curve has to swing around. -/
def reach (ahead : Float32) : Float32 :=
  if 0 ≤ ahead then 0.5 * ahead else 0.25 * 25 * (-ahead).sqrt

/-- The control point that leaves one end straight out of its side. -/
def control (side : Side) (here there : Point Float32) : Point Float32 :=
  match side with
  | .left => ⟨here.x - reach (here.x - there.x), here.y⟩
  | .right => ⟨here.x + reach (there.x - here.x), here.y⟩
  | .top => ⟨here.x, here.y - reach (here.y - there.y)⟩
  | .bottom => ⟨here.x, here.y + reach (there.y - here.y)⟩

/-- The route of an edge that has its two nodes for itself. -/
def direct (source target : Node Float32) : Route Float32 :=
  let e := ends source target
  { sourceSide := e.sourceSide
    targetSide := e.targetSide
    curve := .cubic e.start (control e.sourceSide e.start e.finish)
      (control e.targetSide e.finish e.start) e.finish
    labelAt := e.start.midpoint e.finish }

/-- The length below which two points count as one. -/
def negligible : Float32 := Float32.ofBits 0x34000000

/-- The vector of length one across a vector, and the one upwards where the vector is too short to
have a direction. -/
def across (axis : Point Float32) : Point Float32 :=
  if negligible < axis.length then Point.scale ⟨-axis.y, axis.x⟩ (1 / axis.length) else ⟨0, -1⟩

/-- How far the first bent edge between two ends is moved out of the way. -/
def bow (start finish : Point Float32) : Float32 :=
  let distance := (finish - start).length
  if negligible < distance then Number.clamp 1 50 (0.3 * distance) else 50

/-- The route of an edge that is bent `multiple` times the least bow.  Which way is out is settled
by the ids of the two nodes, so that the edges of the two directions are bent to opposite sides. -/
def bowed (e : Edge) (source target : Node Float32) (multiple : Nat) : Route Float32 :=
  let ends := ends source target
  let inOrder := decide (e.source ≤ e.target)
  let between := if inOrder then target.box.center - source.box.center
    else source.box.center - target.box.center
  let axis := if negligible < between.length then between else ends.finish - ends.start
  let offset := bow ends.start ends.finish * Float32.ofNat multiple * if inOrder then 1 else -1
  let middle := ends.start.midpoint ends.finish + (across axis).scale offset
  { sourceSide := ends.sourceSide
    targetSide := ends.targetSide
    curve := .quadratic ends.start middle ends.finish
    labelAt := middle }

/-- The route of an edge from a node to itself: out of the top and back in on the right, the further
out the more loops there are before it. -/
def loop (node : Node Float32) (rank : Nat) : Route Float32 :=
  let reach : Float32 := 50 * Float32.ofNat (rank + 1)
  let start := node.anchor .top .source
  let finish := node.anchor .right .target
  let curve := Curve.cubic start (start + ⟨0, -reach⟩) (finish + ⟨reach, 0⟩) finish
  { sourceSide := .top
    targetSide := .right
    curve := curve
    labelAt := curve.point 0.5 }

end Route

/-! ### All routes -/

/-- The route of an edge, if both of its ends exist. -/
def routeOf? (nodes : Catalog (Node Float32)) (edges : Catalog Edge) (id : Id) (e : Edge) :
    Option (Route Float32) := do
  let source ← nodes.get? e.source
  let target ← nodes.get? e.target
  if e.isLoop then return Route.loop source (parallelRank edges id e)
  match bend edges id e with
  | 0 => return Route.direct source target
  | multiple => return Route.bowed e source target multiple

/-- The routes of all edges whose ends exist. -/
def routes (nodes : Catalog (Node Float32)) (edges : Catalog Edge) : Catalog (Route Float32) :=
  edges.filterMap (routeOf? nodes edges)

end TextDiagram
