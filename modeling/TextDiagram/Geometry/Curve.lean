/-
**The curves that edges are drawn along.**

An edge is drawn as one Bézier curve, quadratic or cubic.  The box of a curve is the hull of its end
points and control points: a point of the curve is a weighted mean of them, so it lies inside.

Main definitions:

* `TextDiagram.Curve` — a quadratic or a cubic curve;
* `TextDiagram.Curve.point` — the point of a curve at a parameter;
* `TextDiagram.Curve.bounds` — the hull of the points that a curve is made of;
* `TextDiagram.Curve.pathData` — the drawing commands of a curve.
-/

import TextDiagram.Geometry.Basic

set_option relaxedAutoImplicit false
set_option autoImplicit false

namespace TextDiagram

/-- A Bézier curve with one or two control points. -/
inductive Curve (α : Type) where
  | quadratic (start control finish : Point α)
  | cubic (start control₁ control₂ finish : Point α)
  deriving DecidableEq, Repr

namespace Curve

variable {α : Type}

/-- The point where a curve starts. -/
def start : Curve α → Point α
  | quadratic start _ _ => start
  | cubic start _ _ _ => start

/-- The point where a curve ends. -/
def finish : Curve α → Point α
  | quadratic _ _ finish => finish
  | cubic _ _ _ finish => finish

/-- The end points and control points of a curve, in order. -/
def points : Curve α → List (Point α)
  | quadratic start control finish => [start, control, finish]
  | cubic start control₁ control₂ finish => [start, control₁, control₂, finish]

variable [Scalar α]

/-- The point of a curve at the parameter `t`, which is the start at zero and the end at one. -/
def point (t : α) : Curve α → Point α
  | quadratic start control finish =>
      let u := Scalar.ofNat 1 - t
      start.scale (u * u) + control.scale (Scalar.ofNat 2 * u * t) + finish.scale (t * t)
  | cubic start control₁ control₂ finish =>
      let u := Scalar.ofNat 1 - t
      start.scale (u * u * u) + control₁.scale (Scalar.ofNat 3 * u * u * t)
        + control₂.scale (Scalar.ofNat 3 * u * t * t) + finish.scale (t * t * t)

/-- The least box that holds the points that a curve is made of: the box of no size at its start,
stretched to the others.  Each of them is a box of no size, and to add that size could only make a
positive zero of a negative one.  Maxima do not tell the two zeros apart and take the later of two
equal bounds as it is given, so the others are taken without it: three points at `-0` end at `-0`,
and not at `0`. -/
def bounds (c : Curve α) : Box α :=
  c.points.tail.foldl Box.stretch (Box.ofCorner c.start Size.zero)

/-- The two coordinates of a point, as drawing commands write them. -/
def coordinates (p : Point Float32) : String := s!"{Number.text p.x} {Number.text p.y}"

/-- The drawing commands of a curve: a move to its start and the curve to its end. -/
def pathData : Curve Float32 → String
  | quadratic start control finish =>
      s!"M {coordinates start} Q {coordinates control}, {coordinates finish}"
  | cubic start control₁ control₂ finish =>
      s!"M {coordinates start} C {coordinates control₁}, " ++
        s!"{coordinates control₂}, {coordinates finish}"

end Curve

end TextDiagram
