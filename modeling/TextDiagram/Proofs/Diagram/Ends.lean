/-
**Where edges end.**

A node that nobody has measured has no handles, so an edge takes hold of it in the middle of a side,
whichever of its two ends is there.  An edge and one that leads back therefore run between the same
two points.

Main definitions:

* `TextDiagram.Diagram.Node.IsOrdinary` — a node without handles, whose place and size are not too
  large;
* `TextDiagram.Diagram.Node.IsWithin` — a node without handles whose bounds are up to a power of
  two.

Main results:

* `TextDiagram.Route.ends_swap` — **an edge that leads back exchanges the ends**;
* `TextDiagram.Route.ends_isWithin` — the ends are where the node is;
* `TextDiagram.Route.ends_of_isHorizontal`, `TextDiagram.Route.ends_of_not_isHorizontal` — how the
  ends lie to the centers of the nodes.
-/

import TextDiagram.Diagram.Routing
import TextDiagram.Proofs.Geometry.Hull

set_option relaxedAutoImplicit false
set_option autoImplicit false

namespace TextDiagram

open Number (value IsWithin)
open Diagram (Node)

/-! ### Ordinary nodes -/

namespace Diagram.Node

/-- A node without handles whose position and size are finite and not larger than a hundred
thousand. -/
structure IsOrdinary (n : Node Float32) : Prop where
  handles : n.handles = []
  x : n.position.x.isFinite = true ∧ n.position.x.abs ≤ 100000
  y : n.position.y.isFinite = true ∧ n.position.y.abs ≤ 100000
  width : n.size.width.isFinite = true ∧ n.size.width.abs ≤ 100000
  height : n.size.height.isFinite = true ∧ n.size.height.abs ≤ 100000

instance (n : Node Float32) : Decidable n.IsOrdinary :=
  decidable_of_iff (n.handles = [] ∧
    (n.position.x.isFinite = true ∧ n.position.x.abs ≤ 100000) ∧
    (n.position.y.isFinite = true ∧ n.position.y.abs ≤ 100000) ∧
    (n.size.width.isFinite = true ∧ n.size.width.abs ≤ 100000) ∧
    n.size.height.isFinite = true ∧ n.size.height.abs ≤ 100000)
    ⟨fun ⟨hh, hx, hy, hw, hz⟩ => ⟨hh, hx, hy, hw, hz⟩,
      fun ⟨hh, hx, hy, hw, hz⟩ => ⟨hh, hx, hy, hw, hz⟩⟩

/-- Without handles, edges take hold of a node in the middle of a side. -/
theorem anchor_of_handles {n : Node Float32} (h : n.handles = []) (side : Side)
    (kind : HandleKind) : n.anchor side kind = n.box.sideMidpoint side := by
  rw [anchor, handle?, h, List.find?_nil]

/-- A node without handles whose bounds are up to `2 ^ k`. -/
structure IsWithin (k : ℤ) (n : Node Float32) : Prop where
  handles : n.handles = []
  box : n.box.IsWithin k

/-- An edge takes hold of a node no further away than its bounds. -/
theorem IsWithin.anchor {k : ℤ} {n : Node Float32} (h : n.IsWithin k) (hk : 0 ≤ k ∧ k < 126)
    (side : Side) (kind : HandleKind) : (n.anchor side kind).IsWithin k :=
  anchor_of_handles h.handles side kind ▸ h.box.sideMidpoint hk side

namespace IsOrdinary

variable {n : Node Float32} (h : n.IsOrdinary) {x : Float32}

theorem isWithin_of_le (hx : x.isFinite = true ∧ x.abs ≤ 100000) : Number.IsWithin 17 x := by
  have hbound : Number.exact (100000 : Float32) = .finite false 12800000 (-7) := by decide +kernel
  exact Number.isWithin_of_abs_le (Number.isWithin_of_exact hbound (by norm_num)) hx

include h

/-- The bounds of an ordinary node are not larger than `2 ^ 18`. -/
theorem isWithin : n.IsWithin 18 where
  handles := h.handles
  box := ⟨(isWithin_of_le h.x).mono (by decide), (isWithin_of_le h.y).mono (by decide),
    ((isWithin_of_le h.x).add (isWithin_of_le h.width) (by decide)).2,
    ((isWithin_of_le h.y).add (isWithin_of_le h.height) (by decide)).2⟩

theorem isWithin_center : n.box.center.IsWithin 18 := h.isWithin.box.center (by decide)

theorem isWithin_anchor (side : Side) (kind : HandleKind) : (n.anchor side kind).IsWithin 18 :=
  h.isWithin.anchor (by decide) side kind

end IsOrdinary

/-- On the left and on the right, an edge takes hold at the height of the center. -/
theorem anchor_y {n : Node Float32} (h : n.handles = []) {side : Side} (hside : side.IsHorizontal)
    (kind : HandleKind) : (n.anchor side kind).y = n.box.center.y := by
  rw [anchor_of_handles h]
  rcases hside with rfl | rfl
  · rfl
  · rfl

/-- Above and below, an edge takes hold straight over or under the center. -/
theorem anchor_x {n : Node Float32} (h : n.handles = []) {side : Side}
    (hside : ¬ side.IsHorizontal) (kind : HandleKind) :
    (n.anchor side kind).x = n.box.center.x := by
  rw [anchor_of_handles h]
  cases side with
  | top => rfl
  | bottom => rfl
  | left => exact absurd (.inl rfl) hside
  | right => exact absurd (.inr rfl) hside

end Diagram.Node

/-! ### The ends of an edge -/

namespace Route

variable {source target : Node Float32}

/-- **An edge that leads back exchanges the ends.** -/
theorem ends_swap (hs : source.handles = []) (ht : target.handles = []) :
    ends target source = ⟨(ends source target).targetSide, (ends source target).sourceSide,
      (ends source target).finish, (ends source target).start⟩ := by
  simp only [ends, Node.anchor_of_handles hs, Node.anchor_of_handles ht]

theorem ends_isWithin {k : ℤ} (hs : source.IsWithin k) (ht : target.IsWithin k)
    (hk : 0 ≤ k ∧ k < 126) :
    (ends source target).start.IsWithin k ∧ (ends source target).finish.IsWithin k :=
  ⟨hs.anchor hk _ _, ht.anchor hk _ _⟩

variable (hs : source.IsOrdinary) (ht : target.IsOrdinary)

include hs ht

theorem isWithin_ends :
    (ends source target).start.IsWithin 18 ∧ (ends source target).finish.IsWithin 18 :=
  ends_isWithin hs.isWithin ht.isWithin (by decide)

theorem isHorizontal_targetSide :
    (ends source target).targetSide.IsHorizontal ↔ (ends source target).sourceSide.IsHorizontal :=
  Side.isHorizontal_facing hs.isWithin_center ht.isWithin_center

/-- Between the left and the right, the ends differ in height as the centers do. -/
theorem ends_of_isHorizontal (h : (ends source target).sourceSide.IsHorizontal) :
    (ends source target).start.y = source.box.center.y ∧
      (ends source target).finish.y = target.box.center.y :=
  ⟨Node.anchor_y hs.handles h _,
    Node.anchor_y ht.handles ((isHorizontal_targetSide hs ht).2 h) _⟩

/-- Between the top and the bottom, the ends are apart to the side as the centers are. -/
theorem ends_of_not_isHorizontal (h : ¬ (ends source target).sourceSide.IsHorizontal) :
    (ends source target).start.x = source.box.center.x ∧
      (ends source target).finish.x = target.box.center.x :=
  ⟨Node.anchor_x hs.handles h _,
    Node.anchor_x ht.handles (mt (isHorizontal_targetSide hs ht).1 h) _⟩

end Route

end TextDiagram
