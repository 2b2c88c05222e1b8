/-
**Boxes up to rounding.**

Taking the smaller and the larger of two numbers does not round.  So the hull of boxes in single
precision reaches exactly as far as its parts do, as long as all of them are finite: it encloses
each of them, and the box of a curve holds the points that the curve is made of.

Main definitions:

* `TextDiagram.Box.IsWithin` — a box whose bounds are up to a power of two;
* `TextDiagram.Box.Encloses` — a box that reaches at least as far as another one;
* `TextDiagram.Box.HoldsUpTo` — a point that is in a box, or not far from it.

Main results:

* `TextDiagram.Box.hull_spec` — **the hull of boxes encloses each of them**;
* `TextDiagram.Curve.bounds_spec` — the box of a curve holds its points.
-/

import TextDiagram.Proofs.Geometry.Point

set_option relaxedAutoImplicit false
set_option autoImplicit false

namespace TextDiagram

open Number (value IsWithin)

/-! ### The smaller and the larger number -/

namespace Number

variable {x y : Float32} {k : ℤ}

theorem isNaN_eq_false (h : x.isFinite = true) : x.isNaN = false := by
  change x.toModel.unpack.isFinite = true at h
  change x.toModel.unpack.isNaN = false
  cases hx : x.toModel.unpack with
  | notANumber => rw [hx] at h; exact nomatch h
  | infinity s => rfl
  | zero s => rfl
  | finite s m e hm => rfl

/-- The smaller of two numbers stands for the smaller of what they stand for. -/
theorem IsWithin.smaller (hx : IsWithin k x) (hy : IsWithin k y) :
    IsWithin k (smaller x y) ∧ value (Number.smaller x y) = min (value x) (value y) := by
  rw [Number.smaller, isNaN_eq_false hy.finite]
  split
  · next h =>
      rw [lt_iff_value_lt hx.finite hy.finite] at h
      exact ⟨hx, (min_eq_left h.le).symm⟩
  · next h =>
      rw [lt_iff_value_lt hx.finite hy.finite, not_lt] at h
      exact ⟨hy, (min_eq_right h).symm⟩

/-- The larger of two numbers stands for the larger of what they stand for. -/
theorem IsWithin.larger (hx : IsWithin k x) (hy : IsWithin k y) :
    IsWithin k (larger x y) ∧ value (Number.larger x y) = max (value x) (value y) := by
  rw [Number.larger, isNaN_eq_false hy.finite]
  split
  · next h =>
      rw [lt_iff_value_lt hy.finite hx.finite] at h
      exact ⟨hx, (max_eq_left h.le).symm⟩
  · next h =>
      rw [lt_iff_value_lt hy.finite hx.finite, not_lt] at h
      exact ⟨hy, (max_eq_right h).symm⟩

end Number

/-! ### Boxes -/

namespace Box

/-- A box whose bounds are not larger than `2 ^ k`. -/
structure IsWithin (k : ℤ) (b : Box Float32) : Prop where
  minX : Number.IsWithin k b.minX
  minY : Number.IsWithin k b.minY
  maxX : Number.IsWithin k b.maxX
  maxY : Number.IsWithin k b.maxY

/-- A box reaches at least as far as another one to all four sides. -/
structure Encloses (b c : Box Float32) : Prop where
  minX : value b.minX ≤ value c.minX
  minY : value b.minY ≤ value c.minY
  maxX : value c.maxX ≤ value b.maxX
  maxY : value c.maxY ≤ value b.maxY

/-- A point lies in a box, or is not further away from it than a given slack. -/
structure HoldsUpTo (slack : ℝ) (b : Box Float32) (p : Point Float32) : Prop where
  left : value b.minX - slack ≤ value p.x
  top : value b.minY - slack ≤ value p.y
  right : value p.x ≤ value b.maxX + slack
  bottom : value p.y ≤ value b.maxY + slack

/-- The box of no size at a point. -/
def ofPoint (p : Point Float32) : Box Float32 := ⟨p.x, p.y, p.x, p.y⟩

variable {k : ℤ} {b c d : Box Float32} {p : Point Float32} {slack : ℝ}

theorem Encloses.refl (b : Box Float32) : b.Encloses b := ⟨le_rfl, le_rfl, le_rfl, le_rfl⟩

theorem Encloses.trans (h : b.Encloses c) (h' : c.Encloses d) : b.Encloses d :=
  ⟨h.minX.trans h'.minX, h.minY.trans h'.minY, h'.maxX.trans h.maxX, h'.maxY.trans h.maxY⟩

/-- A point near a box is near every box around it. -/
theorem Encloses.holdsUpTo (h : b.Encloses c) (hp : c.HoldsUpTo slack p) : b.HoldsUpTo slack p :=
  ⟨(sub_le_sub_right h.minX slack).trans hp.left, (sub_le_sub_right h.minY slack).trans hp.top,
    hp.right.trans (add_le_add_left h.maxX slack), hp.bottom.trans (add_le_add_left h.maxY slack)⟩

theorem encloses_ofPoint_iff : b.Encloses (ofPoint p) ↔ b.HoldsUpTo 0 p := by
  constructor
  · rintro ⟨hleft, htop, hright, hbottom⟩
    rw [ofPoint] at hleft htop hright hbottom
    exact ⟨by rwa [sub_zero], by rwa [sub_zero], by rwa [add_zero], by rwa [add_zero]⟩
  · rintro ⟨hleft, htop, hright, hbottom⟩
    rw [sub_zero] at hleft htop
    rw [add_zero] at hright hbottom
    exact ⟨hleft, htop, hright, hbottom⟩

theorem isWithin_ofPoint (h : p.IsWithin k) : (ofPoint p).IsWithin k := ⟨h.x, h.y, h.x, h.y⟩

/-- The center of a box is no further away than its bounds. -/
theorem IsWithin.center (h : b.IsWithin k) (hk : 0 ≤ k ∧ k < 126) : b.center.IsWithin k :=
  ⟨(h.minX.mean h.maxX hk).1, (h.minY.mean h.maxY hk).1⟩

/-- The middle of a side is no further away than the bounds. -/
theorem IsWithin.sideMidpoint (h : b.IsWithin k) (hk : 0 ≤ k ∧ k < 126) (side : Side) :
    (b.sideMidpoint side).IsWithin k := by
  cases side with
  | top => exact ⟨(h.center hk).x, h.minY⟩
  | right => exact ⟨h.maxX, (h.center hk).y⟩
  | bottom => exact ⟨(h.center hk).x, h.maxY⟩
  | left => exact ⟨h.minX, (h.center hk).y⟩

/-- A merged box encloses its two parts, and reaches no further than they do. -/
theorem merge_spec (hb : b.IsWithin k) (hc : c.IsWithin k) :
    (b.merge c).IsWithin k ∧ (b.merge c).Encloses b ∧ (b.merge c).Encloses c := by
  obtain ⟨hminX, hleft⟩ := hb.minX.smaller hc.minX
  obtain ⟨hminY, htop⟩ := hb.minY.smaller hc.minY
  obtain ⟨hmaxX, hright⟩ := hb.maxX.larger hc.maxX
  obtain ⟨hmaxY, hbottom⟩ := hb.maxY.larger hc.maxY
  refine ⟨⟨hminX, hminY, hmaxX, hmaxY⟩, ⟨?_, ?_, ?_, ?_⟩, ⟨?_, ?_, ?_, ?_⟩⟩
  · exact hleft.trans_le (min_le_left _ _)
  · exact htop.trans_le (min_le_left _ _)
  · exact (le_max_left _ _).trans_eq hright.symm
  · exact (le_max_left _ _).trans_eq hbottom.symm
  · exact hleft.trans_le (min_le_right _ _)
  · exact htop.trans_le (min_le_right _ _)
  · exact (le_max_right _ _).trans_eq hright.symm
  · exact (le_max_right _ _).trans_eq hbottom.symm

/-- The same holds of boxes that are merged one after the other. -/
theorem foldl_merge_spec {rest : List (Box Float32)} : ∀ {first : Box Float32},
    (∀ b ∈ first :: rest, b.IsWithin k) → (rest.foldl merge first).IsWithin k ∧
      ∀ b ∈ first :: rest, (rest.foldl merge first).Encloses b := by
  induction rest with
  | nil => exact fun h => ⟨h _ List.mem_cons_self, by simpa using Encloses.refl _⟩
  | cons next rest ih =>
      intro first h
      simp only [List.forall_mem_cons] at h ⊢
      obtain ⟨hfirst, hnext, hrest⟩ := h
      obtain ⟨hmerged, hencloses, hencloses'⟩ := merge_spec hfirst hnext
      obtain ⟨hwithin, hall⟩ := ih (List.forall_mem_cons.2 ⟨hmerged, hrest⟩)
      rw [List.forall_mem_cons] at hall
      exact ⟨hwithin, hall.1.trans hencloses, hall.1.trans hencloses', hall.2⟩

/-- **The hull of boxes encloses each of them**, and reaches no further than they do. -/
theorem hull_spec {boxes : List (Box Float32)} (h : ∀ b ∈ boxes, b.IsWithin k) :
    (hull boxes).IsWithin k ∧ ∀ b ∈ boxes, (hull boxes).Encloses b := by
  cases boxes with
  | nil =>
      have hzero := Number.isWithin_zero k
      exact ⟨⟨hzero, hzero, hzero, hzero⟩, fun b hb => absurd hb List.not_mem_nil⟩
  | cons first rest => exact foldl_merge_spec h

end Box

/-! ### The boxes of curves -/

/-- The box of a curve holds the points that the curve is made of. -/
theorem Curve.bounds_spec {k : ℤ} (hk : k < 127) {c : Curve Float32}
    (h : ∀ p ∈ c.points, p.IsWithin k) :
    c.bounds.IsWithin k ∧ ∀ p ∈ c.points, c.bounds.HoldsUpTo 0 p := by
  have hpoints : c.points = c.start :: c.points.tail := by cases c <;> rfl
  rw [hpoints, List.forall_mem_cons] at h
  obtain ⟨hx, hvalueX⟩ := h.1.x.add_zero hk
  obtain ⟨hy, hvalueY⟩ := h.1.y.add_zero hk
  -- the box of no size is made by adding zeros
  have hfirst : (Box.ofCorner c.start Size.zero).IsWithin k := ⟨h.1.x, h.1.y, hx, hy⟩
  have hstart : (Box.ofCorner c.start Size.zero).Encloses (Box.ofPoint c.start) :=
    ⟨le_rfl, le_rfl, hvalueX.ge, hvalueY.ge⟩
  have hbounds : c.bounds =
      (c.points.tail.map Box.ofPoint).foldl Box.merge (Box.ofCorner c.start Size.zero) := by
    rw [List.foldl_map]
    rfl
  have hrest : ∀ b ∈ c.points.tail.map Box.ofPoint, b.IsWithin k :=
    List.forall_mem_map.2 fun p hp => Box.isWithin_ofPoint (h.2 p hp)
  obtain ⟨hwithin, hall⟩ := Box.foldl_merge_spec (List.forall_mem_cons.2 ⟨hfirst, hrest⟩)
  rw [← hbounds] at hwithin hall
  rw [List.forall_mem_cons, List.forall_mem_map] at hall
  refine ⟨hwithin, ?_⟩
  rw [hpoints, List.forall_mem_cons]
  exact ⟨Box.encloses_ofPoint_iff.1 (hall.1.trans hstart),
    fun p hp => Box.encloses_ofPoint_iff.1 (hall.2 p hp)⟩

end TextDiagram
