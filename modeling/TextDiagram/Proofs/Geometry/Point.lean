/-
**Points and vectors up to rounding.**

The coordinates of a diagram are bounded by a power of two, and so are the differences, the means
and the lengths that are computed from them.  Exchanging two points turns the vector between them
around and leaves its length and the point halfway as they are, in spite of all rounding.

Main definitions:

* `TextDiagram.Point.IsWithin` — a point whose coordinates are up to a power of two;
* `TextDiagram.Side.IsHorizontal` — the left and the right side.

Main results:

* `TextDiagram.Point.IsWithin.length` — lengths are correctly rounded;
* `TextDiagram.Point.IsWithin.midpoint` — what the point halfway is;
* `TextDiagram.Side.isHorizontal_facing` — **the sides that face each other lie along one axis**.
-/

import TextDiagram.Geometry.Basic
import TextDiagram.Proofs.Geometry.Curve
import TextDiagram.Proofs.Number.Hypotenuse

set_option relaxedAutoImplicit false
set_option autoImplicit false

namespace TextDiagram

open Number (value IsWithin IsNearestTo)

/-! ### Means -/

namespace Number

variable {x y : Float32}

/-- The errors of a mean: one of the sum, and one of its half. -/
theorem abs_mean_sub_le_of_errors {bound x y sum mean : ℝ} (hbound : 1 ≤ bound) (hx : |x| ≤ bound)
    (hy : |y| ≤ bound) (hsum : |sum - (x + y)| ≤ |x + y| / 2 ^ 24 + 1 / 2 ^ 150)
    (hmean : |mean - sum / 2| ≤ |sum / 2| / 2 ^ 24 + 1 / 2 ^ 150) :
    |mean - (x + y) / 2| ≤ bound / 2 ^ 22 := by
  have hxy := abs_add_le x y
  have hsize := abs_sub_abs_le_abs_sub sum (x + y)
  have hsplit : |mean - (x + y) / 2| ≤ |mean - sum / 2| + |sum - (x + y)| / 2 := by
    have h := abs_sub_le mean (sum / 2) ((x + y) / 2)
    rwa [← sub_div, abs_div (sum - (x + y)), abs_two] at h
  rw [abs_div sum, abs_two] at hmean
  norm_num at hsum hmean ⊢
  linarith

/-- The mean of two numbers, as it is computed. -/
theorem IsWithin.mean {k : ℤ} (hx : IsWithin k x) (hy : IsWithin k y) (hk : 0 ≤ k ∧ k < 126) :
    IsWithin k ((x + y) / Float32.ofNat 2) ∧
      value ((y + x) / Float32.ofNat 2) = value ((x + y) / Float32.ofNat 2) ∧
      |value ((x + y) / Float32.ofNat 2) - (value x + value y) / 2| ≤ 2 ^ k / 2 ^ 22 := by
  obtain ⟨hsum, hsumWithin⟩ := hx.add hy (by omega)
  obtain ⟨hsum', hsumWithin'⟩ := hy.add hx (by omega)
  obtain ⟨hhalf, hhalfWithin⟩ := hsumWithin.half (by omega)
  obtain ⟨hhalf', -⟩ := hsumWithin'.half (by omega)
  rw [add_comm] at hsum'
  rw [hsum'.value_unique hsum] at hhalf'
  exact ⟨hhalfWithin, hhalf'.value_unique hhalf, abs_mean_sub_le_of_errors
    (one_le_zpow₀ one_le_two hk.1) hx.le hy.le hsum.abs_sub_le hhalf.abs_sub_le⟩

/-- Exchanging two numbers negates their difference. -/
theorem IsWithin.value_sub_comm {k : ℤ} (hx : IsWithin k x) (hy : IsWithin k y)
    (hk : -149 ≤ k + 1 ∧ k + 1 < 127) : value (y - x) = -value (x - y) := by
  have h := (hy.sub hx hk).1
  rw [← neg_sub] at h
  exact (hx.sub hy hk).1.value_neg h

end Number

/-! ### Points -/

/-- A point whose coordinates are not larger than `2 ^ k`. -/
structure Point.IsWithin (k : ℤ) (p : Point Float32) : Prop where
  x : Number.IsWithin k p.x
  y : Number.IsWithin k p.y

namespace Point.IsWithin

variable {k : ℤ} {p q : Point Float32}

theorem isFinite (h : p.IsWithin k) : p.isFinite = true := by
  rw [Point.isFinite, h.x.finite, h.y.finite, Bool.and_true]

theorem mono {j : ℤ} (h : p.IsWithin j) (hjk : j ≤ k) : p.IsWithin k :=
  ⟨h.x.mono hjk, h.y.mono hjk⟩

/-- The length of a vector is correctly rounded. -/
theorem length (h : p.IsWithin k) (hk : -149 ≤ k + 1 ∧ k + 1 < 127) :
    IsNearestTo p.length (√(value p.x ^ 2 + value p.y ^ 2)) ∧ Number.IsWithin (k + 1) p.length := by
  have hle : |√(value p.x ^ 2 + value p.y ^ 2)| ≤ 2 ^ (k + 1) := by
    have hx := sq_le_sq' (abs_le.1 h.x.le).1 (abs_le.1 h.x.le).2
    have hy := sq_le_sq' (abs_le.1 h.y.le).1 (abs_le.1 h.y.le).2
    have hpos : (0 : ℝ) < 2 ^ k := by positivity
    rw [abs_of_nonneg (Real.sqrt_nonneg _), Real.sqrt_le_iff, zpow_add_one₀ two_ne_zero]
    constructor
    · positivity
    · nlinarith
  have hnear := Number.isNearestTo_hypotenuse h.x.finite h.y.finite
    ((le_abs_self _).trans_lt (Number.abs_lt_of_le hle hk.2))
  exact ⟨hnear, hnear.isWithin hle hk.1⟩

theorem sub (hp : p.IsWithin k) (hq : q.IsWithin k) (hk : -149 ≤ k + 1 ∧ k + 1 < 127) :
    (p - q).IsWithin (k + 1) :=
  ⟨(hp.x.sub hq.x hk).2, (hp.y.sub hq.y hk).2⟩

theorem add (hp : p.IsWithin k) (hq : q.IsWithin k) (hk : -149 ≤ k + 1 ∧ k + 1 < 127) :
    (p + q).IsWithin (k + 1) :=
  ⟨(hp.x.add hq.x hk).2, (hp.y.add hq.y hk).2⟩

/-- Exchanging two points turns the vector between them around. -/
theorem value_sub_comm (hp : p.IsWithin k) (hq : q.IsWithin k) (hk : -149 ≤ k + 1 ∧ k + 1 < 127) :
    value (q - p).x = -value (p - q).x ∧ value (q - p).y = -value (p - q).y :=
  ⟨hp.x.value_sub_comm hq.x hk, hp.y.value_sub_comm hq.y hk⟩

/-- A vector that is turned around keeps its length. -/
theorem value_length_eq (hp : p.IsWithin k) (hq : q.IsWithin k) (hk : -149 ≤ k + 1 ∧ k + 1 < 127)
    (hx : value q.x = -value p.x) (hy : value q.y = -value p.y) :
    value q.length = value p.length := by
  have h := (hq.length hk).1
  rw [hx, hy, neg_sq, neg_sq] at h
  exact h.value_unique (hp.length hk).1

/-- The point halfway between two points, as it is computed. -/
theorem midpoint (hp : p.IsWithin k) (hq : q.IsWithin k) (hk : 0 ≤ k ∧ k < 126) :
    (p.midpoint q).IsWithin k ∧ (q.midpoint p).exact = (p.midpoint q).exact ∧
      |value (p.midpoint q).x - (value p.x + value q.x) / 2| ≤ 2 ^ k / 2 ^ 22 ∧
      |value (p.midpoint q).y - (value p.y + value q.y) / 2| ≤ 2 ^ k / 2 ^ 22 :=
  ⟨⟨(hp.x.mean hq.x hk).1, (hp.y.mean hq.y hk).1⟩,
    Point.exact_eq_iff.2 ⟨(hp.x.mean hq.x hk).2.1, (hp.y.mean hq.y hk).2.1⟩,
    (hp.x.mean hq.x hk).2.2, (hp.y.mean hq.y hk).2.2⟩

end Point.IsWithin

/-! ### Sides that face each other -/

/-- A side that edges leave horizontally. -/
def Side.IsHorizontal (side : Side) : Prop := side = .left ∨ side = .right

/-- A side faces a point to its left or right where the horizontal distance is the larger one. -/
theorem Side.isHorizontal_facing_iff {source target : Point Float32} :
    (Side.facing source target).IsHorizontal ↔
      (target - source).y.abs < (target - source).x.abs := by
  rw [Side.facing, Side.IsHorizontal]
  split
  · next h =>
      refine iff_of_true ?_ h
      split
      · exact .inr rfl
      · exact .inl rfl
  · next h =>
      refine iff_of_false ?_ h
      split
      · exact not_or.2 ⟨Side.noConfusion, Side.noConfusion⟩
      · exact not_or.2 ⟨Side.noConfusion, Side.noConfusion⟩

/-- **The sides that face each other lie along one axis.** -/
theorem Side.isHorizontal_facing {p q : Point Float32} (hp : p.IsWithin 18) (hq : q.IsWithin 18) :
    (Side.facing q p).IsHorizontal ↔ (Side.facing p q).IsHorizontal := by
  have hsub := hp.sub hq (by decide)
  have hsub' := hq.sub hp (by decide)
  obtain ⟨hx, hy⟩ := hp.value_sub_comm hq (by decide)
  rw [isHorizontal_facing_iff, isHorizontal_facing_iff,
    Number.lt_iff_value_lt hsub.y.abs.2.finite hsub.x.abs.2.finite,
    Number.lt_iff_value_lt hsub'.y.abs.2.finite hsub'.x.abs.2.finite,
    hsub.x.abs.1, hsub.y.abs.1, hsub'.x.abs.1, hsub'.y.abs.1, hx, hy, abs_neg, abs_neg]

end TextDiagram
