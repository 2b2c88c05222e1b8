/-
**Rounding to single precision.**

A real number is rounded to a multiple of the last place that the format keeps of it, to the
nearest one, a tie going to the even multiple.  The last place is 23 places behind the leading one,
and never behind the last place of the subnormal numbers.  Overflow is left out: a number is rounded
here as if exponents had no upper end.

Main definitions:

* `TextDiagram.Number.IsNearestInteger` — rounding to an integer, ties to even;
* `TextDiagram.Number.IsLastPlace` — the exponent of the last place that is kept of a number;
* `TextDiagram.Number.IsRounded` — rounding to single precision.

Main results:

* `TextDiagram.Number.IsRounded.unique`, `TextDiagram.Number.IsRounded.neg` — rounding is a
  function, and an odd one;
* `TextDiagram.Number.IsRounded.abs_sub_le` — **rounding is off by at most half a last place**;
* `TextDiagram.Number.IsRounded.abs_le_mul_two_zpow`, `TextDiagram.Number.IsRounded.abs_le_two_zpow`
  — rounding does not pass numbers of the format;
* `TextDiagram.Number.IsRounded.abs_lt_two_zpow`, `TextDiagram.Number.IsRounded.ne_zero` — what is
  rounded to numbers within the format, and not to zero.
-/

import Mathlib

set_option relaxedAutoImplicit false
set_option autoImplicit false

namespace TextDiagram.Number

/-! ### Integers -/

/-- The integer `n` is the one nearest to `x`, and the even one of two that are. -/
structure IsNearestInteger (x : ℝ) (n : ℤ) : Prop where
  near : |x - n| ≤ 1 / 2
  even : |x - n| = 1 / 2 → Even n

namespace IsNearestInteger

variable {x : ℝ} {m n : ℤ}

theorem of_abs_lt (h : |x - n| < 1 / 2) : IsNearestInteger x n :=
  ⟨h.le, fun htie => absurd htie h.ne⟩

/-- A tie goes to the even integer. -/
theorem halfway (m : ℕ) : IsNearestInteger (m + 1 / 2) ((m + m % 2 : ℕ) : ℤ) := by
  rcases Nat.mod_two_eq_zero_or_one m with hmod | hmod
  · rw [hmod]
    exact ⟨by norm_num, fun _ => (Int.even_coe_nat _).2 (Nat.even_iff.2 hmod)⟩
  · rw [hmod]
    refine ⟨by push_cast; rw [abs_le]; constructor <;> linarith, fun _ => ?_⟩
    exact (Int.even_coe_nat _).2 (Nat.even_iff.2 (by omega))

theorem neg (h : IsNearestInteger x n) : IsNearestInteger (-x) (-n) := by
  have habs : |-x - ((-n : ℤ) : ℝ)| = |x - n| := by
    rw [Int.cast_neg, ← abs_neg]
    ring_nf
  exact ⟨habs ▸ h.near, fun htie => (h.even (habs ▸ htie)).neg⟩

/-- Two integers that are nearest to the same number and not the same are neighbours. -/
theorem not_lt_of_isNearestInteger (hm : IsNearestInteger x m) (hn : IsNearestInteger x n) :
    ¬ m < n := by
  intro hlt
  have hle : (m : ℝ) + 1 ≤ n := by exact_mod_cast hlt
  obtain ⟨-, hm'⟩ := abs_le.1 hm.near
  obtain ⟨hn', -⟩ := abs_le.1 hn.near
  -- the number lies halfway, so both are even
  have hx : x = m + 1 / 2 := by linarith
  have hsucc : (n : ℝ) = m + 1 := by linarith
  obtain ⟨a, ha⟩ := hm.even (by rw [hx]; norm_num)
  obtain ⟨b, hb⟩ := hn.even (by rw [hx, hsucc]; norm_num)
  have : n = m + 1 := by exact_mod_cast hsucc
  omega

theorem unique (hm : IsNearestInteger x m) (hn : IsNearestInteger x n) : m = n :=
  le_antisymm (not_lt.1 (hn.not_lt_of_isNearestInteger hm))
    (not_lt.1 (hm.not_lt_of_isNearestInteger hn))

/-- Rounding does not pass integers. -/
theorem le_of_le (h : IsNearestInteger x n) (hx : x ≤ m) : n ≤ m := by
  by_contra hlt
  have hle : (m : ℝ) + 1 ≤ n := by exact_mod_cast not_le.1 hlt
  obtain ⟨hnear, -⟩ := abs_le.1 h.near
  linarith

theorem abs_le_of_abs_le (h : IsNearestInteger x n) (hx : |x| ≤ m) : |n| ≤ m := by
  obtain ⟨hlow, hhigh⟩ := abs_le.1 hx
  refine abs_le.2 ⟨?_, h.le_of_le hhigh⟩
  have hneg : -x ≤ m := by linarith
  have := h.neg.le_of_le hneg
  linarith

end IsNearestInteger

/-! ### Places -/

/-- The last of the places that single precision keeps of a number is the one of `2 ^ place`. -/
structure IsLastPlace (x : ℝ) (place : ℤ) : Prop where
  lowest : -149 ≤ place
  lt : |x| < 2 ^ (place + 24)
  le : place = -149 ∨ 2 ^ (place + 23) ≤ |x|

namespace IsLastPlace

variable {x : ℝ} {p q : ℤ}

theorem neg (h : IsLastPlace x p) : IsLastPlace (-x) p :=
  ⟨h.lowest, abs_neg x ▸ h.lt, abs_neg x ▸ h.le⟩

theorem le_of_isLastPlace (hp : IsLastPlace x p) (hq : IsLastPlace x q) : p ≤ q := by
  rcases hp.le with rfl | hle
  · exact hq.lowest
  · have hlt := (zpow_lt_zpow_iff_right₀ one_lt_two).1 (hle.trans_lt hq.lt)
    omega

theorem unique (hp : IsLastPlace x p) (hq : IsLastPlace x q) : p = q :=
  le_antisymm (hp.le_of_isLastPlace hq) (hq.le_of_isLastPlace hp)

/-- The last place of a number is small against the number, or the lowest one. -/
theorem two_zpow_le (h : IsLastPlace x p) : (2 : ℝ) ^ p ≤ |x| * 2 ^ (-23 : ℤ) + 2 ^ (-149 : ℤ) := by
  rcases h.le with rfl | hle
  · have := mul_nonneg (abs_nonneg x) (zpow_nonneg zero_le_two (-23 : ℤ))
    linarith
  · have hmul : (2 : ℝ) ^ (p + 23) * 2 ^ (-23 : ℤ) ≤ |x| * 2 ^ (-23 : ℤ) := by gcongr
    rw [← zpow_add₀ two_ne_zero, add_neg_cancel_right] at hmul
    have : (0 : ℝ) < 2 ^ (-149 : ℤ) := by positivity
    linarith

/-- The last place of a number below a power of two is at least 24 places behind the one of the
power. -/
theorem le_of_lt {k : ℤ} (h : IsLastPlace x p) (hk : -149 ≤ k) (hx : |x| < 2 ^ (k + 24)) :
    p ≤ k := by
  rcases h.le with rfl | hle
  · exact hk
  · have := (zpow_lt_zpow_iff_right₀ one_lt_two).1 (hle.trans_lt hx)
    omega

/-- The last places of numbers that are not too large. -/
theorem lt_of_lt (h : IsLastPlace x p) (hx0 : 0 ≤ x) (hx : x < 2 ^ (127 : ℤ)) : p < 104 := by
  have hle : p ≤ 103 := h.le_of_lt (by decide) (by rwa [abs_of_nonneg hx0])
  omega

end IsLastPlace

/-! ### Single precision -/

/-- The number `r` is `x` rounded to single precision. -/
structure IsRounded (x r : ℝ) : Prop where
  exists_place : ∃ place n : ℤ, IsLastPlace x place ∧ IsNearestInteger (x / 2 ^ place) n ∧
    r = n * 2 ^ place

namespace IsRounded

variable {x r s : ℝ}

theorem unique (hr : IsRounded x r) (hs : IsRounded x s) : r = s := by
  obtain ⟨p, m, hp, hm, rfl⟩ := hr
  obtain ⟨q, n, hq, hn, rfl⟩ := hs
  obtain rfl := hp.unique hq
  rw [hm.unique hn]

theorem neg (h : IsRounded x r) : IsRounded (-x) (-r) := by
  obtain ⟨p, n, hp, hn, rfl⟩ := h
  refine ⟨p, -n, hp.neg, ?_, by push_cast; ring⟩
  rw [neg_div]
  exact hn.neg

/-- Rounding is off by at most half of the last place that is kept. -/
theorem exists_abs_sub_le (h : IsRounded x r) :
    ∃ place, IsLastPlace x place ∧ |r - x| ≤ 1 / 2 * 2 ^ place := by
  obtain ⟨p, n, hp, hn, rfl⟩ := h
  have hpos : (0 : ℝ) < 2 ^ p := by positivity
  have heq : n * 2 ^ p - x = -(x / 2 ^ p - n) * 2 ^ p := by field_simp; ring
  refine ⟨p, hp, ?_⟩
  rw [heq, abs_mul, abs_neg, abs_of_pos hpos]
  exact mul_le_mul_of_nonneg_right hn.near hpos.le

/-- **Rounding is off by at most half a last place.** -/
theorem abs_sub_le (h : IsRounded x r) : |r - x| ≤ |x| * 2 ^ (-24 : ℤ) + 2 ^ (-150 : ℤ) := by
  obtain ⟨p, hp, hhalf⟩ := h.exists_abs_sub_le
  calc |r - x| ≤ 1 / 2 * 2 ^ p := hhalf
    _ ≤ 1 / 2 * (|x| * 2 ^ (-23 : ℤ) + 2 ^ (-149 : ℤ)) := by gcongr; exact hp.two_zpow_le
    _ = |x| * 2 ^ (-24 : ℤ) + 2 ^ (-150 : ℤ) := by norm_num; ring

/-- Rounding does not pass multiples of powers of two that have at most 24 places. -/
theorem abs_le_mul_two_zpow {c : ℕ} {k : ℤ} (h : IsRounded x r) (hc : c < 2 ^ 24)
    (hk : -149 ≤ k) (hx : |x| ≤ c * 2 ^ k) : |r| ≤ c * 2 ^ k := by
  obtain ⟨p, n, hp, hn, rfl⟩ := h
  have hpos : (0 : ℝ) < 2 ^ p := by positivity
  have hlt : |x| < 2 ^ (k + 24) := by
    have hc' : (c : ℝ) < 2 ^ (24 : ℤ) := by exact_mod_cast hc
    refine hx.trans_lt ?_
    rw [add_comm, zpow_add₀ two_ne_zero]
    gcongr
  obtain ⟨d, hd⟩ := Int.le.dest (hp.le_of_lt hk hlt)
  have hpow : (c : ℝ) * 2 ^ k = ((c * 2 ^ d : ℤ) : ℝ) * 2 ^ p := by
    rw [← hd, zpow_add₀ two_ne_zero, zpow_natCast]
    push_cast
    ring
  have hquotient : |x / 2 ^ p| ≤ ((c * 2 ^ d : ℤ) : ℝ) := by
    rw [abs_div, abs_of_pos hpos, div_le_iff₀ hpos]
    exact hpow ▸ hx
  have hn : |(n : ℝ)| ≤ ((c * 2 ^ d : ℤ) : ℝ) := by exact_mod_cast hn.abs_le_of_abs_le hquotient
  rw [abs_mul, abs_of_pos hpos, hpow]
  exact mul_le_mul_of_nonneg_right hn hpos.le

/-- Rounding does not pass powers of two. -/
theorem abs_le_two_zpow {k : ℤ} (h : IsRounded x r) (hk : -149 ≤ k) (hx : |x| ≤ 2 ^ k) :
    |r| ≤ 2 ^ k := by
  simpa using h.abs_le_mul_two_zpow (c := 1) (by decide) hk (by simpa using hx)

/-- Up to half a last place behind the largest number, rounding does not pass it. -/
theorem abs_lt_two_zpow (h : IsRounded x r) (hx : |x| < 2 ^ (128 : ℤ) - 2 ^ (103 : ℤ)) :
    |r| < 2 ^ (128 : ℤ) := by
  obtain ⟨p, hp, hhalf⟩ := h.exists_abs_sub_le
  have hle : p ≤ 104 := hp.le_of_lt (by decide) (hx.trans (sub_lt_self _ (by positivity)))
  have hpow : (2 : ℝ) ^ p ≤ 2 ^ (104 : ℤ) := zpow_le_zpow_right₀ one_le_two hle
  have hstep : (2 : ℝ) ^ (104 : ℤ) = 2 * 2 ^ (103 : ℤ) := by norm_num
  have htriangle : |r| ≤ |r - x| + |x| := by simpa using abs_add_le (r - x) x
  linarith

/-- What is not below the least positive number is not rounded to zero. -/
theorem ne_zero (h : IsRounded x r) (hx : (2 : ℝ) ^ (-149 : ℤ) ≤ |x|) : r ≠ 0 := by
  rintro rfl
  obtain ⟨p, hp, hhalf⟩ := h.exists_abs_sub_le
  rw [zero_sub, abs_neg] at hhalf
  rcases hp.le with rfl | hle
  · exact absurd (hx.trans hhalf) (by norm_num)
  · have hpos : (0 : ℝ) < 2 ^ p := by positivity
    have : (2 : ℝ) ^ p ≤ 2 ^ (p + 23) := zpow_le_zpow_right₀ one_le_two (by omega)
    linarith

end IsRounded

end TextDiagram.Number
