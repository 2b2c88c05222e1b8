/-
**How far edges are bent.**

A bent edge is moved out of the way by the length of its bow times its rank, along a vector of
length one.  All numbers on the way are rounded, and the errors grow with the rank.  Up to a million
ranks they stay below a quarter of the step from one rank to the next.

Main results:

* `TextDiagram.Route.abs_control_sub_le` — **where a control point lies**, up to a quarter of a
  step;
* `TextDiagram.Route.across_spec`, `TextDiagram.Route.across_neg` — the vector across a vector has
  length one, nearly, and turns around with it;
* `TextDiagram.Route.bow_spec` — the least bow is between one and fifty.
-/

import TextDiagram.Diagram.Routing
import TextDiagram.Proofs.Geometry.Point

set_option relaxedAutoImplicit false
set_option autoImplicit false

namespace TextDiagram

open Number (value IsWithin IsNearestTo)

/-! ### Given numbers -/

namespace Number

theorem isWithin_threeTenths : IsWithin (-1) (0.3 : Float32) := by
  have h : exact (0.3 : Float32) = .finite false 10066330 (-25) := by decide +kernel
  exact isWithin_of_exact h (by norm_num)

/-- Moving a number into a range moves what it stands for. -/
theorem value_clamp {low high x : Float32} (hlow : low.isFinite = true)
    (hhigh : high.isFinite = true) (hx : x.isFinite = true) (h : value low ≤ value high) :
    (clamp low high x).isFinite = true ∧
      value (clamp low high x) = max (value low) (min (value high) (value x)) := by
  rw [clamp]
  split
  · next hlt =>
      rw [lt_iff_value_lt hx hlow] at hlt
      exact ⟨hlow, by rw [max_eq_left (min_le_right _ _ |>.trans hlt.le)]⟩
  · next hnlt =>
      rw [lt_iff_value_lt hx hlow, not_lt] at hnlt
      split
      · next hlt =>
          rw [lt_iff_value_lt hhigh hx] at hlt
          exact ⟨hhigh, by rw [min_eq_left hlt.le, max_eq_right h]⟩
      · next hnlt' =>
          rw [lt_iff_value_lt hhigh hx, not_lt] at hnlt'
          exact ⟨hx, by rw [min_eq_right hnlt', max_eq_right hnlt]⟩

end Number

theorem Route.value_negligible :
    negligible.isFinite = true ∧ value negligible = 1 / 2 ^ 23 := by
  have h : Number.exact negligible = .finite false 8388608 (-46) := by decide +kernel
  exact ⟨Number.isFinite_of_exact h, by rw [Number.value_of_exact h]; norm_num⟩

/-! ### The steps between ranks -/

namespace Route

/-- The errors of the three roundings on the way to a coordinate, as long as the rank is not too
large: each is at most a sixteenth of a step, and the one of the sum has a part from the middle. -/
theorem abs_sub_le_of_errors {middle across bow turn multiple far shift sum : ℝ}
    (hmiddle : |middle| ≤ 2 ^ (18 : ℤ)) (hacross : |across| ≤ 2 ^ (1 : ℤ)) (hbow : 1 ≤ bow)
    (hturn : |turn| = 1) (hmultiple : 0 ≤ multiple ∧ multiple ≤ 2 ^ 20)
    (hfar : |far - bow * multiple| ≤ |bow * multiple| / 2 ^ 24 + 1 / 2 ^ 150)
    (hshift : |shift - across * (far * turn)| ≤
      |across * (far * turn)| / 2 ^ 24 + 1 / 2 ^ 150)
    (hsum : |sum - (middle + shift)| ≤ |middle + shift| / 2 ^ 24 + 1 / 2 ^ 150) :
    |sum - (middle + across * (turn * (bow * multiple)))| ≤ |across| * bow / 4 + 1 / 32 := by
  have hstep : 0 ≤ |across| * bow := by positivity
  have hwhole : |across| * (bow * multiple) ≤ |across| * bow * 2 ^ 20 := by
    rw [← mul_assoc]
    exact mul_le_mul_of_nonneg_left hmultiple.2 hstep
  rw [abs_of_nonneg (mul_nonneg (by linarith) hmultiple.1)] at hfar
  rw [abs_mul across, abs_mul far, hturn, mul_one] at hshift
  -- the error of the offset, scaled by the vector across
  have hoffset : |across| * |far - bow * multiple| ≤
      |across| * (bow * multiple) / 2 ^ 24 + 2 / 2 ^ 150 := by
    have := mul_le_mul_of_nonneg_left hfar (abs_nonneg across)
    norm_num at hacross this ⊢
    nlinarith
  have hreach : |across| * |far| ≤
      |across| * (bow * multiple) + |across| * |far - bow * multiple| := by
    rw [← mul_add]
    refine mul_le_mul_of_nonneg_left ?_ (abs_nonneg across)
    have := abs_sub_abs_le_abs_sub far (bow * multiple)
    rw [abs_of_nonneg (mul_nonneg (by linarith) hmultiple.1)] at this
    linarith
  have hshiftSize : |shift| ≤ |across| * |far| + |shift - across * (far * turn)| := by
    have := abs_sub_abs_le_abs_sub shift (across * (far * turn))
    rw [abs_mul across, abs_mul far, hturn, mul_one] at this
    linarith
  have hsumSize : |middle + shift| ≤ |middle| + |shift| := abs_add_le _ _
  have hsplit : |sum - (middle + across * (turn * (bow * multiple)))| ≤
      |sum - (middle + shift)| + |shift - across * (far * turn)| +
        |across| * |far - bow * multiple| := by
    have hlast : |across * (turn * (far - bow * multiple))| =
        |across| * |far - bow * multiple| := by
      rw [abs_mul, abs_mul, hturn, one_mul]
    have heq : sum - (middle + across * (turn * (bow * multiple))) =
        sum - (middle + shift) + (shift - across * (far * turn)) +
          across * (turn * (far - bow * multiple)) := by ring
    rw [heq, ← hlast]
    exact (abs_add_le _ _).trans (by gcongr; exact abs_add_le _ _)
  norm_num at *
  linarith

/-- What a bent edge is moved by in one coordinate.  A turn only sets the sign, so it is exact. -/
theorem shift_spec {across bow turn : Float32} {multiple : ℕ} (hacross : IsWithin 1 across)
    (hbow : IsWithin 6 bow) (hturn : turn.isFinite = true) (hunit : |value turn| = 1)
    (hmultiple : multiple ≤ 2 ^ 20) :
    IsNearestTo (bow * Float32.ofNat multiple) (value bow * multiple) ∧
      IsNearestTo (across * (bow * Float32.ofNat multiple * turn))
        (value across * (value (bow * Float32.ofNat multiple) * value turn)) ∧
      IsWithin 27 (across * (bow * Float32.ofNat multiple * turn)) := by
  have hturnWithin : IsWithin 0 turn := ⟨hturn, by rw [hunit, zpow_zero]⟩
  obtain ⟨hfar, hfarWithin⟩ := hbow.mul (Number.isWithin_ofNat hmultiple) (by decide)
  rw [Number.value_ofNat (by omega)] at hfar
  obtain ⟨hoffset, hoffsetWithin⟩ := hfarWithin.mul hturnWithin (by decide)
  have hoffsetValue : value (bow * Float32.ofNat multiple * turn) =
      value (bow * Float32.ofNat multiple) * value turn := by
    rcases (abs_eq zero_le_one).1 hunit with hone | hone
    · rw [hone, mul_one] at hoffset ⊢
      exact hoffset.value_eq hfarWithin.finite
    · rw [hone, mul_neg_one] at hoffset ⊢
      exact (Number.isNearestTo_value hfarWithin.finite).value_neg hoffset
  obtain ⟨hshift, hshiftWithin⟩ := hacross.mul hoffsetWithin (by decide)
  rw [hoffsetValue] at hshift
  exact ⟨hfar, hshift, hshiftWithin⟩

theorem isWithin_bow {bow : Float32} (hbow : bow.isFinite = true) (hlow : 1 ≤ value bow)
    (hhigh : value bow ≤ 50) : IsWithin 6 bow := by
  refine ⟨hbow, ?_⟩
  rw [abs_of_pos (by linarith)]
  norm_num
  linarith

/-- The coordinate of the control point of a bent edge. -/
theorem abs_control_sub_le {middle across bow turn : Float32} {multiple : ℕ}
    (hmiddle : IsWithin 18 middle) (hacross : IsWithin 1 across)
    (hbow : bow.isFinite = true) (hlow : 1 ≤ value bow) (hhigh : value bow ≤ 50)
    (hturn : turn.isFinite = true) (hunit : |value turn| = 1) (hmultiple : multiple ≤ 2 ^ 20) :
    IsWithin 28 (middle + across * (bow * Float32.ofNat multiple * turn)) ∧
      |value (middle + across * (bow * Float32.ofNat multiple * turn)) -
          (value middle + value across * (value turn * (value bow * multiple)))| ≤
        |value across| * value bow / 4 + 1 / 32 := by
  obtain ⟨hfar, hshift, hshiftWithin⟩ := shift_spec hacross (isWithin_bow hbow hlow hhigh) hturn
    hunit hmultiple
  obtain ⟨hsum, hsumWithin⟩ := (hmiddle.mono (by decide)).add hshiftWithin (by decide)
  exact ⟨hsumWithin, abs_sub_le_of_errors hmiddle.le hacross.le hlow hunit
    ⟨Nat.cast_nonneg _, by exact_mod_cast hmultiple⟩ hfar.abs_sub_le hshift.abs_sub_le
    hsum.abs_sub_le⟩

/-! ### The vector across -/

/-- The errors of a length and of its reciprocal. -/
theorem abs_reciprocal_mul_sub_le {r len reciprocal : ℝ} (hr : 0 < r)
    (hlow : 1 / 2 ^ 23 < len) (hhigh : len ≤ 2 ^ 30)
    (hlen : |len - r| ≤ |r| / 2 ^ 24 + 1 / 2 ^ 150)
    (hreciprocal : |reciprocal - 1 / len| ≤ |1 / len| / 2 ^ 24 + 1 / 2 ^ 150) :
    |reciprocal * r - 1| ≤ 1 / 2 ^ 21 := by
  have hpos : 0 < len := lt_trans (by positivity) hlow
  rw [abs_of_pos hr] at hlen
  rw [abs_of_pos (one_div_pos.2 hpos)] at hreciprocal
  have hunit : |reciprocal * len - 1| ≤ 1 / 2 ^ 23 := by
    have heq : reciprocal * len - 1 = (reciprocal - 1 / len) * len := by field_simp
    rw [heq, abs_mul, abs_of_pos hpos]
    calc |reciprocal - 1 / len| * len ≤ (1 / len / 2 ^ 24 + 1 / 2 ^ 150) * len := by gcongr
      _ = 1 / 2 ^ 24 + len / 2 ^ 150 := by field_simp
      _ ≤ 1 / 2 ^ 23 := by
        norm_num at hhigh ⊢
        linarith
  have hnear : |len - r| ≤ len / 2 ^ 23 := by
    have hlen₁ := (abs_le.1 hlen).1
    norm_num at hlow hlen hlen₁ ⊢
    linarith
  have hsmall : |reciprocal| * |len - r| ≤ 2 / 2 ^ 23 := by
    have hle : |reciprocal| * len ≤ 2 := by
      have := abs_sub_abs_le_abs_sub (reciprocal * len) 1
      rw [abs_one, abs_mul, abs_of_pos hpos] at this
      norm_num at hunit
      linarith
    calc |reciprocal| * |len - r| ≤ |reciprocal| * (len / 2 ^ 23) := by gcongr
      _ = |reciprocal| * len / 2 ^ 23 := by ring
      _ ≤ 2 / 2 ^ 23 := by gcongr
  have heq : reciprocal * r - 1 = reciprocal * len - 1 - reciprocal * (len - r) := by ring
  rw [heq]
  have := abs_sub (reciprocal * len - 1) (reciprocal * (len - r))
  rw [abs_mul reciprocal] at this
  norm_num at hunit hsmall ⊢
  linarith

/-- The errors of a reciprocal and of a product with it. -/
theorem abs_product_sub_le {c r reciprocal product : ℝ} (hr : 0 < r) (hc : |c| ≤ r)
    (hratio : |reciprocal * r - 1| ≤ 1 / 2 ^ 21)
    (hproduct : |product - c * reciprocal| ≤ |c * reciprocal| / 2 ^ 24 + 1 / 2 ^ 150) :
    |c * reciprocal| ≤ 2 ∧ |product - c / r| ≤ 1 / 2 ^ 20 := by
  have hc' : |c / r| ≤ 1 := by
    rw [abs_div, abs_of_pos hr, div_le_one hr]
    exact hc
  have hscaled : |c * reciprocal - c / r| ≤ 1 / 2 ^ 21 := by
    have heq : c * reciprocal - c / r = c / r * (reciprocal * r - 1) := by
      field_simp
    rw [heq, abs_mul]
    calc |c / r| * |reciprocal * r - 1| ≤ 1 * (1 / 2 ^ 21) :=
          mul_le_mul hc' hratio (abs_nonneg _) zero_le_one
      _ = 1 / 2 ^ 21 := one_mul _
  have hsize : |c * reciprocal| ≤ 2 := by
    have := abs_sub_abs_le_abs_sub (c * reciprocal) (c / r)
    norm_num at hscaled
    linarith
  refine ⟨hsize, ?_⟩
  have hround : |product - c * reciprocal| ≤ 2 / 2 ^ 24 + 1 / 2 ^ 150 :=
    hproduct.trans (by gcongr)
  have := abs_sub_le product (c * reciprocal) (c / r)
  norm_num at hscaled hround ⊢
  linarith

/-- A coordinate that is at least as long as the other one makes up most of the length. -/
theorem seven_tenths_le_div {a b : ℝ} (h : |b| ≤ |a|) (hr : 0 < √(b ^ 2 + a ^ 2)) :
    701 / 1000 ≤ |a| / √(b ^ 2 + a ^ 2) := by
  rw [le_div_iff₀ hr]
  have hsq : b ^ 2 ≤ a ^ 2 := sq_le_sq.2 h
  have hle : √(b ^ 2 + a ^ 2) ≤ 1415 / 1000 * |a| := by
    rw [Real.sqrt_le_iff]
    refine ⟨by positivity, ?_⟩
    rw [mul_pow, sq_abs]
    nlinarith [sq_nonneg a]
  nlinarith [abs_nonneg a]

/-- The reciprocal of a length that is not negligible. -/
theorem reciprocal_spec {len : Float32} (hfinite : len.isFinite = true)
    (hlow : 1 / 2 ^ 23 < value len) :
    IsNearestTo (1 / len) (1 / value len) ∧ IsWithin 23 (1 / len) := by
  have hpos : 0 < value len := lt_trans (by positivity) hlow
  have hsmall : |1 / value len| ≤ 2 ^ (23 : ℤ) := by
    rw [abs_of_pos (one_div_pos.2 hpos), div_le_iff₀ hpos]
    norm_num at hlow ⊢
    linarith
  have hnear := Number.isNearestTo_div Number.value_one.1 hfinite hpos.ne'
    (by rw [Number.value_one.2]; exact Number.abs_lt_of_le hsmall (by decide))
  rw [Number.value_one.2] at hnear
  exact ⟨hnear, hnear.isWithin hsmall (by decide)⟩

/-- The product of a coordinate with the reciprocal of the length, as it is computed. -/
theorem scaled_spec {c len : Float32} {r : ℝ} (hr : 0 < r) (hc : IsWithin 29 c)
    (hcr : |value c| ≤ r) (hlen : IsNearestTo len r) (hlow : 1 / 2 ^ 23 < value len)
    (hhigh : value len ≤ 2 ^ 30) :
    IsWithin 1 (c * (1 / len)) ∧ |value (c * (1 / len)) - value c / r| ≤ 1 / 2 ^ 20 := by
  obtain ⟨hreciprocal, hwithin⟩ := reciprocal_spec hlen.finite hlow
  obtain ⟨hproduct, -⟩ := hc.mul hwithin (by decide)
  have hratio := abs_reciprocal_mul_sub_le hr hlow hhigh hlen.abs_sub_le hreciprocal.abs_sub_le
  obtain ⟨hsize, herror⟩ := abs_product_sub_le hr hcr hratio hproduct.abs_sub_le
  exact ⟨hproduct.isWithin (by rw [zpow_one]; exact hsize) (by decide), herror⟩

theorem seven_tenths_le_of_near {a v : ℝ} (ha : 701 / 1000 ≤ |a|) (h : |v - a| ≤ 1 / 2 ^ 20) :
    7 / 10 ≤ |v| := by
  have := abs_sub_abs_le_abs_sub a v
  rw [abs_sub_comm] at this
  norm_num at h
  linarith

/-- Whether a length is negligible, in terms of what it stands for. -/
theorem negligible_lt_iff {len : Float32} (hfinite : len.isFinite = true) :
    negligible < len ↔ 1 / 2 ^ 23 < value len := by
  rw [← value_negligible.2]
  exact Number.lt_iff_value_lt value_negligible.1 hfinite

/-- A vector that is turned around has a direction exactly if it had one before. -/
theorem negligible_lt_length_iff {v w : Point Float32} (hv : v.IsWithin 29) (hw : w.IsWithin 29)
    (hx : value w.x = -value v.x) (hy : value w.y = -value v.y) :
    negligible < w.length ↔ negligible < v.length := by
  rw [negligible_lt_iff (hw.length (by decide)).1.finite,
    negligible_lt_iff (hv.length (by decide)).1.finite, hv.value_length_eq hw (by decide) hx hy]

/-- The vector across an axis that has a direction: none of its coordinates is longer than two, and
the one across the longer coordinate of the axis is almost as long as the vector. -/
theorem across_spec {axis : Point Float32} (haxis : axis.IsWithin 29)
    (h : negligible < axis.length) : (across axis).IsWithin 1 ∧
      (|value axis.x| ≤ |value axis.y| → 7 / 10 ≤ |value (across axis).x|) ∧
      (|value axis.y| ≤ |value axis.x| → 7 / 10 ≤ |value (across axis).y|) := by
  obtain ⟨hlength, hlengthWithin⟩ := haxis.length (by decide)
  have hlow : 1 / 2 ^ 23 < value axis.length := (negligible_lt_iff hlength.finite).1 h
  have hhigh : value axis.length ≤ 2 ^ 30 := by
    have := (le_abs_self _).trans hlengthWithin.le
    exact_mod_cast this
  have hr : 0 < √(value axis.x ^ 2 + value axis.y ^ 2) := by
    refine lt_of_le_of_ne (Real.sqrt_nonneg _) fun hzero => ?_
    rw [← hzero] at hlength
    rw [hlength.rounded.unique Number.isRounded_zero] at hlow
    norm_num at hlow
  have hle : ∀ a b : ℝ, |a| ≤ √(a ^ 2 + b ^ 2) := fun a b => Real.abs_le_sqrt (by nlinarith)
  obtain ⟨hneg, hnegWithin⟩ := haxis.y.neg
  have hx := scaled_spec hr hnegWithin
    (by rw [hneg, abs_neg, add_comm]; exact hle _ _) hlength hlow hhigh
  have hy := scaled_spec hr haxis.x (hle _ _) hlength hlow hhigh
  have hacross : across axis = Point.scale ⟨-axis.y, axis.x⟩ (1 / axis.length) := if_pos h
  rw [hacross]
  refine ⟨⟨hx.1, hy.1⟩, fun hlong => ?_, fun hlong => ?_⟩
  · refine seven_tenths_le_of_near ?_ hx.2
    rw [hneg, abs_div, abs_neg, abs_of_pos hr]
    exact seven_tenths_le_div hlong hr
  · refine seven_tenths_le_of_near ?_ hy.2
    rw [abs_div, abs_of_pos hr, add_comm]
    exact seven_tenths_le_div hlong (add_comm (value axis.x ^ 2) _ ▸ hr)

/-- The vector across two points that count as one. -/
theorem across_of_negligible {axis : Point Float32} (h : ¬ negligible < axis.length) :
    value (across axis).x = 0 ∧ value (across axis).y = -1 ∧ (across axis).IsWithin 1 := by
  have hacross : across axis = ⟨0, -1⟩ := if_neg h
  obtain ⟨hneg, hwithin⟩ := Number.isWithin_one.neg
  rw [hacross]
  exact ⟨Number.value_zero.2, hneg.trans (by rw [Number.value_one.2]), Number.isWithin_zero 1,
    hwithin.mono (by decide)⟩

/-- The vector across a horizontal axis is long in height. -/
theorem across_of_horizontal {axis : Point Float32} (haxis : axis.IsWithin 29)
    (h : value axis.y = 0) : 7 / 10 ≤ |value (across axis).y| := by
  by_cases hlength : negligible < axis.length
  · exact (across_spec haxis hlength).2.2 (by rw [h, abs_zero]; exact abs_nonneg _)
  · rw [(across_of_negligible hlength).2.1]
    norm_num

/-- A vector across is long in one of its coordinates. -/
theorem across_long {axis : Point Float32} (haxis : axis.IsWithin 29) :
    (across axis).IsWithin 1 ∧
      (7 / 10 ≤ |value (across axis).x| ∨ 7 / 10 ≤ |value (across axis).y|) := by
  by_cases h : negligible < axis.length
  · obtain ⟨hwithin, hx, hy⟩ := across_spec haxis h
    exact ⟨hwithin, (le_total |value axis.x| |value axis.y|).imp hx hy⟩
  · obtain ⟨-, hy, hwithin⟩ := across_of_negligible h
    exact ⟨hwithin, .inr (by rw [hy]; norm_num)⟩

/-- Opposite axes have opposite vectors across. -/
theorem across_neg {axis other : Point Float32} (haxis : axis.IsWithin 29)
    (hother : other.IsWithin 29) (hx : value other.x = -value axis.x)
    (hy : value other.y = -value axis.y) (h : negligible < axis.length) :
    value (across other).x = -value (across axis).x ∧
      value (across other).y = -value (across axis).y := by
  obtain ⟨hlength, -⟩ := haxis.length (by decide)
  obtain ⟨hlength', -⟩ := hother.length (by decide)
  have hvalue : value other.length = value axis.length :=
    haxis.value_length_eq hother (by decide) hx hy
  have hlow := (negligible_lt_iff hlength.finite).1 h
  have hlow' : 1 / 2 ^ 23 < value other.length := hvalue ▸ hlow
  obtain ⟨hreciprocal, hwithin⟩ := reciprocal_spec hlength.finite hlow
  obtain ⟨hreciprocal', hwithin'⟩ := reciprocal_spec hlength'.finite hlow'
  rw [hvalue] at hreciprocal'
  have hsame : value (1 / other.length) = value (1 / axis.length) :=
    hreciprocal'.value_unique hreciprocal
  have hacross : across axis = Point.scale ⟨-axis.y, axis.x⟩ (1 / axis.length) := if_pos h
  have hacross' : across other = Point.scale ⟨-other.y, other.x⟩ (1 / other.length) :=
    if_pos ((negligible_lt_length_iff haxis hother hx hy).2 h)
  -- opposite factors have opposite products
  have hproduct : ∀ {c c' : Float32}, IsWithin 29 c → IsWithin 29 c' → value c' = -value c →
      value (c' * (1 / other.length)) = -value (c * (1 / axis.length)) := by
    intro c c' hc hc' hneg
    obtain ⟨hnear, -⟩ := hc.mul hwithin (by decide)
    obtain ⟨hnear', -⟩ := hc'.mul hwithin' (by decide)
    rw [hneg, hsame, neg_mul] at hnear'
    exact hnear.value_neg hnear'
  rw [hacross, hacross']
  refine ⟨hproduct haxis.y.neg.2 hother.y.neg.2 ?_, hproduct haxis.x hother.x hx⟩
  rw [hother.y.neg.1, haxis.y.neg.1, hy]

/-! ### The least bow -/

section

variable {start finish : Point Float32}

/-- The least bow is between one and fifty, and fifty between ends that count as one. -/
theorem bow_spec (h : (finish - start).IsWithin 29) :
    (bow start finish).isFinite = true ∧ 1 ≤ value (bow start finish) ∧
      value (bow start finish) ≤ 50 ∧
      (¬ negligible < (finish - start).length → value (bow start finish) = 50) := by
  obtain ⟨-, hwithin⟩ := h.length (by decide)
  obtain ⟨hscaled, -⟩ := Number.isWithin_threeTenths.mul hwithin (by decide)
  obtain ⟨hfinite, hvalue⟩ := Number.value_clamp Number.value_one.1 Number.value_fifty.1
    hscaled.finite (by rw [Number.value_one.2, Number.value_fifty.2]; norm_num)
  rw [Number.value_one.2, Number.value_fifty.2] at hvalue
  by_cases hfar : negligible < (finish - start).length
  · have hbow : bow start finish = Number.clamp 1 50 (0.3 * (finish - start).length) := if_pos hfar
    rw [hbow, hvalue]
    exact ⟨hfinite, le_max_left _ _, max_le (by norm_num) (min_le_left _ _), absurd hfar⟩
  · have hbow : bow start finish = 50 := if_neg hfar
    rw [hbow, Number.value_fifty.2]
    exact ⟨Number.value_fifty.1, by norm_num, le_rfl, fun _ => rfl⟩

/-- The least bow does not depend on which end is the start. -/
theorem value_bow_comm (h : (finish - start).IsWithin 29) (h' : (start - finish).IsWithin 29)
    (hx : value (start - finish).x = -value (finish - start).x)
    (hy : value (start - finish).y = -value (finish - start).y) :
    value (bow finish start) = value (bow start finish) := by
  have hlength := h.value_length_eq h' (by decide) hx hy
  obtain ⟨-, hwithin⟩ := h.length (by decide)
  obtain ⟨-, hwithin'⟩ := h'.length (by decide)
  obtain ⟨hscaled, -⟩ := Number.isWithin_threeTenths.mul hwithin (by decide)
  obtain ⟨hscaled', -⟩ := Number.isWithin_threeTenths.mul hwithin' (by decide)
  have hrange : value 1 ≤ value 50 := by
    rw [Number.value_one.2, Number.value_fifty.2]
    norm_num
  rw [bow, bow]
  simp only [negligible_lt_length_iff h h' hx hy]
  split
  · rw [(Number.value_clamp Number.value_one.1 Number.value_fifty.1 hscaled.finite hrange).2,
      (Number.value_clamp Number.value_one.1 Number.value_fifty.1 hscaled'.finite hrange).2]
    rw [hlength] at hscaled'
    rw [hscaled'.value_unique hscaled]
  · rfl

end

end Route

end TextDiagram
