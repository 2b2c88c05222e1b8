/-
**Unpacked single-precision numbers.**

Arithmetic on single-precision numbers takes them apart into a sign, a mantissa and an exponent,
computes with integers, and rounds with the help of two bits: whether what is cut off is at least a
half, and whether there is more behind.  Here the results are compared with real numbers.

Main definitions:

* `TextDiagram.Number.unpackedValue` — the real number that an unpacked number stands for;
* `TextDiagram.Number.IsCanonical` — the unpacked finite numbers that fit into the format;
* `TextDiagram.Number.IsRegular` — those that fit, except that their exponents may be too large;
* `TextDiagram.Number.Represents` — which real numbers a mantissa with its two bits stands for;
* `TextDiagram.Number.IsResult`, `TextDiagram.Number.IsRegularResult` — a canonical number that is a
  real number rounded, and a regular one.

Main results:

* `TextDiagram.Number.unpack_pack` — canonical numbers survive packing;
* `TextDiagram.Number.isRegularResult_roundWithAccuracy` — **rounding by two bits is rounding to the
  nearest number**;
* `TextDiagram.Number.IsRegularResult.isResult_of_lt` — a result fits if it is not too large.
-/

import TextDiagram.Proofs.Number.Rounding

set_option relaxedAutoImplicit false
set_option autoImplicit false

namespace TextDiagram.Number

open Float.Model (totalExponent UnpackedFloat)
open Float.Model.Format (binary32)
open Float.Model.UnpackedFloat

/-! ### Values -/

/-- A sign as a factor. -/
noncomputable def factor (s : Sign) : ℝ := (s.apply 1 : ℤ)

@[simp] theorem factor_positive : factor .positive = 1 := by simp [factor, Sign.apply]

@[simp] theorem factor_negative : factor .negative = -1 := by simp [factor, Sign.apply]

@[simp] theorem factor_neg (s : Sign) : factor (-s) = -factor s := by
  cases s with
  | negative => simp [show -Sign.negative = Sign.positive from rfl]
  | positive => simp [show -Sign.positive = Sign.negative from rfl]

@[simp] theorem factor_mul (s t : Sign) : factor (s * t) = factor s * factor t := by
  cases s with
  | negative => cases t with
    | negative => simp [show Sign.negative * Sign.negative = Sign.positive from rfl]
    | positive => simp [show Sign.negative * Sign.positive = Sign.negative from rfl]
  | positive => cases t with
    | negative => simp [show Sign.positive * Sign.negative = Sign.negative from rfl]
    | positive => simp [show Sign.positive * Sign.positive = Sign.positive from rfl]

@[simp] theorem factor_div (s t : Sign) : factor (s / t) = factor s * factor t := factor_mul s t

@[simp] theorem abs_factor (s : Sign) : |factor s| = 1 := by cases s <;> simp

/-- The real number that an unpacked number stands for, and zero for those that are not finite. -/
noncomputable def unpackedValue : UnpackedFloat → ℝ
  | .finite s m e _ => factor s * (m * 2 ^ e)
  | _ => 0

/-- An unpacked finite number that fits into the format. -/
def IsCanonical : UnpackedFloat → Prop
  | .finite _ m e _ => m < 2 ^ 24 ∧ -149 ≤ e ∧ e ≤ 104 ∧ (e = -149 ∨ 2 ^ 23 ≤ m)
  | .zero _ => True
  | _ => False

/-- An unpacked number is the number `x` rounded. -/
structure IsResult (u : UnpackedFloat) (x : ℝ) : Prop where
  canonical : IsCanonical u
  rounded : IsRounded x (unpackedValue u)

/-- An unpacked finite number that has the places of the format, while its exponent may be too
large. -/
def IsRegular : UnpackedFloat → Prop
  | .finite _ m e _ => m < 2 ^ 24 ∧ -149 ≤ e ∧ (e = -149 ∨ 2 ^ 23 ≤ m)
  | .zero _ => True
  | _ => False

/-- An unpacked number is the number `x` rounded, as if exponents had no upper end. -/
structure IsRegularResult (u : UnpackedFloat) (x : ℝ) : Prop where
  regular : IsRegular u
  rounded : IsRounded x (unpackedValue u)

section

variable {u : UnpackedFloat} {x : ℝ}

theorem IsCanonical.isRegular (h : IsCanonical u) : IsRegular u := by
  cases u with
  | notANumber => exact h.elim
  | infinity s => exact h.elim
  | zero s => trivial
  | finite s m e hm => exact ⟨h.1, h.2.1, h.2.2.2⟩

/-- A regular number fits into the format if it is not too large. -/
theorem IsRegular.isCanonical (h : IsRegular u) (hlt : |unpackedValue u| < 2 ^ (128 : ℤ)) :
    IsCanonical u := by
  cases u with
  | notANumber => exact h.elim
  | infinity s => exact h.elim
  | zero s => trivial
  | finite s m e hm =>
      obtain ⟨hm24, hlow, hlead⟩ := h
      refine ⟨hm24, hlow, ?_, hlead⟩
      rw [unpackedValue, abs_mul, abs_factor, one_mul, abs_of_nonneg (by positivity)] at hlt
      rcases hlead with rfl | hm23
      · decide
      · have hle : (2 : ℝ) ^ (23 : ℤ) ≤ m := by exact_mod_cast hm23
        have hpow : (2 : ℝ) ^ (23 + e) < 2 ^ (128 : ℤ) := by
          refine lt_of_le_of_lt ?_ hlt
          rw [zpow_add₀ two_ne_zero]
          gcongr
        have := (zpow_lt_zpow_iff_right₀ one_lt_two).1 hpow
        omega

theorem IsResult.isRegularResult (h : IsResult u x) : IsRegularResult u x :=
  ⟨h.canonical.isRegular, h.rounded⟩

/-- A result fits into the format if it is not too large. -/
theorem IsRegularResult.isResult_of_lt (h : IsRegularResult u x)
    (hlt : |unpackedValue u| < 2 ^ (128 : ℤ)) : IsResult u x :=
  ⟨h.regular.isCanonical hlt, h.rounded⟩

/-- A result fits into the format if what it is rounded from is not too large. -/
theorem IsRegularResult.isResult (h : IsRegularResult u x) (hx : |x| < 2 ^ (127 : ℤ)) :
    IsResult u x :=
  h.isResult_of_lt ((h.rounded.abs_le_two_zpow (by decide) hx.le).trans_lt
    (zpow_lt_zpow_right₀ one_lt_two (by decide)))

end

theorem targetExponent_binary32 (e : ℤ) : binary32.targetExponent e = max (e - 24) (-149) := rfl

/-! ### Packing -/

theorem toNat_append_one (m : BitVec 23) : (1#1 ++ m).toNat = 2 ^ 23 + m.toNat := by
  rw [BitVec.toNat_append, ← Nat.shiftLeft_add_eq_or_of_lt m.isLt]
  rfl

/-- A number without a leading place is unpacked again. -/
theorem unpack_packComponents_zero (s : Sign) {m : ℕ} (h0 : 0 < m) (hm : m < 2 ^ 23) :
    unpack binary32 (packComponents binary32 s 0#8 (BitVec.ofNat 23 m)) =
      .finite s m (-149) h0 := by
  have hnat : (BitVec.ofNat 23 m).toNat = m := by rw [BitVec.toNat_ofNat, Nat.mod_eq_of_lt hm]
  have hne : BitVec.ofNat 23 m ≠ 0#23 := fun h => h0.ne' (hnat ▸ congrArg BitVec.toNat h)
  have hexponent : (0#8) ≠ -1#8 := by decide
  simp only [unpack, unpackMantissa_packComponents, unpackExponent_packComponents,
    unpackSign_packComponents, Sign.ofBitVec_toBitVec, hexponent, if_false, if_true, hne,
    dite_false, hnat]
  rfl

/-- A number with a leading place is unpacked again. -/
theorem unpack_packComponents_succ (s : Sign) {m b : ℕ} (h0 : 0 < m) (hlow : 2 ^ 23 ≤ m)
    (hm : m < 2 ^ 24) (hb0 : 0 < b) (hb : b < 255) :
    unpack binary32 (packComponents binary32 s (BitVec.ofNat 8 b) (BitVec.ofNat 23 m)) =
      .finite s m (b - 150) h0 := by
  have hbnat : (BitVec.ofNat 8 b).toNat = b := by
    rw [BitVec.toNat_ofNat, Nat.mod_eq_of_lt (by omega)]
  have hmnat : (1#1 ++ BitVec.ofNat 23 m).toNat = m := by
    rw [toNat_append_one, BitVec.toNat_ofNat]
    omega
  have htop : BitVec.ofNat 8 b ≠ -1#8 := by
    intro h
    have : b = 255 := hbnat ▸ congrArg BitVec.toNat h
    omega
  have hbottom : BitVec.ofNat 8 b ≠ 0#8 := fun h => hb0.ne' (hbnat ▸ congrArg BitVec.toNat h)
  simp only [unpack, unpackMantissa_packComponents, unpackExponent_packComponents,
    unpackSign_packComponents, Sign.ofBitVec_toBitVec, htop, if_false, hbottom, hbnat]
  congr 1

/-- Canonical numbers survive packing. -/
theorem unpack_pack {u : UnpackedFloat} (hu : IsCanonical u) :
    unpack binary32 (pack binary32 u) = u := by
  cases u with
  | notANumber => exact hu.elim
  | infinity s => exact hu.elim
  | zero s => exact unpack_packedZero
  | finite s m e h0 =>
      obtain ⟨hm, hlow, hhigh, hlead⟩ := hu
      obtain ⟨b, hb⟩ := Int.le.dest hlow
      have hbiased :
          (e + (binary32.exponentBias : ℤ) + binary32.mantissaBitsWithoutImplicit).toNat =
          b + 1 := by
        change (e + 127 + 23).toNat = _
        omega
      have htop : ¬ 2 ^ binary32.exponentBits ≤ b + 1 + 1 := by
        change ¬ 2 ^ 8 ≤ _
        omega
      rw [pack, hbiased, if_neg htop]
      by_cases hm23 : 2 ^ 23 ≤ m
      · have hlog : m.log2 = 23 := (Nat.log2_eq_iff h0.ne').2 ⟨hm23, hm⟩
        rw [if_pos (by rw [hlog]; rfl)]
        refine (unpack_packComponents_succ s h0 hm23 hm b.succ_pos (by omega)).trans ?_
        congr 1
        omega
      · have hlog : m.log2 < 23 := (Nat.log2_lt h0.ne').2 (by omega)
        have hshort : ¬ m.log2 + 1 = binary32.mantissaBits := by
          change ¬ m.log2 + 1 = 24
          omega
        rw [if_neg hshort]
        obtain rfl : e = -149 := by omega
        exact unpack_packComponents_zero s h0 (by omega)

/-- Unpacked finite numbers are canonical. -/
theorem isCanonical_unpack {bits : BitVec 32} (h : (unpack binary32 bits).isFinite = true) :
    IsCanonical (unpack binary32 bits) := by
  have hm : (unpackMantissa bits : BitVec binary32.mantissaBitsWithoutImplicit).toNat < 2 ^ 23 :=
    BitVec.isLt _
  have he : (unpackExponent bits : BitVec binary32.exponentBits).toNat < 2 ^ 8 := BitVec.isLt _
  revert h
  rw [unpack]
  split
  · split
    · exact fun h => nomatch h
    · exact fun h => nomatch h
  · next htop =>
      split
      · next hbottom =>
          split
          · exact fun _ => trivial
          · refine fun _ => ⟨by omega, ?_⟩
            rw [hbottom]
            exact ⟨by decide, by decide, .inl (by decide)⟩
      · next hbottom =>
          have hpositive : (unpackExponent bits : BitVec binary32.exponentBits).toNat ≠ 0 :=
            fun h => hbottom (BitVec.eq_of_toNat_eq h)
          have hfinite : (unpackExponent bits : BitVec binary32.exponentBits).toNat ≠ 255 :=
            fun h => htop (BitVec.eq_of_toNat_eq h)
          have hmantissa :
              (1#1 ++ (unpackMantissa bits : BitVec binary32.mantissaBitsWithoutImplicit)).toNat =
                2 ^ 23 +
                  (unpackMantissa bits : BitVec binary32.mantissaBitsWithoutImplicit).toNat :=
            toNat_append_one _
          refine fun _ => ⟨?_, ?_, ?_, .inr ?_⟩
          · rw [hmantissa]
            omega
          · change -149 ≤ ((unpackExponent bits : BitVec binary32.exponentBits).toNat : ℤ) - 150
            omega
          · change ((unpackExponent bits : BitVec binary32.exponentBits).toNat : ℤ) - 150 ≤ 104
            omega
          · rw [hmantissa]
            omega

/-! ### Bits for rounding -/

/-- The numbers that a mantissa with its two bits stands for. -/
def Represents : ExtendedMantissa → ℝ → Prop
  | ⟨m, false, false⟩, q => q = m
  | ⟨m, false, true⟩, q => m < q ∧ q + q < m + m + 1
  | ⟨m, true, false⟩, q => q + q = m + m + 1
  | ⟨m, true, true⟩, q => m + m + 1 < q + q ∧ q < m + 1

namespace Represents

variable {em : ExtendedMantissa} {m : ℕ} {q : ℝ}

theorem below (hlow : m < q) (hhigh : q < m + 1 / 2) : Represents ⟨m, false, true⟩ q :=
  ⟨hlow, by linarith⟩

theorem halfway (h : q = m + 1 / 2) : Represents ⟨m, true, false⟩ q := by
  rw [Represents]
  linarith

theorem above (hlow : m + 1 / 2 < q) (hhigh : q < m + 1) : Represents ⟨m, true, true⟩ q :=
  ⟨by linarith, hhigh⟩

theorem bounds (h : Represents em q) : em.mantissa ≤ q ∧ q < em.mantissa + 1 := by
  obtain ⟨m, round, sticky⟩ := em
  cases round <;> cases sticky <;> simp only [Represents] at h ⊢ <;> constructor <;> linarith

/-- Half of a number is represented by the mantissa without its last place. -/
theorem shiftRightOne (h : Represents em q) : Represents em.shiftRightOne (q / 2) := by
  obtain ⟨m, round, sticky⟩ := em
  have hm : (m : ℝ) = 2 * (m / 2 : ℕ) + (m % 2 : ℕ) := by exact_mod_cast (Nat.div_add_mod m 2).symm
  rcases Nat.mod_two_eq_zero_or_one m with hmod | hmod <;> cases round <;> cases sticky <;>
    simp only [Represents, ExtendedMantissa.shiftRightOne, hmod, hm, Nat.cast_zero, Nat.cast_one,
      bne_self_eq_false, Nat.reduceBNe, Bool.or_true, Bool.or_false] at h ⊢ <;>
    first | linarith | constructor <;> linarith

theorem shiftRight (h : Represents em q) (n : ℕ) : Represents (em >>> n) (q / 2 ^ n) := by
  induction n with
  | zero => simpa [HShiftRight.hShiftRight, Nat.repeat] using h
  | succ n ih =>
      rw [pow_succ, ← div_div]
      exact ih.shiftRightOne

/-- The rounded mantissa is the nearest integer. -/
theorem isNearestInteger (h : Represents em q) : IsNearestInteger q em.roundedMantissa := by
  obtain ⟨m, round, sticky⟩ := em
  cases round with
  | false => cases sticky with
    | false =>
        obtain rfl : q = m := h
        exact ⟨by simp [ExtendedMantissa.roundedMantissa, ExtendedMantissa.accuracy,
          Accuracy.roundToNearestEven], by simp [ExtendedMantissa.roundedMantissa,
            ExtendedMantissa.accuracy, Accuracy.roundToNearestEven]⟩
    | true =>
        obtain ⟨hlow, hhigh⟩ : m < q ∧ q + q < m + m + 1 := h
        refine .of_abs_lt (?_ : |q - m| < 1 / 2)
        rw [abs_of_pos (by linarith)]
        linarith
  | true => cases sticky with
    | false =>
        have hdouble : q + q = m + m + 1 := h
        obtain rfl : q = m + 1 / 2 := by linarith
        exact IsNearestInteger.halfway m
    | true =>
        obtain ⟨hlow, hhigh⟩ : m + m + 1 < q + q ∧ q < m + 1 := h
        refine .of_abs_lt (?_ : |q - ((m + 1 : ℕ) : ℤ)| < 1 / 2)
        push_cast
        rw [abs_of_neg (by linarith)]
        linarith

end Represents

/-! ### Rounding -/

/-- The last place that is kept of a number with a given integer part. -/
theorem isLastPlace_targetExponent {m : ℕ} {e : ℤ} {q : ℝ} (hlow : m ≤ q) (hhigh : q < m + 1)
    (he : e ≤ binary32.targetExponent (totalExponent m e)) :
    IsLastPlace (q * 2 ^ e) (binary32.targetExponent (totalExponent m e)) := by
  rw [targetExponent_binary32, totalExponent] at *
  have hpos : (0 : ℝ) < 2 ^ e := by positivity
  have hq : 0 ≤ q := m.cast_nonneg.trans hlow
  have habs : |q * 2 ^ e| = q * 2 ^ e := abs_of_nonneg (mul_nonneg hq hpos.le)
  refine ⟨le_max_right _ _, ?_, ?_⟩
  · have hm : (m : ℝ) + 1 ≤ 2 ^ ((m.log2 : ℤ) + 1) := by
      exact_mod_cast Nat.succ_le_of_lt Nat.lt_log2_self
    calc |q * 2 ^ e| = q * 2 ^ e := habs
      _ < 2 ^ ((m.log2 : ℤ) + 1) * 2 ^ e := by gcongr; linarith
      _ = 2 ^ ((m.log2 : ℤ) + 1 + e) := (zpow_add₀ two_ne_zero _ _).symm
      _ ≤ 2 ^ (max ((m.log2 : ℤ) + 1 + e - 24) (-149) + 24) :=
        zpow_le_zpow_right₀ one_le_two (by omega)
  · by_cases hm : m = 0
    · rw [hm] at he ⊢
      simp only [Nat.log2_zero, Nat.cast_zero] at he ⊢
      omega
    · by_cases hplace : max ((m.log2 : ℤ) + 1 + e - 24) (-149) = -149
      · exact .inl hplace
      · have hlog : (2 : ℝ) ^ (m.log2 : ℤ) ≤ m := by exact_mod_cast Nat.log2_self_le hm
        refine .inr ?_
        calc (2 : ℝ) ^ (max ((m.log2 : ℤ) + 1 + e - 24) (-149) + 23)
            = 2 ^ ((m.log2 : ℤ) + e) := by congr 1; omega
          _ = 2 ^ (m.log2 : ℤ) * 2 ^ e := zpow_add₀ two_ne_zero _ _
          _ ≤ q * 2 ^ e := by gcongr; linarith
          _ = |q * 2 ^ e| := habs.symm

/-- A rounded mantissa is cut again only if it got one place too long. -/
theorem shiftToTargetExponent_of_lt {n : ℕ} {t : ℤ} (hn : n < 2 ^ 24) (ht : -149 ≤ t) :
    shiftToTargetExponent binary32 n t .exact = (⟨n, false, false⟩, t) := by
  have hlog : n.log2 < 24 := by
    by_cases h0 : n = 0
    · rw [h0]
      decide
    · exact (Nat.log2_lt h0).2 hn
  have hshift : (binary32.targetExponent (totalExponent n t) - t).toNat = 0 := by
    rw [targetExponent_binary32, totalExponent]
    omega
  simp [shiftToTargetExponent, shiftToExponent, hshift, ExtendedMantissa.ofMantissaAndAccuracy,
    HShiftRight.hShiftRight, Nat.repeat]

theorem shiftToTargetExponent_of_eq {t : ℤ} (ht : -149 ≤ t) :
    shiftToTargetExponent binary32 (2 ^ 24) t .exact = (⟨2 ^ 23, false, false⟩, t + 1) := by
  have hshift : (binary32.targetExponent (totalExponent (2 ^ 24) t) - t).toNat = 1 := by
    rw [targetExponent_binary32, totalExponent, Nat.log2_two_pow]
    omega
  rw [shiftToTargetExponent, shiftToExponent, hshift]
  simp [ExtendedMantissa.ofMantissaAndAccuracy, HShiftRight.hShiftRight, Nat.repeat,
    ExtendedMantissa.shiftRightOne]

/-- What a rounded mantissa with its exponent is made into. -/
theorem exists_shiftToTargetExponent {n : ℕ} {t : ℤ} (hn : n ≤ 2 ^ 24) (ht : -149 ≤ t)
    (hlead : t = -149 ∨ 2 ^ 23 ≤ n) :
    ∃ m e, shiftToTargetExponent binary32 n t .exact = (⟨m, false, false⟩, e) ∧
      (m : ℝ) * 2 ^ e = n * 2 ^ t ∧ m < 2 ^ 24 ∧ -149 ≤ e ∧ (e = -149 ∨ 2 ^ 23 ≤ m) := by
  rcases hn.lt_or_eq with hlt | rfl
  · exact ⟨n, t, shiftToTargetExponent_of_lt hlt ht, rfl, hlt, ht, hlead⟩
  · refine ⟨2 ^ 23, t + 1, shiftToTargetExponent_of_eq ht, ?_, by decide, by omega, .inr le_rfl⟩
    rw [zpow_add_one₀ two_ne_zero]
    push_cast
    ring

/-- The first cut keeps the places of a number up to its last one. -/
theorem exists_cut {m : ℕ} {e : ℤ} {accuracy : Accuracy} {q : ℝ}
    (h : Represents (ExtendedMantissa.ofMantissaAndAccuracy m accuracy) q)
    (he : e ≤ binary32.targetExponent (totalExponent m e)) :
    ∃ em t, shiftToTargetExponent binary32 m e accuracy = (em, t) ∧ IsLastPlace (q * 2 ^ e) t ∧
      IsNearestInteger (q * 2 ^ e / 2 ^ t) em.roundedMantissa := by
  have hm : (ExtendedMantissa.ofMantissaAndAccuracy m accuracy).mantissa = m := by
    cases accuracy with
    | exact => rfl
    | inexact order => cases order <;> rfl
  obtain ⟨hlow, hhigh⟩ := h.bounds
  rw [hm] at hlow hhigh
  have hplace := isLastPlace_targetExponent hlow hhigh he
  obtain ⟨k, hk⟩ := Int.le.dest he
  refine ⟨ExtendedMantissa.ofMantissaAndAccuracy m accuracy >>> k, _, ?_, hplace, ?_⟩
  · rw [shiftToTargetExponent, shiftToExponent, ← hk, add_sub_cancel_left]
    rfl
  · have hquotient : q * 2 ^ e / 2 ^ (e + k) = q / 2 ^ k := by
      rw [zpow_add₀ two_ne_zero, zpow_natCast]
      field_simp
    rw [← hk, hquotient]
    exact (h.shiftRight k).isNearestInteger

/-- The multiple of the last place that a number is rounded to has 24 places, if none of them is
behind the lowest one, or it is the next power of two. -/
theorem bounds_of_isLastPlace {x : ℝ} {t : ℤ} {n : ℕ} (hx : 0 ≤ x) (hplace : IsLastPlace x t)
    (hn : IsNearestInteger (x / 2 ^ t) n) : n ≤ 2 ^ 24 ∧ (t = -149 ∨ 2 ^ 23 ≤ n) := by
  have hpos : (0 : ℝ) < 2 ^ t := by positivity
  constructor
  · have hle : x / 2 ^ t ≤ ((2 ^ 24 : ℤ) : ℝ) := by
      have hlt := hplace.lt.le
      rw [abs_of_nonneg hx, add_comm, zpow_add₀ two_ne_zero] at hlt
      rw [div_le_iff₀ hpos]
      exact_mod_cast hlt
    exact_mod_cast hn.le_of_le hle
  · refine hplace.le.imp id fun hle => ?_
    have hge : -(x / 2 ^ t) ≤ ((-2 ^ 23 : ℤ) : ℝ) := by
      rw [abs_of_nonneg hx, add_comm, zpow_add₀ two_ne_zero] at hle
      push_cast
      rw [neg_le_neg_iff, le_div_iff₀ hpos]
      exact_mod_cast hle
    have := hn.neg.le_of_le hge
    omega

/-- **Rounding by two bits is rounding to the nearest number**, as if exponents had no upper end. -/
theorem isRegularResult_roundWithAccuracy (s : Sign) {m : ℕ} {e : ℤ} {accuracy : Accuracy} {q : ℝ}
    (h : Represents (ExtendedMantissa.ofMantissaAndAccuracy m accuracy) q)
    (he : e ≤ binary32.targetExponent (totalExponent m e)) (hq0 : 0 ≤ q) :
    IsRegularResult (roundWithAccuracy binary32 s m e accuracy) (factor s * (q * 2 ^ e)) := by
  have hpos : 0 ≤ q * 2 ^ e := by positivity
  obtain ⟨em, t, hfirst, hplace, hnear⟩ := exists_cut h he
  obtain ⟨hle, hlead⟩ := bounds_of_isLastPlace hpos hplace hnear
  obtain ⟨n, f, hsecond, hvalue, hregular⟩ :=
    exists_shiftToTargetExponent hle hplace.lowest hlead
  have hresult : IsRounded (factor s * (q * 2 ^ e)) (factor s * (n * 2 ^ f)) := by
    have hround : IsRounded (q * 2 ^ e) (n * 2 ^ f) :=
      ⟨t, em.roundedMantissa, hplace, hnear, hvalue⟩
    cases s with
    | positive => simpa using hround
    | negative => simpa using hround.neg
  rw [roundWithAccuracy, hfirst]
  simp only [hsecond]
  split
  · next hn =>
      refine ⟨trivial, ?_⟩
      simpa [unpackedValue, hn] using hresult
  · exact ⟨hregular, hresult⟩

/-- Rounding by two bits gives a canonical number, unless the number is too large. -/
theorem isResult_roundWithAccuracy (s : Sign) {m : ℕ} {e : ℤ} {accuracy : Accuracy} {q : ℝ}
    (h : Represents (ExtendedMantissa.ofMantissaAndAccuracy m accuracy) q)
    (he : e ≤ binary32.targetExponent (totalExponent m e)) (hq0 : 0 ≤ q)
    (hq : q * 2 ^ e < 2 ^ (127 : ℤ)) :
    IsResult (roundWithAccuracy binary32 s m e accuracy) (factor s * (q * 2 ^ e)) := by
  refine (isRegularResult_roundWithAccuracy s h he hq0).isResult ?_
  rwa [abs_mul, abs_factor, one_mul, abs_of_nonneg (by positivity)]

end TextDiagram.Number
