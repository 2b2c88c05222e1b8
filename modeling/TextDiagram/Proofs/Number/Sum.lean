/-
**Sums of single-precision numbers.**

A number that is added again and again comes to differ from itself, or it does not: far out, a
number absorbs what is small against its last place.  Here the sums are compared with those of real
numbers once more, where they are not bounded beforehand.

A sum is the negative zero only if both parts are, as parts that cancel make the positive zero.  So
where the negative zero does not come in, numbers that are equal are the same.

Main definitions:

* `TextDiagram.Number.IsUpTo` — a finite number up to a multiple of a power of two.

Main results:

* `TextDiagram.Number.exact_eq_or_zero_of_beq` — equal numbers stand for the same, or are zeros;
* `TextDiagram.Number.eq_of_value_eq` — finite numbers without a negative zero are the same if they
  are equal;
* `TextDiagram.Number.add_eq_neg_zero` — what a sum must be of to be the negative zero;
* `TextDiagram.Number.isFinite_add` — adding a small number does not change whether a number is
  finite;
* `TextDiagram.Number.IsUpTo.add`, `TextDiagram.Number.IsUpTo.ofNat_mul` — multiples of a power of
  two add up without rounding;
* `TextDiagram.Number.value_add_ten` — **adding ten moves a number on**, up to `2 ^ 27`.
-/

import TextDiagram.Proofs.Number.Arithmetic

set_option relaxedAutoImplicit false
set_option autoImplicit false

namespace TextDiagram.Number

open Float.Model (UnpackedFloat)
open Float.Model.Format (binary32)
open Float.Model.UnpackedFloat

variable {x y : Float32}

/-! ### Numbers and their parts -/

/-- The fields of the bit pattern of a finite number. -/
theorem fields_of_decode_eq {n : ℕ} {negative : Bool} {magnitude : ℕ} {exponent : ℤ}
    (h : Format.single.decode n = .finite negative magnitude exponent) :
    (n / 2 ^ 31 % 2 = 1 ↔ negative = true) ∧
      ((n / 2 ^ 23 % 2 ^ 8 = 0 ∧ magnitude = n % 2 ^ 23) ∨
        (magnitude = 2 ^ 23 + n % 2 ^ 23 ∧ exponent = (n / 2 ^ 23 % 2 ^ 8 : ℕ) - 150)) := by
  rw [decode_single] at h
  split at h
  · split at h
    · exact nomatch h
    · exact nomatch h
  · split at h
    · next hfield =>
        obtain ⟨rfl, rfl, -⟩ := Exact.finite.inj h
        exact ⟨by simp, Or.inl ⟨hfield, rfl⟩⟩
    · obtain ⟨rfl, rfl, hexponent⟩ := Exact.finite.inj h
      exact ⟨by simp, Or.inr ⟨rfl, by omega⟩⟩

/-- The bit pattern of a finite number is told by what it stands for. -/
theorem eq_of_decode_eq {m n : ℕ} (hm : m < 2 ^ 32) (hn : n < 2 ^ 32) {negative : Bool}
    {magnitude : ℕ} {exponent : ℤ}
    (h : Format.single.decode m = .finite negative magnitude exponent)
    (h' : Format.single.decode n = .finite negative magnitude exponent) : m = n := by
  obtain ⟨hsign, hfields⟩ := fields_of_decode_eq h
  obtain ⟨hsign', hfields'⟩ := fields_of_decode_eq h'
  have := hsign.trans hsign'.symm
  omega

/-- A finite number is told by what it stands for. -/
theorem eq_of_exact_eq {negative : Bool} {magnitude : ℕ} {exponent : ℤ}
    (h : exact x = .finite negative magnitude exponent)
    (h' : exact y = .finite negative magnitude exponent) : x = y := by
  have hbits : x.toBits = y.toBits := by
    refine UInt32.toNat_inj.1 (eq_of_decode_eq ?_ ?_ h h')
    · exact UInt32.toNat_lt _
    · exact UInt32.toNat_lt _
  obtain ⟨⟨bits, hvalid⟩⟩ := x
  obtain ⟨⟨bits', hvalid'⟩⟩ := y
  obtain rfl : bits = bits' := hbits
  rfl

/-! ### Zeros -/

theorem exact_zero : exact 0 = .finite false 0 (-149) := by decide +kernel

theorem exact_neg_zero : exact (-0) = .finite true 0 (-149) := by decide +kernel

/-- The negative zero is the one unpacked as such. -/
theorem eq_neg_zero_iff : x = -0 ↔ x.toModel.unpack = .zero .negative := by
  constructor
  · rintro rfl
    rfl
  · intro h
    refine eq_of_exact_eq (?_ : exact x = _) exact_neg_zero
    rw [exact_eq_ofUnpacked, h]
    rfl

/-- The positive zero is the one unpacked as such. -/
theorem eq_zero_iff : x = 0 ↔ x.toModel.unpack = .zero .positive := by
  constructor
  · rintro rfl
    rfl
  · intro h
    refine eq_of_exact_eq (?_ : exact x = _) exact_zero
    rw [exact_eq_ofUnpacked, h]
    rfl

/-! ### Equal numbers -/

/-- Numbers that compare equal are the same, unless they are zeros. -/
theorem eq_or_zero_of_compare_eq {u v : UnpackedFloat} (h : u.compare v = some .eq) :
    u = v ∨ ∃ s t, u = .zero s ∧ v = .zero t := by
  cases u with
  | notANumber => exact nomatch h
  | infinity s => cases v with
    | notANumber => exact nomatch h
    | infinity t => cases s <;> cases t <;> first | exact Or.inl rfl | exact nomatch h
    | zero t => cases s <;> exact nomatch h
    | finite t n f hn => cases s <;> exact nomatch h
  | zero s => cases v with
    | notANumber => exact nomatch h
    | infinity t => cases t <;> exact nomatch h
    | zero t => exact Or.inr ⟨s, t, rfl, rfl⟩
    | finite t n f hn => cases t <;> exact nomatch h
  | finite s m e hm => cases v with
    | notANumber => exact nomatch h
    | infinity t => cases s <;> cases t <;> exact nomatch h
    | zero t => cases s <;> exact nomatch h
    | finite t n f hn =>
        have hsame : s = t ∧ (compare e f).then (compare m n) = .eq := by
          cases s with
          | negative => cases t with
            | negative => exact ⟨rfl, Ordering.swap_eq_eq.1 (Option.some.inj h)⟩
            | positive => exact nomatch h
          | positive => cases t with
            | negative => exact nomatch h
            | positive => exact ⟨rfl, Option.some.inj h⟩
        obtain ⟨rfl, hthen⟩ := hsame
        obtain ⟨hexponent, hmantissa⟩ := Ordering.then_eq_eq.1 hthen
        obtain rfl := compare_eq_iff_eq.1 hexponent
        obtain rfl := compare_eq_iff_eq.1 hmantissa
        exact Or.inl rfl

/-- Equal numbers are unpacked alike, unless they are zeros. -/
theorem unpack_eq_or_zero_of_beq (h : (x == y) = true) :
    x.toModel.unpack = y.toModel.unpack ∨
      ∃ s t, x.toModel.unpack = .zero s ∧ y.toModel.unpack = .zero t := by
  change (x.toModel.unpack.compare y.toModel.unpack == some .eq) = true at h
  exact eq_or_zero_of_compare_eq (beq_iff_eq.1 h)

/-- Equal numbers stand for the same, unless they are zeros. -/
theorem exact_eq_or_zero_of_beq (h : (x == y) = true) :
    exact x = exact y ∨ (x = 0 ∨ x = -0) ∧ (y = 0 ∨ y = -0) := by
  have hzero : ∀ {z : Float32} {s : Sign}, z.toModel.unpack = .zero s → z = 0 ∨ z = -0 := by
    intro z s hz
    cases s with
    | positive => exact Or.inl (eq_zero_iff.2 hz)
    | negative => exact Or.inr (eq_neg_zero_iff.2 hz)
  refine (unpack_eq_or_zero_of_beq h).imp (fun hunpack => ?_) ?_
  · rw [exact_eq_ofUnpacked, hunpack, ← exact_eq_ofUnpacked]
  · rintro ⟨s, t, hs, ht⟩
    exact ⟨hzero hs, hzero ht⟩

/-- The sign of a zero plays no part when it is compared. -/
theorem compare_zero (s t : Sign) (u : UnpackedFloat) :
    (UnpackedFloat.zero s).compare u = (UnpackedFloat.zero t).compare u := by
  cases u with
  | notANumber => rfl
  | infinity r => cases r <;> rfl
  | zero r => rfl
  | finite r m e hm => cases r <;> rfl

/-- Equality of numbers is symmetric and transitive, though no number that is not one is equal to
itself. -/
instance partialEquivBEq_float32 : PartialEquivBEq Float32 where
  symm {x y} h := by
    change UnpackedFloat.beq y.toModel.unpack x.toModel.unpack = true
    rcases unpack_eq_or_zero_of_beq h with heq | ⟨s, t, hs, ht⟩
    · change UnpackedFloat.beq x.toModel.unpack y.toModel.unpack = true at h
      rw [heq] at h ⊢
      exact h
    · rw [hs, ht]
      rfl
  trans {x y z} h h' := by
    change UnpackedFloat.beq x.toModel.unpack z.toModel.unpack = true
    rcases unpack_eq_or_zero_of_beq h with heq | ⟨s, t, hs, ht⟩
    · rw [heq]
      exact h'
    · change UnpackedFloat.beq y.toModel.unpack z.toModel.unpack = true at h'
      rw [ht] at h'
      rw [hs, UnpackedFloat.beq, compare_zero s t]
      exact h'

/-- Canonical numbers that are equal are the same, unless they are zeros. -/
theorem IsCanonical.eq_of_value_eq {u v : UnpackedFloat} (hu : IsCanonical u) (hv : IsCanonical v)
    (h : unpackedValue u = unpackedValue v) :
    u = v ∨ ∃ s t, u = .zero s ∧ v = .zero t := by
  refine eq_or_zero_of_compare_eq ?_
  rw [compare_eq hu hv, compare_eq_iff_eq.2 h]

/-- Finite numbers that are equal are the same, unless one is the negative zero. -/
theorem eq_of_value_eq (hx : x.isFinite = true) (hy : y.isFinite = true) (hx0 : x ≠ -0)
    (hy0 : y ≠ -0) (h : value x = value y) : x = y := by
  have hunpack : x.toModel.unpack = y.toModel.unpack := by
    rcases (isCanonical_of_isFinite hx).eq_of_value_eq (isCanonical_of_isFinite hy) h with
      heq | ⟨s, t, hs, ht⟩
    · exact heq
    · have hpositive : ∀ {z : Float32} {s : Sign}, z ≠ -0 → z.toModel.unpack = .zero s →
          s = .positive := by
        intro z s hz hs
        cases s with
        | positive => rfl
        | negative => exact absurd (eq_neg_zero_iff.2 hs) hz
      rw [hs, ht, hpositive hx0 hs, hpositive hy0 ht]
  obtain ⟨negative, magnitude, exponent, hexact⟩ := exists_exact_eq hx
  refine eq_of_exact_eq hexact ?_
  rw [exact_eq_ofUnpacked, ← hunpack, ← exact_eq_ofUnpacked]
  exact hexact

/-- Finite numbers are equal if they stand for the same. -/
theorem beq_iff_value_eq (hx : x.isFinite = true) (hy : y.isFinite = true) :
    (x == y) = true ↔ value x = value y := by
  rw [value, value]
  have h := compare_eq (isCanonical_of_isFinite hx) (isCanonical_of_isFinite hy)
  change UnpackedFloat.beq x.toModel.unpack y.toModel.unpack = true ↔ _
  rw [UnpackedFloat.beq, h, beq_iff_eq, Option.some_inj]
  exact compare_eq_iff_eq

/-! ### Sums -/

theorem unpack_pack_notANumber : unpack binary32 (pack binary32 .notANumber) = .notANumber := rfl

theorem unpack_pack_infinity (s : Sign) :
    unpack binary32 (pack binary32 (.infinity s)) = .infinity s := by
  cases s <;> rfl

/-- A regular number is packed as it is, or as an infinity. -/
theorem unpack_pack_of_isRegular {u : UnpackedFloat} (h : IsRegular u) :
    unpack binary32 (pack binary32 u) = u ∨ ∃ s, unpack binary32 (pack binary32 u) = .infinity s := by
  cases u with
  | notANumber => exact h.elim
  | infinity s => exact h.elim
  | zero s => exact Or.inl unpack_packedZero
  | finite s m e hm =>
      by_cases he : e ≤ 104
      · exact Or.inl (unpack_pack ⟨h.1, h.2.1, he, h.2.2⟩)
      · refine Or.inr ⟨s, ?_⟩
        have htop : 2 ^ binary32.exponentBits ≤
            (e + (binary32.exponentBias : ℤ) + binary32.mantissaBitsWithoutImplicit).toNat + 1 := by
          change 2 ^ 8 ≤ (e + 127 + 23).toNat + 1
          omega
        rw [pack, if_pos htop]
        exact unpack_pack_infinity s

/-- A sum of canonical numbers is the negative zero only if both are. -/
theorem eq_zero_negative_of_add {u v : UnpackedFloat} (hu : IsCanonical u) (hv : IsCanonical v)
    (h : UnpackedFloat.add binary32 u v = .zero .negative) :
    u = .zero .negative ∧ v = .zero .negative := by
  cases u with
  | notANumber => exact hu.elim
  | infinity s => exact hu.elim
  | zero s => cases v with
    | notANumber => exact hv.elim
    | infinity t => exact hv.elim
    | zero t => cases s <;> cases t <;> simp_all [UnpackedFloat.add]
    | finite t n f hn => simp [UnpackedFloat.add] at h
  | finite s m e hm => cases v with
    | notANumber => exact hv.elim
    | infinity t => exact hv.elim
    | zero t => simp [UnpackedFloat.add] at h
    | finite t n f hn =>
        -- parts that cancel make the positive zero, and others are not rounded to zero
        exfalso
        simp only [UnpackedFloat.add] at h
        generalize (s.apply (decreaseExponent m e (min e f)).1 +
          t.apply (decreaseExponent n f (min e f)).1 : ℤ) = sum at h
        by_cases hsum : sum = 0
        · simp [hsum, UnpackedFloat.normalize] at h
        · have hrounded := (isRegularResult_normalize sum (min e f) .positive).rounded
          rw [h] at hrounded
          refine hrounded.ne_zero ?_ rfl
          have hone : (1 : ℝ) ≤ |(sum : ℝ)| := by exact_mod_cast Int.one_le_abs hsum
          have hlow : (2 : ℝ) ^ (-149 : ℤ) ≤ 2 ^ min e f :=
            zpow_le_zpow_right₀ one_le_two (le_min hu.2.1 hv.2.1)
          rw [abs_mul, abs_of_pos (by positivity : (0 : ℝ) < 2 ^ min e f)]
          calc (2 : ℝ) ^ (-149 : ℤ) ≤ 2 ^ min e f := hlow
            _ ≤ |(sum : ℝ)| * 2 ^ min e f := le_mul_of_one_le_left (by positivity) hone

theorem unpack_add (x y : Float32) : (x + y).toModel.unpack =
    unpack binary32 (pack binary32 (UnpackedFloat.add binary32 x.toModel.unpack y.toModel.unpack)) :=
  rfl

/-- A sum with a part that is not finite is no number or an infinity. -/
theorem add_of_isFinite_eq_false {u v : UnpackedFloat}
    (h : u.isFinite = false ∨ v.isFinite = false) :
    UnpackedFloat.add binary32 u v = .notANumber ∨
      ∃ s, UnpackedFloat.add binary32 u v = .infinity s := by
  cases u <;> cases v <;> simp_all [UnpackedFloat.add, UnpackedFloat.isFinite]
  next s t => by_cases hst : s = t <;> simp [hst]

/-- A sum with a part that is not finite is not finite. -/
theorem isFinite_add_eq_false (h : x.isFinite = false ∨ y.isFinite = false) :
    (x + y).isFinite = false := by
  change (x + y).toModel.unpack.isFinite = false
  rw [unpack_add]
  rcases add_of_isFinite_eq_false h with hadd | ⟨s, hadd⟩
  · rw [hadd, unpack_pack_notANumber]
    rfl
  · rw [hadd, unpack_pack_infinity]
    rfl

/-- A sum is the negative zero only if both parts are. -/
theorem add_eq_neg_zero (h : x + y = -0) : x = -0 ∧ y = -0 := by
  have hfinite : (x + y).isFinite = true := by
    rw [h]
    decide +kernel
  have hx : x.isFinite = true := by
    by_contra hx
    rw [isFinite_add_eq_false (Or.inl (Bool.not_eq_true _ ▸ hx))] at hfinite
    exact nomatch hfinite
  have hy : y.isFinite = true := by
    by_contra hy
    rw [isFinite_add_eq_false (Or.inr (Bool.not_eq_true _ ▸ hy))] at hfinite
    exact nomatch hfinite
  have hcanonical := isCanonical_of_isFinite hx
  have hcanonical' := isCanonical_of_isFinite hy
  rw [eq_neg_zero_iff, unpack_add] at h
  rw [eq_neg_zero_iff, eq_neg_zero_iff]
  rcases unpack_pack_of_isRegular (isRegularResult_add hcanonical hcanonical').regular with
    heq | ⟨s, hs⟩
  · exact eq_zero_negative_of_add hcanonical hcanonical' (heq ▸ h)
  · rw [hs] at h
    exact nomatch h

/-- The largest numbers. -/
theorem abs_value_le (hx : x.isFinite = true) : |value x| ≤ 2 ^ (128 : ℤ) - 2 ^ (104 : ℤ) := by
  have h := isCanonical_of_isFinite hx
  rw [value]
  cases hu : x.toModel.unpack with
  | notANumber => exact (hu ▸ h : IsCanonical .notANumber).elim
  | infinity s => exact (hu ▸ h : IsCanonical (.infinity s)).elim
  | zero s => norm_num [unpackedValue]
  | finite s m e hm =>
      obtain ⟨hm24, -, he, -⟩ := (hu ▸ h : IsCanonical (.finite s m e hm))
      have hm' : (m : ℝ) ≤ 2 ^ 24 - 1 := by
        have : (m : ℝ) + 1 ≤ 2 ^ 24 := by exact_mod_cast hm24
        linarith
      rw [unpackedValue, abs_mul, abs_factor, one_mul, abs_of_nonneg (by positivity)]
      calc (m : ℝ) * 2 ^ e ≤ (2 ^ 24 - 1) * 2 ^ (104 : ℤ) :=
            mul_le_mul hm' (zpow_le_zpow_right₀ one_le_two he) (by positivity) (by norm_num)
        _ = 2 ^ (128 : ℤ) - 2 ^ (104 : ℤ) := by norm_num

/-- Adding a number that is not too large does not change whether a number is finite. -/
theorem isFinite_add (hy : y.isFinite = true) (hle : |value y| ≤ 2 ^ (102 : ℤ)) :
    (x + y).isFinite = x.isFinite := by
  cases hx : x.isFinite with
  | false => exact isFinite_add_eq_false (Or.inl hx)
  | true =>
      have hregular := isRegularResult_add (isCanonical_of_isFinite hx) (isCanonical_of_isFinite hy)
      have hlt : |value x + value y| < 2 ^ (128 : ℤ) - 2 ^ (103 : ℤ) := by
        have hsum := abs_add_le (value x) (value y)
        have hmax := abs_value_le hx
        have hpow : (2 : ℝ) ^ (104 : ℤ) = 4 * 2 ^ (102 : ℤ) := by norm_num
        have hpow' : (2 : ℝ) ^ (103 : ℤ) = 2 * 2 ^ (102 : ℤ) := by norm_num
        have hpos : (0 : ℝ) < 2 ^ (102 : ℤ) := by positivity
        linarith
      exact ((hregular.isResult_of_lt (hregular.rounded.abs_lt_two_zpow hlt)).isNearestTo
        (x := x + y) rfl).finite

/-! ### Steps of ten -/

/-- **Adding ten moves a number on**, as long as its last place is small enough. -/
theorem value_add_ten (hx : x.isFinite = true) (hle : |value x| ≤ 2 ^ 27) :
    (x + Float32.ofNat 10).isFinite = true ∧ value x + 1 ≤ value (x + Float32.ofNat 10) ∧
      value (x + Float32.ofNat 10) ≤ value x + 19 := by
  have hten := isNearestTo_ofNat (n := 10) (by decide)
  have hvalue : value (Float32.ofNat 10) = 10 := value_ofNat (by decide)
  have hsum : |value x + 10| ≤ 2 ^ 27 + 10 := by
    have := abs_add_le (value x) 10
    rw [abs_of_pos (by norm_num : (0 : ℝ) < 10)] at this
    linarith
  have hnear := isNearestTo_add hx hten.finite (by
    rw [hvalue]
    exact hsum.trans_lt (by norm_num))
  rw [hvalue] at hnear
  have herror := hnear.abs_sub_le
  have hbound : |value x + 10| / 2 ^ 24 + 1 / 2 ^ 150 ≤ 9 := by
    have : |value x + 10| / 2 ^ 24 ≤ (2 ^ 27 + 10) / 2 ^ 24 := by gcongr
    norm_num at this ⊢
    linarith
  obtain ⟨hlow, hhigh⟩ := abs_le.1 (herror.trans hbound)
  exact ⟨hnear.finite, by linarith, by linarith⟩

/-! ### Multiples of a power of two -/

/-- A number is finite and up to `c · 2 ^ k`. -/
structure IsUpTo (k c : ℕ) (x : Float32) : Prop where
  finite : x.isFinite = true
  le : |value x| ≤ c * 2 ^ k

namespace IsUpTo

variable {k c d : ℕ}

theorem zero : IsUpTo k 0 (Float32.ofNat 0) := by
  refine ⟨(isNearestTo_ofNat (by decide)).finite, ?_⟩
  rw [value_ofNat (by decide), Nat.cast_zero, abs_zero, zero_mul]

theorem ofNat {n : ℕ} (hn : n < 2 ^ 23) (hle : n ≤ 2 ^ k) : IsUpTo k 1 (Float32.ofNat n) := by
  refine ⟨(isNearestTo_ofNat hn).finite, ?_⟩
  rw [value_ofNat hn, abs_of_nonneg n.cast_nonneg, Nat.cast_one, one_mul]
  exact_mod_cast hle

theorem mono (h : IsUpTo k c x) (hcd : c ≤ d) : IsUpTo k d x :=
  ⟨h.finite, h.le.trans (by gcongr)⟩

/-- A number rounded from one up to a multiple of a power of two is up to it. -/
theorem of_isNearestTo {v : ℝ} (h : IsNearestTo x v) (hc : c < 2 ^ 24) (hv : |v| ≤ c * 2 ^ k) :
    IsUpTo k c x := by
  refine ⟨h.finite, ?_⟩
  have := h.rounded.abs_le_mul_two_zpow (k := k) hc (by omega) (by rwa [zpow_natCast])
  rwa [zpow_natCast] at this

/-- Bounds add up. -/
theorem add (hx : IsUpTo k c x) (hy : IsUpTo k d y) (h : (c + d) * 2 ^ k ≤ 2 ^ 27)
    (hcd : c + d < 2 ^ 24) : IsUpTo k (c + d) (x + y) := by
  have hle : |value x + value y| ≤ (c + d : ℕ) * 2 ^ k := by
    calc |value x + value y| ≤ |value x| + |value y| := abs_add_le _ _
      _ ≤ c * 2 ^ k + d * 2 ^ k := add_le_add hx.le hy.le
      _ = (c + d : ℕ) * 2 ^ k := by push_cast; ring
  have hlt : |value x + value y| < 2 ^ (127 : ℤ) := by
    have : ((c + d : ℕ) : ℝ) * 2 ^ k ≤ 2 ^ 27 := by exact_mod_cast h
    exact (hle.trans this).trans_lt (by norm_num)
  exact of_isNearestTo (isNearestTo_add hx.finite hy.finite hlt) hcd hle

/-- A multiple of a number is up to the multiple of its bound. -/
theorem ofNat_mul (hx : IsUpTo k 1 x) (hc : c < 2 ^ 23) (h : c * 2 ^ k ≤ 2 ^ 27) :
    IsUpTo k c (Float32.ofNat c * x) := by
  have hvalue : value (Float32.ofNat c) = c := value_ofNat hc
  have hle : |value (Float32.ofNat c) * value x| ≤ c * 2 ^ k := by
    have hx' := hx.le
    rw [Nat.cast_one, one_mul] at hx'
    rw [hvalue, abs_mul, abs_of_nonneg c.cast_nonneg]
    gcongr
  have hlt : |value (Float32.ofNat c) * value x| < 2 ^ (127 : ℤ) := by
    have : (c : ℝ) * 2 ^ k ≤ 2 ^ 27 := by exact_mod_cast h
    exact (hle.trans this).trans_lt (by norm_num)
  exact of_isNearestTo (isNearestTo_mul (isNearestTo_ofNat hc).finite hx.finite hlt) (by omega) hle

end IsUpTo

end TextDiagram.Number
