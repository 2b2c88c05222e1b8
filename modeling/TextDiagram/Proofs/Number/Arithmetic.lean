/-
**Single-precision arithmetic on the real line.**

Every finite single-precision number stands for a real number.  The operations give the real result
rounded, as long as it is below the largest powers of two, and comparing numbers compares what they
stand for.  Bounds by powers of two are kept by rounding, so they can be carried through a whole
computation without rounding errors.

Main definitions:

* `TextDiagram.Number.value` — the real number that a single-precision number stands for;
* `TextDiagram.Number.IsNearestTo` — a finite number that is a real number rounded;
* `TextDiagram.Number.IsWithin` — a finite number up to a power of two.

Main results:

* `TextDiagram.Number.exact_eq_ofUnpacked` — decoding a number is unpacking it;
* `TextDiagram.Number.IsWithin.add` and its kin — **what the operations give**, with a bound;
* `TextDiagram.Number.lt_iff_value_lt` — numbers are compared by what they stand for.
-/

import TextDiagram.Number.Single
import TextDiagram.Proofs.Number.Operation

set_option relaxedAutoImplicit false
set_option autoImplicit false

namespace TextDiagram.Number

open Float.Model (UnpackedFloat)
open Float.Model.Format (binary32)
open Float.Model.UnpackedFloat

/-! ### Decoding -/

/-- Whether a sign is the negative one. -/
def isNegative : Sign → Bool
  | .negative => true
  | .positive => false

/-- What an unpacked number stands for. -/
def ofUnpacked : UnpackedFloat → Exact
  | .finite s m e _ => .finite (isNegative s) m e
  | .zero s => .finite (isNegative s) 0 (-149)
  | .infinity s => .infinite (isNegative s)
  | .notANumber => .notANumber

theorem isNegative_ofBitVec (b : BitVec 1) :
    isNegative (Sign.ofBitVec b) = decide (b.toNat = 1) := by
  have : ∀ b : BitVec 1, isNegative (Sign.ofBitVec b) = decide (b.toNat = 1) := by decide
  exact this b

/-- Decoding in terms of the three fields of a bit pattern. -/
theorem decode_single (n : ℕ) : Format.single.decode n =
    if n / 2 ^ 23 % 2 ^ 8 = 255 then
      if n % 2 ^ 23 = 0 then .infinite (n / 2 ^ 31 % 2 = 1) else .notANumber
    else if n / 2 ^ 23 % 2 ^ 8 = 0 then .finite (n / 2 ^ 31 % 2 = 1) (n % 2 ^ 23) (-149)
    else .finite (n / 2 ^ 31 % 2 = 1) (2 ^ 23 + n % 2 ^ 23)
      ((n / 2 ^ 23 % 2 ^ 8 : ℕ) - 1 - 149) := rfl

/-- Decoding a bit pattern is unpacking it. -/
theorem decode_eq_ofUnpacked (bits : BitVec 32) :
    Format.single.decode bits.toNat = ofUnpacked (unpack binary32 bits) := by
  have hm : (@unpackMantissa binary32 bits).toNat = bits.toNat % 2 ^ 23 := by
    rw [unpackMantissa_def, BitVec.extractLsb'_toNat, Nat.shiftRight_zero]
  have he : (@unpackExponent binary32 bits).toNat = bits.toNat / 2 ^ 23 % 2 ^ 8 := by
    rw [unpackExponent_def, BitVec.extractLsb'_toNat, Nat.shiftRight_eq_div_pow]
  have hs : (@unpackSign binary32 bits).toNat = bits.toNat / 2 ^ 31 % 2 := by
    rw [unpackSign_def, BitVec.extractLsb'_toNat, Nat.shiftRight_eq_div_pow]
    rfl
  rw [decode_single, ← hm, ← he, ← hs, ← isNegative_ofBitVec, unpack]
  simp only [← BitVec.toNat_inj, show (-1#8).toNat = 255 from rfl, show (0#8).toNat = 0 from rfl,
    show (0#23).toNat = 0 from rfl]
  split
  · next htop =>
      split
      · rfl
      · rfl
  · next htop =>
      split
      · next hbottom =>
          split
          · next h0 =>
              rw [h0]
              rfl
          · rw [hbottom]
            rfl
      · next hbottom =>
          rw [ofUnpacked, toNat_append_one]
          congr 1
          change _ = ((@unpackExponent binary32 bits).toNat : ℤ) - 150
          omega

/-- Decoding a number is unpacking it. -/
theorem exact_eq_ofUnpacked (x : Float32) : exact x = ofUnpacked x.toModel.unpack :=
  decode_eq_ofUnpacked x.toBits.toBitVec

/-! ### Values -/

/-- The real number that a single-precision number stands for, and zero if it is not finite. -/
noncomputable def value (x : Float32) : ℝ := unpackedValue x.toModel.unpack

theorem isCanonical_of_isFinite {x : Float32} (h : x.isFinite = true) :
    IsCanonical x.toModel.unpack := isCanonical_unpack h

/-- A number is finite and the number `v` rounded. -/
structure IsNearestTo (x : Float32) (v : ℝ) : Prop where
  finite : x.isFinite = true
  rounded : IsRounded v (value x)

/-- A result on unpacked numbers, packed again. -/
theorem IsResult.isNearestTo {u : UnpackedFloat} {v : ℝ} {x : Float32} (h : IsResult u v)
    (hx : x.toModel = Float32.Model.pack u) : IsNearestTo x v := by
  have hunpack : x.toModel.unpack = u := hx ▸ unpack_pack h.canonical
  refine ⟨?_, by rw [value, hunpack]; exact h.rounded⟩
  change x.toModel.unpack.isFinite = true
  rw [hunpack]
  have := h.canonical
  cases u with
  | notANumber => exact this.elim
  | infinity s => exact this.elim
  | zero s => rfl
  | finite s m e h => rfl

namespace IsNearestTo

variable {x y : Float32} {v : ℝ}

theorem value_unique (hx : IsNearestTo x v) (hy : IsNearestTo y v) : value x = value y :=
  hx.rounded.unique hy.rounded

theorem value_neg (hx : IsNearestTo x v) (hy : IsNearestTo y (-v)) : value y = -value x :=
  hy.rounded.unique hx.rounded.neg

/-- The rounding error of a number. -/
theorem abs_sub_le (h : IsNearestTo x v) : |value x - v| ≤ |v| / 2 ^ 24 + 1 / 2 ^ 150 := by
  have := h.rounded.abs_sub_le
  rwa [zpow_neg, zpow_neg, ← div_eq_mul_inv, ← one_div] at this

end IsNearestTo

/-- The rounding error of a number that is rounded from one up to a bound. -/
theorem IsNearestTo.abs_sub_le_of_le {x : Float32} {v bound : ℝ} (h : IsNearestTo x v)
    (hv : |v| ≤ bound) : |value x - v| ≤ bound / 2 ^ 24 + 1 / 2 ^ 150 :=
  h.abs_sub_le.trans (by gcongr)

/-- The value of a number is kept by rounding. -/
theorem isNearestTo_value {x : Float32} (h : x.isFinite = true) : IsNearestTo x (value x) := by
  refine ⟨h, ?_⟩
  rw [value]
  exact (isCanonical_of_isFinite h).isResult.rounded

/-- A number rounded from the value of another one has this value. -/
theorem IsNearestTo.value_eq {x y : Float32} (h : IsNearestTo y (value x))
    (hx : x.isFinite = true) : value y = value x :=
  h.value_unique (isNearestTo_value hx)

/-! ### Operations -/

variable {x y : Float32}

theorem isNearestTo_neg (hx : x.isFinite = true) : IsNearestTo (-x) (-value x) := by
  have h := (isCanonical_of_isFinite hx).neg
  rw [value, ← h.2]
  exact h.1.isResult.isNearestTo rfl

theorem isNearestTo_abs (hx : x.isFinite = true) : IsNearestTo x.abs |value x| := by
  have h := (isCanonical_of_isFinite hx).abs
  rw [value, ← h.2]
  exact h.1.isResult.isNearestTo rfl

/-- Leaving out the sign is exact. -/
theorem value_abs (hx : x.isFinite = true) : value x.abs = |value x| := by
  have hnear := isNearestTo_abs hx
  have hself := isNearestTo_value hx
  rcases abs_choice (value x) with heq | heq
  · rw [heq] at hnear ⊢
    exact hnear.value_unique hself
  · rw [heq] at hnear ⊢
    exact hself.value_neg hnear

theorem isNearestTo_add (hx : x.isFinite = true) (hy : y.isFinite = true)
    (h : |value x + value y| < 2 ^ (127 : ℤ)) : IsNearestTo (x + y) (value x + value y) := by
  rw [value, value] at h ⊢
  exact (isResult_add (isCanonical_of_isFinite hx) (isCanonical_of_isFinite hy) h).isNearestTo rfl

theorem isNearestTo_sub (hx : x.isFinite = true) (hy : y.isFinite = true)
    (h : |value x - value y| < 2 ^ (127 : ℤ)) : IsNearestTo (x - y) (value x - value y) := by
  rw [value, value] at h ⊢
  exact (isResult_sub (isCanonical_of_isFinite hx) (isCanonical_of_isFinite hy) h).isNearestTo rfl

theorem isNearestTo_mul (hx : x.isFinite = true) (hy : y.isFinite = true)
    (h : |value x * value y| < 2 ^ (127 : ℤ)) : IsNearestTo (x * y) (value x * value y) := by
  rw [value, value] at h ⊢
  exact (isResult_mul (isCanonical_of_isFinite hx) (isCanonical_of_isFinite hy) h).isNearestTo rfl

theorem isNearestTo_div (hx : x.isFinite = true) (hy : y.isFinite = true) (hy0 : value y ≠ 0)
    (h : |value x / value y| < 2 ^ (127 : ℤ)) : IsNearestTo (x / y) (value x / value y) := by
  rw [value] at hy0
  rw [value, value] at h ⊢
  exact (isResult_div (isCanonical_of_isFinite hx) (isCanonical_of_isFinite hy) hy0 h).isNearestTo
    rfl

theorem isNearestTo_sqrt (hx : x.isFinite = true) (hx0 : 0 ≤ value x)
    (h : √(value x) < 2 ^ (127 : ℤ)) : IsNearestTo x.sqrt (√(value x)) := by
  rw [value] at h hx0 ⊢
  exact (isResult_sqrt (isCanonical_of_isFinite hx) hx0 h).isNearestTo rfl

/-! ### Comparison -/

/-- Finite numbers are compared by what they stand for. -/
theorem lt_iff_value_lt (hx : x.isFinite = true) (hy : y.isFinite = true) :
    x < y ↔ value x < value y := by
  rw [value, value]
  have h := compare_eq (isCanonical_of_isFinite hx) (isCanonical_of_isFinite hy)
  change decide (UnpackedFloat.lt x.toModel.unpack y.toModel.unpack = true) = true ↔ _
  rw [decide_eq_true_eq, UnpackedFloat.lt, h, beq_iff_eq, Option.some_inj]
  exact compare_lt_iff_lt

theorem le_iff_value_le (hx : x.isFinite = true) (hy : y.isFinite = true) :
    x ≤ y ↔ value x ≤ value y := by
  rw [value, value]
  have h := compare_eq (isCanonical_of_isFinite hx) (isCanonical_of_isFinite hy)
  change decide (UnpackedFloat.le x.toModel.unpack y.toModel.unpack = true) = true ↔ _
  rw [decide_eq_true_eq, UnpackedFloat.le, h, Option.any_some, Ordering.isLE_iff_ne_gt]
  exact compare_le_iff_le

/-! ### Given numbers -/

theorem isFinite_of_ofUnpacked {u : UnpackedFloat} {negative : Bool} {magnitude : ℕ} {exponent : ℤ}
    (h : ofUnpacked u = .finite negative magnitude exponent) : u.isFinite = true := by
  cases u with
  | notANumber => cases h
  | infinity s => cases h
  | zero s => rfl
  | finite s m e h => rfl

theorem isFinite_of_exact {negative : Bool} {magnitude : ℕ} {exponent : ℤ}
    (h : exact x = .finite negative magnitude exponent) : x.isFinite = true :=
  isFinite_of_ofUnpacked ((exact_eq_ofUnpacked x).symm.trans h)

theorem unpackedValue_of_ofUnpacked {u : UnpackedFloat} {negative : Bool} {magnitude : ℕ}
    {exponent : ℤ} (h : ofUnpacked u = .finite negative magnitude exponent) :
    unpackedValue u = (if negative then -1 else 1) * (magnitude * 2 ^ exponent) := by
  cases u with
  | notANumber => cases h
  | infinity s => cases h
  | zero s =>
      obtain ⟨-, rfl, -⟩ := Exact.finite.inj h
      simp [unpackedValue]
  | finite s m e hm =>
      obtain ⟨rfl, rfl, rfl⟩ := Exact.finite.inj h
      cases s with
      | negative => simp [unpackedValue, isNegative]
      | positive => simp [unpackedValue, isNegative]

/-- What a number stands for whose parts are known. -/
theorem value_of_exact {negative : Bool} {magnitude : ℕ} {exponent : ℤ}
    (h : exact x = .finite negative magnitude exponent) :
    value x = (if negative then -1 else 1) * (magnitude * 2 ^ exponent) := by
  exact unpackedValue_of_ofUnpacked ((exact_eq_ofUnpacked x).symm.trans h)

theorem exists_exact_eq (hx : x.isFinite = true) :
    ∃ negative magnitude exponent, exact x = .finite negative magnitude exponent := by
  have h := isCanonical_of_isFinite hx
  rw [exact_eq_ofUnpacked]
  cases hu : x.toModel.unpack with
  | notANumber => exact (hu ▸ h : IsCanonical .notANumber).elim
  | infinity s => exact (hu ▸ h : IsCanonical (.infinity s)).elim
  | zero s => exact ⟨_, _, _, rfl⟩
  | finite s m e h => exact ⟨_, _, _, rfl⟩

/-- Integers of at most 24 places are kept. -/
theorem isRounded_natCast {n : ℕ} (hn : n < 2 ^ 24) : IsRounded n n := by
  rcases Nat.eq_zero_or_pos n with rfl | hpos
  · simpa using isRounded_zero
  · have hlog : n.log2 < 24 := (Nat.log2_lt hpos.ne').2 hn
    obtain ⟨k, hk⟩ := Nat.le.dest (Nat.le_of_lt_succ hlog)
    have hlow : 2 ^ 23 ≤ n * 2 ^ k := by
      rw [← hk, pow_add]
      gcongr
      exact Nat.log2_self_le hpos.ne'
    have hhigh : n * 2 ^ k < 2 ^ 24 := by
      rw [show 24 = n.log2 + 1 + k by omega, pow_add]
      gcongr
      exact Nat.lt_log2_self
    have h := isRounded_of_lt hhigh (e := -k) (by omega) (.inr hlow) .positive
    have hvalue : ((n * 2 ^ k : ℕ) : ℝ) * 2 ^ (-k : ℤ) = n := by
      push_cast
      rw [zpow_neg, zpow_natCast, mul_assoc, mul_inv_cancel₀ (by positivity), mul_one]
    rwa [factor_positive, one_mul, hvalue] at h

/-- The number of a small count stands for the count. -/
theorem isNearestTo_ofNat {n : ℕ} (hn : n < 2 ^ 23) : IsNearestTo (Float32.ofNat n) n := by
  have hone : exact (Float32.ofBits 0x3F800000) = .finite false (2 ^ 23) (-23) := by decide +kernel
  have hone' : value (Float32.ofBits 0x3F800000) = 1 := by
    rw [value_of_exact hone]
    norm_num
  have hsmall : (n : ℝ) < 2 ^ (127 : ℤ) := by
    have : (n : ℝ) < 2 ^ 23 := by exact_mod_cast hn
    norm_num at this ⊢
    linarith
  have hcount : IsNearestTo n.toUInt64.toFloat32 n := by
    have h := isResult_normalize n 0 .positive (by simpa using hsmall)
    have hnat : n.toUInt64.toNat = n := Nat.mod_eq_of_lt (by omega)
    rw [zpow_zero, mul_one, Int.cast_natCast] at h
    refine h.isNearestTo ?_
    change Float32.Model.pack
      (UnpackedFloat.normalize binary32 (n.toUInt64.toNat : ℤ) 0 .positive) = _
    rw [hnat]
  have hvalue : value n.toUInt64.toFloat32 = n :=
    hcount.rounded.unique (isRounded_natCast (by omega))
  have hproduct := isNearestTo_mul hcount.finite (isFinite_of_exact hone) (by
    rwa [hone', mul_one, hvalue, abs_of_nonneg n.cast_nonneg])
  rw [hone', mul_one, hvalue] at hproduct
  change IsNearestTo (Float32.ofScientific n false 0) n
  rw [Float32.ofScientific, dif_pos ⟨hn, by decide⟩]
  exact hproduct

/-- A small count is kept. -/
theorem value_ofNat {n : ℕ} (hn : n < 2 ^ 23) : value (Float32.ofNat n) = n :=
  (isNearestTo_ofNat hn).rounded.unique (isRounded_natCast (by omega))

/-! ### Bounds -/

/-- A number is finite and not larger than `2 ^ k`. -/
structure IsWithin (k : ℤ) (x : Float32) : Prop where
  finite : x.isFinite = true
  le : |value x| ≤ 2 ^ k

theorem IsNearestTo.isWithin {v : ℝ} {k : ℤ} (h : IsNearestTo x v) (hv : |v| ≤ 2 ^ k)
    (hk : -149 ≤ k) : IsWithin k x :=
  ⟨h.finite, h.rounded.abs_le_two_zpow hk hv⟩

/-- A number whose parts are known. -/
theorem isWithin_of_exact {negative : Bool} {magnitude : ℕ} {exponent k : ℤ}
    (h : exact x = .finite negative magnitude exponent)
    (hle : (magnitude : ℝ) * 2 ^ exponent ≤ 2 ^ k) : IsWithin k x := by
  refine ⟨isFinite_of_exact h, ?_⟩
  have hsign : |if negative then (-1 : ℝ) else 1| = 1 := by
    cases negative with
    | true => simp
    | false => simp
  have hpositive : (0 : ℝ) ≤ magnitude * 2 ^ exponent := by positivity
  rwa [value_of_exact h, abs_mul, hsign, one_mul, abs_of_nonneg hpositive]

/-- A number that is compared with one of a known size. -/
theorem isWithin_of_abs_le {bound : Float32} {k : ℤ} (hbound : IsWithin k bound)
    (hx : x.isFinite = true ∧ x.abs ≤ bound) : IsWithin k x := by
  refine ⟨hx.1, ?_⟩
  have hle := (le_iff_value_le (isNearestTo_abs hx.1).finite hbound.finite).1 hx.2
  rw [value_abs hx.1] at hle
  exact hle.trans ((le_abs_self _).trans hbound.le)

/-- A count of up to a power of two. -/
theorem isWithin_ofNat_of_le {n k : ℕ} (hk : k ≤ 22) (hn : n ≤ 2 ^ k) :
    IsWithin k (Float32.ofNat n) := by
  have hsmall : n < 2 ^ 23 :=
    (hn.trans (Nat.pow_le_pow_right Nat.two_pos hk)).trans_lt (by decide)
  refine ⟨(isNearestTo_ofNat hsmall).finite, ?_⟩
  rw [value_ofNat hsmall, abs_of_nonneg n.cast_nonneg, zpow_natCast]
  exact_mod_cast hn

/-- A count of up to a million. -/
theorem isWithin_ofNat {n : ℕ} (hn : n ≤ 2 ^ 20) : IsWithin 20 (Float32.ofNat n) :=
  isWithin_ofNat_of_le (k := 20) (by decide) hn

theorem value_zero : (0 : Float32).isFinite = true ∧ value 0 = 0 := by
  have h : exact (0 : Float32) = .finite false 0 (-149) := by decide +kernel
  exact ⟨isFinite_of_exact h, by rw [value_of_exact h]; norm_num⟩

theorem value_one : (1 : Float32).isFinite = true ∧ value 1 = 1 := by
  have h : exact (1 : Float32) = .finite false (2 ^ 23) (-23) := by decide +kernel
  exact ⟨isFinite_of_exact h, by rw [value_of_exact h]; norm_num⟩

theorem value_fifty : (50 : Float32).isFinite = true ∧ value 50 = 50 := by
  have h : exact (50 : Float32) = .finite false 13107200 (-18) := by decide +kernel
  exact ⟨isFinite_of_exact h, by rw [value_of_exact h]; norm_num⟩

theorem isWithin_zero (k : ℤ) : IsWithin k 0 :=
  ⟨value_zero.1, by rw [value_zero.2, abs_zero]; positivity⟩

theorem isWithin_one : IsWithin 0 1 := ⟨value_one.1, by rw [value_one.2, abs_one, zpow_zero]⟩

theorem abs_lt_of_le {v : ℝ} {k : ℤ} (hv : |v| ≤ 2 ^ k) (hk : k < 127) : |v| < 2 ^ (127 : ℤ) :=
  hv.trans_lt (zpow_lt_zpow_right₀ one_lt_two hk)

namespace IsWithin

variable {j k : ℤ}

theorem mono (h : IsWithin j x) (hjk : j ≤ k) : IsWithin k x :=
  ⟨h.finite, h.le.trans (zpow_le_zpow_right₀ one_le_two hjk)⟩

theorem neg (h : IsWithin k x) : value (-x) = -value x ∧ IsWithin k (-x) := by
  have hnear := isNearestTo_neg h.finite
  have hvalue : value (-x) = -value x := (isNearestTo_value h.finite).value_neg hnear
  exact ⟨hvalue, hnear.finite, by rw [hvalue, abs_neg]; exact h.le⟩

theorem abs (h : IsWithin k x) : value x.abs = |value x| ∧ IsWithin k x.abs :=
  ⟨value_abs h.finite, (isNearestTo_abs h.finite).finite,
    by rw [value_abs h.finite, abs_abs]; exact h.le⟩

theorem abs_value_add_le (hx : IsWithin k x) (hy : IsWithin k y) :
    |value x + value y| ≤ 2 ^ (k + 1) := by
  calc |value x + value y| ≤ |value x| + |value y| := abs_add_le _ _
    _ ≤ 2 ^ k + 2 ^ k := add_le_add hx.le hy.le
    _ = 2 ^ (k + 1) := by rw [zpow_add_one₀ two_ne_zero, mul_two]

theorem add (hx : IsWithin k x) (hy : IsWithin k y) (hk : -149 ≤ k + 1 ∧ k + 1 < 127) :
    IsNearestTo (x + y) (value x + value y) ∧ IsWithin (k + 1) (x + y) := by
  have hle := hx.abs_value_add_le hy
  have h := isNearestTo_add hx.finite hy.finite (abs_lt_of_le hle hk.2)
  exact ⟨h, h.isWithin hle hk.1⟩

/-- Adding zero changes nothing. -/
theorem add_zero (hx : IsWithin k x) (hk : k < 127) :
    IsWithin k (x + 0) ∧ value (x + 0) = value x := by
  have hnear := isNearestTo_add hx.finite value_zero.1 (by
    rw [value_zero.2, AddMonoid.add_zero]
    exact abs_lt_of_le hx.le hk)
  rw [value_zero.2, AddMonoid.add_zero] at hnear
  have hvalue := hnear.value_eq hx.finite
  exact ⟨⟨hnear.finite, by rw [hvalue]; exact hx.le⟩, hvalue⟩

theorem abs_value_sub_le (hx : IsWithin k x) (hy : IsWithin k y) :
    |value x - value y| ≤ 2 ^ (k + 1) := by
  calc |value x - value y| ≤ |value x| + |value y| := abs_sub _ _
    _ ≤ 2 ^ k + 2 ^ k := add_le_add hx.le hy.le
    _ = 2 ^ (k + 1) := by rw [zpow_add_one₀ two_ne_zero, mul_two]

theorem sub (hx : IsWithin k x) (hy : IsWithin k y) (hk : -149 ≤ k + 1 ∧ k + 1 < 127) :
    IsNearestTo (x - y) (value x - value y) ∧ IsWithin (k + 1) (x - y) := by
  have hle := hx.abs_value_sub_le hy
  have h := isNearestTo_sub hx.finite hy.finite (abs_lt_of_le hle hk.2)
  exact ⟨h, h.isWithin hle hk.1⟩

theorem abs_value_mul_le (hx : IsWithin j x) (hy : IsWithin k y) :
    |value x * value y| ≤ 2 ^ (j + k) := by
  rw [abs_mul, zpow_add₀ two_ne_zero]
  exact mul_le_mul hx.le hy.le (abs_nonneg _) (by positivity)

theorem mul (hx : IsWithin j x) (hy : IsWithin k y) (hjk : -149 ≤ j + k ∧ j + k < 127) :
    IsNearestTo (x * y) (value x * value y) ∧ IsWithin (j + k) (x * y) := by
  have hle := hx.abs_value_mul_le hy
  have h := isNearestTo_mul hx.finite hy.finite (abs_lt_of_le hle hjk.2)
  exact ⟨h, h.isWithin hle hjk.1⟩

/-- A square root of a number up to a power of four. -/
theorem sqrt (hx : IsWithin (k + k) x) (hx0 : 0 ≤ value x) (hk : -149 ≤ k ∧ k < 127) :
    IsNearestTo x.sqrt (√(value x)) ∧ IsWithin k x.sqrt := by
  have hle : |√(value x)| ≤ 2 ^ k := by
    have hx' := hx.le
    rw [abs_of_nonneg hx0, zpow_add₀ two_ne_zero] at hx'
    rw [abs_of_nonneg (Real.sqrt_nonneg _)]
    exact Real.sqrt_le_iff.2 ⟨by positivity, by rw [sq]; exact hx'⟩
  have h := isNearestTo_sqrt hx.finite hx0
    ((le_abs_self _).trans_lt (abs_lt_of_le hle hk.2))
  exact ⟨h, h.isWithin hle hk.1⟩

/-- Half of a number. -/
theorem half (hx : IsWithin (k + 1) x) (hk : -149 ≤ k ∧ k < 127) :
    IsNearestTo (x / Float32.ofNat 2) (value x / 2) ∧ IsWithin k (x / Float32.ofNat 2) := by
  have htwo := isNearestTo_ofNat (n := 2) (by decide)
  have hvalue : value (Float32.ofNat 2) = 2 := value_ofNat (by decide)
  have hle : |value x / 2| ≤ 2 ^ k := by
    have hx' := hx.le
    rw [zpow_add_one₀ two_ne_zero] at hx'
    rw [abs_div, abs_two]
    linarith
  have h := isNearestTo_div hx.finite htwo.finite (by rw [hvalue]; exact two_ne_zero)
    (by rw [hvalue]; exact abs_lt_of_le hle hk.2)
  rw [hvalue] at h
  exact ⟨h, h.isWithin hle hk.1⟩

/-- The rounding error of a sum. -/
theorem abs_add_sub_le (hx : IsWithin k x) (hy : IsWithin k y) (hk : -149 ≤ k + 1 ∧ k + 1 < 127) :
    |value (x + y) - (value x + value y)| ≤ 2 ^ (k + 1) / 2 ^ 24 + 1 / 2 ^ 150 :=
  (hx.add hy hk).1.abs_sub_le_of_le (hx.abs_value_add_le hy)

/-- The rounding error of a difference. -/
theorem abs_sub_sub_le (hx : IsWithin k x) (hy : IsWithin k y) (hk : -149 ≤ k + 1 ∧ k + 1 < 127) :
    |value (x - y) - (value x - value y)| ≤ 2 ^ (k + 1) / 2 ^ 24 + 1 / 2 ^ 150 :=
  (hx.sub hy hk).1.abs_sub_le_of_le (hx.abs_value_sub_le hy)

/-- The rounding error of a product. -/
theorem abs_mul_sub_le (hx : IsWithin j x) (hy : IsWithin k y)
    (hjk : -149 ≤ j + k ∧ j + k < 127) :
    |value (x * y) - value x * value y| ≤ 2 ^ (j + k) / 2 ^ 24 + 1 / 2 ^ 150 :=
  (hx.mul hy hjk).1.abs_sub_le_of_le (hx.abs_value_mul_le hy)

end IsWithin

end TextDiagram.Number
