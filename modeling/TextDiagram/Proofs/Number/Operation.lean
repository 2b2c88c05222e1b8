/-
**The operations on unpacked numbers.**

Each operation computes an exact result, or one with a note on how what is missing compares with a
half, and rounds it.  So the result is the real number that it should be, rounded, as long as that
is below the largest powers of two.

Main results:

* `TextDiagram.Number.isResult_add`, `TextDiagram.Number.isResult_sub`,
  `TextDiagram.Number.isResult_mul`, `TextDiagram.Number.isResult_div` — **the four operations are
  rounded correctly**;
* `TextDiagram.Number.isResult_sqrt` — so is the square root;
* `TextDiagram.Number.compare_eq` — canonical numbers are compared by their values.
-/

import TextDiagram.Proofs.Number.Unpacked

set_option relaxedAutoImplicit false
set_option autoImplicit false

namespace TextDiagram.Number

open Float.Model (totalExponent UnpackedFloat)
open Float.Model.Format (binary32)
open Float.Model.UnpackedFloat

/-! ### Canonical numbers -/

theorem isRounded_zero : IsRounded 0 0 :=
  ⟨-149, 0, ⟨le_rfl, by rw [abs_zero]; positivity, .inl rfl⟩, ⟨by simp, by simp⟩, by simp⟩

theorem isResult_zero (s : Sign) : IsResult (.zero s) 0 := ⟨trivial, isRounded_zero⟩

/-- A multiple of a power of two that has at most 24 places, none of them behind the lowest one, is
kept. -/
theorem isRounded_of_lt {m : ℕ} {e : ℤ} (hm : m < 2 ^ 24) (he : -149 ≤ e)
    (hlead : e = -149 ∨ 2 ^ 23 ≤ m) (s : Sign) :
    IsRounded (factor s * (m * 2 ^ e)) (factor s * (m * 2 ^ e)) := by
  have hpos : (0 : ℝ) < 2 ^ e := by positivity
  have habs : |factor s * (m * 2 ^ e)| = m * 2 ^ e := by
    rw [abs_mul, abs_factor, one_mul, abs_of_nonneg (by positivity)]
  have hm' : (m : ℝ) < 2 ^ (24 : ℤ) := by exact_mod_cast hm
  refine ⟨e, s.apply m, ⟨he, ?_, hlead.imp id fun hle => ?_⟩, ?_, ?_⟩
  · rw [habs, add_comm, zpow_add₀ two_ne_zero]
    gcongr
  · have hle' : (2 : ℝ) ^ (23 : ℤ) ≤ m := by exact_mod_cast hle
    rw [habs, add_comm, zpow_add₀ two_ne_zero]
    gcongr
  · rw [← mul_assoc, mul_div_cancel_right₀ _ hpos.ne']
    cases s <;> exact ⟨by simp [Sign.apply], by simp [Sign.apply]⟩
  · cases s <;> simp [Sign.apply]

/-- A canonical number is its own value rounded. -/
theorem IsCanonical.isResult {u : UnpackedFloat} (h : IsCanonical u) :
    IsResult u (unpackedValue u) := by
  refine ⟨h, ?_⟩
  cases u with
  | notANumber => exact h.elim
  | infinity s => exact h.elim
  | zero s => exact isRounded_zero
  | finite s m e hm => exact isRounded_of_lt h.1 h.2.1 h.2.2.2 s

/-! ### Sums -/

/-- Widening a mantissa keeps the value. -/
theorem decreaseExponent_eq {m : ℕ} {e t : ℤ} :
    ∃ k : ℕ, decreaseExponent m e t = (m * 2 ^ k, e - k) ∧ (t ≤ e → e - k = t) ∧
      (e ≤ t → k = 0) := by
  refine ⟨(e - t).toNat, by rw [decreaseExponent, Nat.shiftLeft_eq], fun h => ?_, fun h => ?_⟩
  · omega
  · omega

theorem log2_mul_two_pow {m : ℕ} (hm : m ≠ 0) (k : ℕ) : (m * 2 ^ k).log2 = m.log2 + k := by
  induction k with
  | zero => simp
  | succ k ih =>
      rw [pow_succ', mul_left_comm, Nat.log2_two_mul (by positivity), ih, add_assoc]

theorem mul_two_zpow_sub (m : ℝ) (e : ℤ) (k : ℕ) : m * 2 ^ k * 2 ^ (e - k) = m * 2 ^ e := by
  rw [zpow_sub₀ two_ne_zero, zpow_natCast]
  field_simp

theorem represents_exact (m : ℕ) : Represents (ExtendedMantissa.ofMantissaAndAccuracy m .exact) m :=
  rfl

theorem isRegularResult_round (s : Sign) {m : ℕ} {e : ℤ} (hm : 0 < m) :
    IsRegularResult (UnpackedFloat.round binary32 s m e) (factor s * (m * 2 ^ e)) := by
  obtain ⟨k, hk, hle, hzero⟩ := decreaseExponent_eq (m := m) (e := e)
    (t := binary32.targetExponent (totalExponent m e))
  have hvalue : ((m * 2 ^ k : ℕ) : ℝ) * 2 ^ (e - k) = m * 2 ^ e := by
    push_cast
    exact mul_two_zpow_sub m e k
  rw [UnpackedFloat.round, hk, ← hvalue]
  refine isRegularResult_roundWithAccuracy s (represents_exact _) ?_ (Nat.cast_nonneg _)
  rw [targetExponent_binary32, totalExponent] at *
  rw [log2_mul_two_pow hm.ne']
  rcases le_total (max ((m.log2 : ℤ) + 1 + e - 24) (-149)) e with hte | hte
  · have := hle hte
    omega
  · have := hzero hte
    omega

/-- A multiple of a power of two is rounded correctly, as if exponents had no upper end. -/
theorem isRegularResult_normalize (n : ℤ) (e : ℤ) (s : Sign) :
    IsRegularResult (UnpackedFloat.normalize binary32 n e s) (n * 2 ^ e) := by
  rw [UnpackedFloat.normalize]
  split
  · next hlt =>
      have hneg : n < 0 := Int.compare_eq_lt.1 hlt
      have hcast : (((-n).toNat : ℕ) : ℝ) = -n := by
        exact_mod_cast Int.toNat_of_nonneg (by omega : 0 ≤ -n)
      have hround := isRegularResult_round .negative (m := (-n).toNat) (e := e) (by omega)
      rw [hcast] at hround
      simpa using hround
  · next heq =>
      rw [Int.compare_eq_eq.1 heq]
      simpa using (isResult_zero s).isRegularResult
  · next hgt =>
      have hpos : 0 < n := Int.compare_eq_gt.1 hgt
      have hcast : ((n.toNat : ℕ) : ℝ) = n := by
        exact_mod_cast Int.toNat_of_nonneg hpos.le
      have hround := isRegularResult_round .positive (m := n.toNat) (e := e) (by omega)
      rw [hcast] at hround
      simpa using hround

/-- A multiple of a power of two that is not too large is rounded correctly. -/
theorem isResult_normalize (n : ℤ) (e : ℤ) (s : Sign) (h : |(n : ℝ)| * 2 ^ e < 2 ^ (127 : ℤ)) :
    IsResult (UnpackedFloat.normalize binary32 n e s) (n * 2 ^ e) := by
  refine (isRegularResult_normalize n e s).isResult ?_
  rwa [abs_mul, abs_of_pos (by positivity : (0 : ℝ) < 2 ^ e)]

/-- Two numbers in multiples of the smaller power of two. -/
theorem exists_common_exponent (s t : Sign) (m n : ℕ) (e f : ℤ) : ∃ a b : ℕ,
    (decreaseExponent m e (min e f)).1 = a ∧ (decreaseExponent n f (min e f)).1 = b ∧
      ((s.apply a : ℤ) : ℝ) * 2 ^ min e f = factor s * (m * 2 ^ e) ∧
      ((t.apply b : ℤ) : ℝ) * 2 ^ min e f = factor t * (n * 2 ^ f) := by
  have happly : ∀ (s : Sign) (a : ℕ), ((s.apply a : ℤ) : ℝ) = factor s * a := by
    intro s a
    cases s <;> simp [Sign.apply]
  obtain ⟨j, hj, hje, -⟩ := decreaseExponent_eq (m := m) (e := e) (t := min e f)
  obtain ⟨k, hk, hke, -⟩ := decreaseExponent_eq (m := n) (e := f) (t := min e f)
  refine ⟨m * 2 ^ j, n * 2 ^ k, by rw [hj], by rw [hk], ?_, ?_⟩
  · rw [happly, mul_assoc, ← hje (min_le_left e f)]
    push_cast
    rw [mul_two_zpow_sub]
  · rw [happly, mul_assoc, ← hke (min_le_right e f)]
    push_cast
    rw [mul_two_zpow_sub]

variable {u v : UnpackedFloat}

/-- Sums are rounded correctly, as if exponents had no upper end. -/
theorem isRegularResult_add (hu : IsCanonical u) (hv : IsCanonical v) :
    IsRegularResult (UnpackedFloat.add binary32 u v) (unpackedValue u + unpackedValue v) := by
  cases u with
  | notANumber => exact hu.elim
  | infinity s => exact hu.elim
  | zero s => cases v with
    | notANumber => exact hv.elim
    | infinity t => exact hv.elim
    | zero t =>
        simp only [UnpackedFloat.add, unpackedValue, add_zero]
        split
        · exact (isResult_zero s).isRegularResult
        · exact (isResult_zero _).isRegularResult
    | finite t n f hn =>
        rw [show unpackedValue (.zero s) = 0 from rfl, zero_add]
        exact hv.isResult.isRegularResult
  | finite s m e hm => cases v with
    | notANumber => exact hv.elim
    | infinity t => exact hv.elim
    | zero t =>
        rw [show unpackedValue (.zero t) = 0 from rfl, add_zero]
        exact hu.isResult.isRegularResult
    | finite t n f hn =>
        obtain ⟨a, b, ha, hb, hm, hn⟩ := exists_common_exponent s t m n e f
        have hsum : ((s.apply a + t.apply b : ℤ) : ℝ) * 2 ^ min e f =
            factor s * (m * 2 ^ e) + factor t * (n * 2 ^ f) := by
          push_cast
          rw [add_mul, hm, hn]
        simp only [UnpackedFloat.add, ha, hb, unpackedValue]
        rw [← hsum]
        exact isRegularResult_normalize _ _ _

/-- **Sums are rounded correctly.** -/
theorem isResult_add (hu : IsCanonical u) (hv : IsCanonical v)
    (h : |unpackedValue u + unpackedValue v| < 2 ^ (127 : ℤ)) :
    IsResult (UnpackedFloat.add binary32 u v) (unpackedValue u + unpackedValue v) :=
  (isRegularResult_add hu hv).isResult h

/-- The opposite of a number. -/
theorem IsCanonical.neg (hu : IsCanonical u) :
    IsCanonical u.neg ∧ unpackedValue u.neg = -unpackedValue u := by
  cases u with
  | notANumber => exact hu.elim
  | infinity s => exact hu.elim
  | zero s => exact ⟨trivial, neg_zero.symm⟩
  | finite s m e hm => exact ⟨hu, by simp [UnpackedFloat.neg, unpackedValue]⟩

/-- The distance of a number from zero. -/
theorem IsCanonical.abs (hu : IsCanonical u) :
    IsCanonical u.abs ∧ unpackedValue u.abs = |unpackedValue u| := by
  cases u with
  | notANumber => exact hu.elim
  | infinity s => exact hu.elim
  | zero s => exact ⟨trivial, abs_zero.symm⟩
  | finite s m e hm =>
      refine ⟨hu, ?_⟩
      rw [UnpackedFloat.abs, unpackedValue, unpackedValue, abs_mul, abs_factor, factor_positive,
        abs_of_nonneg (by positivity)]

/-- **Differences are rounded correctly.** -/
theorem isResult_sub (hu : IsCanonical u) (hv : IsCanonical v)
    (h : |unpackedValue u - unpackedValue v| < 2 ^ (127 : ℤ)) :
    IsResult (UnpackedFloat.sub binary32 u v) (unpackedValue u - unpackedValue v) := by
  cases u with
  | notANumber => exact hu.elim
  | infinity s => exact hu.elim
  | zero s => cases v with
    | notANumber => exact hv.elim
    | infinity t => exact hv.elim
    | zero t =>
        simp only [UnpackedFloat.sub, unpackedValue, sub_zero]
        split
        · exact isResult_zero s
        · exact isResult_zero _
    | finite t n f hn =>
        obtain ⟨hcanonical, hvalue⟩ := hv.neg
        rw [show unpackedValue (.zero s) = 0 from rfl, zero_sub, ← hvalue]
        exact hcanonical.isResult
  | finite s m e hm => cases v with
    | notANumber => exact hv.elim
    | infinity t => exact hv.elim
    | zero t =>
        rw [show unpackedValue (.zero t) = 0 from rfl, sub_zero]
        exact hu.isResult
    | finite t n f hn =>
        obtain ⟨a, b, ha, hb, hm, hn⟩ := exists_common_exponent s t m n e f
        have hdifference : ((s.apply a - t.apply b : ℤ) : ℝ) * 2 ^ min e f =
            factor s * (m * 2 ^ e) - factor t * (n * 2 ^ f) := by
          push_cast
          rw [sub_mul, hm, hn]
        simp only [UnpackedFloat.sub, ha, hb, unpackedValue]
        rw [← hdifference]
        refine isResult_normalize _ _ _ ?_
        rw [← abs_of_pos (by positivity : (0 : ℝ) < 2 ^ min e f), ← abs_mul, hdifference]
        exact h

/-! ### Products -/

/-- A product of two mantissas has places behind its last one, or they are the lowest ones. -/
theorem le_targetExponent_mul {m n : ℕ} {e f : ℤ} (hm : 0 < m) (hn : 0 < n)
    (he : e = -149 ∨ 2 ^ 23 ≤ m) (hf : f = -149 ∨ 2 ^ 23 ≤ n) :
    e + f ≤ binary32.targetExponent (totalExponent (m * n) (e + f)) := by
  rw [targetExponent_binary32, totalExponent]
  have hlarge : 2 ^ 23 ≤ m * n → 23 ≤ (m * n).log2 := fun h => (Nat.le_log2 (by positivity)).2 h
  rcases he with rfl | he
  · rcases hf with rfl | hf
    · omega
    · have := hlarge (hf.trans (Nat.le_mul_of_pos_left n hm))
      omega
  · have := hlarge (he.trans (Nat.le_mul_of_pos_right m hn))
    omega

/-- **Products are rounded correctly.** -/
theorem isResult_mul (hu : IsCanonical u) (hv : IsCanonical v)
    (h : |unpackedValue u * unpackedValue v| < 2 ^ (127 : ℤ)) :
    IsResult (UnpackedFloat.mul binary32 u v) (unpackedValue u * unpackedValue v) := by
  cases u with
  | notANumber => exact hu.elim
  | infinity s => exact hu.elim
  | zero s =>
      rw [show unpackedValue (.zero s) = 0 from rfl, zero_mul]
      cases v with
      | notANumber => exact hv.elim
      | infinity t => exact hv.elim
      | zero t => exact isResult_zero _
      | finite t n f hn => exact isResult_zero _
  | finite s m e hm => cases v with
    | notANumber => exact hv.elim
    | infinity t => exact hv.elim
    | zero t =>
        rw [show unpackedValue (.zero t) = 0 from rfl, mul_zero]
        exact isResult_zero _
    | finite t n f hn =>
        have hproduct : factor (s * t) * (((m * n : ℕ) : ℝ) * 2 ^ (e + f)) =
            factor s * (m * 2 ^ e) * (factor t * (n * 2 ^ f)) := by
          rw [factor_mul, zpow_add₀ two_ne_zero]
          push_cast
          ring
        simp only [UnpackedFloat.mul, unpackedValue] at h ⊢
        rw [← hproduct] at h ⊢
        refine isResult_roundWithAccuracy _ (represents_exact _)
          (le_targetExponent_mul hm hn hu.2.2.2 hv.2.2.2) (Nat.cast_nonneg _) ?_
        rwa [abs_mul, abs_factor, one_mul, abs_of_nonneg (by positivity)] at h

/-! ### Quotients -/

/-- An integer quotient with the note on its fraction stands for the quotient. -/
theorem represents_div {m d : ℕ} (hd : 0 < d) :
    Represents (ExtendedMantissa.ofMantissaAndAccuracy (m / d) (accuracyOfFraction (m % d) d))
      (m / d) := by
  have hpos : (0 : ℝ) < d := by exact_mod_cast hd
  have hdiv : (m : ℝ) = d * (m / d : ℕ) + (m % d : ℕ) := by
    exact_mod_cast (Nat.div_add_mod m d).symm
  have hquotient : (m : ℝ) / d = (m / d : ℕ) + (m % d : ℕ) / d := by
    rw [hdiv, add_div, mul_div_cancel_left₀ _ hpos.ne']
  rw [hquotient, accuracyOfFraction]
  have hlt : ((m % d : ℕ) : ℝ) < d := by exact_mod_cast Nat.mod_lt m hd
  split
  · next h0 =>
      rw [h0]
      simp [ExtendedMantissa.ofMantissaAndAccuracy, Represents]
  · next h0 =>
      have hrest : (0 : ℝ) < (m % d : ℕ) := by exact_mod_cast Nat.pos_of_ne_zero h0
      rcases lt_trichotomy (2 * (m % d)) d with h | h | h
      · have hhalf : (2 : ℝ) * (m % d : ℕ) < d := by exact_mod_cast h
        rw [Nat.compare_eq_lt.2 h]
        refine Represents.below (lt_add_of_pos_right _ (by positivity)) ?_
        rw [add_lt_add_iff_left, div_lt_iff₀ hpos]
        linarith
      · have hhalf : (2 : ℝ) * (m % d : ℕ) = d := by exact_mod_cast h
        rw [Nat.compare_eq_eq.2 h]
        refine Represents.halfway ?_
        rw [add_right_inj, div_eq_iff hpos.ne']
        linarith
      · have hhalf : (d : ℝ) < 2 * (m % d : ℕ) := by exact_mod_cast h
        rw [Nat.compare_eq_gt.2 h]
        refine Represents.above ?_ ?_
        · rw [add_lt_add_iff_left, lt_div_iff₀ hpos]
          linarith
        · rw [add_lt_add_iff_left, div_lt_one hpos]
          exact hlt

/-- A quotient is taken with places behind its last one, or behind the lowest one. -/
theorem le_targetExponent_div {m n k : ℕ} {e f t : ℤ} (hm : 0 < m) (hn : 0 < n)
    (ht : t ≤ binary32.targetExponent (totalExponent m e - totalExponent n f))
    (hk : (k : ℤ) = e - f - t) :
    t ≤ binary32.targetExponent (totalExponent (m * 2 ^ k / n) t) := by
  simp only [targetExponent_binary32, totalExponent] at ht ⊢
  by_cases hlow : t ≤ -149
  · omega
  have hlog : 23 ≤ (m * 2 ^ k / n).log2 := by
    have hle : 2 ^ 23 ≤ m * 2 ^ k / n := by
      rw [Nat.le_div_iff_mul_le hn]
      calc 2 ^ 23 * n ≤ 2 ^ 23 * 2 ^ (n.log2 + 1) := by gcongr; exact Nat.lt_log2_self.le
        _ = 2 ^ (23 + (n.log2 + 1)) := (pow_add 2 _ _).symm
        _ ≤ 2 ^ (m.log2 + k) := Nat.pow_le_pow_right two_pos (by omega)
        _ = 2 ^ m.log2 * 2 ^ k := pow_add 2 _ _
        _ ≤ m * 2 ^ k := by gcongr; exact Nat.log2_self_le hm.ne'
    exact (Nat.le_log2 (by omega)).2 hle
  omega

/-- **Quotients are rounded correctly.** -/
theorem isResult_div (hu : IsCanonical u) (hv : IsCanonical v) (hv0 : unpackedValue v ≠ 0)
    (h : |unpackedValue u / unpackedValue v| < 2 ^ (127 : ℤ)) :
    IsResult (UnpackedFloat.div binary32 u v) (unpackedValue u / unpackedValue v) := by
  cases v with
  | notANumber => exact hv.elim
  | infinity t => exact hv.elim
  | zero t => exact absurd rfl hv0
  | finite t n f hn => cases u with
    | notANumber => exact hu.elim
    | infinity s => exact hu.elim
    | zero s =>
        rw [show unpackedValue (.zero s) = 0 from rfl, zero_div]
        exact isResult_zero _
    | finite s m e hm =>
        simp only [UnpackedFloat.div, divCore, unpackedValue] at h ⊢
        generalize htarget : min (e - f)
          (binary32.targetExponent (totalExponent m e - totalExponent n f)) = t'
        obtain ⟨k, hk⟩ := Int.le.dest (show t' ≤ e - f by omega)
        have htoNat : (e - f - t').toNat = k := by omega
        have hfactor : factor t ≠ 0 := by
          rw [← abs_ne_zero, abs_factor]
          exact one_ne_zero
        have hquotient : factor (s / t) * (((m * 2 ^ k : ℕ) : ℝ) / n * 2 ^ t') =
            factor s * (m * 2 ^ e) / (factor t * (n * 2 ^ f)) := by
          have he : e = f + t' + k := by omega
          have hsquare : factor t * factor t = 1 := by cases t <;> simp
          have hn' : (n : ℝ) ≠ 0 := by positivity
          rw [factor_div, he, zpow_add₀ two_ne_zero, zpow_add₀ two_ne_zero, zpow_natCast]
          push_cast
          field_simp
          linear_combination factor s * hsquare
        rw [htoNat, Nat.shiftLeft_eq]
        rw [← hquotient] at h ⊢
        refine isResult_roundWithAccuracy _ (represents_div hn)
          (le_targetExponent_div (e := e) (f := f) hm hn (by omega) (by omega))
          (by positivity) ?_
        rwa [abs_mul, abs_factor, one_mul, abs_of_nonneg (by positivity)] at h

/-! ### Square roots -/

/-- An integer root with the note on what is left stands for the root. -/
theorem represents_sqrt (m : ℕ) :
    Represents (ExtendedMantissa.ofMantissaAndAccuracy m.sqrt
      (if m - m.sqrt * m.sqrt = 0 then .exact
        else .inexact (if m - m.sqrt * m.sqrt ≤ m.sqrt then .lt else .gt))) (√m) := by
  have hsqrt : √(m : ℝ) * √m = m := Real.mul_self_sqrt (Nat.cast_nonneg m)
  have hle := Nat.sqrt_le m
  have hnext := Nat.sqrt_lt'.1 (Nat.lt_succ_self m.sqrt)
  have hnonneg : (0 : ℝ) ≤ √m := Real.sqrt_nonneg m
  generalize m.sqrt = root at *
  split
  · next h0 =>
      have heq : (m : ℝ) = root * root := by exact_mod_cast (by omega : m = root * root)
      show √(m : ℝ) = root
      rw [heq, Real.sqrt_mul_self (Nat.cast_nonneg root)]
  · next h0 =>
      split
      · next hrest =>
          have hlow : (root : ℝ) * root < m := by exact_mod_cast (by omega : root * root < m)
          have hhigh : (m : ℝ) ≤ root * root + root := by
            exact_mod_cast (by omega : m ≤ root * root + root)
          refine Represents.below ?_ ?_
          · exact Real.lt_sqrt_of_sq_lt (by nlinarith)
          · rw [Real.sqrt_lt' (by positivity)]
            nlinarith
      · next hrest =>
          have hlow : (root : ℝ) * root + root + 1 ≤ m := by
            exact_mod_cast (by omega : root * root + root + 1 ≤ m)
          have hhigh : (m : ℝ) < (root + 1) ^ 2 := by exact_mod_cast hnext
          refine Represents.above ?_ ?_
          · exact Real.lt_sqrt_of_sq_lt (by nlinarith)
          · rw [Real.sqrt_lt' (by positivity)]
            exact hhigh

/-- A root is taken with places behind its last one, or behind the lowest one. -/
theorem le_targetExponent_sqrt {m k : ℕ} {e t : ℤ} (hm : 0 < m)
    (ht : t ≤ binary32.targetExponent ((totalExponent m e + 1).ediv 2)) (hk : (k : ℤ) = e - 2 * t) :
    t ≤ binary32.targetExponent (totalExponent (m * 2 ^ k).sqrt t) := by
  simp only [targetExponent_binary32, totalExponent] at ht ⊢
  change t ≤ max (((m.log2 : ℤ) + 1 + e + 1) / 2 - 24) (-149) at ht
  by_cases hlow : t ≤ -149
  · omega
  have hlog : 23 ≤ (m * 2 ^ k).sqrt.log2 := by
    have hle : 2 ^ 23 ≤ (m * 2 ^ k).sqrt := by
      rw [Nat.le_sqrt, ← pow_add]
      calc 2 ^ (23 + 23) ≤ 2 ^ (m.log2 + k) := Nat.pow_le_pow_right two_pos (by omega)
        _ = 2 ^ m.log2 * 2 ^ k := pow_add 2 _ _
        _ ≤ m * 2 ^ k := by gcongr; exact Nat.log2_self_le hm.ne'
    exact (Nat.le_log2 (by omega)).2 hle
  omega

/-- **Square roots are rounded correctly.** -/
theorem isResult_sqrt (hu : IsCanonical u) (hu0 : 0 ≤ unpackedValue u)
    (h : √(unpackedValue u) < 2 ^ (127 : ℤ)) :
    IsResult (UnpackedFloat.sqrt binary32 u) (√(unpackedValue u)) := by
  cases u with
  | notANumber => exact hu.elim
  | infinity s => exact hu.elim
  | zero s =>
      rw [show unpackedValue (.zero s) = 0 from rfl, Real.sqrt_zero]
      exact isResult_zero s
  | finite s m e hm => cases s with
    | negative =>
        have hpos : (0 : ℝ) < m * 2 ^ e := by positivity
        simp only [unpackedValue, factor_negative, neg_mul, one_mul] at hu0
        linarith
    | positive =>
        simp only [UnpackedFloat.sqrt, sqrtCore, unpackedValue, factor_positive, one_mul] at h ⊢
        generalize htarget : min (e.ediv 2)
          (binary32.targetExponent ((totalExponent m e + 1).ediv 2)) = t
        have hhalf : 2 * (e.ediv 2) ≤ e := Int.mul_ediv_self_le two_ne_zero
        obtain ⟨k, hk⟩ := Int.le.dest (show 2 * t ≤ e by omega)
        have htoNat : (e - 2 * t).toNat = k := by omega
        have hroot : √((m * 2 ^ k : ℕ) : ℝ) * 2 ^ t = √(m * 2 ^ e) := by
          have he : (2 : ℝ) ^ e = 2 ^ k * (2 ^ t * 2 ^ t) := by
            rw [← hk, two_mul, zpow_add₀ two_ne_zero, zpow_add₀ two_ne_zero, zpow_natCast]
            ring
          rw [he, ← mul_assoc, Real.sqrt_mul (by positivity), Real.sqrt_mul_self (by positivity)]
          push_cast
          rfl
        rw [htoNat, Nat.shiftLeft_eq]
        rw [← hroot] at h ⊢
        have hresult := isResult_roundWithAccuracy .positive (represents_sqrt (m * 2 ^ k))
          (le_targetExponent_sqrt (e := e) hm (by omega) (by omega)) (Real.sqrt_nonneg _) h
        rwa [factor_positive, one_mul] at hresult

/-! ### Comparison -/

/-- Of two canonical mantissas with exponents the one with the larger exponent, or with the same
exponent and the larger mantissa, is the larger one. -/
theorem compare_then_eq {m n : ℕ} {e f : ℤ} (hm : m < 2 ^ 24) (hn : n < 2 ^ 24)
    (hme : e = -149 ∨ 2 ^ 23 ≤ m) (hnf : f = -149 ∨ 2 ^ 23 ≤ n) (he : -149 ≤ e) (hf : -149 ≤ f) :
    (compare e f).then (compare m n) = compare ((m : ℝ) * 2 ^ e) (n * 2 ^ f) := by
  have hlarger : ∀ {m n : ℕ} {e f : ℤ}, m < 2 ^ 24 → 2 ^ 23 ≤ n → e < f →
      (m : ℝ) * 2 ^ e < n * 2 ^ f := by
    intro m n e f hm hn hlt
    have hm' : (m : ℝ) < 2 ^ (24 : ℤ) := by exact_mod_cast hm
    have hn' : (2 : ℝ) ^ (23 : ℤ) ≤ n := by exact_mod_cast hn
    calc (m : ℝ) * 2 ^ e < 2 ^ (24 : ℤ) * 2 ^ e := by gcongr
      _ = 2 ^ (24 + e) := (zpow_add₀ two_ne_zero _ _).symm
      _ ≤ 2 ^ (23 + f) := zpow_le_zpow_right₀ one_le_two (by omega)
      _ = 2 ^ (23 : ℤ) * 2 ^ f := zpow_add₀ two_ne_zero _ _
      _ ≤ n * 2 ^ f := by gcongr
  rcases lt_trichotomy e f with h | rfl | h
  · rw [compare_lt_iff_lt.2 h, compare_lt_iff_lt.2 (hlarger hm (by omega) h)]
    rfl
  · rw [compare_eq_iff_eq.2 rfl]
    have hpos : (0 : ℝ) < 2 ^ e := by positivity
    rcases lt_trichotomy m n with h | rfl | h
    · rw [compare_lt_iff_lt.2 h, compare_lt_iff_lt.2 (by gcongr)]
      rfl
    · rw [compare_eq_iff_eq.2 rfl, compare_eq_iff_eq.2 rfl]
      rfl
    · rw [compare_gt_iff_gt.2 h, compare_gt_iff_gt.2 (by gcongr)]
      rfl
  · rw [compare_gt_iff_gt.2 h, compare_gt_iff_gt.2 (hlarger hn (by omega) h)]
    rfl

theorem swap_compare (x y : ℝ) : (compare x y).swap = compare (-x) (-y) := by
  rcases lt_trichotomy x y with h | rfl | h
  · rw [compare_lt_iff_lt.2 h, compare_gt_iff_gt.2 (neg_lt_neg h)]
    rfl
  · rw [compare_eq_iff_eq.2 rfl, compare_eq_iff_eq.2 rfl]
    rfl
  · rw [compare_gt_iff_gt.2 h, compare_lt_iff_lt.2 (neg_lt_neg h)]
    rfl

/-- Canonical numbers are compared by their values. -/
theorem compare_eq (hu : IsCanonical u) (hv : IsCanonical v) :
    u.compare v = some (compare (unpackedValue u) (unpackedValue v)) := by
  cases u with
  | notANumber => exact hu.elim
  | infinity s => exact hu.elim
  | zero s => cases v with
    | notANumber => exact hv.elim
    | infinity t => exact hv.elim
    | zero t => exact congrArg some (compare_eq_iff_eq.2 rfl).symm
    | finite t n f hn =>
        have hpos : (0 : ℝ) < n * 2 ^ f := by positivity
        cases t with
        | negative =>
            exact congrArg some (compare_gt_iff_gt.2 (by simpa [unpackedValue] using hpos)).symm
        | positive =>
            exact congrArg some (compare_lt_iff_lt.2 (by simpa [unpackedValue] using hpos)).symm
  | finite s m e hm =>
      have hpos : (0 : ℝ) < m * 2 ^ e := by positivity
      cases v with
      | notANumber => exact hv.elim
      | infinity t => exact hv.elim
      | zero t => cases s with
        | negative =>
            exact congrArg some (compare_lt_iff_lt.2 (by simpa [unpackedValue] using hpos)).symm
        | positive =>
            exact congrArg some (compare_gt_iff_gt.2 (by simpa [unpackedValue] using hpos)).symm
      | finite t n f hn =>
          have hpos' : (0 : ℝ) < n * 2 ^ f := by positivity
          have hthen := compare_then_eq hu.1 hv.1 hu.2.2.2 hv.2.2.2 hu.2.1 hv.2.1
          cases s with
          | negative => cases t with
            | negative =>
                simp only [UnpackedFloat.compare, unpackedValue, factor_negative, neg_mul, one_mul,
                  hthen]
                exact congrArg some (swap_compare _ _)
            | positive =>
                refine congrArg some (compare_lt_iff_lt.2 ?_).symm
                simp only [unpackedValue, factor_negative, factor_positive, neg_mul, one_mul]
                linarith
          | positive => cases t with
            | negative =>
                refine congrArg some (compare_gt_iff_gt.2 ?_).symm
                simp only [unpackedValue, factor_negative, factor_positive, neg_mul, one_mul]
                linarith
            | positive =>
                simp only [UnpackedFloat.compare, unpackedValue, factor_positive, one_mul, hthen]

end TextDiagram.Number
