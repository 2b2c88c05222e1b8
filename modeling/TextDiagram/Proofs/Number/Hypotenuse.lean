/-
**The length of a vector is correctly rounded.**

A length is computed from an integer root of a sum of squares that is widened by many places.  One
more place, which is odd unless the root is exact, stands for all that is behind it.  Where so many
places are cut off again, the odd place tells on which side of a half the root lies, so nothing is
rounded twice.

Main definitions:

* `TextDiagram.Number.StandsFor` — an integer with an odd last place for what is behind it.

Main results:

* `TextDiagram.Number.isNearestTo_nearest` — encoding rounds to the nearest number;
* `TextDiagram.Number.isNearestTo_hypotenuse` — **the length of a vector is correctly rounded**.
-/

import TextDiagram.Proofs.Number.Arithmetic

set_option relaxedAutoImplicit false
set_option autoImplicit false

namespace TextDiagram.Number

open Float.Model (UnpackedFloat)
open Float.Model.Format (binary32)
open Float.Model.UnpackedFloat

/-! ### Rounding a quotient -/

theorem isNearestInteger_halfEven {n d : ℕ} (hd : 0 < d) :
    IsNearestInteger (n / d) (halfEven n d : ℕ) := by
  have hpos : (0 : ℝ) < d := by exact_mod_cast hd
  have hdiv : (n : ℝ) = d * (n / d : ℕ) + (n % d : ℕ) := by
    exact_mod_cast (Nat.div_add_mod n d).symm
  have hquotient : (n : ℝ) / d = (n / d : ℕ) + (n % d : ℕ) / d := by
    rw [hdiv, add_div, mul_div_cancel_left₀ _ hpos.ne']
  have hrest : (0 : ℝ) ≤ (n % d : ℕ) / d := by positivity
  have hrest' : ((n % d : ℕ) : ℝ) / d < 1 := by
    rw [div_lt_one hpos]
    exact_mod_cast Nat.mod_lt n hd
  rw [hquotient, halfEven]
  generalize n / d = q at *
  split
  · next h =>
      have hhalf : ((n % d : ℕ) : ℝ) / d < 1 / 2 := by
        rw [div_lt_iff₀ hpos]
        have : (2 : ℝ) * (n % d : ℕ) < d := by exact_mod_cast h
        linarith
      refine .of_abs_lt ?_
      rw [Int.cast_natCast, add_sub_cancel_left, abs_of_nonneg hrest]
      exact hhalf
  · next h =>
      split
      · next h' =>
          have hhalf : 1 / 2 < ((n % d : ℕ) : ℝ) / d := by
            rw [lt_div_iff₀ hpos]
            have : (d : ℝ) < 2 * (n % d : ℕ) := by exact_mod_cast h'
            linarith
          refine .of_abs_lt ?_
          push_cast
          rw [abs_of_neg (by linarith)]
          linarith
      · next h' =>
          have hhalf : ((n % d : ℕ) : ℝ) / d = 1 / 2 := by
            rw [div_eq_iff hpos.ne']
            have : (2 : ℝ) * (n % d : ℕ) = d := by exact_mod_cast (by omega : 2 * (n % d) = d)
            linarith
          have heven : (if q % 2 = 0 then q else q + 1) = q + q % 2 := by
            split
            · omega
            · omega
          rw [hhalf, heven]
          exact .halfway q

/-! ### An odd place for the rest -/

/-- The integer `m` is the number `q`, or it is odd, has many places, and `q` lies less than one
away from it. -/
def StandsFor (m : ℕ) (q : ℝ) : Prop :=
  q = m ∨ (Odd m ∧ 2 ^ 25 ≤ m ∧ |q - m| < 1)

namespace StandsFor

variable {m : ℕ} {q : ℝ}

/-- Where two places or more are cut off, the number is rounded as the integer is. -/
theorem isNearestInteger (h : StandsFor m q) {j : ℕ} (hj : q ≠ m → 2 ≤ j) :
    IsNearestInteger (q / 2 ^ j) (halfEven m (2 ^ j) : ℕ) := by
  have hhalf := isNearestInteger_halfEven (n := m) (d := 2 ^ j) (by positivity)
  rw [Nat.cast_pow, Nat.cast_ofNat] at hhalf
  rcases h with rfl | ⟨hodd, -, hnear⟩
  · exact hhalf
  · by_cases hq : q = m
    · rw [hq]
      exact hhalf
    obtain ⟨i, rfl⟩ : ∃ i, j = i + 2 := ⟨j - 2, by have := hj hq; omega⟩
    generalize halfEven m (2 ^ (i + 2)) = n at *
    -- the distance from the multiple is an odd number, and a half of a place is an even one
    have hpos : (0 : ℝ) < 2 ^ (i + 2) := by positivity
    have hle : |(m : ℝ) - n * 2 ^ (i + 2)| ≤ 2 ^ (i + 1) := by
      have := mul_le_mul_of_nonneg_right hhalf.near hpos.le
      rw [← abs_of_pos hpos, ← abs_mul, abs_of_pos hpos, sub_mul, div_mul_cancel₀ _ hpos.ne']
        at this
      rw [pow_succ 2 (i + 1)] at *
      push_cast at this ⊢
      linarith
    have hlt : |(m : ℤ) - n * 2 ^ (i + 2)| < 2 ^ (i + 1) := by
      refine lt_of_le_of_ne (by exact_mod_cast hle) fun heq => ?_
      have hodd' : Odd ((m : ℤ) - n * 2 ^ (i + 2)) := by
        refine Odd.sub_even (by exact_mod_cast hodd) (Even.mul_left ?_ _)
        exact (even_two.pow_of_ne_zero (by omega))
      have heven : Even |(m : ℤ) - n * 2 ^ (i + 2)| := by
        rw [heq]
        exact even_two.pow_of_ne_zero (by omega)
      exact Int.not_even_iff_odd.2 hodd' (even_abs.1 heven)
    have hlt' : |(m : ℝ) - n * 2 ^ (i + 2)| ≤ 2 ^ (i + 1) - 1 := by
      exact_mod_cast Int.le_sub_one_of_lt hlt
    have hq : |q - n * 2 ^ (i + 2)| < 2 ^ (i + 1) := by
      have := abs_sub_le q m (n * 2 ^ (i + 2))
      linarith
    have heq : q / 2 ^ (i + 2) - (n : ℤ) = (q - n * 2 ^ (i + 2)) / 2 ^ (i + 2) := by
      rw [sub_div, mul_div_cancel_right₀ _ hpos.ne', Int.cast_natCast]
    refine .of_abs_lt ?_
    rw [heq, abs_div, abs_of_pos hpos, div_lt_iff₀ hpos]
    calc |q - n * 2 ^ (i + 2)| < 2 ^ (i + 1) := hq
      _ = 1 / 2 * 2 ^ (i + 2) := by ring

/-- The number has the leading place of the integer. -/
theorem bounds (h : StandsFor m q) (hm : 0 < m) : 2 ^ m.log2 ≤ q ∧ q < 2 ^ (m.log2 + 1) := by
  have hlow : 2 ^ m.log2 ≤ m := Nat.log2_self_le hm.ne'
  have hhigh : m < 2 ^ (m.log2 + 1) := Nat.lt_log2_self
  rcases h with rfl | ⟨hodd, hlarge, hnear⟩
  · exact ⟨by exact_mod_cast hlow, by exact_mod_cast hhigh⟩
  · have hne : m ≠ 2 ^ m.log2 := by
      intro heq
      have hlog : m.log2 ≠ 0 := by
        have := (Nat.le_log2 hm.ne').2 hlarge
        omega
      exact Nat.not_even_iff_odd.2 hodd (heq ▸ even_two.pow_of_ne_zero hlog)
    have hlow' : (2 : ℝ) ^ m.log2 + 1 ≤ m := by exact_mod_cast lt_of_le_of_ne hlow hne.symm
    have hhigh' : (m : ℝ) + 1 ≤ 2 ^ (m.log2 + 1) := by exact_mod_cast hhigh
    obtain ⟨hgt, hlt⟩ := abs_lt.1 hnear
    exact ⟨by linarith, by linarith⟩

end StandsFor

/-! ### Encoding -/

/-- The last place that encoding keeps of a number. -/
def place (m : ℕ) (e : ℤ) : ℤ := max (e + m.log2 - 23) (-149)

theorem isLastPlace_place {m : ℕ} {e : ℤ} {q : ℝ} (hm : 0 < m) (h : StandsFor m q) :
    IsLastPlace (q * 2 ^ e) (place m e) := by
  obtain ⟨hlow, hhigh⟩ := h.bounds hm
  have hpos : (0 : ℝ) < 2 ^ e := by positivity
  have hq : 0 < q := lt_of_lt_of_le (by positivity) hlow
  have habs : |q * 2 ^ e| = q * 2 ^ e := abs_of_pos (by positivity)
  rw [place]
  refine ⟨le_max_right _ _, ?_, ?_⟩
  · rw [habs]
    calc q * 2 ^ e < 2 ^ (m.log2 + 1) * 2 ^ e := by gcongr
      _ = 2 ^ ((m.log2 : ℤ) + 1 + e) := by
        rw [zpow_add₀ two_ne_zero]
        norm_cast
      _ ≤ 2 ^ (max (e + m.log2 - 23) (-149) + 24) := zpow_le_zpow_right₀ one_le_two (by omega)
  · by_cases hplace : max (e + (m.log2 : ℤ) - 23) (-149) = -149
    · exact .inl hplace
    · refine .inr ?_
      rw [habs]
      calc (2 : ℝ) ^ (max (e + m.log2 - 23) (-149) + 23) = 2 ^ ((m.log2 : ℤ) + e) := by
            congr 1
            omega
        _ = 2 ^ m.log2 * 2 ^ e := by
            rw [zpow_add₀ two_ne_zero]
            norm_cast
        _ ≤ q * 2 ^ e := by gcongr

/-- The multiple of the last place that encoding keeps of a number. -/
def multiple (m : ℕ) (e : ℤ) : ℕ :=
  if place m e ≤ e then m * twoTo (e - place m e).toNat
  else halfEven m (twoTo (place m e - e).toNat)

theorem isNearestInteger_multiple {m : ℕ} {e : ℤ} {q : ℝ} (hm : 0 < m) (h : StandsFor m q) :
    IsNearestInteger (q * 2 ^ e / 2 ^ place m e) (multiple m e : ℕ) := by
  have hlarge : q ≠ m → e + 2 ≤ place m e := by
    intro hq
    rcases h with rfl | ⟨-, hlarge, -⟩
    · exact absurd rfl hq
    · have := (Nat.le_log2 hm.ne').2 hlarge
      rw [place]
      omega
  have hquotient : q * 2 ^ e / 2 ^ place m e = q * 2 ^ (e - place m e) := by
    rw [zpow_sub₀ two_ne_zero, mul_div_assoc]
  rw [hquotient, multiple]
  split
  · next hle =>
      obtain ⟨k, hk⟩ := Int.le.dest hle
      have hq : q = m := by
        by_contra hne
        have := hlarge hne
        omega
      have hexponent : e - place m e = k := by omega
      rw [hexponent, hq, Int.toNat_natCast, zpow_natCast]
      have heq : (m : ℝ) * 2 ^ k - ((m * twoTo k : ℕ) : ℤ) = 0 := by
        rw [twoTo, Nat.pow_eq]
        push_cast
        exact sub_self _
      refine ⟨by rw [heq, abs_zero]; positivity, fun htie => ?_⟩
      rw [heq, abs_zero] at htie
      norm_num at htie
  · next hlt =>
      obtain ⟨k, hk⟩ := Int.le.dest (not_le.1 hlt).le
      have hexponent : e - place m e = -k := by omega
      have hplace : place m e - e = k := by omega
      rw [hexponent, hplace, Int.toNat_natCast, zpow_neg, zpow_natCast, ← div_eq_mul_inv, twoTo,
        Nat.pow_eq]
      refine h.isNearestInteger fun hne => ?_
      have := hlarge hne
      omega

/-- Decoding reads the last place and its multiple again, also if the multiple got one place too
long. -/
theorem exists_decode_eq {t : ℤ} {n : ℕ} (ht : -149 ≤ t) (htop : t < 104) (hn : n ≤ 2 ^ 24)
    (hlead : t = -149 ∨ 2 ^ 23 ≤ n) :
    ∃ m e, Format.single.decode ((t + 149).toNat * 2 ^ 23 + n) = .finite false m e ∧
      (m : ℝ) * 2 ^ e = n * 2 ^ t := by
  obtain ⟨b, hb⟩ := Int.le.dest ht
  have hbt : (t + 149).toNat = b := by omega
  have hb' : b < 253 := by omega
  have hsign : decide ((b * 2 ^ 23 + n) / 2 ^ 31 % 2 = 1) = false := decide_eq_false (by omega)
  rw [hbt, decode_single, hsign, if_neg (by omega)]
  by_cases hsmall : n < 2 ^ 23
  · obtain rfl : t = -149 := by omega
    obtain rfl : b = 0 := by omega
    rw [if_pos (by omega)]
    exact ⟨_, _, rfl, by congr 2; omega⟩
  · rw [if_neg (by omega)]
    refine ⟨_, _, rfl, ?_⟩
    rcases hn.lt_or_eq with hlt | rfl
    · have hfield : (b * 2 ^ 23 + n) / 2 ^ 23 % 2 ^ 8 = b + 1 := by omega
      have hfraction : 2 ^ 23 + (b * 2 ^ 23 + n) % 2 ^ 23 = n := by omega
      have hexponent : ((b + 1 : ℕ) : ℤ) - 1 - 149 = t := by omega
      rw [hfield, hfraction, hexponent]
    · have hfield : (b * 2 ^ 23 + 2 ^ 24) / 2 ^ 23 % 2 ^ 8 = b + 2 := by omega
      have hfraction : 2 ^ 23 + (b * 2 ^ 23 + 2 ^ 24) % 2 ^ 23 = 2 ^ 23 := by omega
      have hexponent : ((b + 2 : ℕ) : ℤ) - 1 - 149 = t + 1 := by omega
      rw [hfield, hfraction, hexponent, zpow_add_one₀ two_ne_zero]
      push_cast
      ring

/-- A number with given bits stands for what is decoded. -/
theorem isNearestTo_ofBits {bits : ℕ} (hbits : bits < 2 ^ 32) {m : ℕ} {e : ℤ} {v : ℝ}
    (h : Format.single.decode bits = .finite false m e) (hv : IsRounded v (m * 2 ^ e)) :
    IsNearestTo (Float32.ofBits bits.toUInt32) v := by
  have hnat : bits.toUInt32.toBitVec.toNat = bits := Nat.mod_eq_of_lt hbits
  have hdecode := decode_eq_ofUnpacked bits.toUInt32.toBitVec
  rw [hnat, h] at hdecode
  have hvalue : unpackedValue (unpack binary32 bits.toUInt32.toBitVec) = m * 2 ^ e := by
    rw [unpackedValue_of_ofUnpacked hdecode.symm]
    simp
  have hcanonical := isCanonical_unpack (isFinite_of_ofUnpacked hdecode.symm)
  exact IsResult.isNearestTo ⟨hcanonical, hvalue ▸ hv⟩ rfl

theorem encode_single (m : ℕ) (e : ℤ) : Format.single.encode false m e =
    if m = 0 then 0
    else 0 + min ((place m e + 149).toNat * 2 ^ 23 + multiple m e) (255 * 2 ^ 23) := rfl

/-- **Encoding rounds to the nearest number.** -/
theorem isNearestTo_nearest {m : ℕ} {e : ℤ} {q : ℝ} (h : StandsFor m q)
    (hq : q * 2 ^ e < 2 ^ (127 : ℤ)) : IsNearestTo (nearest false m e) (q * 2 ^ e) := by
  rw [nearest, encode_single]
  rcases Nat.eq_zero_or_pos m with rfl | hm
  · obtain rfl : q = 0 := by
      rcases h with rfl | ⟨hodd, -⟩
      · exact Nat.cast_zero
      · exact absurd hodd (by decide)
    rw [if_pos rfl, zero_mul]
    refine isNearestTo_ofBits (by decide) (m := 0) (e := -149) (by decide) ?_
    simpa using isRounded_zero
  · have hplace := isLastPlace_place (e := e) hm h
    have hmultiple := isNearestInteger_multiple (e := e) hm h
    have hq0 : 0 ≤ q := (by positivity : (0 : ℝ) ≤ 2 ^ m.log2).trans (h.bounds hm).1
    have hpos : 0 ≤ q * 2 ^ e := by positivity
    obtain ⟨hle, hlead⟩ := bounds_of_isLastPlace hpos hplace hmultiple
    have htop := hplace.lt_of_lt hpos hq
    have hlow := hplace.lowest
    obtain ⟨n, f, hdecode, hvalue⟩ := exists_decode_eq hlow htop hle hlead
    have hmin : (place m e + 149).toNat * 2 ^ 23 + multiple m e ≤ 255 * 2 ^ 23 := by omega
    rw [if_neg hm.ne', zero_add, min_eq_left hmin]
    refine isNearestTo_ofBits (by omega) hdecode ?_
    exact ⟨place m e, multiple m e, hplace, hmultiple, by rw [hvalue, Int.cast_natCast]⟩

/-! ### Lengths -/

/-- A root with an odd place for the rest stands for the root, if it has many places. -/
theorem standsFor_sqrt {w : ℕ} (hw : w = 0 ∨ 2 ^ 64 ≤ w) :
    StandsFor (2 * w.sqrt + if w.sqrt * w.sqrt = w then 0 else 1) (2 * √w) := by
  split
  · next heq =>
      left
      have hcast : (w : ℝ) = w.sqrt * w.sqrt := by exact_mod_cast heq.symm
      push_cast
      rw [add_zero, hcast, Real.sqrt_mul_self (Nat.cast_nonneg _)]
  · next hne =>
      right
      have hlow := lt_of_le_of_ne (Nat.sqrt_le w) hne
      have hhigh := Nat.sqrt_lt'.1 (Nat.lt_succ_self w.sqrt)
      have hlarge : 2 ^ 32 ≤ w.sqrt := by
        rw [Nat.le_sqrt]
        rcases hw with rfl | hw
        · omega
        · exact hw
      generalize w.sqrt = root at *
      have hlow' : (root : ℝ) < √w := by
        refine Real.lt_sqrt_of_sq_lt ?_
        rw [sq]
        exact_mod_cast hlow
      have hhigh' : √(w : ℝ) < root + 1 := by
        rw [Real.sqrt_lt' (by positivity)]
        exact_mod_cast hhigh
      refine ⟨⟨root, rfl⟩, by omega, ?_⟩
      push_cast
      rw [abs_lt]
      constructor <;> linarith

/-- The root of a magnitude with an even exponent is rounded correctly. -/
theorem isNearestTo_nearestRoot {m : ℕ} {e : ℤ} (h : √m * 2 ^ e < 2 ^ (127 : ℤ)) :
    IsNearestTo (nearestRoot m e) (√m * 2 ^ e) := by
  have hwide : m * twoTo 64 = 0 ∨ 2 ^ 64 ≤ m * twoTo 64 := by
    rw [twoTo, Nat.pow_eq]
    omega
  have hroot : 2 * √((m * twoTo 64 : ℕ) : ℝ) * 2 ^ (e - 33) = √m * 2 ^ e := by
    have h64 : √((2 : ℝ) ^ 64) = 2 ^ 32 := by
      rw [show (2 : ℝ) ^ 64 = 2 ^ 32 * 2 ^ 32 by norm_num, Real.sqrt_mul_self (by positivity)]
    rw [twoTo, Nat.pow_eq, Nat.cast_mul, Nat.cast_pow, Nat.cast_ofNat,
      Real.sqrt_mul (Nat.cast_nonneg _), h64, zpow_sub₀ two_ne_zero]
    norm_num
    ring
  rw [nearestRoot, ← hroot]
  exact isNearestTo_nearest (standsFor_sqrt hwide) (hroot ▸ h)

/-- The square of a number in multiples of a smaller power of two. -/
theorem sq_value_of_exact {x : Float32} {negative : Bool} {m : ℕ} {a e : ℤ}
    (h : exact x = .finite negative m a) (he : e ≤ a) :
    value x ^ 2 = ((m * twoTo (a - e).toNat : ℕ) : ℝ) ^ 2 * (2 ^ e) ^ 2 := by
  obtain ⟨k, rfl⟩ := Int.le.dest he
  have hsign : (if negative then (-1 : ℝ) else 1) ^ 2 = 1 := by cases negative <;> simp
  rw [value_of_exact h, mul_pow, hsign, one_mul, add_sub_cancel_left, Int.toNat_natCast, twoTo,
    Nat.pow_eq, zpow_add₀ two_ne_zero, zpow_natCast]
  push_cast
  ring

/-- **The length of a vector is correctly rounded.** -/
theorem isNearestTo_hypotenuse {x y : Float32} (hx : x.isFinite = true) (hy : y.isFinite = true)
    (h : √(value x ^ 2 + value y ^ 2) < 2 ^ (127 : ℤ)) :
    IsNearestTo (hypotenuse x y) (√(value x ^ 2 + value y ^ 2)) := by
  obtain ⟨s, m, a, hm⟩ := exists_exact_eq hx
  obtain ⟨t, n, b, hn⟩ := exists_exact_eq hy
  have hlength : √(value x ^ 2 + value y ^ 2) =
      √((m * twoTo (a - min a b).toNat * (m * twoTo (a - min a b).toNat) +
        n * twoTo (b - min a b).toNat * (n * twoTo (b - min a b).toNat) : ℕ) : ℝ) *
          2 ^ min a b := by
    rw [sq_value_of_exact hm (min_le_left a b), sq_value_of_exact hn (min_le_right a b), ← add_mul,
      Real.sqrt_mul (by positivity), Real.sqrt_sq (by positivity)]
    push_cast
    rw [sq, sq]
  rw [hypotenuse, hm, hn, hlength]
  exact isNearestTo_nearestRoot (hlength ▸ h)

end TextDiagram.Number
