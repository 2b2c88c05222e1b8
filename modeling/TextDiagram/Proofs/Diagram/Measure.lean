/-
**How large labels and nodes are.**

How large a label is depends on the fonts, and nothing is known of them here.  What is known is the
estimate that takes their place where there are none: in the font size of the default style, a
character takes 10.241 units of a line, and a line not more than 21.5 units of height.  All of this
is rounded, but for labels of up to ten thousand characters the errors stay below a hundred
thousandth of a unit for each character.

Main definitions:

* `TextDiagram.Size.IsOrdinary` — a size that is finite and not too large.

Main results:

* `TextDiagram.displayLines_eq_singleton` — a label without a line feed is drawn in one line;
* `TextDiagram.estimatedSize_spec` — **the size of a label without fonts**, up to rounding;
* `TextDiagram.isWithin_nodeSize` — the size of a node whose label has an ordinary size.
-/

import TextDiagram.Diagram.Measure
import TextDiagram.Proofs.Geometry.Hull

set_option relaxedAutoImplicit false
set_option autoImplicit false

namespace TextDiagram

open Number (value IsWithin)

/-! ### Lines -/

/-- A label without a line feed is drawn in one line, unless it is empty. -/
theorem displayLines_eq_singleton {label : String} (h : '\n' ∉ label.toList) (hne : label ≠ "") :
    Text.displayLines label = [label.toList] := by
  have hlist : label.toList.isEmpty = false := by
    rw [List.isEmpty_eq_false_iff]
    exact fun heq => hne (String.toList_eq_nil_iff.1 heq)
  rw [Text.displayLines, Text.pieces_eq_singleton h]
  simp [hlist]

/-! ### Labels -/

/-- The height of a character in the default style. -/
theorem characterHeight_spec : IsWithin 5 (Style.characterHeight {}) ∧
    |value (Style.characterHeight {}) - 18.62| ≤ 1 / 10 ^ 6 := by
  have h : Number.exact (Style.characterHeight {}) = .finite false 9762243 (-19) := by
    decide +kernel
  refine ⟨Number.isWithin_of_exact h (by norm_num), ?_⟩
  rw [Number.value_of_exact h]
  norm_num

/-- The share of its height that a character is wide. -/
theorem characterShare_spec : IsWithin 0 (0.55 : Float32) ∧
    |value (0.55 : Float32) - 0.55| ≤ 1 / 10 ^ 7 := by
  have h : Number.exact (0.55 : Float32) = .finite false 9227469 (-24) := by decide +kernel
  refine ⟨Number.isWithin_of_exact h (by norm_num), ?_⟩
  rw [Number.value_of_exact h]
  norm_num

/-- The height of a line in the default style. -/
theorem lineHeight_spec : 0 ≤ value (Float32.ofNat 1 * Style.lineHeight {}) ∧
    value (Float32.ofNat 1 * Style.lineHeight {}) ≤ 21.5 := by
  have h : Number.exact (Float32.ofNat 1 * Style.lineHeight {}) = .finite false 11226579 (-19) := by
    decide +kernel
  rw [Number.value_of_exact h]
  constructor
  · norm_num
  · norm_num

/-- The errors on the way from a number of characters to a width. -/
theorem abs_width_sub_le_of_errors {n height share line width : ℝ} (hn : 1 ≤ n)
    (hheight : |height - 18.62| ≤ 1 / 10 ^ 6) (hshare : |share - 0.55| ≤ 1 / 10 ^ 7)
    (hline : |line - n * height| ≤ |n * height| / 2 ^ 24 + 1 / 2 ^ 150)
    (hwidth : |width - line * share| ≤ |line * share| / 2 ^ 24 + 1 / 2 ^ 150) :
    |width - 10.241 * n| ≤ n / 10 ^ 5 := by
  have hlineNear : |line - 18.62 * n| ≤ 3 * n / 10 ^ 6 := by
    have hscaled : |n * height - 18.62 * n| ≤ n / 10 ^ 6 := by
      rw [mul_comm n, ← sub_mul, abs_mul, abs_of_pos (by linarith : 0 < n), mul_comm]
      exact (mul_le_mul_of_nonneg_left hheight (by linarith)).trans_eq (by ring)
    have hsize := abs_sub_abs_le_abs_sub (n * height) (18.62 * n)
    rw [abs_of_nonneg (by linarith : 0 ≤ 18.62 * n)] at hsize
    have hsplit := abs_sub_le line (n * height) (18.62 * n)
    norm_num at hline hscaled hsize hsplit ⊢
    linarith
  have hproductNear : |line * share - 10.241 * n| ≤ 5 * n / 10 ^ 6 := by
    have hshareSize : |share| ≤ 1 := by
      have := abs_sub_abs_le_abs_sub share 0.55
      norm_num at this hshare
      linarith
    have heq : line * share - 10.241 * n =
        (line - 18.62 * n) * share + 18.62 * n * (share - 0.55) := by ring
    have hfirst : |(line - 18.62 * n) * share| ≤ 3 * n / 10 ^ 6 * 1 := by
      rw [abs_mul]
      exact mul_le_mul hlineNear hshareSize (abs_nonneg _) (by linarith)
    have hsecond : |18.62 * n * (share - 0.55)| ≤ 18.62 * n * (1 / 10 ^ 7) := by
      rw [abs_mul, abs_of_nonneg (by linarith : 0 ≤ 18.62 * n)]
      exact mul_le_mul_of_nonneg_left hshare (by linarith)
    rw [heq]
    have hsplit := abs_add_le ((line - 18.62 * n) * share) (18.62 * n * (share - 0.55))
    norm_num at hfirst hsecond hsplit ⊢
    linarith
  have hsize := abs_sub_abs_le_abs_sub (line * share) (10.241 * n)
  rw [abs_of_nonneg (by linarith : 0 ≤ 10.241 * n)] at hsize
  have hsplit := abs_sub_le width (line * share) (10.241 * n)
  norm_num at hwidth hproductNear hsize hsplit ⊢
  linarith

/-- The width of a line of characters in the default style. -/
theorem lineWidth_spec {n : ℕ} (hle : n ≤ 10000) :
    |value (Float32.ofNat n * Style.characterHeight {} * 0.55) - 10.241 * n| ≤ n / 10 ^ 5 := by
  rcases Nat.eq_zero_or_pos n with rfl | hpos
  · have hzero : Number.exact (Float32.ofNat 0 * Style.characterHeight {} * 0.55) =
        .finite false 0 (-149) := by decide +kernel
    rw [Number.value_of_exact hzero]
    norm_num
  · obtain ⟨hheight, hheightNear⟩ := characterHeight_spec
    obtain ⟨hshare, hshareNear⟩ := characterShare_spec
    obtain ⟨hline, hlineWithin⟩ :=
      (Number.isWithin_ofNat_of_le (n := n) (k := 14) (by decide) (by omega)).mul hheight
        (by decide)
    rw [Number.value_ofNat (by omega)] at hline
    exact abs_width_sub_le_of_errors (by exact_mod_cast hpos) hheightNear hshareNear
      hline.abs_sub_le (hlineWithin.mul hshare (by decide)).1.abs_sub_le

/-- **The size of a label without fonts**, if it has one line, in the default style. -/
theorem estimatedSize_spec (fonts : Fonts) {label : String} (h : '\n' ∉ label.toList)
    (hle : label.length ≤ 10000) :
    |value (estimatedSize { fonts } label).width - 10.241 * label.length| ≤
        label.length / 10 ^ 5 ∧
      0 ≤ value (estimatedSize { fonts } label).height ∧
      value (estimatedSize { fonts } label).height ≤ 21.5 := by
  have hsize : estimatedSize { fonts } label =
      ⟨Float32.ofNat label.length * Style.characterHeight {} * 0.55,
        Float32.ofNat 1 * Style.lineHeight {}⟩ := by
    by_cases hempty : label = ""
    · rw [hempty]
      rfl
    · rw [estimatedSize, displayLines_eq_singleton h hempty, ← String.length_toList]
      simp [Style.characterHeight, Style.lineHeight, Style.fontHeight]
  rw [hsize]
  exact ⟨lineWidth_spec hle, lineHeight_spec⟩

/-! ### Ordinary sizes -/

/-- A size that is finite and not larger than `2 ^ 17`. -/
structure Size.IsOrdinary (s : Size Float32) : Prop where
  width : s.width.isFinite = true ∧ s.width.abs ≤ 131072
  height : s.height.isFinite = true ∧ s.height.abs ≤ 131072

instance (s : Size Float32) : Decidable s.IsOrdinary :=
  decidable_of_iff ((s.width.isFinite = true ∧ s.width.abs ≤ 131072) ∧
    s.height.isFinite = true ∧ s.height.abs ≤ 131072)
    ⟨fun ⟨hw, hh⟩ => ⟨hw, hh⟩, fun ⟨hw, hh⟩ => ⟨hw, hh⟩⟩

/-- The extents of an ordinary size. -/
theorem Size.IsOrdinary.isWithin {s : Size Float32} (h : s.IsOrdinary) :
    IsWithin 17 s.width ∧ IsWithin 17 s.height := by
  have hexact : Number.exact (131072 : Float32) = .finite false 8388608 (-6) := by decide +kernel
  have hbound : IsWithin 17 (131072 : Float32) := Number.isWithin_of_exact hexact (by norm_num)
  exact ⟨Number.isWithin_of_abs_le hbound h.width, Number.isWithin_of_abs_le hbound h.height⟩

/-- The height of a label with the padding and the caption of a node. -/
theorem isWithin_captioned {height caption : Float32} (hheight : IsWithin 17 height)
    (hcaption : IsWithin 5 caption) : IsWithin 18 (height + 24 + caption) := by
  have hpadding : IsWithin 17 (24 : Float32) :=
    Number.isWithin_ofNat_of_le (n := 24) (k := 17) (by decide) (by decide)
  have hpaddingValue : value (24 : Float32) = 24 := Number.value_ofNat (n := 24) (by decide)
  have hraised := hheight.abs_add_sub_le hpadding (by decide)
  have hsum := ((hheight.add hpadding (by decide)).2.add (hcaption.mono (by decide))
    (by decide)).1
  refine hsum.isWithin ?_ (by decide)
  have hheightLe := hheight.le
  have hcaptionLe := hcaption.le
  rw [hpaddingValue] at hraised
  norm_num [abs_le] at hheightLe hcaptionLe hraised ⊢
  constructor
  · linarith
  · linarith

/-- The size of a node whose label has an ordinary size. -/
theorem isWithin_nodeSize {style : Style} {label : String} {typeface : Typeface}
    (hasIcon : Bool) {isGroup : Bool}
    (h : isGroup = false → (labelSize style label typeface).IsOrdinary) :
    IsWithin 18 (nodeSize style label hasIcon isGroup typeface).width ∧
      IsWithin 18 (nodeSize style label hasIcon isGroup typeface).height := by
  have hcount : ∀ {n k : ℕ}, k ≤ 22 → n ≤ 2 ^ k → IsWithin k (Float32.ofNat n) :=
    Number.isWithin_ofNat_of_le
  cases isGroup with
  | true =>
      exact ⟨hcount (n := 300) (k := 18) (by decide) (by decide),
        hcount (n := 200) (k := 18) (by decide) (by decide)⟩
  | false =>
      obtain ⟨hwidth, hheight⟩ := (h rfl).isWithin
      have hcaption : IsWithin 5 (if hasIcon then 18 else 0 : Float32) := by
        cases hasIcon with
        | true => exact hcount (n := 18) (k := 5) (by decide) (by decide)
        | false => exact Number.isWithin_zero 5
      have hpadded := (hwidth.add (hcount (n := 32) (k := 17) (by decide) (by decide))
        (by decide)).2
      exact ⟨(hpadded.larger (hcount (n := 150) (k := 18) (by decide) (by decide))).1,
        ((isWithin_captioned hheight hcaption).larger
          (hcount (n := 50) (k := 18) (by decide) (by decide))).1⟩

end TextDiagram
