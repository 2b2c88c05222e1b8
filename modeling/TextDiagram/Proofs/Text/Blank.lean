/-
**What trimming leaves.**

A trimmed text neither starts nor ends with a blank, and a text that does neither is left as it is.
So blanks around such a text are all that trimming takes away, what stands behind it loses the
blanks at its end only, and its first word is not changed by what stands after a blank behind it.

Main definitions:

* `TextDiagram.Text.IsTrimmed` — a text that neither starts nor ends with a blank.

Main results:

* `TextDiagram.Text.isTrimmed_trim`, `TextDiagram.Text.IsTrimmed.trim_eq` — **trimming makes a text
  trimmed**, and a trimmed text stays;
* `TextDiagram.Text.IsTrimmed.trim_append` — what trimming leaves of a text behind a trimmed one;
* `TextDiagram.Text.takeWhile_append_of_head`, `TextDiagram.Text.dropWhile_append_of_head` — a run of
  characters and what is left behind it;
* `TextDiagram.Text.IsTrimmed.firstWord_append` — the first word of a trimmed text.
-/

import Mathlib.Data.List.Basic
import TextDiagram.Text.Blank

set_option relaxedAutoImplicit false
set_option autoImplicit false

namespace TextDiagram.Text

variable {text : List Char} {c : Char}

/-- A text that neither starts nor ends with a blank. -/
structure IsTrimmed (text : List Char) : Prop where
  /-- The first character is no blank. -/
  head : ∀ c, text.head? = some c → isBlank c = false
  /-- The last character is no blank. -/
  last : ∀ c, text.getLast? = some c → isBlank c = false

/-! ### The two ends -/

theorem head?_trimStart (h : (trimStart text).head? = some c) : isBlank c = false := by
  have hhead := List.head?_dropWhile_not isBlank text
  rw [trimStart] at h
  rw [h] at hhead
  exact hhead

theorem trimEnd_eq_reverse (text : List Char) : trimEnd text = (trimStart text.reverse).reverse :=
  rfl

/-- What is left of a text at its start is its end. -/
theorem trimStart_suffix (text : List Char) : trimStart text <:+ text :=
  List.dropWhile_suffix isBlank

/-- What is left of a text at its end is its start. -/
theorem trimEnd_prefix_self (text : List Char) : trimEnd text <+: text := by
  rw [trimEnd_eq_reverse, ← List.reverse_suffix, List.reverse_reverse]
  exact trimStart_suffix text.reverse

/-- Trimming adds no characters. -/
theorem mem_of_mem_trim (h : c ∈ trim text) : c ∈ text :=
  (trimStart_suffix text).subset ((trimEnd_prefix_self (trimStart text)).subset h)

/-- **Trimming makes a text trimmed.** -/
theorem isTrimmed_trim (text : List Char) : IsTrimmed (trim text) where
  head := by
    intro c hc
    obtain ⟨rest, hrest⟩ := trimEnd_prefix_self (trimStart text)
    -- the first character is still that of the text that was trimmed at its start
    have hhead : (trimStart text).head? = some c := by
      rw [← hrest, List.head?_append, ← trim, hc, Option.some_or]
    exact head?_trimStart hhead
  last := by
    intro c hc
    rw [trim, trimEnd_eq_reverse, List.getLast?_reverse] at hc
    exact head?_trimStart hc

namespace IsTrimmed

theorem reverse (h : IsTrimmed text) : IsTrimmed text.reverse where
  head := by
    rw [List.head?_reverse]
    exact h.last
  last := by
    rw [List.getLast?_reverse]
    exact h.head

/-- Blanks before a trimmed text are dropped up to it. -/
theorem trimStart_append (h : IsTrimmed text) (before : List Char) :
    trimStart (before ++ text) = trimStart before ++ text := by
  induction before with
  | nil => exact trimStart_eq_self_iff.2 h.head
  | cons c before ih =>
      rw [trimStart] at ih
      rw [trimStart, trimStart, List.cons_append, List.dropWhile_cons, List.dropWhile_cons, ih]
      split
      · rfl
      · rfl

/-- Blanks after a trimmed text are dropped up to it. -/
theorem trimEnd_append (h : IsTrimmed text) (after : List Char) :
    trimEnd (text ++ after) = text ++ trimEnd after := by
  rw [trimEnd_eq_reverse, List.reverse_append, h.reverse.trimStart_append, List.reverse_append,
    List.reverse_reverse, trimEnd_eq_reverse]

/-- Nothing is dropped before a trimmed text at the start. -/
theorem trimStart_self_append (h : IsTrimmed text) (htext : text ≠ []) (after : List Char) :
    trimStart (text ++ after) = text ++ after := by
  refine trimStart_eq_self_iff.2 ?_
  rw [List.head?_append_of_ne_nil _ htext]
  exact h.head

/-- What stands after a trimmed text loses the blanks at its end. -/
theorem trim_append (h : IsTrimmed text) (htext : text ≠ []) (after : List Char) :
    trim (text ++ after) = text ++ trimEnd after := by
  rw [trim, h.trimStart_self_append htext, h.trimEnd_append]

/-- A trimmed text stays as it is. -/
theorem trim_eq (h : IsTrimmed text) : trim text = text := by
  rw [trim, trimStart_eq_self_iff.2 h.head, trimEnd_eq_reverse,
    trimStart_eq_self_iff.2 h.reverse.head, List.reverse_reverse]

/-- Two trimmed texts with something between them are trimmed. -/
theorem append {before after : List Char} (hbefore : IsTrimmed before) (hafter : IsTrimmed after)
    (hb : before ≠ []) (ha : after ≠ []) (between : List Char) :
    IsTrimmed (before ++ (between ++ after)) where
  head := by
    intro c hc
    rw [List.head?_append_of_ne_nil _ hb] at hc
    exact hbefore.head c hc
  last := by
    intro c hc
    rw [← List.append_assoc, List.getLast?_append_of_ne_nil _ ha] at hc
    exact hafter.last c hc

end IsTrimmed

/-- The trimmed texts are those that trimming leaves. -/
theorem isTrimmed_iff : IsTrimmed text ↔ trim text = text :=
  ⟨IsTrimmed.trim_eq, fun h => h ▸ isTrimmed_trim text⟩

instance (text : List Char) : Decidable (IsTrimmed text) := decidable_of_iff _ isTrimmed_iff.symm

/-- A text none of whose characters is found to be a blank has none. -/
theorem isBlank_of_any_eq_false (h : text.any isBlank = false) :
    ∀ c ∈ text, isBlank c = false := by
  simpa using List.any_eq_false.1 h

/-- A text without blanks is trimmed. -/
theorem isTrimmed_of_forall (h : ∀ c ∈ text, isBlank c = false) : IsTrimmed text :=
  ⟨fun c hc => h c (List.mem_of_mem_head? hc), fun c hc => h c (List.mem_of_mem_getLast? hc)⟩

/-- A digit is no blank. -/
theorem isBlank_of_isDigit (h : c.isDigit = true) : isBlank c = false := by
  have hrange : 48 ≤ c.toNat ∧ c.toNat ≤ 57 := by
    simpa [Char.isDigit, UInt32.le_iff_toNat_le] using h
  simp only [isBlank, blankRanges, List.any_cons, List.any_nil, Bool.or_false, Bool.or_eq_false_iff,
    Bool.and_eq_false_iff, decide_eq_false_iff_not]
  omega

/-! ### Blanks at the two ends -/

theorem trim_cons (hc : isBlank c = true) (text : List Char) : trim (c :: text) = trim text := by
  rw [trim, trim, trimStart, List.dropWhile_cons_of_pos hc, ← trimStart]

theorem trim_concat (hc : isBlank c = true) (text : List Char) :
    trim (text ++ [c]) = trim text := by
  have hend : ∀ l : List Char, trimEnd (l ++ [c]) = trimEnd l := by
    intro l
    rw [trimEnd_eq_reverse, List.reverse_concat, trimStart, List.dropWhile_cons_of_pos hc]
    rfl
  rw [trim, trim, trimStart, List.dropWhile_append]
  split
  · next hnil =>
      have htext : trimStart text = [] := List.isEmpty_iff.1 hnil
      rw [List.dropWhile_cons_of_pos hc, htext]
      rfl
  · exact hend _

/-! ### Runs of characters and first words -/

theorem takeWhile_append_cons {p : Char → Bool} (hc : p c = false) (before after : List Char) :
    (before ++ c :: after).takeWhile p = before.takeWhile p := by
  induction before with
  | nil => simp [hc]
  | cons d before ih =>
      rw [List.cons_append, List.takeWhile_cons, List.takeWhile_cons, ih]

/-- A run of characters is taken up to the first character that is none of them. -/
theorem takeWhile_append_of_head {p : Char → Bool} {before after : List Char}
    (hbefore : ∀ c ∈ before, p c = true) (hafter : ∀ c, after.head? = some c → p c = false) :
    (before ++ after).takeWhile p = before := by
  rw [List.takeWhile_append_of_pos hbefore]
  cases after with
  | nil => rw [List.takeWhile_nil, List.append_nil]
  | cons c after => rw [List.takeWhile_cons_of_neg (by simp [hafter c rfl]), List.append_nil]

/-- What is left behind the run starts with that character. -/
theorem dropWhile_append_of_head {p : Char → Bool} {before after : List Char}
    (hbefore : ∀ c ∈ before, p c = true) (hafter : ∀ c, after.head? = some c → p c = false) :
    (before ++ after).dropWhile p = after := by
  rw [List.dropWhile_append_of_pos hbefore]
  cases after with
  | nil => rfl
  | cons c after => exact List.dropWhile_cons_of_neg (by simp [hafter c rfl])

/-- The first word of a trimmed text is not changed by what stands after a blank behind it. -/
theorem IsTrimmed.firstWord_append (h : IsTrimmed text) (htext : text ≠ []) (hc : isBlank c = true)
    (after : List Char) : firstWord (text ++ c :: after) = firstWord text := by
  rw [firstWord, firstWord, h.trimStart_self_append htext, trimStart_eq_self_iff.2 h.head]
  exact takeWhile_append_cons (by simp [hc]) text after

end TextDiagram.Text
