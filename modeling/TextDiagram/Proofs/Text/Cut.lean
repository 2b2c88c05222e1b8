/-
**What a cut finds.**

A cut around a word is made if the word occurs anywhere in the text, and a cut around a character is
made where the character stands for the first time.  A word that does not hold a character cannot
reach across it: it occurs on one of the two sides.

Main results:

* `TextDiagram.Text.occursIn_iff` — what it means to occur;
* `TextDiagram.Text.infix_append_cons_iff`, `TextDiagram.Text.prefix_append_cons_iff` — a word
  without a character occurs on one side of it;
* `TextDiagram.Text.cutAround_append_word`, `TextDiagram.Text.cutAround_append_cons`,
  `TextDiagram.Text.notMem_of_cutAround` — a cut is made **at the first occurrence**;
* `TextDiagram.Text.beforeLast_concat` — what stands before the last character;
* `TextDiagram.Text.pieces_append_separator`, `TextDiagram.Text.lines_of_eq_append`,
  `TextDiagram.Text.lines_append` — a text falls apart at every separator, and into lines at every
  line feed;
* `TextDiagram.Text.getLast?_pieces_eq_nil_iff` — when there is nothing after the last separator.
-/

import Mathlib.Data.List.Infix
import Mathlib.Data.List.TakeWhile
import TextDiagram.Text.Lines

set_option relaxedAutoImplicit false
set_option autoImplicit false

namespace TextDiagram.Text

variable {word text before after : List Char} {c : Char}

/-! ### Words -/

theorem isSome_cutAround_iff : (cutAround word text).isSome = true ↔ word <:+: text := by
  induction text with
  | nil =>
      cases word with
      | nil => simp [cutAround]
      | cons c word => simp [cutAround]
  | cons c text ih =>
      rw [cutAround, List.infix_cons_iff]
      split
      · next hprefix => simp [List.isPrefixOf_iff_prefix.1 hprefix]
      · next hprefix =>
          have hno : ¬ word <+: c :: text := fun h => hprefix (List.isPrefixOf_iff_prefix.2 h)
          rw [Option.isSome_map, ih]
          exact (or_iff_right hno).symm

/-- A text has a word in it when it can be cut around the word. -/
theorem occursIn_iff : occursIn word text = true ↔ word <:+: text := isSome_cutAround_iff

/-- A word at the start does not reach up to a character that it does not hold. -/
theorem prefix_append_cons_iff (hc : c ∉ word) :
    word <+: before ++ c :: after ↔ word <+: before := by
  constructor
  · intro h
    induction before generalizing word with
    | nil =>
        rcases List.prefix_cons_iff.1 h with rfl | ⟨t, rfl, -⟩
        · exact List.nil_prefix
        · exact absurd List.mem_cons_self hc
    | cons d before ih =>
        rcases List.prefix_cons_iff.1 h with rfl | ⟨t, rfl, ht⟩
        · exact List.nil_prefix
        · exact List.cons_prefix_cons.2 ⟨rfl, ih (fun hmem => hc (List.mem_cons_of_mem _ hmem)) ht⟩
  · intro h
    exact h.trans (List.prefix_append _ _)

/-- A word does not reach across a character that it does not hold. -/
theorem infix_append_cons_iff (hc : c ∉ word) :
    word <:+: before ++ c :: after ↔ word <:+: before ∨ word <:+: after := by
  induction before with
  | nil =>
      have hstart : word <+: [] ++ c :: after ↔ word <+: [] := prefix_append_cons_iff hc
      rw [List.nil_append] at hstart ⊢
      rw [List.infix_cons_iff, hstart, List.prefix_nil, List.infix_nil]
  | cons d before ih =>
      have hstart : word <+: (d :: before) ++ c :: after ↔ word <+: d :: before :=
        prefix_append_cons_iff hc
      rw [List.cons_append] at hstart ⊢
      rw [List.infix_cons_iff, List.infix_cons_iff, hstart, ih, or_assoc]

/-! ### Characters -/

/-- A cut around a word is made where its first character stands for the first time, if the rest of
the word follows. -/
theorem cutAround_append_word (hc : c ∉ before) (word after : List Char) :
    cutAround (c :: word) (before ++ (c :: word ++ after)) = some (before, after) := by
  induction before with
  | nil => simp [cutAround, List.isPrefixOf_iff_prefix.2 (List.prefix_append word after)]
  | cons d before ih =>
      rw [List.mem_cons, not_or] at hc
      obtain ⟨hne, hbefore⟩ := hc
      have hprefix : (c :: word).isPrefixOf (d :: (before ++ (c :: word ++ after))) = false := by
        simp [List.isPrefixOf, hne]
      rw [List.cons_append, cutAround, hprefix, ih hbefore]
      rfl

/-- A cut around a character is made where it stands for the first time. -/
theorem cutAround_append_cons (hc : c ∉ before) (after : List Char) :
    cutAround [c] (before ++ c :: after) = some (before, after) :=
  cutAround_append_word hc [] after

/-- What stands before the last occurrence of a character that ends the text. -/
theorem beforeLast_concat (c : Char) (text : List Char) :
    beforeLast c (text ++ [c]) = some text := by
  have hcut : cutAround [c] (c :: text.reverse) = some ([], text.reverse) :=
    cutAround_append_cons List.not_mem_nil text.reverse
  simp only [beforeLast, List.reverse_concat, hcut, Option.map_some, List.reverse_reverse]

/-- Only a text without a character is not cut around it. -/
theorem cutAround_eq_none_iff : cutAround [c] text = none ↔ c ∉ text := by
  rw [← Option.not_isSome_iff_eq_none, isSome_cutAround_iff, List.singleton_infix_iff]

/-- A character does not stand before the cut around it. -/
theorem notMem_of_cutAround (h : cutAround [c] text = some (before, after)) : c ∉ before := by
  induction text generalizing before with
  | nil => simp [cutAround] at h
  | cons d text ih =>
      rw [cutAround] at h
      split at h
      · obtain ⟨rfl, -⟩ := Prod.mk.inj (Option.some.inj h)
        exact List.not_mem_nil
      · next hprefix =>
          obtain ⟨⟨b, a⟩, hcut, heq⟩ := Option.map_eq_some_iff.1 h
          obtain ⟨rfl, rfl⟩ := Prod.mk.inj heq
          have hne : c ≠ d := by
            rintro rfl
            simp [List.isPrefixOf] at hprefix
          rw [List.mem_cons, not_or]
          exact ⟨hne, ih hcut⟩

/-- What stands before a cut around a character is what comes until the character. -/
theorem takeWhile_of_cutAround (h : cutAround [c] text = some (before, after)) :
    text.takeWhile (· ≠ c) = before := by
  have happend : before ++ [c] ++ after = text := append_of_cutAround h
  have hbefore : ∀ d ∈ before, decide (d ≠ c) = true := by
    rintro d hd
    exact decide_eq_true fun heq => notMem_of_cutAround h (heq ▸ hd)
  rw [← happend, List.append_assoc, List.takeWhile_append_of_pos hbefore, List.singleton_append,
    List.takeWhile_cons_of_neg (by simp), List.append_nil]

/-- Where a character does not occur, the whole text comes until it. -/
theorem takeWhile_of_notMem (hc : c ∉ text) : text.takeWhile (· ≠ c) = text := by
  refine List.takeWhile_eq_self_iff.2 ?_
  intro d hd
  exact decide_eq_true fun heq => hc (heq ▸ hd)

/-! ### Pieces -/

/-- A text falls apart at a separator, wherever that stands. -/
theorem pieces_append_separator (c : Char) (before after : List Char) :
    pieces c (before ++ c :: after) = pieces c before ++ pieces c after := by
  induction before with
  | nil => simp [pieces]
  | cons d before ih =>
      rw [List.cons_append, pieces, pieces, ih]
      split
      · rfl
      · cases hpieces : pieces c before with
        | nil => exact absurd hpieces (pieces_ne_nil c before)
        | cons piece others => rfl

/-- There are no more pieces than characters, and one. -/
theorem length_pieces_le (c : Char) (text : List Char) :
    (pieces c text).length ≤ text.length + 1 := by
  induction text with
  | nil => exact Nat.le_refl 1
  | cons d text ih =>
      rw [pieces, List.length_cons]
      split
      · rw [List.length_cons]
        omega
      · cases hpieces : pieces c text with
        | nil => exact absurd hpieces (pieces_ne_nil c text)
        | cons piece others =>
            rw [hpieces, List.length_cons] at ih
            rw [List.length_cons]
            omega

/-- The last piece is empty if the text is, or ends in the separator. -/
theorem getLast?_pieces_eq_nil_iff :
    (pieces c text).getLast? = some [] ↔ text = [] ∨ text.getLast? = some c := by
  by_cases hc : c ∈ text
  · -- the last piece is what comes after the last separator
    obtain ⟨after, before, hreverse, hafter⟩ := List.eq_append_cons_of_mem (List.mem_reverse.2 hc)
    obtain rfl : text = before.reverse ++ c :: after.reverse := by
      simpa using congrArg List.reverse hreverse
    have hlast : pieces c after.reverse = [after.reverse] :=
      pieces_eq_singleton (mt List.mem_reverse.1 hafter)
    rw [pieces_append_separator, hlast, List.getLast?_concat, List.getLast?_append_cons]
    cases after with
    | nil => simp
    | cons d after =>
        have hne : c ≠ d := fun heq => hafter (heq ▸ List.mem_cons_self)
        simp [List.getLast?_cons, hne.symm]
  · rw [pieces_eq_singleton hc, List.getLast?_singleton, Option.some_inj]
    refine (or_iff_left ?_).symm
    intro hlast
    exact hc (List.mem_of_getLast? hlast)

/-! ### Lines -/

theorem lines_of_notMem {line : String} (h : '\n' ∉ line.toList) : lines line = [line] := by
  rw [lines, pieces_eq_singleton h, List.map_singleton, String.ofList_toList]

/-- The lines of a text are those before a line feed and those after it. -/
theorem lines_of_eq_append {text : String} (h : text.toList = before ++ '\n' :: after) :
    lines text = lines (String.ofList before) ++ lines (String.ofList after) := by
  simp only [lines, h, pieces_append_separator, List.map_append, String.toList_ofList]

/-- A text that goes on after a line feed has further lines. -/
theorem lines_append (above below : String) :
    lines (above ++ "\n" ++ below) = lines above ++ lines below := by
  have happend : (above ++ "\n" ++ below).toList = above.toList ++ '\n' :: below.toList := by
    rw [String.toList_append, String.toList_append, List.append_assoc]
    rfl
  rw [lines_of_eq_append happend, String.ofList_toList, String.ofList_toList]

/-- There are no more lines than characters, and one. -/
theorem length_lines_le (text : String) : (lines text).length ≤ text.length + 1 := by
  rw [lines, List.length_map, ← String.length_toList]
  exact length_pieces_le '\n' text.toList

/-- No line holds a line feed. -/
theorem notMem_of_mem_lines {text line : String} (h : line ∈ lines text) : '\n' ∉ line.toList := by
  obtain ⟨piece, hpiece, rfl⟩ := List.mem_map.1 h
  rw [String.toList_ofList]
  exact not_mem_of_mem_pieces hpiece

theorem notMem_of_mem_numberedLines {text : String} {p : Nat × String}
    (h : p ∈ numberedLines text) : '\n' ∉ p.2.toList := by
  obtain ⟨⟨line, number⟩, hmem, rfl⟩ := List.mem_map.1 h
  exact notMem_of_mem_lines (List.fst_mem_of_mem_zipIdx hmem)

end TextDiagram.Text
