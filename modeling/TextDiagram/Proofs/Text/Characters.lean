/-
**Which characters a text has.**

To read a text is to take it apart: lines, words, names and labels are made of characters of the
text that they were read from.  So what all characters of a text have in common holds of what is
read from it, and with it of what is put together from such parts.

Main definitions:

* `TextDiagram.HasOnly` — all characters of a text are allowed;
* `TextDiagram.IsPlain` — they are printable ones of ASCII.

Main results:

* `TextDiagram.Text.mem_of_mem_cutAround`, `TextDiagram.Text.mem_of_mem_beforeLast`,
  `TextDiagram.Text.mem_of_mem_pieces` — cutting adds no characters;
* `TextDiagram.Text.hasOnly_of_mem_numberedLines` — the lines of a text have its characters.
-/

import Mathlib.Data.List.Basic
import TextDiagram.Proofs.Text.Blank
import TextDiagram.Text.Lines

set_option relaxedAutoImplicit false
set_option autoImplicit false

namespace TextDiagram

/-! ### Allowed characters -/

/-- All characters of a text are allowed. -/
def HasOnly (allowed : Char → Prop) (text : String) : Prop := ∀ c ∈ text.toList, allowed c

instance (allowed : Char → Prop) [DecidablePred allowed] (text : String) :
    Decidable (HasOnly allowed text) := List.decidableBAll allowed text.toList

@[simp] theorem hasOnly_append {allowed : Char → Prop} {text other : String} :
    HasOnly allowed (text ++ other) ↔ HasOnly allowed text ∧ HasOnly allowed other := by
  simp only [HasOnly, String.toList_append, List.forall_mem_append]

@[simp] theorem hasOnly_ofList {allowed : Char → Prop} {text : List Char} :
    HasOnly allowed (String.ofList text) ↔ ∀ c ∈ text, allowed c := by
  rw [HasOnly, String.toList_ofList]

/-- Whether a character is a printable one of ASCII. -/
def isPlain (c : Char) : Bool := 0x20 ≤ c.toNat && c.toNat ≤ 0x7E

/-- All characters of a text are printable ones of ASCII. -/
abbrev IsPlain (text : String) : Prop := HasOnly (isPlain · = true) text

theorem IsPlain.hasOnly {allowed : Char → Prop} {text : String} (h : IsPlain text)
    (hallowed : ∀ c, isPlain c = true → allowed c) : HasOnly allowed text :=
  fun c hc => hallowed c (h c hc)

theorem isAlphanum_of_isAlpha {c : Char} (h : c.isAlpha = true) : c.isAlphanum = true := by
  rw [Char.isAlphanum, h, Bool.true_or]

theorem isAlphanum_of_isDigit {c : Char} (h : c.isDigit = true) : c.isAlphanum = true := by
  rw [Char.isAlphanum, h, Bool.or_true]

/-- The numbers of letters. -/
theorem toNat_of_isAlpha {c : Char} (h : c.isAlpha = true) :
    (65 ≤ c.toNat ∧ c.toNat ≤ 90) ∨ (97 ≤ c.toNat ∧ c.toNat ≤ 122) := by
  change (decide ('A'.val ≤ c.val ∧ c.val ≤ 'Z'.val) ||
    (decide ('a'.val ≤ c.val) && decide (c.val ≤ 'z'.val))) = true at h
  simpa [UInt32.le_iff_toNat_le] using h

/-- The numbers of digits. -/
theorem toNat_of_isDigit {c : Char} (h : c.isDigit = true) : 48 ≤ c.toNat ∧ c.toNat ≤ 57 := by
  simpa [Char.isDigit, UInt32.le_iff_toNat_le] using h

/-- Letters and digits are plain. -/
theorem isPlain_of_isAlphanum {c : Char} (h : c.isAlphanum = true) : isPlain c = true := by
  rw [Char.isAlphanum, Bool.or_eq_true] at h
  simp only [isPlain, Bool.and_eq_true, decide_eq_true_eq]
  rcases h with h | h
  · have := toNat_of_isAlpha h
    omega
  · have := toNat_of_isDigit h
    omega

/-- Decimal digits are plain. -/
theorem isPlain_of_mem_toDigits {n : Nat} {c : Char} (h : c ∈ Nat.toDigits 10 n) :
    isPlain c = true :=
  isPlain_of_isAlphanum
    (isAlphanum_of_isDigit (Nat.isDigit_of_mem_toDigits (by decide) (by decide) h))

/-- A count is plain. -/
@[simp] theorem isPlain_toString (n : Nat) : IsPlain (toString n) := by
  rw [Nat.toString_eq_repr, Nat.repr_eq_ofList_toDigits]
  exact hasOnly_ofList.2 fun c => isPlain_of_mem_toDigits

@[simp] theorem hasOnly_toString {allowed : Char → Prop} {text : String} :
    HasOnly allowed (toString text) ↔ HasOnly allowed text := Iff.rfl

/-! ### Cutting -/

namespace Text

variable {text word before after : List Char} {c d : Char}

/-- Cutting around a word adds no characters. -/
theorem mem_of_mem_cutAround (h : cutAround word text = some (before, after))
    (hc : c ∈ before ∨ c ∈ after) : c ∈ text := by
  rw [← append_of_cutAround h, List.mem_append, List.mem_append]
  rcases hc with hc | hc
  · exact .inl (.inl hc)
  · exact .inr hc

theorem mem_of_mem_beforeLast (h : beforeLast d text = some before) (hc : c ∈ before) :
    c ∈ text := by
  obtain ⟨⟨after, start⟩, hcut, rfl⟩ := Option.map_eq_some_iff.1 h
  exact List.mem_reverse.1 (mem_of_mem_cutAround hcut (.inr (List.mem_reverse.1 hc)))

/-- Cutting at a separator adds no characters. -/
theorem mem_of_mem_pieces : ∀ {text piece : List Char}, piece ∈ pieces d text → c ∈ piece →
    c ∈ text := by
  intro text
  induction text with
  | nil =>
      intro piece hpiece hc
      rw [List.mem_singleton.1 hpiece] at hc
      exact hc
  | cons e rest ih =>
      intro piece hpiece hc
      rw [pieces] at hpiece
      split at hpiece
      · rcases List.mem_cons.1 hpiece with rfl | hpiece
        · exact absurd hc List.not_mem_nil
        · exact List.mem_cons_of_mem _ (ih hpiece hc)
      · split at hpiece
        · rw [List.mem_singleton.1 hpiece, List.mem_singleton] at hc
          exact hc ▸ List.mem_cons_self
        · next first others hpieces =>
            rcases List.mem_cons.1 hpiece with rfl | hpiece
            · rcases List.mem_cons.1 hc with rfl | hc
              · exact List.mem_cons_self
              · have hfirst : first ∈ pieces d rest := hpieces ▸ List.mem_cons_self
                exact List.mem_cons_of_mem _ (ih hfirst hc)
            · have hother : piece ∈ pieces d rest := hpieces ▸ List.mem_cons_of_mem _ hpiece
              exact List.mem_cons_of_mem _ (ih hother hc)

/-- The lines of a text have only characters of the text. -/
theorem hasOnly_of_mem_numberedLines {allowed : Char → Prop} {text : String}
    (h : HasOnly allowed text) {p : Nat × String} (hp : p ∈ numberedLines text) :
    HasOnly allowed p.2 := by
  obtain ⟨⟨line, number⟩, hmem, rfl⟩ := List.mem_map.1 hp
  obtain ⟨piece, hpiece, rfl⟩ := List.mem_map.1 (List.fst_mem_of_mem_zipIdx hmem)
  rw [hasOnly_ofList]
  exact fun c hc => h c (mem_of_mem_pieces hpiece hc)

end Text

end TextDiagram
