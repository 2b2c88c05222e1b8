/-
**The characters of numbers.**

A number is written with digits and at most one point, or with a word where it has no digits.  What
else can stand in its text is the sign of a negative number, and the negative zero has one too.

Main definitions:

* `TextDiagram.Number.hasMinus` — a number is written with a minus sign.

Main results:

* `TextDiagram.Number.hasOnly_text_iff` — **which characters the text of a number has**.
-/

import TextDiagram.Number.Decimal
import TextDiagram.Proofs.Text.Characters

set_option relaxedAutoImplicit false
set_option autoImplicit false

namespace TextDiagram.Number

/-- Whether a number is written with a minus sign. -/
def hasMinus (x : Float32) : Bool :=
  match exact x with
  | .finite negative _ _ => negative
  | .infinite negative => negative
  | .notANumber => false

/-- The text of a positive number has digits and points only. -/
theorem isDigit_or_eq_of_mem_positional {digits : Nat} {grid : Int} {c : Char}
    (h : c ∈ positional digits grid) : c.isDigit = true ∨ c = '.' := by
  have hpadded : ∀ n, ∀ d ∈ List.replicate n '0' ++ Nat.toDigits 10 digits, d.isDigit = true := by
    intro n d hd
    rcases List.mem_append.1 hd with hd | hd
    · rw [List.eq_of_mem_replicate hd]
      decide
    · exact Nat.isDigit_of_mem_toDigits (by decide) (by decide) hd
  simp only [positional] at h
  split at h
  · refine .inl ?_
    rcases List.mem_append.1 h with h | h
    · exact hpadded 0 c (List.mem_append_right _ h)
    · exact hpadded _ c (List.mem_append_left _ h)
  · rcases List.mem_append.1 h with h | h
    · exact .inl (hpadded _ c (List.mem_of_mem_take h))
    · rcases List.mem_cons.1 h with rfl | h
      · exact .inr rfl
      · exact .inl (hpadded _ c (List.mem_of_mem_drop h))

theorem isDigit_or_eq_of_mem_magnitudeText {magnitude : Nat} {exponent : Int} {c : Char}
    (h : c ∈ magnitudeText magnitude exponent) : c.isDigit = true ∨ c = '.' := by
  simp only [magnitudeText] at h
  split at h
  · exact isDigit_or_eq_of_mem_positional h
  · rw [List.mem_singleton.1 h]
    decide

/-- **Which characters the text of a number has.**  Where letters, digits and points are allowed, it
depends on the minus sign alone. -/
theorem hasOnly_text_iff {allowed : Char → Prop} (hletters : ∀ c, c.isAlphanum = true → allowed c)
    (hpoint : allowed '.') (x : Float32) :
    HasOnly allowed (text x) ↔ (hasMinus x = true → allowed '-') := by
  have hword : ∀ {word : String}, HasOnly (fun c => c.isAlphanum = true) word →
      HasOnly allowed word := fun h c hc => hletters c (h c hc)
  have hsigned : ∀ {word : List Char}, (∀ c ∈ word, allowed c) → ∀ negative : Bool,
      (HasOnly allowed (String.ofList (if negative then '-' :: word else word)) ↔
        (negative = true → allowed '-')) := by
    intro word hall negative
    rw [hasOnly_ofList]
    cases negative with
    | false => exact iff_of_true hall (fun h => nomatch h)
    | true =>
        rw [if_pos rfl, List.forall_mem_cons]
        exact ⟨fun h _ => h.1, fun h => ⟨h rfl, hall⟩⟩
  rw [text, hasMinus]
  cases exact x with
  | notANumber => exact iff_of_true (hword (by decide)) (fun h => nomatch h)
  | infinite negative =>
      have hinf : ∀ c ∈ "inf".toList, allowed c := hword (by decide)
      cases negative with
      | false => exact hsigned hinf false
      | true => exact hsigned hinf true
  | finite negative magnitude exponent =>
      refine hsigned ?_ negative
      intro c hc
      have hc : c.isDigit = true ∨ c = '.' := by
        split at hc
        · rw [List.mem_singleton.1 hc]
          decide
        · exact isDigit_or_eq_of_mem_magnitudeText hc
      rcases hc with hc | rfl
      · exact hletters c (isAlphanum_of_isDigit hc)
      · exact hpoint

end TextDiagram.Number
