/-
**Cutting a text around a word.**

Statements are taken apart by cutting: once around the first occurrence of a connector, a colon or
a bracket, once before the last closing bracket, and everywhere at a separator.

Main definitions:

* `TextDiagram.Text.cutAround` — what stands before and after the first occurrence of a word;
* `TextDiagram.Text.beforeLast` — what stands before the last occurrence of a character;
* `TextDiagram.Text.pieces` — the pieces between the occurrences of a separator.

Main results:

* `TextDiagram.Text.append_of_cutAround` — a cut loses nothing but the word;
* `TextDiagram.Text.pieces_ne_nil` — there is always at least one piece;
* `TextDiagram.Text.not_mem_of_mem_pieces` — no piece holds the separator.
-/

set_option relaxedAutoImplicit false
set_option autoImplicit false

namespace TextDiagram.Text

/-! ### One cut -/

/-- The texts before and after the first occurrence of `word`, if it occurs. -/
def cutAround (word : List Char) : List Char → Option (List Char × List Char)
  | [] => if word.isEmpty then some ([], []) else none
  | c :: rest =>
      if word.isPrefixOf (c :: rest) then some ([], (c :: rest).drop word.length)
      else (cutAround word rest).map fun (before, after) => (c :: before, after)

/-- A cut loses nothing but the word it is made around. -/
theorem append_of_cutAround {word : List Char} :
    ∀ {text before after : List Char}, cutAround word text = some (before, after) →
      before ++ word ++ after = text := by
  intro text
  induction text with
  | nil =>
      intro before after h
      simp only [cutAround] at h
      split at h
      · rename_i hw
        simp only [Option.some.injEq, Prod.mk.injEq] at h
        obtain ⟨rfl, rfl⟩ := h
        simpa using hw
      · exact absurd h (by simp)
  | cons c rest ih =>
      intro before after h
      simp only [cutAround] at h
      split at h
      · rename_i hw
        simp only [Option.some.injEq, Prod.mk.injEq] at h
        obtain ⟨rfl, rfl⟩ := h
        obtain ⟨tail, htail⟩ := List.isPrefixOf_iff_prefix.1 hw
        rw [← htail]
        simp
      · obtain ⟨⟨b, a⟩, hcut, heq⟩ := Option.map_eq_some_iff.1 h
        simp only [Prod.mk.injEq] at heq
        obtain ⟨rfl, rfl⟩ := heq
        simpa using ih hcut

/-- A word occurs in a text when the text can be cut around it. -/
def occursIn (word text : List Char) : Bool := (cutAround word text).isSome

/-- The text before the last occurrence of a character, if it occurs. -/
def beforeLast (c : Char) (text : List Char) : Option (List Char) :=
  (cutAround [c] text.reverse).map fun (_, before) => before.reverse

/-! ### Cutting everywhere -/

/-- The pieces of a text between the occurrences of a separator. -/
def pieces (separator : Char) : List Char → List (List Char)
  | [] => [[]]
  | c :: rest =>
      if c = separator then [] :: pieces separator rest
      else
        match pieces separator rest with
        | [] => [[c]]
        | piece :: others => (c :: piece) :: others

/-- There is always at least one piece. -/
theorem pieces_ne_nil (separator : Char) (text : List Char) : pieces separator text ≠ [] := by
  cases text with
  | nil => simp [pieces]
  | cons c rest =>
      simp only [pieces]
      split
      · simp
      · split <;> simp

/-- No piece holds the separator. -/
theorem not_mem_of_mem_pieces {separator : Char} :
    ∀ {text piece : List Char}, piece ∈ pieces separator text → separator ∉ piece := by
  intro text
  induction text with
  | nil =>
      intro piece h
      simp only [pieces, List.mem_singleton] at h
      simp [h]
  | cons c rest ih =>
      intro piece h
      simp only [pieces] at h
      split at h
      · rcases List.mem_cons.1 h with rfl | h
        · simp
        · exact ih h
      · rename_i hc
        split at h
        · simp only [List.mem_singleton] at h
          simpa [h] using fun heq : separator = c => hc heq.symm
        · rename_i first others hpieces
          rcases List.mem_cons.1 h with rfl | h
          · have hfirst : separator ∉ first := ih (by rw [hpieces]; exact List.mem_cons_self ..)
            simpa [hfirst] using fun heq : separator = c => hc heq.symm
          · exact ih (by rw [hpieces]; exact List.mem_cons_of_mem _ h)

/-- The pieces of a text that does not hold the separator. -/
theorem pieces_eq_singleton {separator : Char} :
    ∀ {text : List Char}, separator ∉ text → pieces separator text = [text] := by
  intro text
  induction text with
  | nil => intro _; rfl
  | cons c rest ih =>
      intro h
      simp only [List.mem_cons, not_or] at h
      simp only [pieces, if_neg (Ne.symm h.1), ih h.2]

end TextDiagram.Text
