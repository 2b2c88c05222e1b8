/-
**What a further line does to a text.**

A line that is added to a text becomes its last line.  The lines before it stay, except that the
empty line after a final line feed gives way to the new one.  That line says nothing; so all
statements of the text stay on their lines, and what the new line says comes after them.

Main definitions:

* `TextDiagram.Text.writtenLines` — the lines of a text without an empty last one;
* `TextDiagram.Text.HasLinesOf` — a text has the lines of another one.

Main results:

* `TextDiagram.Session.lines_withLine` — **a further line is the last one**;
* `TextDiagram.Session.hasLinesOf_withLine` — the other ones stay where they are;
* `TextDiagram.Session.exists_statements_withLine` — what it says comes after all statements.
-/

import TextDiagram.Proofs.Document.Statements
import TextDiagram.Session.Update

set_option relaxedAutoImplicit false
set_option autoImplicit false

namespace TextDiagram

open Text

variable {text line : String}

/-! ### Lines -/

namespace Text

/-- The lines of a text without an empty last one. -/
def writtenLines (text : String) : List String :=
  if (lines text).getLast? = some "" then (lines text).dropLast else lines text

theorem lines_eq_writtenLines_or (text : String) :
    lines text = writtenLines text ∨ lines text = writtenLines text ++ [""] := by
  rw [writtenLines]
  split
  · next hlast =>
      obtain ⟨before, hbefore⟩ := List.getLast?_eq_some_iff.1 hlast
      rw [hbefore, List.dropLast_concat]
      exact Or.inr rfl
  · exact Or.inl rfl

/-- The last line is empty if the text is, or ends in a line feed. -/
theorem getLast?_lines_eq_empty_iff :
    (lines text).getLast? = some "" ↔ text = "" ∨ text.toList.getLast? = some '\n' := by
  have hempty : ∀ piece : List Char, String.ofList piece = "" ↔ piece = [] := by
    intro piece
    rw [← String.toList_eq_nil_iff, String.toList_ofList]
  rw [lines, List.getLast?_map, Option.map_eq_some_iff]
  simp only [hempty, exists_eq_right, getLast?_pieces_eq_nil_iff, String.toList_eq_nil_iff]

/-- A text has the lines of another one where they are, apart from empty lines. -/
def HasLinesOf (text' text : String) : Prop :=
  ∀ (number : Nat) (line : String), (lines text)[number]? = some line → line ≠ "" →
    (lines text')[number]? = some line

theorem HasLinesOf.refl (text : String) : HasLinesOf text text := fun _ _ h _ => h

theorem HasLinesOf.trans {text'' text' : String} (h : HasLinesOf text'' text')
    (h' : HasLinesOf text' text) : HasLinesOf text'' text :=
  fun number line hline hne => h number line (h' number line hline hne) hne

end Text

namespace Session

/-- **A further line is the last one**, after the lines that are written. -/
theorem lines_withLine (text : String) (hline : '\n' ∉ line.toList) :
    lines (withLine text line) = writtenLines text ++ [line] := by
  rw [withLine, writtenLines]
  by_cases hlast : (lines text).getLast? = some ""
  · rw [if_pos hlast]
    rcases getLast?_lines_eq_empty_iff.1 hlast with rfl | hlast
    · rw [if_pos (by rfl), String.empty_append]
      exact lines_of_notMem hline
    · obtain ⟨before, hbefore⟩ := List.getLast?_eq_some_iff.1 hlast
      have happend : (text ++ line).toList = before ++ '\n' :: line.toList := by
        rw [String.toList_append, hbefore, List.append_assoc, List.singleton_append]
      have hempty : lines (String.ofList []) = [""] := rfl
      rw [if_pos (by simp [hlast]), lines_of_eq_append happend, lines_of_eq_append hbefore,
        String.ofList_toList, lines_of_notMem hline, hempty, List.dropLast_concat]
  · obtain ⟨hempty, hend⟩ := not_or.1 (mt getLast?_lines_eq_empty_iff.2 hlast)
    rw [if_neg hlast, if_neg (by simp [hempty, hend]), lines_append, lines_of_notMem hline]

/-- A further line takes the place of an empty last line. -/
theorem exists_lines_withLine (text : String) (hline : '\n' ∉ line.toList) :
    ∃ kept, (lines text = kept ∨ lines text = kept ++ [""]) ∧
      lines (withLine text line) = kept ++ [line] :=
  ⟨writtenLines text, lines_eq_writtenLines_or text, lines_withLine text hline⟩

/-- The lines of a text stay where they are when it gets a further one. -/
theorem hasLinesOf_withLine (text : String) (hline : '\n' ∉ line.toList) :
    HasLinesOf (withLine text line) text := by
  intro number other hother hne
  have hwritten : (writtenLines text)[number]? = some other := by
    rcases lines_eq_writtenLines_or text with heq | heq
    · rwa [heq] at hother
    · rw [heq, List.getElem?_append] at hother
      split at hother
      · exact hother
      · exact absurd (List.mem_singleton.1 (List.mem_of_getElem? hother)) hne
  rw [lines_withLine text hline]
  exact (List.getElem?_append_left (List.getElem?_eq_some_iff.1 hwritten).1).trans hwritten

end Session

/-! ### Statements -/

/-- What a further line says comes after all statements of the text. -/
theorem Session.exists_statements_withLine (text : String) (hline : '\n' ∉ line.toList) :
    ∃ number, statements (withLine text line) =
      statements text ++ ((Statement.ofLine? line).map fun s => (number, s)).toList := by
  obtain ⟨kept, htext, hwithLine⟩ := exists_lines_withLine text hline
  refine ⟨kept.length, ?_⟩
  have hkept : statements text = statementsOf kept := by
    rcases htext with htext | htext
    · rw [statements_eq, htext]
    · have hblank : Statement.ofLine? "" = none := rfl
      rw [statements_eq, htext, statementsOf_concat, hblank, Option.map_none, Option.toList_none,
        List.append_nil]
  rw [hkept, statements_eq, hwithLine, statementsOf_concat]

end TextDiagram
