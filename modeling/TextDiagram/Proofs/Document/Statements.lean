/-
**The statements of lines.**

What a line says does not depend on the other lines: the statements of a text are those of its lines
with their numbers.  So a text that goes on says what it said before, and then what comes after,
which stands further down.

Which names statements mention depends on what they say alone, and not on the lines that they stand
on.

Main definitions:

* `TextDiagram.statementsOf` — the statements of lines.

Main results:

* `TextDiagram.mem_statements_iff` — a statement is what a line says;
* `TextDiagram.statementsOf_append`, `TextDiagram.statements_append` — **what comes after** stands
  further down;
* `TextDiagram.mentionedNames_eq` — the lines of statements do not matter to their names.
-/

import TextDiagram.Proofs.Text.Cut
import TextDiagram.Document.Reader

set_option relaxedAutoImplicit false
set_option autoImplicit false

namespace TextDiagram

open Text

variable {text : String}

/-! ### Statements and lines -/

/-- The statements of lines with their numbers. -/
def statementsOf (lines : List String) : List (Nat × Statement) :=
  lines.zipIdx.filterMap fun (line, number) =>
    (Statement.ofLine? line).map fun statement => (number, statement)

theorem statements_eq (text : String) : statements text = statementsOf (lines text) := by
  rw [statements, numberedLines, List.filterMap_map, statementsOf]
  rfl

/-- A statement is what a line says. -/
theorem mem_statements_iff {number : Nat} {statement : Statement} :
    (number, statement) ∈ statements text ↔
      ∃ line, (lines text)[number]? = some line ∧ Statement.ofLine? line = some statement := by
  rw [statements_eq, statementsOf, List.mem_filterMap]
  constructor
  · rintro ⟨⟨line, number'⟩, hline, hsays⟩
    obtain ⟨statement', hstatement, heq⟩ := Option.map_eq_some_iff.1 hsays
    obtain ⟨rfl, rfl⟩ := Prod.mk.inj heq
    exact ⟨line, List.mem_zipIdx_iff_getElem?.1 hline, hstatement⟩
  · rintro ⟨line, hline, hsays⟩
    refine ⟨(line, number), List.mem_zipIdx_iff_getElem?.2 hline, ?_⟩
    exact Option.map_eq_some_iff.2 ⟨statement, hsays, rfl⟩

/-- What further lines say stands further down. -/
theorem statementsOf_append (above below : List String) :
    statementsOf (above ++ below) =
      statementsOf above ++ (statementsOf below).map fun p => (above.length + p.1, p.2) := by
  have hnumbers : below.zipIdx above.length =
      below.zipIdx.map (Prod.map id (· + above.length)) :=
    (List.map_snd_add_zipIdx_eq_zipIdx (n := above.length) (k := 0)).symm
  rw [statementsOf, List.zipIdx_append, List.filterMap_append, Nat.zero_add, hnumbers,
    List.filterMap_map, statementsOf, statementsOf, List.map_filterMap]
  congr 1
  refine List.filterMap_congr ?_
  rintro ⟨line, number⟩ -
  simp [Function.comp_def, Nat.add_comm]

/-- What the last line says comes last. -/
theorem statementsOf_concat (kept : List String) (line : String) :
    statementsOf (kept ++ [line]) =
      statementsOf kept ++ ((Statement.ofLine? line).map fun s => (kept.length, s)).toList := by
  rw [statementsOf_append, List.append_right_inj]
  cases h : Statement.ofLine? line with
  | none => simp [statementsOf, h]
  | some statement => simp [statementsOf, h]

/-- **A text that goes on** says what it said before, and then what comes after. -/
theorem statements_append (above below : String) :
    statements (above ++ "\n" ++ below) =
      statements above ++
        (statements below).map fun p => ((lines above).length + p.1, p.2) := by
  rw [statements_eq, lines_append, statementsOf_append, ← statements_eq, ← statements_eq]

/-! ### Names -/

/-- Which names are mentioned is told by the statements without their lines. -/
theorem mentionedNames_eq (given : List (Nat × Statement)) :
    mentionedNames given = (given.map Prod.snd).flatMap Statement.names := by
  rw [List.flatMap_map]
  rfl

theorem mentionedNames_append (given rest : List (Nat × Statement)) :
    mentionedNames (given ++ rest) = mentionedNames given ++ mentionedNames rest :=
  List.flatMap_append

theorem mentionedNames_concat (given : List (Nat × Statement)) (p : Nat × Statement) :
    mentionedNames (given ++ [p]) = mentionedNames given ++ p.2.names := by
  rw [mentionedNames_append, mentionedNames, mentionedNames, List.flatMap_singleton]

end TextDiagram
