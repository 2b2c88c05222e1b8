/-
**Which line a conflict is reported on.**

A source map grows by insertions, and an insertion that is rejected leaves it unchanged.  It is
rejected for its line, if that line has made something already, or else for its entity, if that has
a line already.  In the first case the conflict is reported on the line of the insertion.  In the
second case it is not: the report is on the line that the entity has, which is another one.

Main definitions:

* `TextDiagram.SourceMap.attempt`, `TextDiagram.SourceMap.ofAttempts` — a source map after
  insertions, whether they were rejected or not.

Main results:

* `TextDiagram.SourceMap.insert_eq_error_iff` — the two reasons for a rejection;
* `TextDiagram.SourceMap.isBijection_ofAttempts` — a source map after insertions is one to one;
* `TextDiagram.SourceMap.conflict_line_eq_iff` — **a conflict is reported on the line of the
  rejected insertion exactly if that line is taken**.
-/

import Mathlib.Data.List.Induction
import TextDiagram.Problem
import TextDiagram.Proofs.Document.SourceMap

set_option relaxedAutoImplicit false
set_option autoImplicit false

namespace TextDiagram.SourceMap

variable {m : SourceMap} {line : Nat} {entity : Entity} {conflict : MapConflict}

/-! ### Rejections -/

/-- The two reasons for a rejection, of which the line comes first. -/
theorem insert_eq_error_iff : m.insert line entity = .error conflict ↔
    (∃ existing, m.entityAt? line = some existing ∧ conflict = .lineTaken line existing) ∨
      m.entityAt? line = none ∧
        ∃ l, m.lineOf? entity = some l ∧ conflict = .entityTaken entity l := by
  rw [insert]
  cases hline : m.entityAt? line with
  | some existing => simp [eq_comm]
  | none =>
      cases hentity : m.lineOf? entity with
      | some l => simp [eq_comm]
      | none => simp

/-! ### Attempts -/

/-- A source map after an insertion, which leaves it unchanged if it is rejected. -/
def attempt (m : SourceMap) (p : Nat × Entity) : SourceMap :=
  match m.insert p.1 p.2 with
  | .ok m' => m'
  | .error _ => m

/-- The source map after insertions, some of which may have been rejected. -/
def ofAttempts (attempts : List (Nat × Entity)) : SourceMap := attempts.foldl attempt {}

theorem ofAttempts_concat (attempts : List (Nat × Entity)) (p : Nat × Entity) :
    ofAttempts (attempts ++ [p]) = (ofAttempts attempts).attempt p := by
  rw [ofAttempts, List.foldl_concat, ofAttempts]

/-- An insertion keeps a source map one to one, whether it is rejected or not. -/
theorem IsBijection.attempt (h : m.IsBijection) (p : Nat × Entity) : (m.attempt p).IsBijection := by
  rw [SourceMap.attempt]
  split
  · next hinsert => exact isBijection_of_insert h hinsert
  · exact h

/-- A source map after insertions is one to one. -/
theorem isBijection_ofAttempts (attempts : List (Nat × Entity)) :
    (ofAttempts attempts).IsBijection := by
  induction attempts using List.reverseRecOn with
  | nil => exact isBijection_empty
  | append_singleton attempts p ih => exact ofAttempts_concat attempts p ▸ ih.attempt p

/-! ### Reports -/

/-- **A conflict is reported on the line of the rejected insertion exactly if that line is taken.**
If the line is free, and so the entity is taken, the report is on the one line that the entity has.
The error that is made of the conflict is reported on the same line as the conflict, and that is
the line which the report of the problem points at. -/
theorem conflict_line_eq_iff (attempts : List (Nat × Entity))
    (h : (ofAttempts attempts).insert line entity = .error conflict) (source : String) :
    (conflict.line = line ↔ ∃ other, (line, other) ∈ (ofAttempts attempts).entries) ∧
      ((∀ other, (line, other) ∉ (ofAttempts attempts).entries) →
        ∀ l, (l, entity) ∈ (ofAttempts attempts).entries ↔ l = conflict.line) ∧
      (ParseError.sourceMap conflict).line = conflict.line ∧
      (Problem.parse (.sourceMap conflict) source).diagnosis.label =
        Text.lineSpan source conflict.line := by
  have hm := isBijection_ofAttempts attempts
  refine ⟨?_, ?_, rfl, rfl⟩
  · rcases insert_eq_error_iff.1 h with ⟨existing, hexisting, rfl⟩ | ⟨hfree, l, hl, rfl⟩
    · exact iff_of_true rfl ⟨existing, mem_of_entityAt? hexisting⟩
    · have hother := entityAt?_eq_none_iff.1 hfree
      have hne : l ≠ line := by
        rintro rfl
        exact hother entity (mem_of_lineOf? hl)
      exact iff_of_false hne fun ⟨other, hmem⟩ => hother other hmem
  · intro hfree
    rcases insert_eq_error_iff.1 h with ⟨existing, hexisting, -⟩ | ⟨-, l, hl, rfl⟩
    · exact absurd (mem_of_entityAt? hexisting) (hfree existing)
    · intro l'
      constructor
      · intro hmem
        exact hm.line_eq hmem (mem_of_lineOf? hl)
      · rintro rfl
        exact mem_of_lineOf? hl

/-- A line that is taken is the one that is reported, even if the entity has a line, too.  Otherwise
the report points at the line of the entity. -/
theorem conflict_line_of_both_taken :
    let a : Entity := ⟨.node, "A"⟩
    let b : Entity := ⟨.node, "B"⟩
    let attempts := [(1, a), (3, a), (4, b)]
    (ofAttempts attempts).insert 4 a = .error (.lineTaken 4 b) ∧
      (MapConflict.lineTaken 4 b).line = 4 ∧
      (ofAttempts attempts).insert 5 b = .error (.entityTaken b 4) ∧
      (∀ l, (l, b) ∈ (ofAttempts attempts).entries ↔ l = 4) ∧
      (Problem.parse (.sourceMap (.entityTaken b 4)) "\nA\n\n\nB\nB").diagnosis.label =
        some ⟨5, 1⟩ := by
  intro a b attempts
  have hline : (ofAttempts attempts).insert 4 a = .error (.lineTaken 4 b) := by decide
  have hentity : (ofAttempts attempts).insert 5 b = .error (.entityTaken b 4) := by decide
  have hfree : ∀ other, (5, other) ∉ (ofAttempts attempts).entries :=
    entityAt?_eq_none_iff.1 (by decide)
  obtain ⟨hiff, -, -, -⟩ := conflict_line_eq_iff attempts hline ""
  obtain ⟨-, honly, -, hlabel⟩ := conflict_line_eq_iff attempts hentity "\nA\n\n\nB\nB"
  exact ⟨hline, hiff.2 ⟨b, by decide⟩, hentity, honly hfree, hlabel.trans (by decide)⟩

/-- The conflict of an entity that has a line is not reported on that of its second insertion. -/
theorem conflict_line_ne_of_entity_taken :
    ∃ conflict, (ofAttempts [(1, ⟨.node, "A"⟩)]).insert 3 ⟨.node, "A"⟩ = .error conflict ∧
      conflict.line ≠ 3 ∧ (ParseError.sourceMap conflict).line ≠ 3 :=
  ⟨.entityTaken ⟨.node, "A"⟩ 1, by decide, by decide, by decide⟩

end TextDiagram.SourceMap
