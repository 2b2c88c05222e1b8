/-
**A printed source map is read back.**

A source map is printed row by row, each with a line, a kind and an id between tabs.  Ids are free
text: they may hold tabs, digits and carriage returns.  But an id comes from one line of a text, so
it holds no line feed, and it stands last in its row, so its tabs do no harm.  Cutting at the line
feeds and every row at its first two tabs gives back what was printed.

Main definitions:

* `TextDiagram.readRow?`, `TextDiagram.readSourceMap?` — a row, and a printed source map, read back.

Main results:

* `TextDiagram.Document.notMem_of_mem_entries` — the ids of a source map hold no line feed;
* `TextDiagram.readRow?_toList` — a row is read back;
* `TextDiagram.lines_join` — rows are read back;
* `TextDiagram.exists_readSourceMap?` — **the printed source map of a text is read back**.
-/

import TextDiagram.CommandLine.Run
import TextDiagram.Proofs.Document.Description
import TextDiagram.Proofs.Statement.Characters

set_option relaxedAutoImplicit false
set_option autoImplicit false

namespace TextDiagram

open Text

/-! ### The ids of a source map -/

theorem EntityKind.isPlain_name (kind : EntityKind) : IsPlain kind.name := by
  cases kind <;> decide

/-- The entity of a statement has the characters of the statement. -/
theorem Statement.HasChars.hasOnly_entity {allowed : Char → Prop} {s : Statement}
    (h : s.HasChars allowed) (hallowed : ∀ c, isPlain c = true → allowed c) (names : List Id)
    (line : Nat) : HasOnly allowed (s.entity names line).id := by
  have hprime : allowed '\'' := hallowed _ (by decide)
  cases s with
  | directive x =>
      have hid : IsPlain (Id.numbered (Draft.entityKind x).name line) := by
        simpa [Id.numbered] using ⟨⟨EntityKind.isPlain_name _, (by decide : IsPlain "_")⟩,
          isPlain_toString line⟩
      exact Id.hasOnly_primedUntilFree hprime (hid.hasOnly hallowed)
  | edge e => exact Id.hasOnly_primedUntilFree hprime (Id.hasOnly_edge hallowed h.1 h.2.1 line)
  | node n => exact h.1

/-- The ids of a source map hold no line feed, as each of them comes from one line. -/
theorem Document.notMem_of_mem_entries {text : String} {d : Document} (h : ofText text = .ok d)
    {line : Nat} {e : Entity} (he : (line, e) ∈ d.sourceMap.entries) : '\n' ∉ e.id.toList := by
  obtain ⟨before, s, hbefore, -, rfl⟩ := ((isDescribedBy_of_ofText h).entries line e).1 he
  have hs : (line, s) ∈ statements text :=
    hbefore.subset (List.mem_append_right before (List.mem_singleton_self _))
  obtain ⟨source, hsource, hsays⟩ := mem_statements_iff.1 hs
  have hline : HasOnly (· ≠ '\n') source := by
    rintro c hc rfl
    exact notMem_of_mem_lines (List.mem_of_getElem? hsource) hc
  have hplain : ∀ c, isPlain c = true → c ≠ '\n' := by
    rintro c hc rfl
    exact absurd hc (by decide)
  intro hmem
  exact (Statement.hasChars_of_ofLine? hline hsays).hasOnly_entity hplain _ line '\n' hmem rfl

/-! ### Rows -/

/-- The count that decimal digits stand for. -/
def count? (digits : List Char) : Option Nat :=
  if digits ≠ [] ∧ digits.all Char.isDigit then some (Nat.ofDigitChars 10 digits 0) else none

/-- A row read back: the line, as it is printed, before its first tab, the kind between that and the
second one, and the id behind the second one. -/
def readRow? (row : List Char) : Option (Nat × Entity) := do
  let (number, rest) ← cutAround ['\t'] row
  let (kind, id) ← cutAround ['\t'] rest
  return (← count? number, ⟨← EntityKind.ofName? (String.ofList kind), String.ofList id⟩)

theorem count?_toDigits (n : Nat) : count? (Nat.toDigits 10 n) = some n := by
  have hdigits : (Nat.toDigits 10 n).all Char.isDigit = true := by
    rw [List.all_eq_true]
    exact fun c hc => Nat.isDigit_of_mem_toDigits (by decide) (by decide) hc
  rw [count?, if_pos ⟨by simp, hdigits⟩, Nat.ofDigitChars_ten_toDigits]

/-- The text of a row, without the line feed that ends it. -/
def rowText (line : Nat) (e : Entity) : String := s!"{line + 1}\t{e.kind.name}\t{e.id}"

/-- What is printed are the texts of the rows, each ended by a line feed. -/
theorem sourceMapText_eq (d : Document) : sourceMapText d =
    String.join ((d.sourceMap.entries.map fun (line, e) => rowText line e).map (· ++ "\n")) := by
  rw [sourceMapText, sourceMapRows, List.map_map]
  rfl

theorem toList_rowText (line : Nat) (e : Entity) : (rowText line e).toList =
    Nat.toDigits 10 (line + 1) ++ '\t' :: (e.kind.name.toList ++ '\t' :: e.id.toList) := by
  simp [rowText, toString]

/-- A row is read back, whatever its id is. -/
theorem readRow?_toList (line : Nat) (e : Entity) :
    readRow? (rowText line e).toList = some (line + 1, e) := by
  have hnumber : '\t' ∉ Nat.toDigits 10 (line + 1) := fun h =>
    absurd (isPlain_of_mem_toDigits h) (by decide)
  have hkind : '\t' ∉ e.kind.name.toList := fun h =>
    absurd (EntityKind.isPlain_name e.kind '\t' h) (by decide)
  rw [toList_rowText, readRow?, cutAround_append_cons hnumber]
  simp only [Option.bind_eq_bind, Option.bind_some, cutAround_append_cons hkind, count?_toDigits,
    String.ofList_toList, EntityKind.ofName?_name, Option.pure_def]

/-- A row holds no line feed, if its id does not. -/
theorem notMem_rowText (line : Nat) {e : Entity} (h : '\n' ∉ e.id.toList) :
    '\n' ∉ (rowText line e).toList := by
  rw [toList_rowText]
  simp only [List.mem_append, List.mem_cons, not_or]
  refine ⟨fun hnumber => ?_, by decide, fun hkind => ?_, by decide, h⟩
  · exact absurd (isPlain_of_mem_toDigits hnumber) (by decide)
  · exact absurd (EntityKind.isPlain_name e.kind '\n' hkind) (by decide)

/-! ### Printed source maps -/

/-- The lines of rows that are each ended by a line feed are the rows, and an empty line after
them. -/
theorem lines_join {rows : List String} (h : ∀ row ∈ rows, '\n' ∉ row.toList) :
    lines (String.join (rows.map (· ++ "\n"))) = rows ++ [""] := by
  induction rows with
  | nil => rfl
  | cons row rest ih =>
      rw [List.map_cons, String.join_cons, lines_append, lines_of_notMem (h row List.mem_cons_self),
        ih fun other hother => h other (List.mem_cons_of_mem row hother)]
      rfl

/-- A printed source map read back: the rows are the lines before the empty last one. -/
def readSourceMap? (printed : String) : Option (List (Nat × Entity)) :=
  if (lines printed).getLast? = some "" then
    (lines printed).dropLast.mapM fun row => readRow? row.toList
  else none

/-- **The printed source map of a text is read back.**  Every text makes a document, whose source map
is printed as a whole if nothing stands against it.  The rows of the printed source map are the
entries of the source map, each once, by increasing line, with the lines counted from one. -/
theorem exists_readSourceMap? (text : String) :
    ∃ d rows, Document.ofText text = .ok d ∧
      printRows (fun _ => none) 0 (sourceMapRows d) = (sourceMapText d, none) ∧
      readSourceMap? (sourceMapText d) = some rows ∧
      rows = d.sourceMap.entries.map (fun (line, e) => (line + 1, e)) ∧
      rows.Pairwise (fun a b => a.1 < b.1) ∧
      ∀ number e, (number, e) ∈ rows ↔
        ∃ line, number = line + 1 ∧ d.sourceMap.entityAt? line = some e := by
  obtain ⟨d, hd, hsound⟩ := Document.exists_isSound text
  refine ⟨d, d.sourceMap.entries.map fun (line, e) => (line + 1, e), hd,
    printRows_eq 0 (sourceMapRows d), ?_, rfl, ?_, ?_⟩
  · have hrows : ∀ row ∈ d.sourceMap.entries.map fun (line, e) => rowText line e,
        '\n' ∉ row.toList := by
      intro row hrow
      obtain ⟨⟨line, e⟩, he, rfl⟩ := List.mem_map.1 hrow
      exact notMem_rowText line (Document.notMem_of_mem_entries hd he)
    have hread : (fun row : String => readRow? row.toList) ∘ (fun (line, e) => rowText line e) =
        fun p : Nat × Entity => pure (p.1 + 1, p.2) := funext fun p => readRow?_toList p.1 p.2
    rw [readSourceMap?, sourceMapText_eq, lines_join hrows, List.getLast?_concat, if_pos rfl,
      List.dropLast_concat, List.mapM_map, hread, List.mapM_pure]
    rfl
  · rw [List.pairwise_map]
    exact hsound.bijection.lines.imp fun hlt => Nat.succ_lt_succ hlt
  · intro number e
    constructor
    · intro hmem
      obtain ⟨⟨line, e'⟩, he, heq⟩ := List.mem_map.1 hmem
      obtain ⟨rfl, rfl⟩ := Prod.mk.inj heq
      exact ⟨line, rfl, hsound.bijection.entityAt?_eq_some_iff.2 he⟩
    · rintro ⟨line, rfl, he⟩
      exact List.mem_map_of_mem (hsound.bijection.entityAt?_eq_some_iff.1 he)

end TextDiagram
