/-
**A source map as two tables.**

A source map is looked up in both directions, by line and by entity.  Here it is kept the way an
editor would keep it: as two hash tables, which an insertion looks into one after the other, and
then writes to one after the other.  Nothing but the two looks holds the tables together.  They are
inverse to each other nevertheless, whatever is inserted in whatever order, and they answer as the
list of entries does.

Main definitions:

* `TextDiagram.SourceMap.Tables` — the two tables;
* `TextDiagram.SourceMap.Tables.insert` — an insertion, which reads the tables and writes to them;
* `TextDiagram.SourceMap.Tables.entries` — the lines in order with their entities;
* `TextDiagram.SourceMap.Tables.IsInverse` — both tables have the same pairs;
* `TextDiagram.SourceMap.Tables.Mirrors` — the tables answer as a source map does.

Main results:

* `TextDiagram.SourceMap.Tables.call_eq` — what an insertion answers, and what it writes;
* `TextDiagram.SourceMap.Tables.Mirrors.call` — the tables follow a source map through an
  insertion;
* `TextDiagram.SourceMap.mem_entries_ofAttempts_iff` — the entries are the insertions that were
  accepted;
* `TextDiagram.SourceMap.Tables.isInverse_ofAttempts` — **the two tables stay inverse to each
  other**.
-/

import Mathlib.Data.List.Sort
import TextDiagram.Proofs.Document.Conflict

set_option relaxedAutoImplicit false
set_option autoImplicit false

namespace TextDiagram

deriving instance Hashable for EntityKind, Entity

namespace SourceMap

variable {m m' : SourceMap} {line : ℕ} {entity : Entity}

/-! ### Lookups after an insertion -/

/-- An insertion adds one line to the lookup by line. -/
theorem entityAt?_insert (hm : m.IsBijection) (h : m.insert line entity = .ok m') (other : ℕ) :
    m'.entityAt? other = if line = other then some entity else m.entityAt? other := by
  have hm' := isBijection_of_insert hm h
  have hnew := entityAt?_eq_none_iff.1 (insert_eq_ok_iff.1 ⟨m', h⟩).1
  refine Option.ext fun e => ?_
  rw [hm'.entityAt?_eq_some_iff, mem_insert h]
  split
  · next heq =>
      subst heq
      simp [hnew, eq_comm]
  · next hne => simp [hm.entityAt?_eq_some_iff, Ne.symm hne]

/-- An insertion adds one entity to the lookup by entity. -/
theorem lineOf?_insert (hm : m.IsBijection) (h : m.insert line entity = .ok m') (other : Entity) :
    m'.lineOf? other = if entity = other then some line else m.lineOf? other := by
  have hm' := isBijection_of_insert hm h
  have hnew := lineOf?_eq_none_iff.1 (insert_eq_ok_iff.1 ⟨m', h⟩).2
  refine Option.ext fun l => ?_
  rw [hm'.lineOf?_eq_some_iff, mem_insert h]
  split
  · next heq =>
      subst heq
      simp [hnew, eq_comm]
  · next hne => simp [hm.lineOf?_eq_some_iff, Ne.symm hne]

/-! ### Accepted insertions -/

/-- Whether an insertion is accepted. -/
def Accepts (m : SourceMap) (p : ℕ × Entity) : Prop := ∃ m', m.insert p.1 p.2 = .ok m'

theorem mem_attempt_iff {p q : ℕ × Entity} :
    q ∈ (m.attempt p).entries ↔ q = p ∧ m.Accepts p ∨ q ∈ m.entries := by
  rw [attempt, Accepts]
  cases h : m.insert p.1 p.2 with
  | ok m' => simp [mem_insert h]
  | error conflict => simp

/-- The entries are the insertions that were accepted. -/
theorem mem_entries_ofAttempts_iff {attempts : List (ℕ × Entity)} {p : ℕ × Entity} :
    p ∈ (ofAttempts attempts).entries ↔
      ∃ before, before ++ [p] <+: attempts ∧ (ofAttempts before).Accepts p := by
  induction attempts using List.reverseRecOn with
  | nil => simp [ofAttempts]
  | append_singleton attempts q ih =>
      rw [ofAttempts_concat, mem_attempt_iff, ih]
      simp only [List.prefix_concat_iff, or_and_right, exists_or]
      refine or_congr ?_ Iff.rfl
      constructor
      · rintro ⟨rfl, haccepted⟩
        exact ⟨attempts, rfl, haccepted⟩
      · rintro ⟨before, heq, haccepted⟩
        obtain ⟨rfl, hlast⟩ := List.append_inj' heq rfl
        obtain rfl := List.singleton_inj.1 hlast
        exact ⟨rfl, haccepted⟩

/-! ### Tables -/

/-- A source map as two tables, one for each direction of the lookup. -/
structure Tables where
  byLine : Std.HashMap ℕ Entity := ∅
  byEntity : Std.HashMap Entity ℕ := ∅

namespace Tables

variable {t : Tables}

/-- An insertion looks for the line, then for the entity, and then writes to one table after the
other.  What has been written stays, even if it ends with a conflict. -/
def insert (line : ℕ) (entity : Entity) : ExceptT MapConflict (StateM Tables) Unit := do
  if let some existing := (← get).byLine[line]? then
    throw (.lineTaken line existing)
  if let some existingLine := (← get).byEntity[entity]? then
    throw (.entityTaken entity existingLine)
  modify fun t => { t with byLine := t.byLine.insert line entity }
  modify fun t => { t with byEntity := t.byEntity.insert entity line }

/-- What an insertion answers, and the tables after it. -/
def call (t : Tables) (p : ℕ × Entity) : Except MapConflict Unit × Tables :=
  (insert p.1 p.2).run.run t

/-- The tables after insertions, some of which may have been rejected. -/
def ofAttempts (attempts : List (ℕ × Entity)) : Tables :=
  attempts.foldl (fun t p => (t.call p).2) {}

/-- The lines in order with their entities. -/
def entries (t : Tables) : List (ℕ × Entity) :=
  (t.byLine.keys.mergeSort fun a b => decide (a ≤ b)).filterMap fun line =>
    t.byLine[line]?.map fun entity => (line, entity)

/-- A line has an entity exactly if the entity has the line. -/
def IsInverse (t : Tables) : Prop :=
  ∀ (line : ℕ) (entity : Entity), t.byLine[line]? = some entity ↔ t.byEntity[entity]? = some line

theorem ofAttempts_concat (attempts : List (ℕ × Entity)) (p : ℕ × Entity) :
    ofAttempts (attempts ++ [p]) = ((ofAttempts attempts).call p).2 := by
  rw [ofAttempts, List.foldl_concat, ofAttempts]

/-- What an insertion answers, and what it writes. -/
theorem call_eq (t : Tables) (line : ℕ) (entity : Entity) : t.call (line, entity) =
    match t.byLine[line]?, t.byEntity[entity]? with
    | some existing, _ => (.error (.lineTaken line existing), t)
    | none, some existingLine => (.error (.entityTaken entity existingLine), t)
    | none, none => (.ok (), ⟨t.byLine.insert line entity, t.byEntity.insert entity line⟩) := by
  have hlook : ∀ f : Tables → ExceptT MapConflict (StateM Tables) Unit,
      (get >>= f).run.run t = (f t).run.run t := fun _ => rfl
  rw [call, insert, hlook]
  cases hline : t.byLine[line]? with
  | some existing => rfl
  | none =>
      dsimp only
      rw [hlook]
      cases hentity : t.byEntity[entity]? with
      | some existingLine => rfl
      | none => rfl

/-! ### Tables and source maps -/

/-- The tables answer as a source map does. -/
structure Mirrors (t : Tables) (m : SourceMap) : Prop where
  byLine : ∀ line : ℕ, t.byLine[line]? = m.entityAt? line
  byEntity : ∀ entity : Entity, t.byEntity[entity]? = m.lineOf? entity

namespace Mirrors

/-- The tables that mirror a source map are inverse to each other. -/
theorem isInverse (h : t.Mirrors m) (hm : m.IsBijection) : t.IsInverse := by
  intro line entity
  rw [h.byLine, h.byEntity, hm.entityAt?_eq_some_iff, hm.lineOf?_eq_some_iff]

/-- The lines of the tables are those of the source map. -/
theorem keys_perm (h : t.Mirrors m) (hm : m.IsBijection) :
    t.byLine.keys.Perm (m.entries.map Prod.fst) := by
  rw [List.perm_ext_iff_of_nodup Std.HashMap.nodup_keys
    (List.pairwise_map.2 (hm.lines.imp Nat.ne_of_lt))]
  intro line
  rw [Std.HashMap.mem_keys, ← Std.HashMap.isSome_getElem?_iff_mem, h.byLine,
    Option.isSome_iff_exists]
  simp [hm.entityAt?_eq_some_iff]

/-- The tables list what the source map lists. -/
theorem entries_eq (h : t.Mirrors m) (hm : m.IsBijection) : t.entries = m.entries := by
  have hsorted : (t.byLine.keys.mergeSort fun a b => decide (a ≤ b)) = m.entries.map Prod.fst := by
    have hkeys : (t.byLine.keys.mergeSort fun a b => decide (a ≤ b)).Pairwise (· ≤ ·) :=
      List.pairwise_mergeSort' (· ≤ ·) _
    have hlines : (m.entries.map Prod.fst).Pairwise (· ≤ ·) :=
      List.pairwise_map.2 (hm.lines.imp Nat.le_of_lt)
    exact ((List.mergeSort_perm _ _).trans (h.keys_perm hm)).eq_of_pairwise
      (fun _ _ _ _ => Nat.le_antisymm) hkeys hlines
  rw [entries, hsorted, List.filterMap_map]
  refine (List.filterMap_congr ?_).trans List.filterMap_some
  rintro ⟨line, entity⟩ hmem
  simp [h.byLine, hm.entityAt?_eq_some_iff.2 hmem]

/-- **The tables follow a source map through an insertion**: they answer as it does, and mirror what
it becomes. -/
theorem call (h : t.Mirrors m) (hm : m.IsBijection) (p : ℕ × Entity) :
    (t.call p).1 = (m.insert p.1 p.2).map (fun _ => ()) ∧ (t.call p).2.Mirrors (m.attempt p) := by
  obtain ⟨line, entity⟩ := p
  rw [call_eq, h.byLine, h.byEntity, attempt]
  cases hinsert : m.insert line entity with
  | error conflict =>
      rcases insert_eq_error_iff.1 hinsert with ⟨existing, hline, rfl⟩ | ⟨hline, l, hentity, rfl⟩
      · rw [hline]
        exact ⟨rfl, h⟩
      · rw [hline, hentity]
        exact ⟨rfl, h⟩
  | ok m' =>
      obtain ⟨hline, hentity⟩ := insert_eq_ok_iff.1 ⟨m', hinsert⟩
      rw [hline, hentity]
      refine ⟨rfl, fun other => ?_, fun other => ?_⟩
      · simp [entityAt?_insert hm hinsert, h.byLine, Std.HashMap.getElem?_insert]
      · simp [lineOf?_insert hm hinsert, h.byEntity, Std.HashMap.getElem?_insert]

end Mirrors

/-- The tables mirror the source map after the same insertions. -/
theorem mirrors_ofAttempts (attempts : List (ℕ × Entity)) :
    (ofAttempts attempts).Mirrors (SourceMap.ofAttempts attempts) := by
  induction attempts using List.reverseRecOn with
  | nil =>
      refine ⟨fun line => ?_, fun entity => ?_⟩
      · exact Std.HashMap.getElem?_empty
      · exact Std.HashMap.getElem?_empty
  | append_singleton attempts p ih =>
      rw [ofAttempts_concat, SourceMap.ofAttempts_concat]
      exact (ih.call (isBijection_ofAttempts attempts) p).2

/-! ### Answers -/

/-- An insertion is rejected exactly if the line or the entity is there already, and then it leaves
both tables as they are. -/
theorem exists_call_eq_error_iff {line : ℕ} {entity : Entity} :
    (∃ conflict, t.call (line, entity) = (.error conflict, t)) ↔
      line ∈ t.byLine ∨ entity ∈ t.byEntity := by
  rw [call_eq, Std.HashMap.mem_iff_isSome_getElem?, Std.HashMap.mem_iff_isSome_getElem?]
  cases t.byLine[line]? with
  | some existing => simp
  | none => cases t.byEntity[entity]? <;> simp

/-- An insertion is accepted exactly if neither the line nor the entity is there, and then it writes
to both tables. -/
theorem call_eq_ok_iff {line : ℕ} {entity : Entity} :
    t.call (line, entity) =
        (.ok (), ⟨t.byLine.insert line entity, t.byEntity.insert entity line⟩) ↔
      line ∉ t.byLine ∧ entity ∉ t.byEntity := by
  rw [call_eq, Std.HashMap.mem_iff_isSome_getElem?, Std.HashMap.mem_iff_isSome_getElem?]
  cases t.byLine[line]? with
  | some existing => simp
  | none => cases t.byEntity[entity]? <;> simp

/-- The tables accept what the source map accepts. -/
theorem call_ofAttempts_fst_eq_ok_iff {attempts : List (ℕ × Entity)} {p : ℕ × Entity} :
    ((ofAttempts attempts).call p).1 = .ok () ↔ (SourceMap.ofAttempts attempts).Accepts p := by
  rw [((mirrors_ofAttempts attempts).call (isBijection_ofAttempts attempts) p).1, Accepts]
  cases (SourceMap.ofAttempts attempts).insert p.1 p.2 <;> simp [Except.map]

/-- **The two tables stay inverse to each other.**  Whatever was inserted in whatever order, whether
it was rejected or not:

* a line has an entity exactly if the entity has the line, in the tables and in the source map, which
  answer alike to each lookup and to each further insertion;
* a further insertion is rejected exactly if its line or its entity is there already, and then both
  tables stay as they are;
* the entries go by strictly increasing line, and they are the insertions that were accepted when
  their turn came. -/
theorem isInverse_ofAttempts (attempts : List (ℕ × Entity)) :
    let t := ofAttempts attempts
    let m := SourceMap.ofAttempts attempts
    (t.IsInverse ∧ t.Mirrors m ∧
      ∀ line entity, m.entityAt? line = some entity ↔ m.lineOf? entity = some line) ∧
    (∀ line entity,
      (t.call (line, entity)).1 = (m.insert line entity).map (fun _ => ()) ∧
      ((∃ conflict, t.call (line, entity) = (.error conflict, t)) ↔
        line ∈ t.byLine ∨ entity ∈ t.byEntity) ∧
      (t.call (line, entity) =
          (.ok (), ⟨t.byLine.insert line entity, t.byEntity.insert entity line⟩) ↔
        line ∉ t.byLine ∧ entity ∉ t.byEntity)) ∧
    t.entries = m.entries ∧ t.entries.Pairwise (fun p q => p.1 < q.1) ∧
    ∀ p, p ∈ t.entries ↔
      ∃ before, before ++ [p] <+: attempts ∧ ((ofAttempts before).call p).1 = .ok () := by
  intro t m
  have hm : m.IsBijection := isBijection_ofAttempts attempts
  have ht : t.Mirrors m := mirrors_ofAttempts attempts
  have hentries : t.entries = m.entries := ht.entries_eq hm
  refine ⟨⟨ht.isInverse hm, ht, fun line entity => ?_⟩, fun line entity => ?_, hentries, ?_,
    fun p => ?_⟩
  · rw [hm.entityAt?_eq_some_iff, hm.lineOf?_eq_some_iff]
  · exact ⟨(ht.call hm (line, entity)).1, exists_call_eq_error_iff, call_eq_ok_iff⟩
  · exact hentries ▸ hm.lines
  · rw [hentries, mem_entries_ofAttempts_iff]
    exact exists_congr fun before => and_congr_right fun _ => call_ofAttempts_fst_eq_ok_iff.symm

end Tables

end SourceMap

end TextDiagram
