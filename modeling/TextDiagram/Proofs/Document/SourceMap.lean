/-
**Source maps as bijections.**

A source map that is built by insertions relates each line to one entity and each entity to one
line.  The two typed lookups are then inverse to each other: both say that the pair is an entry.

Main definitions:

* `TextDiagram.SourceMap.IsBijection` — the lines increase, and no entity is there twice.

Main results:

* `TextDiagram.SourceMap.isBijection_of_insert` — insertions keep it so;
* `TextDiagram.SourceMap.IsBijection.entityAt?_eq_some_iff`,
  `TextDiagram.SourceMap.IsBijection.lineOf?_eq_some_iff` — **both typed lookups find exactly the
  entries**;
* `TextDiagram.SourceMap.lineOfId?_eq_lineOf?`, `TextDiagram.SourceMap.lineOfId?_eq_some` — the
  lookup by id alone finds the line of an entity whose id nothing else has.
-/

import Mathlib.Data.List.Nodup
import TextDiagram.Document.SourceMap

set_option relaxedAutoImplicit false
set_option autoImplicit false

namespace TextDiagram.SourceMap

variable {m m' : SourceMap} {line : Nat} {entity : Entity}

/-- The entries of a source map relate lines and entities one to one, and stand by increasing
line. -/
structure IsBijection (m : SourceMap) : Prop where
  /-- The lines increase. -/
  lines : m.entries.Pairwise fun a b => a.1 < b.1
  /-- No entity has two lines. -/
  entities : (m.entries.map Prod.snd).Nodup

/-! ### Lookups that find nothing -/

theorem entityAt?_eq_none_iff : m.entityAt? line = none ↔ ∀ e, (line, e) ∉ m.entries := by
  rw [entityAt?, List.lookup_eq_none_iff]
  constructor
  · intro h e he
    simpa using h (line, e) he
  · rintro h ⟨other, e⟩ he
    have hne : line ≠ other := by
      rintro rfl
      exact h e he
    simpa using hne

theorem lineOf?_eq_none_iff : m.lineOf? entity = none ↔ ∀ l, (l, entity) ∉ m.entries := by
  rw [lineOf?, Option.map_eq_none_iff, List.find?_eq_none]
  constructor
  · intro h l hl
    simpa using h (l, entity) hl
  · rintro h ⟨l, e⟩ he
    simp only [decide_eq_true_eq]
    rintro rfl
    exact h l he

/-- What is found is an entry. -/
theorem mem_of_entityAt? (h : m.entityAt? line = some entity) : (line, entity) ∈ m.entries := by
  obtain ⟨before, after, hentries, -⟩ := List.lookup_eq_some_iff.1 h
  rw [hentries]
  simp

/-- What is found is an entry. -/
theorem mem_of_lineOf? (h : m.lineOf? entity = some line) : (line, entity) ∈ m.entries := by
  obtain ⟨⟨l, e⟩, hfind, rfl⟩ := Option.map_eq_some_iff.1 h
  have he : e = entity := by simpa using List.find?_some hfind
  rw [← he]
  exact List.mem_of_find?_eq_some hfind

/-! ### Placing an entry -/

/-- Placing an entry adds it, somewhere. -/
theorem place_perm (line : Nat) (entity : Entity) (entries : List (Nat × Entity)) :
    (place line entity entries).Perm ((line, entity) :: entries) := by
  induction entries with
  | nil => exact List.Perm.refl _
  | cons first rest ih =>
      obtain ⟨other, e⟩ := first
      simp only [place]
      split
      · exact List.Perm.refl _
      · exact (ih.cons _).trans (List.Perm.swap ..)

/-- An entry of a new line keeps the lines increasing. -/
theorem pairwise_lt_place {entries : List (Nat × Entity)}
    (hentries : entries.Pairwise fun a b => a.1 < b.1) (hnew : ∀ entry ∈ entries, entry.1 ≠ line) :
    (place line entity entries).Pairwise fun a b => a.1 < b.1 := by
  induction entries with
  | nil => simp [place]
  | cons first rest ih =>
      obtain ⟨other, e⟩ := first
      have hrest := List.pairwise_cons.1 hentries
      have hother : other ≠ line := hnew (other, e) (List.mem_cons_self ..)
      simp only [place]
      split
      · rename_i hlt
        refine List.pairwise_cons.2 ⟨?_, hentries⟩
        intro entry hentry
        rcases List.mem_cons.1 hentry with rfl | hentry
        · exact hlt
        · exact Nat.lt_trans hlt (hrest.1 entry hentry)
      · refine List.pairwise_cons.2 ⟨?_, ih hrest.2 fun a ha => hnew a (List.mem_cons_of_mem _ ha)⟩
        intro entry hentry
        rcases mem_place.1 hentry with rfl | hentry
        · show other < line
          omega
        · exact hrest.1 entry hentry

/-! ### Bijections -/

theorem isBijection_empty : IsBijection {} := ⟨List.Pairwise.nil, List.nodup_nil⟩

/-- An insertion adds its entry and nothing else. -/
theorem mem_insert (h : m.insert line entity = .ok m') {entry : Nat × Entity} :
    entry ∈ m'.entries ↔ entry = (line, entity) ∨ entry ∈ m.entries := by
  rw [entries_insert h, mem_place]

/-- Insertions keep the lines increasing. -/
theorem pairwise_lt_of_insert (hm : m.entries.Pairwise fun a b => a.1 < b.1)
    (h : m.insert line entity = .ok m') : m'.entries.Pairwise fun a b => a.1 < b.1 := by
  obtain ⟨hline, -⟩ := insert_eq_ok_iff.1 ⟨m', h⟩
  rw [entries_insert h]
  refine pairwise_lt_place hm ?_
  rintro ⟨l, e⟩ he rfl
  exact entityAt?_eq_none_iff.1 hline e he

/-- Insertions keep a source map one to one. -/
theorem isBijection_of_insert (hm : m.IsBijection) (h : m.insert line entity = .ok m') :
    m'.IsBijection := by
  obtain ⟨-, hentity⟩ := insert_eq_ok_iff.1 ⟨m', h⟩
  refine ⟨pairwise_lt_of_insert hm.lines h, ?_⟩
  rw [entries_insert h, ((place_perm line entity m.entries).map Prod.snd).nodup_iff, List.map_cons,
    List.nodup_cons]
  refine ⟨?_, hm.entities⟩
  intro hmem
  obtain ⟨⟨l, e⟩, he, rfl⟩ := List.mem_map.1 hmem
  exact lineOf?_eq_none_iff.1 hentity l he

/-- Source maps with the same entries are the same, if the lines of both increase. -/
theorem eq_of_mem_iff (hm : m.entries.Pairwise fun a b => a.1 < b.1)
    (hm' : m'.entries.Pairwise fun a b => a.1 < b.1)
    (h : ∀ entry, entry ∈ m.entries ↔ entry ∈ m'.entries) : m = m' := by
  have hnodup : ∀ {m : SourceMap}, (m.entries.Pairwise fun a b => a.1 < b.1) → m.entries.Nodup := by
    intro m hm
    refine hm.imp ?_
    rintro a b hlt rfl
    exact Nat.lt_irrefl _ hlt
  have hentries := ((List.perm_ext_iff_of_nodup (hnodup hm) (hnodup hm')).2 h).eq_of_pairwise
    (fun _ _ _ _ hlt hlt' => absurd hlt' (Nat.lt_asymm hlt)) hm hm'
  obtain ⟨entries⟩ := m
  exact congrArg SourceMap.mk hentries

namespace IsBijection

/-- A line has one entity. -/
theorem entity_eq (hm : m.IsBijection) {e e' : Entity} (h : (line, e) ∈ m.entries)
    (h' : (line, e') ∈ m.entries) : e = e' := by
  have hnd : (m.entries.map Prod.fst).Nodup := List.pairwise_map.2 (hm.lines.imp Nat.ne_of_lt)
  exact (Prod.mk.inj (List.inj_on_of_nodup_map hnd h h' rfl)).2

/-- An entity has one line. -/
theorem line_eq (hm : m.IsBijection) {l l' : Nat} (h : (l, entity) ∈ m.entries)
    (h' : (l', entity) ∈ m.entries) : l = l' :=
  (Prod.mk.inj (List.inj_on_of_nodup_map hm.entities h h' rfl)).1

/-- **The entity of a line is found exactly where there is an entry.** -/
theorem entityAt?_eq_some_iff (hm : m.IsBijection) :
    m.entityAt? line = some entity ↔ (line, entity) ∈ m.entries := by
  refine ⟨mem_of_entityAt?, fun h => ?_⟩
  cases hfound : m.entityAt? line with
  | none => exact absurd h (entityAt?_eq_none_iff.1 hfound entity)
  | some e => rw [hm.entity_eq (mem_of_entityAt? hfound) h]

/-- **The line of an entity is found exactly where there is an entry.** -/
theorem lineOf?_eq_some_iff (hm : m.IsBijection) :
    m.lineOf? entity = some line ↔ (line, entity) ∈ m.entries := by
  refine ⟨mem_of_lineOf?, fun h => ?_⟩
  cases hfound : m.lineOf? entity with
  | none => exact absurd h (lineOf?_eq_none_iff.1 hfound line)
  | some l => rw [hm.line_eq (mem_of_lineOf? hfound) h]

end IsBijection

/-! ### The lookup by id alone -/

/-- The lookup by id alone agrees with the typed one for an entity whose id nothing else has. -/
theorem lineOfId?_eq_lineOf? (hunique : ∀ l e, (l, e) ∈ m.entries → e.id = entity.id → e = entity) :
    m.lineOfId? entity.id = m.lineOf? entity := by
  -- the other kinds are asked, too, but none of them has an entity of this id
  have hother : ∀ kind, kind ≠ entity.kind → m.lineOf? ⟨kind, entity.id⟩ = none := by
    intro kind hkind
    rw [lineOf?_eq_none_iff]
    intro l hl
    exact hkind (congrArg Entity.kind (hunique l _ hl rfl))
  obtain ⟨kind, id⟩ := entity
  cases hline : m.lineOf? ⟨kind, id⟩ <;> cases kind <;>
    simp [lineOfId?, EntityKind.all, hline, hother]

/-- The lookup by id alone finds the line of an entity whose id nothing else has. -/
theorem lineOfId?_eq_some (hline : m.lineOf? entity = some line)
    (hunique : ∀ l e, (l, e) ∈ m.entries → e.id = entity.id → e = entity) :
    m.lineOfId? entity.id = some line :=
  (lineOfId?_eq_lineOf? hunique).trans hline

end TextDiagram.SourceMap
