/-
**The ids of catalogs.**

Which ids a catalog has, in terms of its lookups; and what insertion and filtering do to the entries
where they meet only new ids and keep every value.

Main results:

* `TextDiagram.Catalog.mem_ids_iff`, `TextDiagram.Catalog.contains_iff` — the lookups tell which
  ids there are;
* `TextDiagram.Catalog.entries_insert_of_notMem`, `TextDiagram.Catalog.entries_ofList` — new ids
  come in at the end;
* `TextDiagram.Catalog.get?_foldl_insert` — a catalog that is inserted into another one covers it;
* `TextDiagram.Catalog.ids_filterMap` — a function that keeps every value keeps every id;
* `TextDiagram.Catalog.map_map`, `TextDiagram.Catalog.map_congr`,
  `TextDiagram.Catalog.map_eq_self` — replacing all values twice, in two ways that agree, and by
  themselves;
* `TextDiagram.Catalog.mem_entries_insert`, `TextDiagram.Catalog.mem_entries_modify` — what is in a
  catalog after a change;
* `TextDiagram.Catalog.map_values_congr`, `TextDiagram.Catalog.ext_get?` — what is told of all
  values, in order, and that a catalog is told by its ids and lookups;
* `TextDiagram.Catalog.nodup_values` — values that tell their ids are all different.
-/

import Mathlib.Data.List.Nodup
import TextDiagram.Catalog

set_option relaxedAutoImplicit false
set_option autoImplicit false

namespace TextDiagram.Catalog

variable {α β : Type} {c : Catalog α} {id : Id}

/-- Catalogs with the same entries are the same. -/
theorem ext_entries {c c' : Catalog α} (h : c.entries = c'.entries) : c = c' := by
  obtain ⟨entries, _⟩ := c
  obtain ⟨entries', _⟩ := c'
  subst h
  rfl

/-! ### Ids and lookups -/

theorem nodup_ids (c : Catalog α) : c.ids.Nodup := c.distinct

/-- The ids of a catalog are those that have a value. -/
theorem mem_ids_iff : id ∈ c.ids ↔ ∃ value, c.get? id = some value := by
  simp only [get?_eq_some_iff, ids, List.mem_map]
  constructor
  · rintro ⟨⟨key, value⟩, hmem, rfl⟩
    exact ⟨value, hmem⟩
  · rintro ⟨value, hmem⟩
    exact ⟨(id, value), hmem, rfl⟩

/-- There is nothing at the ids that are not in a catalog. -/
theorem get?_eq_none_iff : c.get? id = none ↔ id ∉ c.ids := by
  rw [mem_ids_iff, not_exists, Option.eq_none_iff_forall_ne_some]

theorem contains_iff : c.contains id = true ↔ id ∈ c.ids := by
  rw [contains, Option.isSome_iff_exists, mem_ids_iff]

/-- The order of the entries does not matter to the lookups. -/
theorem get?_eq_of_perm {c' : Catalog α} (h : c.entries.Perm c'.entries) (id : Id) :
    c.get? id = c'.get? id := by
  refine Option.ext fun value => ?_
  rw [get?_eq_some_iff, get?_eq_some_iff, h.mem_iff]

/-! ### New ids -/

theorem insertEntry_of_notMem {entries : List (Id × α)} (h : id ∉ entries.map Prod.fst)
    (value : α) :
    insertEntry id value entries = entries ++ [(id, value)] := by
  induction entries with
  | nil => rfl
  | cons entry rest ih =>
      obtain ⟨key, old⟩ := entry
      simp only [List.map_cons, List.mem_cons, not_or] at h
      rw [insertEntry, if_neg (Ne.symm h.1), ih h.2, List.cons_append]

/-- A new id comes in at the end. -/
theorem entries_insert_of_notMem (h : id ∉ c.ids) (value : α) :
    (c.insert id value).entries = c.entries ++ [(id, value)] :=
  insertEntry_of_notMem h value

theorem ids_insert_of_notMem (h : id ∉ c.ids) (value : α) :
    (c.insert id value).ids = c.ids ++ [id] := by
  rw [ids_insert, if_neg h]

theorem mem_ids_insert {new : Id} {value : α} :
    id ∈ (c.insert new value).ids ↔ id ∈ c.ids ∨ id = new := by
  rw [ids_insert]
  split
  · next hmem =>
      exact ⟨Or.inl, fun h => h.elim (fun h => h) fun heq => heq ▸ hmem⟩
  · rw [List.mem_append, List.mem_singleton]

/-- What is in a catalog after an insertion was there before, or was inserted. -/
theorem mem_entries_insert {new : Id} {value a : α} (h : (id, a) ∈ (c.insert new value).entries) :
    (id, a) ∈ c.entries ∨ a = value := by
  rw [← get?_eq_some_iff] at h ⊢
  by_cases hid : id = new
  · subst hid
    rw [get?_insert_self, Option.some.injEq] at h
    exact .inr h.symm
  · rw [get?_insert_of_ne _ hid] at h
    exact .inl h

/-- Entries with distinct new ids come in one after the other at the end. -/
theorem entries_foldl_insert (entries : List (Id × α)) :
    ∀ c : Catalog α, (c.ids ++ entries.map Prod.fst).Nodup →
      (entries.foldl (fun c entry => c.insert entry.1 entry.2) c).entries =
        c.entries ++ entries := by
  -- the catalog so far changes with every entry
  induction entries with
  | nil => intro c _; simp
  | cons entry rest ih =>
      intro c hnd
      obtain ⟨id, value⟩ := entry
      have hnew : id ∉ c.ids := by
        intro hmem
        exact (List.nodup_append.1 hnd).2.2 id hmem id (by simp) rfl
      have hnd' : ((c.insert id value).ids ++ rest.map Prod.fst).Nodup := by
        rw [ids_insert_of_notMem hnew, List.append_assoc]
        exact hnd
      rw [List.foldl_cons, ih _ hnd', entries_insert_of_notMem hnew, List.append_assoc,
        List.singleton_append]

/-- A list with distinct ids is the list of the entries of its catalog. -/
theorem entries_ofList {entries : List (Id × α)} (h : (entries.map Prod.fst).Nodup) :
    (ofList entries).entries = entries :=
  entries_foldl_insert entries empty h

/-- Entries that are inserted bring their ids with them. -/
theorem mem_ids_foldl_insert (entries : List (Id × α)) : ∀ c : Catalog α,
    id ∈ (entries.foldl (fun c (id, value) => c.insert id value) c).ids ↔
      id ∈ c.ids ∨ id ∈ entries.map Prod.fst := by
  induction entries with
  | nil => intro c; simp
  | cons entry rest ih =>
      intro c
      rw [List.foldl_cons, ih, mem_ids_insert, List.map_cons, List.mem_cons, or_assoc]

/-- A list and its catalog have the same ids. -/
theorem mem_ids_ofList {entries : List (Id × α)} :
    id ∈ (ofList entries).ids ↔ id ∈ entries.map Prod.fst :=
  (mem_ids_foldl_insert entries empty).trans (by simp)

/-- A catalog that is inserted into another one covers it. -/
theorem get?_foldl_insert {entries : List (Id × α)} (h : (entries.map Prod.fst).Nodup) :
    ∀ (c : Catalog α) (id : Id),
      (entries.foldl (fun c (id, value) => c.insert id value) c).get? id =
        (entries.lookup id).or (c.get? id) := by
  induction entries with
  | nil => intro c id; rfl
  | cons entry rest ih =>
      intro c id
      obtain ⟨key, value⟩ := entry
      rw [List.foldl_cons, ih (List.nodup_cons.1 h).2, List.lookup_cons]
      by_cases hid : id = key
      · subst hid
        have hnone : rest.lookup id = none :=
          (get?_eq_none_iff (c := ⟨rest, (List.nodup_cons.1 h).2⟩)).2 (List.nodup_cons.1 h).1
        rw [hnone, Option.none_or, get?_insert_self, BEq.rfl]
        rfl
      · have hid' : (id == key) = false := by simpa using hid
        rw [get?_insert_of_ne _ hid, hid']

/-! ### Filtering -/

/-- A function that keeps every value keeps every id. -/
theorem ids_filterMap {f : Id → α → Option β}
    (h : ∀ id value, (id, value) ∈ c.entries → (f id value).isSome = true) :
    (c.filterMap f).ids = c.ids := by
  obtain ⟨entries, hnd⟩ := c
  simp only [ids, filterMap] at *
  clear hnd
  induction entries with
  | nil => rfl
  | cons entry rest ih =>
      obtain ⟨id, value⟩ := entry
      obtain ⟨b, hb⟩ := Option.isSome_iff_exists.1 (h id value (List.mem_cons_self ..))
      simp only [List.filterMap_cons, hb, Option.map_some, List.map_cons]
      rw [ih fun id value hmem => h id value (List.mem_cons_of_mem _ hmem)]

/-- Functions that agree on the entries filter alike. -/
theorem filterMap_congr {f g : Id → α → Option β}
    (h : ∀ id value, (id, value) ∈ c.entries → f id value = g id value) :
    c.filterMap f = c.filterMap g := by
  apply ext_entries
  refine List.filterMap_congr ?_
  rintro ⟨id, value⟩ hmem
  simp only [h id value hmem]

/-! ### Replacing all values -/

theorem map_map {γ : Type} (c : Catalog α) (f : Id → α → β) (g : Id → β → γ) :
    (c.map f).map g = c.map fun id value => g id (f id value) := by
  apply ext_entries
  simp only [map, List.map_map]
  rfl

/-- Functions that agree on the entries replace the values alike. -/
theorem map_congr {f g : Id → α → β}
    (h : ∀ id value, (id, value) ∈ c.entries → f id value = g id value) : c.map f = c.map g := by
  apply ext_entries
  refine List.map_congr_left ?_
  rintro ⟨id, value⟩ hmem
  simp only [h id value hmem]

/-- What is in a catalog after a value was changed was there before, or is what it was changed
into. -/
theorem mem_entries_modify {f : α → α} {key : Id} {a : α}
    (h : (key, a) ∈ (c.modify id f).entries) :
    (key, a) ∈ c.entries ∨ ∃ old, (key, old) ∈ c.entries ∧ a = f old := by
  obtain ⟨⟨key', old⟩, hold, heq⟩ := List.mem_map.1 h
  obtain ⟨rfl, rfl⟩ := Prod.mk.inj heq
  dsimp only
  split
  · exact .inr ⟨old, hold, rfl⟩
  · exact .inl hold

/-- Replacing every value by itself changes nothing. -/
theorem map_eq_self {f : Id → α → α} (h : ∀ id a, (id, a) ∈ c.entries → f id a = a) :
    c.map f = c := by
  apply ext_entries
  refine (List.map_congr_left ?_).trans (List.map_id _)
  rintro ⟨key, a⟩ hmem
  simp only [h key a hmem, id_eq]

/-! ### Values in order -/

/-- The values stand in the order of their ids. -/
theorem map_values_eq (c : Catalog α) (f : α → β) :
    c.values.map f = c.ids.filterMap fun id => (c.get? id).map f := by
  rw [values, ids, List.map_map, List.filterMap_map, ← List.filterMap_eq_map]
  refine List.filterMap_congr ?_
  rintro ⟨id, value⟩ hmem
  simp [get?_eq_some_iff.2 hmem]

/-- What is told of the values agrees if it agrees for every id, and the ids are the same. -/
theorem map_values_congr {c c' : Catalog α} {f : α → β} (hids : c.ids = c'.ids)
    (h : ∀ id ∈ c.ids, (c.get? id).map f = (c'.get? id).map f) :
    c.values.map f = c'.values.map f := by
  rw [map_values_eq, map_values_eq, ← hids]
  exact List.filterMap_congr h

/-- Catalogs with the same ids in the same order, and the same lookups, are the same. -/
theorem ext_get? {c' : Catalog α} (hids : c.ids = c'.ids) (h : ∀ id, c.get? id = c'.get? id) :
    c = c' := by
  have hzip : ∀ c : Catalog α, c.entries = c.ids.zip c.values := fun _ => List.zip_of_prod rfl rfl
  have hvalues : c.values.map (fun a => a) = c'.values.map fun a => a :=
    map_values_congr hids fun id _ => by rw [h id]
  rw [List.map_id', List.map_id'] at hvalues
  apply ext_entries
  rw [hzip c, hzip c', hids, hvalues]

/-- Values that tell their ids are all different. -/
theorem nodup_values
    (h : ∀ id id' value, c.get? id = some value → c.get? id' = some value → id = id') :
    c.values.Nodup := by
  refine (List.Nodup.of_map Prod.fst c.distinct).map_on ?_
  rintro ⟨id, value⟩ hmem ⟨id', value'⟩ hmem' heq
  obtain rfl : value = value' := heq
  rw [h id id' value (get?_eq_some_iff.2 hmem) (get?_eq_some_iff.2 hmem')]

/-! ### Counting -/

/-- What some entry satisfies that does not satisfy the stronger condition is counted more often. -/
theorem countP_lt_countP {p q : α → Bool} {l : List α} {a : α} (ha : a ∈ l)
    (himp : ∀ x ∈ l, p x = true → q x = true) (hq : q a = true) (hp : p a = false) :
    l.countP p < l.countP q := by
  obtain ⟨before, after, rfl⟩ := List.append_of_mem ha
  have hbefore : before.countP p ≤ before.countP q :=
    List.countP_mono_left fun x hx => himp x (List.mem_append_left _ hx)
  have hafter : after.countP p ≤ after.countP q :=
    List.countP_mono_left fun x hx => himp x (List.mem_append_right _ (List.mem_cons_of_mem _ hx))
  rw [List.countP_append, List.countP_append, List.countP_cons_of_pos hq,
    List.countP_cons_of_neg (by rw [hp]; exact Bool.false_ne_true)]
  omega

end TextDiagram.Catalog
