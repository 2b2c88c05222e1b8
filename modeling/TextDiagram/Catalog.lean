/-
**Catalogs.**

A catalog holds one value for each of its ids and keeps the order in which the ids came in.  An id
that comes again keeps its place and gets the new value.

Main definitions:

* `TextDiagram.Catalog` — entries with distinct ids;
* `TextDiagram.Catalog.insert`, `TextDiagram.Catalog.map`, `TextDiagram.Catalog.filterMap` — the
  operations, each of which keeps the ids distinct.

Main results:

* `TextDiagram.Catalog.get?_insert_self`, `TextDiagram.Catalog.get?_insert_of_ne` — what an
  insertion does to the values;
* `TextDiagram.Catalog.ids_insert`, `TextDiagram.Catalog.ids_map` — and to the ids;
* `TextDiagram.Catalog.get?_eq_some_iff` — a value is found exactly where there is an entry.
-/

import TextDiagram.Identifier

set_option relaxedAutoImplicit false
set_option autoImplicit false

namespace TextDiagram

/-! ### Lists of entries -/

variable {α β : Type}

/-- The entries with the value of an id replaced, or with a new entry at the end. -/
def insertEntry (id : Id) (value : α) : List (Id × α) → List (Id × α)
  | [] => [(id, value)]
  | (key, old) :: rest =>
      if key = id then (key, value) :: rest else (key, old) :: insertEntry id value rest

theorem map_fst_insertEntry (id : Id) (value : α) (entries : List (Id × α)) :
    (insertEntry id value entries).map Prod.fst =
      if id ∈ entries.map Prod.fst then entries.map Prod.fst
      else entries.map Prod.fst ++ [id] := by
  induction entries with
  | nil => simp [insertEntry]
  | cons entry rest ih =>
      obtain ⟨key, old⟩ := entry
      by_cases h : key = id
      · simp [insertEntry, h]
      · have h' : ¬ id = key := fun heq => h heq.symm
        simp only [insertEntry, if_neg h, List.map_cons, ih, List.mem_cons, h', false_or]
        split <;> simp

theorem lookup_insertEntry_self (id : Id) (value : α) (entries : List (Id × α)) :
    (insertEntry id value entries).lookup id = some value := by
  induction entries with
  | nil => simp [insertEntry]
  | cons entry rest ih =>
      obtain ⟨key, old⟩ := entry
      by_cases h : key = id
      · simp [insertEntry, h]
      · have h' : (id == key) = false := by simpa using fun heq : id = key => h heq.symm
        simp [insertEntry, h, List.lookup_cons, h', ih]

theorem lookup_insertEntry_of_ne {id other : Id} (hne : other ≠ id) (value : α)
    (entries : List (Id × α)) :
    (insertEntry id value entries).lookup other = entries.lookup other := by
  have hne' : (other == id) = false := by simpa using hne
  induction entries with
  | nil => simp only [insertEntry, List.lookup_cons, List.lookup_nil, hne']
  | cons entry rest ih =>
      obtain ⟨key, old⟩ := entry
      by_cases h : key = id
      · simp only [insertEntry, h, if_true, List.lookup_cons, hne']
      · simp only [insertEntry, if_neg h, List.lookup_cons]
        split
        · rfl
        · exact ih

/-- With distinct ids, an entry is found by its id. -/
theorem lookup_eq_some_iff_mem {entries : List (Id × α)}
    (hnd : (entries.map Prod.fst).Nodup) {id : Id} {value : α} :
    entries.lookup id = some value ↔ (id, value) ∈ entries := by
  induction entries with
  | nil => simp
  | cons entry rest ih =>
      obtain ⟨key, old⟩ := entry
      simp only [List.map_cons, List.nodup_cons] at hnd
      by_cases h : id = key
      · subst h
        simp only [List.lookup_cons, BEq.rfl, Option.some.injEq, List.mem_cons, Prod.mk.injEq,
          true_and]
        constructor
        · intro heq
          exact Or.inl heq.symm
        · rintro (heq | hmem)
          · exact heq.symm
          · exact absurd (List.mem_map_of_mem (f := Prod.fst) hmem) hnd.1
      · have h' : (id == key) = false := by simpa using h
        simp only [List.lookup_cons, h', ih hnd.2, List.mem_cons, Prod.mk.injEq, h, false_and,
          false_or]

/-- Dropping and changing values leaves some of the ids, in their order. -/
theorem map_fst_filterMap_sublist (f : Id → α → Option β) (entries : List (Id × α)) :
    ((entries.filterMap fun (id, value) => (f id value).map fun b => (id, b)).map
      Prod.fst).Sublist (entries.map Prod.fst) := by
  induction entries with
  | nil => simp
  | cons entry rest ih =>
      obtain ⟨id, value⟩ := entry
      cases h : f id value with
      | none =>
          simp only [List.filterMap_cons, h, Option.map_none, List.map_cons]
          exact List.Sublist.cons _ ih
      | some b =>
          simp only [List.filterMap_cons, h, Option.map_some, List.map_cons]
          exact List.Sublist.cons_cons _ ih

/-! ### Catalogs -/

/-- Entries with distinct ids, in the order in which the ids came in. -/
structure Catalog (α : Type) where
  entries : List (Id × α)
  distinct : (entries.map Prod.fst).Nodup

namespace Catalog

/-- The catalog without entries. -/
def empty : Catalog α := ⟨[], by simp⟩

instance : Inhabited (Catalog α) := ⟨empty⟩

/-- The ids of a catalog, in order. -/
def ids (c : Catalog α) : List Id := c.entries.map Prod.fst

/-- The values of a catalog, in order. -/
def values (c : Catalog α) : List α := c.entries.map Prod.snd

/-- The number of entries. -/
def size (c : Catalog α) : Nat := c.entries.length

/-- The value of an id. -/
def get? (c : Catalog α) (id : Id) : Option α := c.entries.lookup id

/-- Whether an id has a value. -/
def contains (c : Catalog α) (id : Id) : Bool := (c.get? id).isSome

/-- The catalog in which an id has a given value. -/
def insert (c : Catalog α) (id : Id) (value : α) : Catalog α where
  entries := insertEntry id value c.entries
  distinct := by
    rw [map_fst_insertEntry]
    split
    · exact c.distinct
    · rename_i h
      rw [List.nodup_append]
      refine ⟨c.distinct, by simp, ?_⟩
      intro a ha b hb
      rw [List.mem_singleton] at hb
      rintro rfl
      exact h (hb ▸ ha)

/-- The catalog that a list of entries leads to, a later entry of an id replacing an earlier one. -/
def ofList (entries : List (Id × α)) : Catalog α :=
  entries.foldl (fun c (id, value) => c.insert id value) empty

/-- The catalog with every value replaced. -/
def map (c : Catalog α) (f : Id → α → β) : Catalog β where
  entries := c.entries.map fun (id, value) => (id, f id value)
  distinct := by
    have h : (c.entries.map fun (id, value) => (id, f id value)).map Prod.fst =
        c.entries.map Prod.fst := by
      rw [List.map_map]
      rfl
    rw [h]
    exact c.distinct

/-- The values that a function keeps, with their ids. -/
def filterMap (c : Catalog α) (f : Id → α → Option β) : Catalog β where
  entries := c.entries.filterMap fun (id, value) => (f id value).map fun b => (id, b)
  distinct := List.Nodup.sublist (map_fst_filterMap_sublist f c.entries) c.distinct

/-- The catalog with the value of an id changed, if it has one. -/
def modify (c : Catalog α) (id : Id) (f : α → α) : Catalog α :=
  c.map fun key value => if key = id then f value else value

/-- Whether some entry satisfies a condition. -/
def any (c : Catalog α) (p : Id → α → Bool) : Bool := c.entries.any fun (id, value) => p id value

/-- The entries in the order of their ids. -/
def sorted (c : Catalog α) : List (Id × α) :=
  c.entries.mergeSort fun a b => decide (a.1 ≤ b.1)

/-! ### What the operations do -/

@[simp] theorem get?_empty (id : Id) : (empty : Catalog α).get? id = none := rfl

@[simp] theorem ids_empty : (empty : Catalog α).ids = [] := rfl

@[simp] theorem get?_insert_self (c : Catalog α) (id : Id) (value : α) :
    (c.insert id value).get? id = some value :=
  lookup_insertEntry_self id value c.entries

theorem get?_insert_of_ne (c : Catalog α) {id other : Id} (h : other ≠ id) (value : α) :
    (c.insert id value).get? other = c.get? other :=
  lookup_insertEntry_of_ne h value c.entries

theorem ids_insert (c : Catalog α) (id : Id) (value : α) :
    (c.insert id value).ids = if id ∈ c.ids then c.ids else c.ids ++ [id] :=
  map_fst_insertEntry id value c.entries

/-- A value is found exactly where there is an entry. -/
theorem get?_eq_some_iff {c : Catalog α} {id : Id} {value : α} :
    c.get? id = some value ↔ (id, value) ∈ c.entries :=
  lookup_eq_some_iff_mem c.distinct

@[simp] theorem ids_map (c : Catalog α) (f : Id → α → β) : (c.map f).ids = c.ids := by
  simp only [ids, map, List.map_map]
  rfl

@[simp] theorem ids_modify (c : Catalog α) (id : Id) (f : α → α) :
    (c.modify id f).ids = c.ids := ids_map c _

theorem get?_map (c : Catalog α) (f : Id → α → β) (id : Id) :
    (c.map f).get? id = (c.get? id).map (f id) := by
  simp only [get?, map]
  induction c.entries with
  | nil => rfl
  | cons entry rest ih =>
      obtain ⟨key, value⟩ := entry
      simp only [List.map_cons, List.lookup_cons]
      by_cases h : id = key
      · subst h
        simp
      · have h' : (id == key) = false := by simpa using h
        simp only [h', ih]

end Catalog

end TextDiagram
