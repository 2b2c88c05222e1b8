/-
**Lines and entities.**

A source map relates the lines of a text to what they made: each line to at most one entity and each
entity to at most one line.  An entity is known by its kind and its id together.

Main definitions:

* `TextDiagram.Entity` — an id with its kind;
* `TextDiagram.SourceMap` — the related lines and entities, by increasing line;
* `TextDiagram.SourceMap.insert` — one more relation, or the conflict that stands against it.

Main results:

* `TextDiagram.SourceMap.insert_eq_ok_iff` — a relation is taken in when neither its line nor its
  entity is related already;
* `TextDiagram.SourceMap.entries_insert` — what it adds.
-/

import TextDiagram.Identifier

set_option relaxedAutoImplicit false
set_option autoImplicit false

namespace TextDiagram

/-! ### Entities -/

/-- What a line can make. -/
inductive EntityKind where
  | node
  | edge
  | direction
  | style
  deriving DecidableEq, Repr

/-- The name of a kind. -/
def EntityKind.name : EntityKind → String
  | node => "node"
  | edge => "edge"
  | direction => "direction"
  | style => "style"

/-- The kinds in the order in which an id is looked for among them. -/
def EntityKind.all : List EntityKind := [node, edge, direction, style]

/-- The kind of a given name. -/
def EntityKind.ofName? (name : String) : Option EntityKind := all.find? fun k => k.name = name

@[simp] theorem EntityKind.ofName?_name (kind : EntityKind) : ofName? kind.name = some kind := by
  cases kind <;> decide

/-- An id with its kind. -/
structure Entity where
  kind : EntityKind
  id : Id
  deriving DecidableEq, Repr

/-- The text of an entity. -/
def Entity.text (e : Entity) : String := s!"{e.kind.name} `{e.id}`"

/-! ### Conflicts -/

/-- Why a line and an entity cannot be related. -/
inductive MapConflict where
  | lineTaken (line : Nat) (existing : Entity)
  | entityTaken (entity : Entity) (existingLine : Nat)
  deriving DecidableEq, Repr

namespace MapConflict

/-- What is said of a conflict. -/
def message : MapConflict → String
  | lineTaken line existing => s!"line {line} is already mapped to {existing.text}"
  | entityTaken entity existingLine => s!"{entity.text} is already mapped to line {existingLine}"

/-- The line that a conflict is reported on. -/
def line : MapConflict → Nat
  | lineTaken line _ => line
  | entityTaken _ existingLine => existingLine

end MapConflict

/-! ### Source maps -/

/-- The related lines and entities, by increasing line. -/
structure SourceMap where
  entries : List (Nat × Entity) := []
  deriving DecidableEq, Repr, Inhabited

namespace SourceMap

/-- The entity that a line made. -/
def entityAt? (m : SourceMap) (line : Nat) : Option Entity := m.entries.lookup line

/-- The line that made an entity. -/
def lineOf? (m : SourceMap) (entity : Entity) : Option Nat :=
  (m.entries.find? fun (_, e) => e = entity).map Prod.fst

/-- The line that made something with a given id: a node before an edge, and an edge before a
directive. -/
def lineOfId? (m : SourceMap) (id : Id) : Option Nat :=
  EntityKind.all.findSome? fun kind => m.lineOf? ⟨kind, id⟩

/-- Whether an entity has a line. -/
def contains (m : SourceMap) (entity : Entity) : Bool := (m.lineOf? entity).isSome

/-- The number of related lines. -/
def size (m : SourceMap) : Nat := m.entries.length

/-- The entries with one more in its place. -/
def place (line : Nat) (entity : Entity) : List (Nat × Entity) → List (Nat × Entity)
  | [] => [(line, entity)]
  | (other, e) :: rest =>
      if line < other then (line, entity) :: (other, e) :: rest
      else (other, e) :: place line entity rest

/-- One more relation.  The line is looked at before the entity. -/
def insert (m : SourceMap) (line : Nat) (entity : Entity) : Except MapConflict SourceMap :=
  match m.entityAt? line with
  | some existing => .error (.lineTaken line existing)
  | none =>
      match m.lineOf? entity with
      | some existingLine => .error (.entityTaken entity existingLine)
      | none => .ok ⟨place line entity m.entries⟩

/-- A relation is taken in when neither its line nor its entity is related already. -/
theorem insert_eq_ok_iff {m : SourceMap} {line : Nat} {entity : Entity} :
    (∃ m', m.insert line entity = .ok m') ↔
      m.entityAt? line = none ∧ m.lineOf? entity = none := by
  simp only [insert]
  cases hl : m.entityAt? line with
  | some existing => simp
  | none =>
      cases he : m.lineOf? entity with
      | some existingLine => simp
      | none => simp

/-- A relation that is taken in is the one entry that is added. -/
theorem entries_insert {m m' : SourceMap} {line : Nat} {entity : Entity}
    (h : m.insert line entity = .ok m') : m'.entries = place line entity m.entries := by
  simp only [insert] at h
  split at h
  · simp at h
  · split at h
    · simp at h
    · simp only [Except.ok.injEq] at h
      rw [← h]

/-- Placing an entry adds nothing else. -/
theorem mem_place {line : Nat} {entity : Entity} {entry : Nat × Entity} :
    ∀ {entries : List (Nat × Entity)},
      entry ∈ place line entity entries ↔ entry = (line, entity) ∨ entry ∈ entries := by
  intro entries
  induction entries with
  | nil => simp [place]
  | cons first rest ih =>
      obtain ⟨other, e⟩ := first
      simp only [place]
      split
      · simp only [List.mem_cons]
      · simp only [List.mem_cons, ih]
        exact or_left_comm

end SourceMap

end TextDiagram
