/-
**Identifiers.**

Nodes and edges are known by texts.  A node is known by its name; the ids of edges and directives
are generated from the line that they stand on, and the ids of what is drawn on the diagram from a
counter.  Ids are ordered as their code points are.

Main definitions:

* `TextDiagram.Id` — an identifier, with the forms of the generated ones;
* `TextDiagram.Id.primedUntilFree` — a generated id that no node has;
* `TextDiagram.IdCounter` — the counter behind the ids of drawn nodes and edges.
-/

import TextDiagram.Search

set_option relaxedAutoImplicit false
set_option autoImplicit false

namespace TextDiagram

/-- The text that a node, an edge or a directive is known by. -/
abbrev Id := String

namespace Id

/-- The id of the edge that stands on a line. -/
def edge (source target : Id) (line : Nat) : Id := s!"edge_{source}_{target}_{line}"

/-- A stem with a number. -/
def numbered (stem : String) (n : Nat) : Id := s!"{stem}_{n}"

/-- The id of an edge that was drawn between two nodes. -/
def drawnEdge (source target : Id) (n : Nat) : Id := s!"{source}-{target}-{n}"

/-- An id with a prime after it. -/
def primed (id : Id) : Id := id ++ "'"

/-- A candidate with the least number of primes that makes it differ from every reserved name.
Among one more candidate than there are reserved names, all different, one is free. -/
def primedUntilFree (reserved : List Id) (candidate : Id) : Id :=
  (firstFree? (reserved.contains ·) primed reserved.length candidate).getD candidate

end Id

/-! ### Counting -/

/-- The counter that the ids of drawn nodes and edges are taken from.  It only grows. -/
structure IdCounter where
  next : Nat := 1
  deriving DecidableEq, Repr

namespace IdCounter

/-- An id together with the number it was made from. -/
structure Numbered where
  id : Id
  number : Nat
  deriving DecidableEq, Repr

/-- The numbers that are tried to find an id that is not taken: from the counter up to the first
free one. -/
def tried (counter : IdCounter) (form : Nat → Id) (taken : List Id) : List Nat :=
  let found := (firstFree? (fun n => taken.contains (form n)) (· + 1) taken.length
    counter.next).getD counter.next
  List.range' counter.next (found + 1 - counter.next)

/-- The free id with the least number that is not below the counter, and the counter just above that
number. -/
def allocate (counter : IdCounter) (form : Nat → Id) (taken : List Id) : Numbered × IdCounter :=
  let number := (counter.tried form taken).getLastD counter.next
  (⟨form number, number⟩, ⟨number + 1⟩)

end IdCounter

end TextDiagram
