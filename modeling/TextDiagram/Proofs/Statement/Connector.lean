/-
**Lines with and without a connector.**

A connector is looked for in the whole line, whatever part of it the connector stands in.  The six
connectors are made of three characters, each of which is a connector by itself: a text without
them has no connector, and every other text has one.  Between two texts without them a connector is
found as it is written, for it is looked for before the connectors that are parts of it.

Main definitions:

* `TextDiagram.IsUnconnected` — a text without the characters of connectors.

Main results:

* `TextDiagram.isUnconnected_iff`, `TextDiagram.connectorIn?_eq_none_iff_isUnconnected` — **a text
  has no connector if and only if it has none of their characters**;
* `TextDiagram.connectorIn?_between`, `TextDiagram.cutAround_between` — a connector between two
  such texts **is found**, and the line is cut around it.
-/

import TextDiagram.Proofs.Statement.Name

set_option relaxedAutoImplicit false
set_option autoImplicit false

namespace TextDiagram

open Text

variable {text before after : List Char} {c : Char}

/-! ### The characters of connectors -/

/-- The characters that connectors are made of. -/
def connectorChars : List Char := ['-', '<', '>']

/-- A text without the characters that connectors are made of. -/
def IsUnconnected (text : List Char) : Prop := ∀ c ∈ text, c ∉ connectorChars

instance (text : List Char) : Decidable (IsUnconnected text) :=
  List.decidableBAll (fun c => c ∉ connectorChars) text

@[simp] theorem isUnconnected_cons :
    IsUnconnected (c :: text) ↔ c ∉ connectorChars ∧ IsUnconnected text :=
  List.forall_mem_cons

@[simp] theorem isUnconnected_append :
    IsUnconnected (before ++ after) ↔ IsUnconnected before ∧ IsUnconnected after :=
  List.forall_mem_append

/-- A connector starts with one of the characters. -/
theorem EdgeKind.exists_connector_eq_cons (k : EdgeKind) :
    ∃ c ∈ connectorChars, ∃ word, k.connector.toList = c :: word := by
  cases k <;> exact ⟨_, by decide, _, rfl⟩

/-- Each of the characters is a connector. -/
theorem exists_connector_eq_singleton (hc : c ∈ connectorChars) :
    ∃ k : EdgeKind, k.connector.toList = [c] := by
  simp only [connectorChars, List.mem_cons, List.not_mem_nil, or_false] at hc
  rcases hc with rfl | rfl | rfl
  · exact ⟨.plain, rfl⟩
  · exact ⟨.reverseArrow, rfl⟩
  · exact ⟨.arrow, rfl⟩

/-- **A text has none of the characters if and only if no connector occurs in it.** -/
theorem isUnconnected_iff :
    IsUnconnected text ↔ ∀ k : EdgeKind, ¬ k.connector.toList <:+: text := by
  constructor
  · intro h k hoccurs
    obtain ⟨c, hc, word, hword⟩ := k.exists_connector_eq_cons
    exact h c (hoccurs.subset (hword ▸ List.mem_cons_self)) hc
  · intro h c hmem hc
    obtain ⟨k, hk⟩ := exists_connector_eq_singleton hc
    exact h k (hk ▸ (List.singleton_infix_iff c text).2 hmem)

theorem connectorIn?_eq_none_iff_isUnconnected : connectorIn? text = none ↔ IsUnconnected text := by
  rw [connectorIn?_eq_none_iff, isUnconnected_iff]
  refine forall_congr' fun k => ?_
  rw [Bool.eq_false_iff, ne_eq, occursIn_iff]

/-! ### A connector between two texts -/

/-- Each connector comes before the connectors that are parts of it. -/
theorem connectorIn?_connector (k : EdgeKind) : connectorIn? k.connector.toList = some k := by
  cases k <;> decide

/-- **A connector between texts without connectors is found.** -/
theorem connectorIn?_between (hbefore : IsUnconnected before) (hafter : IsUnconnected after)
    (k : EdgeKind) :
    connectorIn? (before ++ ' ' :: (k.connector.toList ++ ' ' :: after)) = some k := by
  have hoccurs : ∀ k' : EdgeKind,
      k'.connector.toList <:+: before ++ ' ' :: (k.connector.toList ++ ' ' :: after) ↔
        k'.connector.toList <:+: k.connector.toList := by
    intro k'
    have hblank : ' ' ∉ k'.connector.toList := by cases k' <;> decide
    rw [infix_append_cons_iff hblank, infix_append_cons_iff hblank,
      or_iff_right (isUnconnected_iff.1 hbefore k'), or_iff_left (isUnconnected_iff.1 hafter k')]
  rw [← connectorIn?_connector k, connectorIn?, connectorIn?]
  congr 1
  funext k'
  rw [Bool.eq_iff_iff, occursIn_iff, occursIn_iff]
  exact hoccurs k'

/-- The line is cut around that connector, whatever follows it. -/
theorem cutAround_between (hbefore : IsUnconnected before) (k : EdgeKind) (after : List Char) :
    cutAround k.connector.toList (before ++ ' ' :: (k.connector.toList ++ after)) =
      some (before ++ [' '], after) := by
  obtain ⟨c, hc, word, hword⟩ := k.exists_connector_eq_cons
  have hblank : ' ' ∉ connectorChars := by decide
  have hnot : c ∉ before ++ [' '] := by
    rw [List.mem_append, List.mem_singleton, not_or]
    exact ⟨fun hmem => hbefore c hmem hc, fun heq => hblank (heq ▸ hc)⟩
  rw [hword, List.append_cons]
  exact cutAround_append_word hnot word after

end TextDiagram
