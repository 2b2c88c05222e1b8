/-
**When a declaration is read back.**

A node is declared by its name alone, and a group by its name and its type.  A name that opens no
comment and no directive, and that holds no connector and no bracket, is read back from its line.
The names that drawn nodes get, a word and a number, are all of this form.

Main definitions:

* `TextDiagram.StandsAlone` — the names that can stand alone on a line;
* `TextDiagram.declarationLine` — the line of a node or a group;
* `TextDiagram.bracketed` — a name and a text in brackets after it;
* `TextDiagram.countedName` — a word and a number.

Main results:

* `TextDiagram.standsAlone_iff` — the names that stand alone are the lines of nodes;
* `TextDiagram.Statement.ofLine?_bracketed` — **what stands in brackets after a name is read as
  properties**;
* `TextDiagram.Statement.ofLine?_declarationLine` — **a name that stands alone is read back**;
* `TextDiagram.StandsAlone.countedName` — a word that stands alone does so with a number.
-/

import TextDiagram.Proofs.Statement.Connector
import TextDiagram.Statement.Writer

set_option relaxedAutoImplicit false
set_option autoImplicit false

namespace TextDiagram

open Text

/-! ### Names alone on a line -/

/-- The names that can stand alone on a line. -/
structure StandsAlone (name : String) : Prop where
  /-- It can be read as a name. -/
  isName : IsName name
  /-- It opens neither a comment nor a directive. -/
  opens : OpensName name.toList
  /-- It holds no connector. -/
  noConnector : ∀ k : EdgeKind, ¬ k.connector.toList <:+: name.toList
  /-- It holds no bracket, which would open the properties. -/
  noBracket : '[' ∉ name.toList

/-- The line of a node, or of a group. -/
def declarationLine (name : String) (isGroup : Bool) : String :=
  nodeLine name (if isGroup then [("type", "group")] else [])

/-- A name, and a text in brackets after it. -/
def bracketed (name : String) (inside : List Char) : List Char :=
  name.toList ++ ' ' :: '[' :: (inside ++ [']'])

variable {name : String}

/-! ### Reading a declaration -/

theorem toList_declarationLine_group (name : String) :
    (declarationLine name true).toList = bracketed name "type: group".toList := by
  have hblock : propertyBlock [("type", "group")] = "[type: group]" := by decide
  simp [declarationLine, nodeLine, hblock, bracketed, toString]

/-- A declaration stays on its line. -/
theorem notMem_declarationLine (h : IsName name) (isGroup : Bool) :
    '\n' ∉ (declarationLine name isGroup).toList := by
  cases isGroup with
  | false => exact h.oneLine
  | true =>
      rw [toList_declarationLine_group, bracketed, List.mem_append, not_or]
      exact ⟨h.oneLine, by decide⟩

/-- A text without brackets declares the node of its name. -/
theorem NodeStatement.ofLine?_name (hname : IsName name) (hbracket : '[' ∉ name.toList) :
    NodeStatement.ofLine? name.toList = some { name } := by
  have hdrop : name.toList.dropWhile (· ≠ '[') = [] := by
    refine List.dropWhile_eq_nil_iff.2 ?_
    intro c hc
    exact decide_eq_true fun heq => hbracket (heq ▸ hc)
  simp only [NodeStatement.ofLine?, takeWhile_of_notMem hbracket, hname.nonEmpty?_trim, hdrop]
  rfl

/-- What stands between the brackets after a name is read as the properties of the node, up to the
last bracket. -/
theorem NodeStatement.ofLine?_bracketed (hname : IsName name) (hbracket : '[' ∉ name.toList)
    (inside : List Char) :
    NodeStatement.ofLine? (bracketed name inside) =
      some (NodeStatement.withProperties { name } (properties inside)) := by
  have hbefore : ∀ c ∈ name.toList ++ [' '], decide (c ≠ '[') = true := by
    intro c hc
    refine decide_eq_true ?_
    rintro rfl
    simp [hbracket] at hc
  have hafter : ∀ c, ('[' :: (inside ++ [']'])).head? = some c → decide (c ≠ '[') = false := by
    intro c hc
    obtain rfl := Option.some.inj hc
    rfl
  have hline : bracketed name inside = (name.toList ++ [' ']) ++ '[' :: (inside ++ [']']) := by
    rw [bracketed, List.append_cons]
  have htake : (bracketed name inside).takeWhile (· ≠ '[') = name.toList ++ [' '] := by
    rw [hline, takeWhile_append_of_head hbefore hafter]
  have hdrop : (bracketed name inside).dropWhile (· ≠ '[') = '[' :: (inside ++ [']']) := by
    rw [hline, dropWhile_append_of_head hbefore hafter]
  rw [NodeStatement.ofLine?_eq_some_iff]
  refine ⟨name, ?_, ?_⟩
  · rw [htake, trim_concat (by decide), hname.nonEmpty?_trim]
  · rw [blockOf, hdrop, List.drop_one, List.tail_cons, beforeLast_concat, Option.getD_some]

/-- **A name stands alone if it is the line of a node**, and holds no bracket. -/
theorem standsAlone_iff : StandsAlone name ↔
    IsName name ∧ LineClass.of name.toList = .node ∧ '[' ∉ name.toList := by
  rw [LineClass.of_eq_node_iff, connectorIn?_eq_none_iff_isUnconnected, isUnconnected_iff]
  constructor
  · intro h
    exact ⟨h.isName, ⟨h.opens, h.noConnector⟩, h.noBracket⟩
  · rintro ⟨hname, ⟨hopens, hconnector⟩, hbracket⟩
    exact ⟨hname, hopens, hconnector, hbracket⟩

instance (name : String) : Decidable (StandsAlone name) := decidable_of_iff _ standsAlone_iff.symm

namespace StandsAlone

theorem isUnconnected (h : StandsAlone name) : IsUnconnected name.toList :=
  isUnconnected_iff.2 h.noConnector

/-- A name that stands alone is the line of a node, also with brackets after it, if no connector
stands between them. -/
theorem lineClass_bracketed (h : StandsAlone name) {inside : List Char}
    (hinside : IsUnconnected inside) : LineClass.of (bracketed name inside) = .node := by
  rw [LineClass.of_eq_node_iff, bracketed, opensName_append_iff h.isName.trimmed h.isName.nonempty,
    connectorIn?_eq_none_iff_isUnconnected]
  have hends : IsUnconnected [']'] := by decide
  refine ⟨h.opens, isUnconnected_append.2 ⟨h.isUnconnected, ?_⟩⟩
  rw [isUnconnected_cons, isUnconnected_cons, isUnconnected_append]
  exact ⟨by decide, by decide, hinside, hends⟩

end StandsAlone

/-- A name and the brackets after it are the whole of their line. -/
theorem trim_bracketed (h : IsName name) (inside : List Char) :
    trim (bracketed name inside) = bracketed name inside := by
  have hend : IsTrimmed [']'] :=
    isTrimmed_of_forall (List.forall_mem_singleton.2 (by decide))
  exact (h.trimmed.append hend h.nonempty (List.cons_ne_nil _ _) (' ' :: '[' :: inside)).trim_eq

/-- **A name that stands alone is read back with the properties in the brackets after it.** -/
theorem Statement.ofLine?_bracketed (h : StandsAlone name) {inside : List Char}
    (hinside : IsUnconnected inside) {line : String} (hline : line.toList = bracketed name inside) :
    Statement.ofLine? line =
      some (.node (NodeStatement.withProperties { name } (properties inside))) := by
  rw [Statement.ofLine?_eq_node_iff, hline, trim_bracketed h.isName]
  exact ⟨h.lineClass_bracketed hinside, NodeStatement.ofLine?_bracketed h.isName h.noBracket inside⟩

/-- **A name that stands alone is read back**, as that of a node or of a group. -/
theorem Statement.ofLine?_declarationLine (h : StandsAlone name) (isGroup : Bool) :
    Statement.ofLine? (declarationLine name isGroup) = some (.node { name, isGroup }) := by
  cases isGroup with
  | false =>
      have hline : declarationLine name false = name := rfl
      rw [Statement.ofLine?_eq_node_iff, hline, h.isName.trimmed.trim_eq]
      exact ⟨(standsAlone_iff.1 h).2.1, NodeStatement.ofLine?_name h.isName h.noBracket⟩
  | true =>
      have hproperties : properties "type: group".toList = [("type".toList, "group".toList)] := by
        decide
      rw [Statement.ofLine?_bracketed h (by decide) (toList_declarationLine_group name),
        hproperties]
      rfl

/-! ### Words with numbers -/

/-- A word and a number. -/
def countedName (word : String) (n : Nat) : String := s!"{word} {n}"

theorem toList_countedName (word : String) (n : Nat) :
    (countedName word n).toList = word.toList ++ ' ' :: Nat.toDigits 10 n := by
  simp [countedName, toString]

theorem isDigit_of_mem_toDigits {n : Nat} {c : Char} (h : c ∈ Nat.toDigits 10 n) :
    c.isDigit = true :=
  Nat.isDigit_of_mem_toDigits (by decide) (by decide) h

theorem IsName.countedName {word : String} (h : IsName word) (n : Nat) :
    IsName (countedName word n) where
  nonempty := by simp [toList_countedName]
  trimmed := by
    have hdigits : IsTrimmed (Nat.toDigits 10 n) :=
      isTrimmed_of_forall fun c hc => isBlank_of_isDigit (isDigit_of_mem_toDigits hc)
    rw [toList_countedName]
    exact h.trimmed.append hdigits h.nonempty (by simp) [' ']
  oneLine := by
    rw [toList_countedName, List.mem_append, List.mem_cons, not_or, not_or]
    refine ⟨h.oneLine, by decide, ?_⟩
    intro hmem
    exact absurd (isDigit_of_mem_toDigits hmem) (by decide)

/-- **A word that stands alone does so with a number.** -/
theorem StandsAlone.countedName {word : String} (h : StandsAlone word) (n : Nat) :
    StandsAlone (countedName word n) where
  isName := h.isName.countedName n
  opens := by
    rw [toList_countedName, opensName_append_iff h.isName.trimmed h.isName.nonempty]
    exact h.opens
  noConnector := by
    intro k
    rw [toList_countedName, infix_append_cons_iff (by cases k <;> decide), not_or]
    refine ⟨h.noConnector k, ?_⟩
    intro hoccurs
    -- no connector starts with a digit
    obtain ⟨c, hc, hdigit⟩ : ∃ c ∈ k.connector.toList, c.isDigit = false := by
      cases k <;> exact ⟨_, List.mem_cons_self, by decide⟩
    rw [isDigit_of_mem_toDigits (hoccurs.subset hc)] at hdigit
    exact nomatch hdigit
  noBracket := by
    rw [toList_countedName, List.mem_append, List.mem_cons, not_or, not_or]
    refine ⟨h.noBracket, by decide, ?_⟩
    intro hmem
    exact absurd (isDigit_of_mem_toDigits hmem) (by decide)

end TextDiagram
