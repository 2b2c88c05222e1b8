/-
**When an arrow is read back.**

An arrow is written as the name of its source, a head, and the name of its target.  Nothing is
quoted or escaped, so what the names hold is read along with the rest of the line.  The line says
the arrow again if and only if the name of the source can start such a line and the name of the
target can end it.

Main definitions:

* `TextDiagram.StartsArrow`, `TextDiagram.EndsArrow` — the names that can stand before and after the
  head of an arrow.

Main results:

* `TextDiagram.connectorIn?_eq_arrow_iff` — the texts whose connector is the head of an arrow;
* `TextDiagram.EdgeStatement.ofLine?_arrow_iff` — the names on the two sides of the head;
* `TextDiagram.Statement.ofLine?_arrow_iff` — **when an arrow is read back**.
-/

import TextDiagram.Proofs.Statement.Name
import TextDiagram.Statement.Writer

set_option relaxedAutoImplicit false
set_option autoImplicit false

namespace TextDiagram

open Text

/-! ### Names before and after a head -/

/-- The names that can stand before the head of an arrow. -/
structure StartsArrow (name : String) : Prop where
  /-- It opens neither a comment nor a directive. -/
  opens : OpensName name.toList
  /-- It holds no head itself. -/
  noHead : '>' ∉ name.toList
  /-- It holds no connector that comes before the head of an arrow. -/
  noDashes : ¬ "--".toList <:+: name.toList

/-- The names that can stand after the head of an arrow. -/
structure EndsArrow (name : String) : Prop where
  /-- It holds nothing that ends a target. -/
  noColon : ':' ∉ name.toList
  /-- It holds no dashes, which would come before the head of an arrow. -/
  noDashes : ¬ "--".toList <:+: name.toList
  /-- Nor does it hold the two heads that would. -/
  noHeads : ¬ "<>".toList <:+: name.toList

variable {source target : String} {text : List Char}

/-! ### The connector -/

/-- The head of an arrow is the connector of a text that holds it, but neither dashes nor two
heads. -/
theorem connectorIn?_eq_arrow_iff : connectorIn? text = some .arrow ↔
    ¬ "--".toList <:+: text ∧ ¬ "<>".toList <:+: text ∧ '>' ∈ text := by
  have hdashed : occursIn EdgeKind.dashed.connector.toList text = true ↔
      "--".toList <:+: text := occursIn_iff
  have hbidirectional : occursIn EdgeKind.bidirectional.connector.toList text = true ↔
      "<>".toList <:+: text := occursIn_iff
  have harrow : occursIn EdgeKind.arrow.connector.toList text = true ↔ '>' ∈ text :=
    occursIn_iff.trans (List.singleton_infix_iff '>' text)
  -- where the dashed arrow occurs, the dashes do
  have hdashedArrow : occursIn EdgeKind.dashedArrow.connector.toList text = true →
      "--".toList <:+: text := fun h =>
    List.IsInfix.trans ⟨[], ['>'], rfl⟩ (occursIn_iff.1 h)
  rw [← hdashed, ← hbidirectional, ← harrow]
  simp only [connectorIn?, EdgeKind.precedence]
  constructor
  · intro h
    have hhead := List.find?_some h
    refine ⟨?_, ?_, hhead⟩
    · intro hdashes
      simp only [List.find?_cons, hdashes] at h
      split at h <;> cases h
    · intro hheads
      simp only [List.find?_cons, hheads] at h
      split at h
      · cases h
      · split at h <;> cases h
  · rintro ⟨hnoDashes, hnoHeads, hhead⟩
    have hnoDashedArrow : occursIn EdgeKind.dashedArrow.connector.toList text = false :=
      Bool.eq_false_iff.2 fun h => hnoDashes (hdashed.2 (hdashedArrow h))
    simp only [List.find?_cons, hnoDashedArrow, Bool.eq_false_iff.2 hnoDashes,
      Bool.eq_false_iff.2 hnoHeads, hhead]

/-! ### The line of an arrow -/

/-- What an arrow is written as. -/
theorem toList_arrowLine (source target : String) :
    (EdgeStatement.line { kind := .arrow, source, target }).toList =
      source.toList ++ ' ' :: '>' :: ' ' :: target.toList := by
  simp [EdgeStatement.line, EdgeKind.connector, toString]

/-- The line of an arrow between names is a line. -/
theorem notMem_arrowLine (hsource : IsName source) (htarget : IsName target) :
    '\n' ∉ (EdgeStatement.line { kind := .arrow, source, target }).toList := by
  rw [toList_arrowLine]
  simp [hsource.oneLine, htarget.oneLine]

/-- A word without blanks and without a head is in the line of an arrow if it is in a name. -/
theorem infix_arrowLine_iff (source target : String) {word : List Char} (hblank : ' ' ∉ word)
    (hhead : ¬ word <:+: ['>']) :
    word <:+: source.toList ++ ' ' :: '>' :: ' ' :: target.toList ↔
      word <:+: source.toList ∨ word <:+: target.toList := by
  have hrest : word <:+: ['>'] ++ ' ' :: target.toList ↔ word <:+: target.toList := by
    rw [infix_append_cons_iff hblank]
    exact or_iff_right hhead
  rw [infix_append_cons_iff hblank]
  exact or_congr_right hrest

/-- The names on the two sides of the head are read back if no earlier head ends the source and no
colon ends the target. -/
theorem EdgeStatement.ofLine?_arrow_iff (hsource : IsName source) (htarget : IsName target) :
    EdgeStatement.ofLine? .arrow (source.toList ++ ' ' :: '>' :: ' ' :: target.toList) =
        some { kind := .arrow, source, target } ↔
      '>' ∉ source.toList ∧ ':' ∉ target.toList := by
  rw [EdgeStatement.ofLine?_eq_some_iff]
  constructor
  · rintro ⟨before, after, hcut, -, hbefore, hafter, -⟩
    have hhead : '>' ∉ source.toList := by
      rw [(nonEmpty?_eq_some_iff.1 hbefore).1]
      exact fun hmem => notMem_of_cutAround hcut (mem_of_mem_trim hmem)
    refine ⟨hhead, ?_⟩
    rw [(nonEmpty?_eq_some_iff.1 hafter).1]
    intro hmem
    simpa using List.mem_takeWhile_imp (mem_of_mem_trim hmem)
  · rintro ⟨hhead, hcolon⟩
    have hhead' : '>' ∉ source.toList ++ [' '] := by simpa using hhead
    have hcolon' : ':' ∉ ' ' :: target.toList := by simpa using hcolon
    -- without a head in the source, the line is cut between the names
    have hcut := cutAround_append_cons hhead' (' ' :: target.toList)
    rw [List.append_assoc, List.singleton_append] at hcut
    refine ⟨_, _, hcut, rfl, ?_, ?_, ?_⟩
    · rw [trim_concat (by decide)]
      exact hsource.nonEmpty?_trim
    · rw [takeWhile_of_notMem hcolon', trim_cons (by decide)]
      exact htarget.nonEmpty?_trim
    · rw [cutAround_eq_none_iff.2 hcolon']
      rfl

/-- **When an arrow is read back**: the name of the source must be able to start its line, and the
name of the target to end it. -/
theorem Statement.ofLine?_arrow_iff (hsource : IsName source) (htarget : IsName target) :
    Statement.ofLine? (EdgeStatement.line { kind := .arrow, source, target }) =
        some (.edge { kind := .arrow, source, target }) ↔
      StartsArrow source ∧ EndsArrow target := by
  have htrim : trim (source.toList ++ ' ' :: '>' :: ' ' :: target.toList) =
      source.toList ++ ' ' :: '>' :: ' ' :: target.toList :=
    (hsource.trimmed.append htarget.trimmed hsource.nonempty htarget.nonempty
      [' ', '>', ' ']).trim_eq
  have hdashes : "--".toList <:+: _ ↔ _ :=
    infix_arrowLine_iff source target (by decide) (by decide)
  have hheads : "<>".toList <:+: _ ↔ _ :=
    infix_arrowLine_iff source target (by decide) (by decide)
  rw [Statement.ofLine?_eq_edge_iff, toList_arrowLine, htrim, LineClass.of_eq_edge_iff,
    EdgeStatement.ofLine?_arrow_iff hsource htarget, connectorIn?_eq_arrow_iff,
    opensName_append_iff hsource.trimmed hsource.nonempty, hdashes, hheads]
  constructor
  · rintro ⟨⟨hopens, hnoDashes, hnoHeads, -⟩, hhead, hcolon⟩
    rw [not_or] at hnoDashes hnoHeads
    exact ⟨⟨hopens, hhead, hnoDashes.1⟩, ⟨hcolon, hnoDashes.2, hnoHeads.2⟩⟩
  · rintro ⟨hstarts, hends⟩
    -- two heads in the source would be a head in it
    have hnoHeads : ¬ "<>".toList <:+: source.toList := fun h =>
      hstarts.noHead (h.subset (by decide))
    exact ⟨⟨hstarts.opens, not_or.2 ⟨hstarts.noDashes, hends.noDashes⟩,
      not_or.2 ⟨hnoHeads, hends.noHeads⟩, by simp⟩, hstarts.noHead, hends.noColon⟩

end TextDiagram
