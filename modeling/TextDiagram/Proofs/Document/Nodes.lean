/-
**Which nodes a document has.**

The nodes of a document depend neither on its edges and its source map nor on the names that are
reserved: they can be read off the statements alone.  A mention makes a node if there is none of its
name, and a directive changes the appearance of the declarations after it.

So further statements leave the nodes that are there, and a declaration adds the node that it
declares if there is none of its name.

Main definitions:

* `TextDiagram.Roster` — the nodes of a document in the making;
* `TextDiagram.Roster.apply` — what a statement does to them.

Main results:

* `TextDiagram.Document.nodes_ofText` — **the nodes of a document** are those of its statements;
* `TextDiagram.Roster.nodes_foldl_apply` — **declarations add the nodes of new names**;
* `TextDiagram.Document.label_eq_id`, `TextDiagram.Document.isName_id` — a node is labelled with its
  id, which is a name.
-/

import TextDiagram.Proofs.Document.Reader
import TextDiagram.Proofs.Statement.Name

set_option relaxedAutoImplicit false
set_option autoImplicit false

namespace TextDiagram

/-! ### Rosters -/

/-- The nodes of a document in the making, and the appearance of the next declaration. -/
structure Roster where
  nodes : List Document.Node := []
  appearance : Appearance := {}

namespace Roster

/-- A roster with a node, unless there is one of its name. -/
def withNode (r : Roster) (n : Document.Node) : Roster :=
  if n.id ∈ r.nodes.map Document.Node.id then r else { r with nodes := r.nodes ++ [n] }

/-- A roster after a directive. -/
def styled (r : Roster) : Directive → Roster
  | .colorMode (some colorMode) => { r with appearance := { r.appearance with colorMode } }
  | .styleMode (some styleMode) => { r with appearance := { r.appearance with styleMode } }
  | .typeface (some typeface) => { r with appearance := { r.appearance with typeface } }
  | _ => r

/-- The node that a statement declares on a line. -/
def declared (r : Roster) (line : Nat) (n : NodeStatement) : Document.Node where
  id := n.name
  label := n.name
  icon := n.icon
  color := n.color
  parent := n.parent
  isGroup := n.isGroup
  appearance := some r.appearance
  origin := .line line

/-- A roster after the statement of a line. -/
def apply (r : Roster) : Nat × Statement → Roster
  | (_, .directive directive) => r.styled directive
  | (line, .edge e) =>
      (r.withNode (.bare e.source (.line line))).withNode (.bare e.target (.line line))
  | (line, .node n) => r.withNode (r.declared line n)

end Roster

/-! ### Drafts -/

namespace Draft

variable {draft draft' : Draft}

/-- The part of a draft that its nodes depend on. -/
def roster (draft : Draft) : Roster := ⟨draft.document.nodes, draft.document.appearance⟩

theorem roster_ensureNode (draft : Draft) (n : Document.Node) :
    (draft.ensureNode n).roster = draft.roster.withNode n := by
  rw [ensureNode, Roster.withNode]
  split
  · next h => exact (if_pos (hasNode_iff.1 h)).symm
  · next h => exact (if_neg (mt hasNode_iff.2 h)).symm

theorem roster_set (draft : Draft) (directive : Directive) :
    (draft.set directive).roster = draft.roster.styled directive := by
  cases directive with
  | direction value => cases value <;> rfl
  | colorMode value => cases value <;> rfl
  | styleMode value => cases value <;> rfl
  | typeface value => cases value <;> rfl

theorem roster_relate {line : Nat} {kind : EntityKind} {id : Id}
    (h : draft.relate line kind id = .ok draft') : draft'.roster = draft.roster := by
  rw [relate] at h
  split at h
  · rw [← Except.ok.inj h]
    rfl
  · cases h

/-- What a statement does to the nodes. -/
theorem roster_apply {p : Nat × Statement} (h : draft.apply p = .ok draft') :
    draft'.roster = draft.roster.apply p := by
  obtain ⟨line, statement⟩ := p
  cases statement with
  | directive directive => exact (roster_relate h).trans (roster_set draft directive)
  | edge e =>
      rw [roster_relate h, Roster.apply, ← roster_ensureNode, ← roster_ensureNode]
      rfl
  | node n =>
      have hdeclared : (draft.ensureNode (draft.roster.declared line n)).roster =
          draft.roster.apply (line, .node n) := roster_ensureNode draft _
      rw [← hdeclared]
      simp only [apply, applyNode] at h
      split at h
      · rw [← Except.ok.inj h]
        rfl
      · exact roster_relate h

/-- What statements do to the nodes, one after the other. -/
theorem roster_foldlM {given : List (Nat × Statement)}
    (h : given.foldlM apply draft = .ok draft') :
    draft'.roster = given.foldl Roster.apply draft.roster := by
  induction given generalizing draft with
  | nil => rw [← Except.ok.inj h]; rfl
  | cons p rest ih =>
      rw [List.foldlM_cons] at h
      cases happly : draft.apply p with
      | error error => rw [happly] at h; cases h
      | ok next =>
          rw [happly] at h
          rw [ih h, roster_apply happly, List.foldl_cons]

end Draft

namespace Document

variable {text : String} {d : Document}

/-- The document of a text is that of the draft that its statements lead to. -/
theorem exists_foldlM_of_ofText (h : ofText text = .ok d) :
    ∃ draft, (statements text).foldlM Draft.apply
      { reserved := mentionedNames (statements text) } = .ok draft ∧ draft.document = d := by
  rw [ofText, ofStatements] at h
  cases hfold : (statements text).foldlM Draft.apply
      { reserved := mentionedNames (statements text) } with
  | error error => simp only [hfold] at h; cases h
  | ok draft =>
      simp only [hfold] at h
      have hdraft : draft.finish = .ok d := h
      rw [Draft.finish] at hdraft
      split at hdraft
      · cases hdraft
      · exact ⟨draft, rfl, Except.ok.inj hdraft⟩

/-- **The nodes of a document** are those of its statements. -/
theorem nodes_ofText (h : ofText text = .ok d) :
    d.nodes = ((statements text).foldl Roster.apply {}).nodes := by
  obtain ⟨draft, hfold, rfl⟩ := exists_foldlM_of_ofText h
  exact congrArg Roster.nodes (Draft.roster_foldlM hfold)

end Document

/-! ### Labels and names -/

namespace Roster

variable {r : Roster}

/-- A node that is labelled with its id keeps all nodes so. -/
theorem label_eq_id_withNode (h : ∀ n ∈ r.nodes, n.label = n.id) {n : Document.Node}
    (hn : n.label = n.id) : ∀ m ∈ (r.withNode n).nodes, m.label = m.id := by
  rw [withNode]
  split
  · exact h
  · intro m hm
    rcases List.mem_append.1 hm with hm | hm
    · exact h m hm
    · rw [List.mem_singleton.1 hm]
      exact hn

theorem nodes_styled (r : Roster) (directive : Directive) :
    (r.styled directive).nodes = r.nodes := by
  cases directive with
  | direction value => cases value <;> rfl
  | colorMode value => cases value <;> rfl
  | styleMode value => cases value <;> rfl
  | typeface value => cases value <;> rfl

theorem label_eq_id_apply (h : ∀ n ∈ r.nodes, n.label = n.id) (p : Nat × Statement) :
    ∀ n ∈ (r.apply p).nodes, n.label = n.id := by
  obtain ⟨line, statement⟩ := p
  cases statement with
  | directive directive =>
      rw [apply, nodes_styled]
      exact h
  | edge e => exact label_eq_id_withNode (label_eq_id_withNode h rfl) rfl
  | node n => exact label_eq_id_withNode h rfl

theorem label_eq_id_foldl (h : ∀ n ∈ r.nodes, n.label = n.id) (given : List (Nat × Statement)) :
    ∀ n ∈ (given.foldl apply r).nodes, n.label = n.id := by
  induction given generalizing r with
  | nil => exact h
  | cons p rest ih => exact ih (label_eq_id_apply h p)

end Roster

namespace Document

variable {text : String} {d : Document}

/-- A node is labelled with its id. -/
theorem label_eq_id (h : ofText text = .ok d) : ∀ n ∈ d.nodes, n.label = n.id := by
  rw [nodes_ofText h]
  exact Roster.label_eq_id_foldl (fun n hn => absurd hn List.not_mem_nil) _

theorem isName_of_mem_mentionedNames {name : Id} (h : name ∈ mentionedNames (statements text)) :
    IsName name := by
  obtain ⟨⟨number, statement⟩, hmem, hname⟩ := List.mem_flatMap.1 h
  obtain ⟨⟨number', line⟩, hline, hread⟩ := List.mem_filterMap.1 hmem
  obtain ⟨statement', hsays, heq⟩ := Option.map_eq_some_iff.1 hread
  obtain ⟨rfl, rfl⟩ := Prod.mk.inj heq
  exact Statement.isName_of_mem_names hsays (Text.notMem_of_mem_numberedLines hline) hname

/-- The id of a node is a name. -/
theorem isName_id (h : ofText text = .ok d) : ∀ n ∈ d.nodes, IsName n.id := by
  have hsound := isSound_of_ofText h
  intro n hn
  exact isName_of_mem_mentionedNames (hsound.named n hn)

end Document

/-! ### Further declarations -/

namespace Roster

/-- **Declarations add the nodes of new names**, if they do not declare a name twice. -/
theorem nodes_foldl_apply (given : List (Nat × NodeStatement)) {r : Roster}
    (hnd : (given.map fun p => p.2.name).Nodup) :
    ((given.map fun p => (p.1, Statement.node p.2)).foldl apply r).nodes =
      r.nodes ++ (given.filter fun p => p.2.name ∉ r.nodes.map Document.Node.id).map fun p =>
        r.declared p.1 p.2 := by
  induction given generalizing r with
  | nil => simp
  | cons p rest ih =>
      obtain ⟨hp, hrest⟩ := List.nodup_cons.1 hnd
      rw [List.map_cons, List.foldl_cons, List.filter_cons]
      by_cases hname : p.2.name ∈ r.nodes.map Document.Node.id
      · have hsame : r.apply (p.1, .node p.2) = r := if_pos hname
        rw [hsame, ih hrest, if_neg (by simpa using hname)]
      · have hadded : r.apply (p.1, .node p.2) =
            { r with nodes := r.nodes ++ [r.declared p.1 p.2] } := if_neg hname
        -- the names of the rest are new to both rosters or to none
        have hfilter : (rest.filter fun q =>
              q.2.name ∉ (r.nodes ++ [r.declared p.1 p.2]).map Document.Node.id) =
            rest.filter fun q => q.2.name ∉ r.nodes.map Document.Node.id := by
          refine List.filter_congr ?_
          intro q hq
          have hne : q.2.name ≠ p.2.name := fun heq => hp (List.mem_map.2 ⟨q, hq, heq⟩)
          simp [declared, hne]
        rw [hadded, ih hrest, hfilter, if_pos (by simpa using hname), List.map_cons,
          List.append_assoc, List.singleton_append]
        rfl

end Roster

end TextDiagram
