/-
**Every text makes a document, in which an id names one thing.**

Reading never fails: the statements of a text stand on later and later lines, so each of them can be
applied to the draft of those before it.  In the document that comes of it no id is used twice,
whatever the names of the text look like: the names are reserved before the first id is generated,
and generated ids carry the numbers of their lines.

Main definitions:

* `TextDiagram.Document.directiveIds` — the ids of the directives of a document.

Main results:

* `TextDiagram.Document.exists_isSound`, `TextDiagram.Document.isSound_of_ofText` — what can be said
  of the document of a text;
* `TextDiagram.Document.ofText_isOk` — **every text makes a document**;
* `TextDiagram.Document.ofText_unambiguous` — **the ids of a document are distinct**, and its source
  map can be asked in both directions, also by an id alone.
-/

import TextDiagram.Proofs.Document.Draft

set_option relaxedAutoImplicit false
set_option autoImplicit false

namespace TextDiagram

/-! ### The statements of a text -/

/-- The lines of a text are numbered in order. -/
theorem Text.pairwise_numberedLines (text : String) :
    (Text.numberedLines text).Pairwise fun a b => a.1 < b.1 := by
  have hrange : (Text.numberedLines text).map Prod.fst =
      List.range' 0 (Text.lines text).length := by
    rw [Text.numberedLines, List.map_map]
    exact List.zipIdx_map_snd ..
  have hlt : ((Text.numberedLines text).map Prod.fst).Pairwise (· < ·) := by
    rw [hrange]
    exact List.pairwise_lt_range' ..
  exact List.pairwise_map.1 hlt

/-- The statements of a text stand on later and later lines. -/
theorem pairwise_statements (text : String) : (statements text).Pairwise fun a b => a.1 < b.1 := by
  rw [statements, List.pairwise_filterMap]
  refine (Text.pairwise_numberedLines text).imp ?_
  intro a b hab p hp q hq
  obtain ⟨_, -, rfl⟩ := Option.map_eq_some_iff.1 hp
  obtain ⟨_, -, rfl⟩ := Option.map_eq_some_iff.1 hq
  exact hab

theorem mem_mentionedNames {given : List (Nat × Statement)} {p : Nat × Statement} {id : Id}
    (hp : p ∈ given) (hid : id ∈ p.2.names) : id ∈ mentionedNames given :=
  List.mem_flatMap.2 ⟨p, hp, hid⟩

namespace Document

/-! ### Reading never fails -/

/-- A document whose edges join nodes passes the last check. -/
theorem finish_eq_ok {draft : Draft} {names : List Id} (h : draft.document.IsSound names) :
    draft.finish = .ok draft.document := by
  have hnone : draft.danglingEnd? = none := by
    rw [Draft.danglingEnd?, List.findSome?_eq_none_iff]
    intro e he
    obtain ⟨hsource, htarget⟩ := h.joined e he
    rw [List.findSome?_eq_none_iff]
    intro endpoint hend
    have hmem : endpoint ∈ draft.document.nodes.map Node.id := by
      rcases List.mem_cons.1 hend with rfl | hend
      · exact hsource
      · rwa [List.mem_singleton.1 hend]
    rw [if_pos (Draft.hasNode_iff.2 hmem)]
  rw [Draft.finish, hnone]

/-- The statements of later and later lines make a document, and a sound one. -/
theorem exists_ofStatements {given : List (Nat × Statement)}
    (hlines : given.Pairwise fun a b => a.1 < b.1) :
    ∃ d, ofStatements given = .ok d ∧ d.IsSound (mentionedNames given) := by
  have hstart : Draft.IsSound (mentionedNames given) 0 { reserved := mentionedNames given } :=
    ⟨rfl, IsSound.empty _, by simp⟩
  obtain ⟨draft, hfold, h⟩ := Draft.IsSound.exists_foldlM hlines
    (fun p hp id hid => mem_mentionedNames hp hid) hstart (fun _ _ => Nat.zero_le _)
  refine ⟨draft.document, ?_, h⟩
  rw [ofStatements]
  simp only [hfold]
  exact finish_eq_ok h

/-- Every text makes a document, and a sound one. -/
theorem exists_isSound (text : String) :
    ∃ d, ofText text = .ok d ∧ d.IsSound (mentionedNames (statements text)) :=
  exists_ofStatements (pairwise_statements text)

/-- The document of a text is sound. -/
theorem isSound_of_ofText {text : String} {d : Document} (h : ofText text = .ok d) :
    d.IsSound (mentionedNames (statements text)) := by
  obtain ⟨d', hd', hsound⟩ := exists_isSound text
  rwa [Except.ok.inj (h.symm.trans hd')]

/-- **Every text makes a document**: no relation is ever in conflict with an earlier one, and no
edge dangles. -/
theorem ofText_isOk (text : String) : ∃ d, ofText text = .ok d := by
  obtain ⟨d, hd, -⟩ := exists_isSound text
  exact ⟨d, hd⟩

/-! ### An id names one thing -/

/-- The ids of the directives of a document, by increasing line. -/
def directiveIds (d : Document) : List Id :=
  d.sourceMap.entries.filterMap fun (_, e) =>
    if e.kind = .direction ∨ e.kind = .style then some e.id else none

namespace IsSound

variable {names : List Id} {d : Document}

/-- Nodes are not named like anything that is generated. -/
theorem node_ne_generated (h : d.IsSound names) {line : Nat} {e : Entity}
    (he : (line, e) ∈ d.sourceMap.entries) (hkind : e.kind ≠ .node) :
    e.id ∉ d.nodes.map Node.id := by
  intro hmem
  obtain ⟨n, hn, hid⟩ := List.mem_map.1 hmem
  exact (h.entry_generated line e he hkind).2 (hid ▸ h.named n hn)

/-- Related entities with the same id are the same. -/
theorem entity_eq_of_id_eq (h : d.IsSound names) {line line' : Nat} {e e' : Entity}
    (he : (line, e) ∈ d.sourceMap.entries) (he' : (line', e') ∈ d.sourceMap.entries)
    (hid : e.id = e'.id) : e = e' := by
  by_cases hkind : e.kind = .node
  · by_cases hkind' : e'.kind = .node
    · obtain ⟨kind, id⟩ := e
      obtain ⟨kind', id'⟩ := e'
      simp_all
    · obtain ⟨kind, id⟩ := e
      subst hkind
      exact absurd (hid ▸ h.entry_node line id he) (h.node_ne_generated he' hkind')
  · by_cases hkind' : e'.kind = .node
    · obtain ⟨kind', id'⟩ := e'
      subst hkind'
      exact absurd (hid ▸ h.entry_node line' id' he') (h.node_ne_generated he hkind)
    · -- both ids are generated, so the lines can be read off them
      obtain ⟨hnumber, -⟩ := h.entry_generated line e he hkind
      obtain ⟨hnumber', -⟩ := h.entry_generated line' e' he' hkind'
      have hline : line = line' := by rw [← hnumber, ← hnumber', hid]
      subst hline
      exact h.bijection.entity_eq he he'

theorem mem_directiveIds {id : Id} : id ∈ d.directiveIds ↔
    ∃ line kind, (line, ⟨kind, id⟩) ∈ d.sourceMap.entries ∧
      (kind = .direction ∨ kind = .style) := by
  rw [directiveIds, List.mem_filterMap]
  constructor
  · rintro ⟨⟨line, kind, id'⟩, hmem, hsome⟩
    obtain ⟨hkind, hid⟩ := Option.ite_none_right_eq_some.1 hsome
    obtain rfl := Option.some.inj hid
    exact ⟨line, kind, hmem, hkind⟩
  · rintro ⟨line, kind, hmem, hkind⟩
    exact ⟨(line, ⟨kind, id⟩), hmem, if_pos hkind⟩

theorem nodup_directiveIds (h : d.IsSound names) : d.directiveIds.Nodup := by
  rw [directiveIds, List.Nodup, List.pairwise_filterMap]
  refine h.bijection.lines.imp_of_mem ?_
  rintro ⟨line, e⟩ ⟨line', e'⟩ he he' hlt id hid id' hid' rfl
  obtain ⟨hkind, hid⟩ := Option.ite_none_right_eq_some.1 hid
  obtain ⟨hkind', hid'⟩ := Option.ite_none_right_eq_some.1 hid'
  have heq := h.entity_eq_of_id_eq he he' ((Option.some.inj hid).trans (Option.some.inj hid').symm)
  have hline := h.bijection.line_eq he (heq ▸ he')
  simp only at hlt
  omega

/-- No id is used twice, for nodes, edges and directives together. -/
theorem nodup_ids (h : d.IsSound names) :
    (d.nodes.map Node.id ++ d.edges.map Edge.id ++ d.directiveIds).Nodup := by
  rw [List.nodup_append, List.nodup_append]
  refine ⟨⟨h.nodes_distinct, h.edges_distinct, ?_⟩, h.nodup_directiveIds, ?_⟩
  · rintro id hnode id' hedge rfl
    obtain ⟨e, he, rfl⟩ := List.mem_map.1 hedge
    obtain ⟨line, -, hentry⟩ := h.edges_onLine e he
    exact h.node_ne_generated hentry (by simp) hnode
  · rintro id hid id' hdirective rfl
    obtain ⟨line, kind, hmem, hkind⟩ := mem_directiveIds.1 hdirective
    rcases List.mem_append.1 hid with hnode | hedge
    · exact h.node_ne_generated hmem (by rcases hkind with rfl | rfl <;> simp) hnode
    · obtain ⟨e, he, heid⟩ := List.mem_map.1 hedge
      obtain ⟨line', -, hentry⟩ := h.edges_onLine e he
      have heq := h.entity_eq_of_id_eq hentry hmem heid
      simp only [Entity.mk.injEq] at heq
      rcases hkind with rfl | rfl <;> simp at heq

end IsSound

/-- **The ids of a document are distinct**, those of nodes, edges and directives together.  Its
source map relates lines and entities one to one, an entity is found by its id alone, and every edge
is related to the line that it comes from. -/
theorem ofText_unambiguous (text : String) :
    ∃ d, ofText text = .ok d ∧
      (d.nodes.map Node.id ++ d.edges.map Edge.id ++ d.directiveIds).Nodup ∧
      (∀ line e, d.sourceMap.entityAt? line = some e ↔ d.sourceMap.lineOf? e = some line) ∧
      (∀ line e, d.sourceMap.entityAt? line = some e →
        d.sourceMap.lineOfId? e.id = some line) ∧
      ∀ e ∈ d.edges, ∃ line, e.origin = .line line ∧
        d.sourceMap.lineOf? ⟨.edge, e.id⟩ = some line := by
  obtain ⟨d, hd, h⟩ := exists_isSound text
  refine ⟨d, hd, h.nodup_ids, ?_, ?_, ?_⟩
  · intro line e
    rw [h.bijection.entityAt?_eq_some_iff, h.bijection.lineOf?_eq_some_iff]
  · intro line e he
    have hentry := h.bijection.entityAt?_eq_some_iff.1 he
    refine SourceMap.lineOfId?_eq_some (h.bijection.lineOf?_eq_some_iff.2 hentry) ?_
    intro l o ho hid
    exact h.entity_eq_of_id_eq ho hentry hid
  · intro e he
    obtain ⟨line, horigin, hentry⟩ := h.edges_onLine e he
    exact ⟨line, horigin, h.bijection.lineOf?_eq_some_iff.2 hentry⟩

end Document

end TextDiagram
