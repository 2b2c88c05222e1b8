/-
**Where edges end.**

There are four things that a call can do to the edges of a session: it keeps them, it leads one of
them elsewhere, it draws a further one, or it reads a text and takes the edges from there.  So an
edge that is there after some calls was there before, or was reconnected, read or drawn since.

All edges stand in one order, which can be told from their ids: first those of the text by their
lines, and then those that were drawn by their numbers.  The same edges therefore always stand in
the same order.

Main definitions:

* `TextDiagram.Session.EdgeStep` — what a call does to the edges of a session;
* `TextDiagram.Session.EndsFrom` — where the ends of an edge come from;
* `TextDiagram.Id.Precedes` — the order of edges.

Main results:

* `TextDiagram.Session.IsCoherent.edgeStep` — **what a call does to the edges**;
* `TextDiagram.Session.IsCoherent.endsFrom_afterAll?` — **where an edge comes from** after some
  calls;
* `TextDiagram.Session.Reachable.edges_inOrder` — every run leads to edges in order.
-/

import TextDiagram.Proofs.Document.Description
import TextDiagram.Proofs.Session.Coherence
import TextDiagram.Proofs.Session.Event

set_option relaxedAutoImplicit false
set_option autoImplicit false

namespace TextDiagram

open Diagram (Edge)

/-! ### The ends of edges -/

/-- The id of an edge is made of its ends and of its line. -/
theorem exists_id_eq_of_statedEdge? {names : List Id} {p : Nat × Statement} {e : Document.Edge}
    (h : statedEdge? names p = some e) :
    ∃ k, e.id = iterate Id.primed k (Id.edge e.source e.target p.1) := by
  obtain ⟨line, statement⟩ := p
  cases statement with
  | directive x => exact nomatch h
  | node n => exact nomatch h
  | edge stated =>
      obtain rfl := Option.some.inj h
      exact Id.exists_primedUntilFree_eq _ (Id.edge stated.source stated.target line)

namespace Document

variable {text : String} {document : Document}

/-- The edges of a document have ids that are made of their ends and of their lines. -/
theorem exists_id_eq (h : ofText text = .ok document) {e : Document.Edge}
    (he : e ∈ document.edges) :
    ∃ k line, e.id = iterate Id.primed k (Id.edge e.source e.target line) := by
  rw [(isDescribedBy_of_ofText h).edges] at he
  obtain ⟨p, -, hstated⟩ := List.mem_filterMap.1 he
  obtain ⟨k, hk⟩ := exists_id_eq_of_statedEdge? hstated
  exact ⟨k, p.1, hk⟩

end Document

namespace Session

variable {s s' : Session}

/-! ### What a call does to the edges -/

/-- What a call does to the edges of a session: it keeps them, leads one of them elsewhere, draws
one with a number that was not given yet, or takes them from a text. -/
inductive EdgeStep (s s' : Session) : Call → Prop
  | kept {call : Call} :
      s'.diagram.edges = s.diagram.edges → s.counter.next ≤ s'.counter.next → EdgeStep s s' call
  | reconnected {id source target : Id} :
      s'.diagram.edges = s.diagram.edges.modify id (fun e => { e with source, target }) →
      s'.counter = s.counter →
      EdgeStep s s' (.diagramChanged (.reconnected id source target) .diagram)
  | drawn {call : Call} {e : Edge} {n : Nat} :
      s'.diagram.edges.entries =
        s.diagram.edges.entries ++ [(Id.drawnEdge e.source e.target n, e)] →
      s.counter.next ≤ n → n < s'.counter.next → EdgeStep s s' call
  | read {text : String} {document : Document} :
      Document.ofText text = .ok document →
      s'.diagram.edges.entries = document.edges.map (fun e => (e.id, Edge.ofDocument e)) →
      s'.counter = s.counter → EdgeStep s s' (.textChanged text)

/-- The counter never goes back. -/
theorem EdgeStep.counter_le {call : Call} (h : EdgeStep s s' call) :
    s.counter.next ≤ s'.counter.next := by
  cases h with
  | kept _ hle => exact hle
  | reconnected _ hcounter => exact Nat.le_of_eq (congrArg IdCounter.next hcounter.symm)
  | drawn _ hle hlt => exact Nat.le_trans hle (Nat.le_of_lt hlt)
  | read _ _ hcounter => exact Nat.le_of_eq (congrArg IdCounter.next hcounter.symm)

/-- A drawing draws no edge, or one with a number that was not given yet. -/
theorem DrawsTo.edgeStep {counter : IdCounter} {d : Diagram Float32} {line : String}
    (h : s.DrawsTo counter d line) (hdiagram : s'.diagram = d) (hcounter : s'.counter = counter)
    (call : Call) : EdgeStep s s' call := by
  cases h with
  | addition x n hkind hposition horigin hlabel =>
      have hle : s.counter.next ≤ (s.allotted x).1.number :=
        IdCounter.next_le_number _ _ (Id.numbered_injective x.kind.stem)
      refine .kept (by rw [hdiagram]; rfl) ?_
      rw [hcounter]
      exact Nat.le_succ_of_le hle
  | @arrow source target a b _ ha hb hd =>
      let e : Edge := { source, target, kind := .arrow, origin := .diagram }
      have hle : s.counter.next ≤ (s.allottedArrow source target).1.number :=
        IdCounter.next_le_number _ _ (Id.drawnEdge_injective source target)
      have hnew : (s.allottedArrow source target).1.id ∉ s.diagram.ids :=
        IdCounter.allocate_id_notMem (Id.drawnEdge_injective source target)
      rw [Diagram.mem_ids_iff, not_or] at hnew
      obtain ⟨-, hd⟩ := Option.ite_none_right_eq_some.1 hd
      refine .drawn (e := e) (n := (s.allottedArrow source target).1.number) ?_ hle ?_
      · rw [hdiagram, ← Option.some.inj hd]
        exact Catalog.entries_insert_of_notMem hnew.2 e
      · rw [hcounter]
        exact Nat.lt_succ_self _

theorem edgeStep_onDiagram (hphase : s.phase = .idle) (event : DiagramEvent)
    (origin : Provenance) :
    EdgeStep s (s.onDiagram event origin).2 (.diagramChanged event origin) := by
  rcases onDiagram_cases hphase event origin with
    ⟨_, heq, -⟩ | ⟨d, _, _, hedits, heq, -⟩ | ⟨_, d, _, _, _, _, hdraws, -, -, heq⟩
  · rw [heq]
    exact .kept rfl (Nat.le_refl _)
  · cases hedits with
    | moved hd =>
        obtain ⟨-, hd⟩ := Option.ite_none_right_eq_some.1 hd
        rw [heq, ← Option.some.inj hd]
        exact .kept rfl (Nat.le_refl _)
    | measured hd =>
        obtain ⟨-, hd⟩ := Option.ite_none_right_eq_some.1 hd
        rw [heq, ← Option.some.inj hd]
        exact .kept rfl (Nat.le_refl _)
    | @reconnected id source target _ hd =>
        obtain ⟨-, hd⟩ := Option.ite_none_right_eq_some.1 hd
        cases origin with
        | text =>
            -- an event that follows from a change of the text reconnects nothing
            have hignored : s.onDiagram (.reconnected id source target) .text = (.ignored, s) :=
              if_neg (not_not.2 hphase)
            rw [hignored] at heq
            exact nomatch congrArg (fun result => result.1.origin) heq
        | diagram =>
            rw [heq, ← Option.some.inj hd]
            exact .reconnected rfl rfl
  · rw [heq]
    exact hdraws.edgeStep rfl rfl _

theorem edgeStep_onText? (hphase : s.phase = .idle) {text : String} {report : Report}
    (hs : s.onText? text = some (report, s')) : EdgeStep s s' (.textChanged text) := by
  rcases onText?_cases hphase hs with ⟨-, -, rfl⟩ | ⟨-, document, d, hdocument, hd, -, rfl⟩
  · exact .kept rfl (Nat.le_refl _)
  · refine .read hdocument ?_ rfl
    rw [← Diagram.entries_edges_ofDocument s.configuration.style
      (Document.isSound_of_ofText hdocument)]
    -- the places of the nodes play no part here
    rcases placedAnew?_cases hd with rfl | ⟨positions, rfl⟩
    · rfl
    · rfl

theorem edgeStep_completeLayout (ticket : Ticket) (result : ServiceResult) :
    EdgeStep s (s.completeLayout ticket result).2 (.layoutCompleted ticket result) := by
  rcases s.completeLayout_cases ticket result with heq | ⟨positions, heq⟩
  · rw [heq]
    exact .kept rfl (Nat.le_refl _)
  · rw [heq]
    exact .kept rfl (Nat.le_refl _)

/-- **What a call does to the edges.** -/
theorem IsCoherent.edgeStep (h : s.IsCoherent) {call : Call} (hs : s.after? call = some s') :
    EdgeStep s s' call := by
  cases call with
  | textChanged text =>
      obtain ⟨⟨report, s₁⟩, hs₁, rfl⟩ := Option.map_eq_some_iff.1 hs
      exact edgeStep_onText? h.idle hs₁
  | diagramChanged event origin =>
      obtain rfl := Option.some.inj hs
      exact edgeStep_onDiagram h.idle event origin
  | cursorMoved line =>
      obtain rfl := Option.some.inj hs
      exact .kept rfl (Nat.le_refl _)
  | layoutRequested =>
      obtain rfl := Option.some.inj hs
      exact .kept rfl (Nat.le_refl _)
  | layoutCompleted ticket result =>
      obtain rfl := Option.some.inj hs
      exact edgeStep_completeLayout ticket result

/-! ### Where an edge comes from -/

/-- Whether an edge is reconnected by some calls. -/
def Reconnects (calls : List Call) (id : Id) : Prop :=
  ∃ source target, .diagramChanged (.reconnected id source target) .diagram ∈ calls

/-- Whether the text is changed by some calls. -/
def ChangesText (calls : List Call) : Prop := ∃ text, .textChanged text ∈ calls

theorem Reconnects.mono {calls calls' : List Call} {id : Id} (h : Reconnects calls id)
    (hsub : calls ⊆ calls') : Reconnects calls' id := by
  obtain ⟨source, target, hmem⟩ := h
  exact ⟨source, target, hsub hmem⟩

theorem ChangesText.mono {calls calls' : List Call} (h : ChangesText calls)
    (hsub : calls ⊆ calls') : ChangesText calls' := by
  obtain ⟨text, hmem⟩ := h
  exact ⟨text, hsub hmem⟩

/-- Where the ends of an edge come from, after calls to a session: the edge had them before, it was
reconnected, it was read from a text, or it was drawn. -/
inductive EndsFrom (s : Session) (calls : List Call) (id : Id) (ends : Id × Id) : Prop
  | kept : s.diagram.ends? id = some ends → EndsFrom s calls id ends
  | reconnected : Reconnects calls id → EndsFrom s calls id ends
  | read {k line : Nat} : ChangesText calls →
      id = iterate Id.primed k (Id.edge ends.1 ends.2 line) → EndsFrom s calls id ends
  | drawn {n : Nat} : s.counter.next ≤ n → id = Id.drawnEdge ends.1 ends.2 n →
      EndsFrom s calls id ends

variable {id : Id} {ends : Id × Id}

/-- Where an edge comes from after one call. -/
theorem EdgeStep.endsFrom {call : Call} (h : EdgeStep s s' call)
    (hends : s'.diagram.ends? id = some ends) : EndsFrom s [call] id ends := by
  cases h with
  | kept hedges =>
      rw [Diagram.ends?, hedges] at hends
      exact .kept hends
  | @reconnected other source target hedges =>
      by_cases heq : id = other
      · subst heq
        exact .reconnected ⟨source, target, List.mem_singleton_self _⟩
      · rw [Diagram.ends?, hedges, Catalog.modify, Catalog.get?_map] at hends
        simp only [if_neg heq, Option.map_id_fun'] at hends
        exact .kept hends
  | @drawn _ e n hentries hle hlt =>
      obtain ⟨e', hmem, rfl⟩ := Diagram.ends?_eq_some_iff.1 hends
      rw [hentries] at hmem
      rcases List.mem_append.1 hmem with hmem | hmem
      · exact .kept (Diagram.ends?_eq_some_iff.2 ⟨e', hmem, rfl⟩)
      · obtain ⟨rfl, rfl⟩ := Prod.mk.inj (List.mem_singleton.1 hmem)
        exact .drawn hle rfl
  | @read text document hdocument hentries =>
      obtain ⟨e', hmem, rfl⟩ := Diagram.ends?_eq_some_iff.1 hends
      rw [hentries] at hmem
      obtain ⟨e, he, heq⟩ := List.mem_map.1 hmem
      obtain ⟨rfl, rfl⟩ := Prod.mk.inj heq
      obtain ⟨k, line, hid⟩ := Document.exists_id_eq hdocument he
      exact .read ⟨text, List.mem_singleton_self _⟩ hid

theorem EndsFrom.mono {calls calls' : List Call} (h : EndsFrom s calls id ends)
    (hsub : calls ⊆ calls') : EndsFrom s calls' id ends := by
  cases h with
  | kept hkept => exact .kept hkept
  | reconnected hreconnected => exact .reconnected (hreconnected.mono hsub)
  | read htext hid => exact .read (htext.mono hsub) hid
  | drawn hle hid => exact .drawn hle hid

/-- **Where an edge comes from** after some calls. -/
theorem IsCoherent.endsFrom_afterAll? (h : s.IsCoherent) {calls : List Call}
    (hs : s.afterAll? calls = some s') (hends : s'.diagram.ends? id = some ends) :
    EndsFrom s calls id ends := by
  induction calls generalizing s with
  | nil =>
      obtain rfl := Option.some.inj hs
      exact .kept hends
  | cons call calls ih =>
      obtain ⟨s₁, hcall, hs⟩ := Option.bind_eq_some_iff.1 hs
      have hstep := h.edgeStep hcall
      cases ih (h.after hcall) hs with
      | kept hkept =>
          -- the edge had its ends after the first call, so that one tells where they come from
          exact (hstep.endsFrom hkept).mono (by simp)
      | reconnected hreconnected =>
          exact .reconnected (hreconnected.mono (List.subset_cons_self _ _))
      | read htext hid => exact .read (htext.mono (List.subset_cons_self _ _)) hid
      | drawn hle hid => exact .drawn (Nat.le_trans hstep.counter_le hle) hid

end Session

/-! ### The order of edges -/

/-- The order of edges: those of a text come first, by their lines, and then those that were drawn,
by their numbers. -/
def Id.Precedes (a b : Id) : Prop :=
  a.mark = some '_' ∧ b.mark = some '-' ∨ a.mark = b.mark ∧ a.endNumber < b.endNumber

theorem Id.Precedes.asymm {a b : Id} (h : a.Precedes b) : ¬ b.Precedes a := by
  rcases h with ⟨ha, hb⟩ | ⟨hmark, hlt⟩
  · rintro (⟨hb', -⟩ | ⟨hmark, -⟩)
    · exact absurd (hb.symm.trans hb') (by decide)
    · exact absurd (hb.symm.trans (hmark.trans ha)) (by decide)
  · rintro (⟨hb, ha⟩ | ⟨-, hlt'⟩)
    · exact absurd (ha.symm.trans (hmark.trans hb)) (by decide)
    · exact Nat.lt_asymm hlt hlt'

/-- The edges of a document are in order. -/
theorem Document.pairwise_precedes {text : String} {document : Document}
    (h : ofText text = .ok document) : (document.edges.map Edge.id).Pairwise Id.Precedes := by
  rw [(isDescribedBy_of_ofText h).edges, List.pairwise_map, List.pairwise_filterMap]
  refine (pairwise_statements text).imp ?_
  intro p q hlt e he e' he'
  obtain ⟨k, hk⟩ := exists_id_eq_of_statedEdge? he
  obtain ⟨k', hk'⟩ := exists_id_eq_of_statedEdge? he'
  rw [hk, hk']
  exact Or.inr ⟨by simp, by simpa using hlt⟩

namespace Session

variable {s s' : Session}

/-- The edges of a session are in order, and those that were drawn have numbers that were given. -/
structure EdgesInOrder (s : Session) : Prop where
  /-- The edges are in order. -/
  ordered : s.diagram.edges.ids.Pairwise Id.Precedes
  /-- Edges are read or drawn, and then their numbers were given. -/
  known : ∀ id ∈ s.diagram.edges.ids,
    id.mark = some '_' ∨ id.mark = some '-' ∧ id.endNumber < s.counter.next

namespace EdgesInOrder

theorem of_ids_eq (h : s.EdgesInOrder) (hids : s'.diagram.edges.ids = s.diagram.edges.ids)
    (hle : s.counter.next ≤ s'.counter.next) : s'.EdgesInOrder where
  ordered := hids ▸ h.ordered
  known := by
    intro id hid
    refine (h.known id (hids ▸ hid)).imp_right ?_
    rintro ⟨hmark, hlt⟩
    exact ⟨hmark, Nat.lt_of_lt_of_le hlt hle⟩

/-- One call keeps the edges in order. -/
theorem of_edgeStep (h : s.EdgesInOrder) {call : Call} (hstep : EdgeStep s s' call) :
    s'.EdgesInOrder := by
  have hle := hstep.counter_le
  cases hstep with
  | kept hedges => exact h.of_ids_eq (congrArg Catalog.ids hedges) hle
  | reconnected hedges =>
      exact h.of_ids_eq ((congrArg Catalog.ids hedges).trans (Catalog.ids_modify _ _ _)) hle
  | @drawn _ e n hentries hnumber hlt =>
      have hids : s'.diagram.edges.ids =
          s.diagram.edges.ids ++ [Id.drawnEdge e.source e.target n] := by
        rw [Catalog.ids, hentries, List.map_append]
        rfl
      refine ⟨?_, ?_⟩
      · rw [hids, List.pairwise_append]
        refine ⟨h.ordered, List.pairwise_singleton _ _, ?_⟩
        intro id hid new hnew
        rw [List.mem_singleton.1 hnew]
        rcases h.known id hid with hmark | ⟨hmark, hgiven⟩
        · exact Or.inl ⟨hmark, by simp⟩
        · exact Or.inr ⟨by simp [hmark], by simpa using Nat.lt_of_lt_of_le hgiven hnumber⟩
      · intro id hid
        rw [hids] at hid
        rcases List.mem_append.1 hid with hid | hid
        · refine (h.known id hid).imp_right ?_
          rintro ⟨hmark, hgiven⟩
          exact ⟨hmark, Nat.lt_of_lt_of_le hgiven hle⟩
        · rw [List.mem_singleton.1 hid]
          exact Or.inr ⟨by simp, by simpa using hlt⟩
  | @read text document hdocument hentries =>
      have hids : s'.diagram.edges.ids = document.edges.map Document.Edge.id := by
        rw [Catalog.ids, hentries, List.map_map]
        rfl
      refine ⟨hids ▸ Document.pairwise_precedes hdocument, ?_⟩
      intro id hid
      rw [hids] at hid
      obtain ⟨e, he, rfl⟩ := List.mem_map.1 hid
      obtain ⟨k, line, hk⟩ := Document.exists_id_eq hdocument he
      exact Or.inl (by simp [hk])

/-- The same edges stand in the same order. -/
theorem ids_eq (h : s.EdgesInOrder) (h' : s'.EdgesInOrder)
    (hsame : ∀ id, id ∈ s.diagram.edges.ids ↔ id ∈ s'.diagram.edges.ids) :
    s.diagram.edges.ids = s'.diagram.edges.ids := by
  have hperm := (List.perm_ext_iff_of_nodup s.diagram.edges.nodup_ids
    s'.diagram.edges.nodup_ids).2 hsame
  refine hperm.eq_of_pairwise ?_ h.ordered h'.ordered
  intro a b _ _ hab hba
  exact absurd hba hab.asymm

end EdgesInOrder

/-- **Every run leads to edges in order.** -/
theorem Reachable.edges_inOrder {configuration : Configuration} (h : Reachable configuration s) :
    s.EdgesInOrder := by
  induction h with
  | start => exact ⟨List.Pairwise.nil, fun _ h => absurd h List.not_mem_nil⟩
  | call call hreach hs ih => exact ih.of_edgeStep (hreach.coherent.edgeStep hs)

end Session

end TextDiagram
