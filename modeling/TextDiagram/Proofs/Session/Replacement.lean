/-
**What a change of the text keeps and forgets.**

A change of the text makes the diagram anew.  If the new text has the nodes and the edges of the
diagram that is shown, then the nodes keep their places and their handles, whether they were read
or drawn, and everything else about them is taken from the text.  If it has others, then all that
was shown is forgotten: the diagram is the one that a new session shows for the text, whatever has
happened before, and a layout is asked for exactly if the engine is the layered one.

The two runs that are compared may also fail to return.  They do so together, where the grid has no
place for a node.

When the same text comes once more, the diagram of the text has the nodes and edges that are shown,
however it was placed, and it takes over their places and handles: nothing changes.

Main definitions:

* `TextDiagram.Document.HasIdsOf` — a document has the nodes and edges of a diagram;
* `TextDiagram.Diagram.Node.geometry` — where a node sits and where edges take hold of it;
* `TextDiagram.Diagram.IsRedrawn` — a diagram is a new one with the geometry of the one before;
* `TextDiagram.Session.shownFor?` — the diagram shown for a text.

Main results:

* `TextDiagram.Diagram.identity_ofDocument_eq_iff` — when a document has the identity of a diagram;
* `TextDiagram.Session.placedAnew?_of_identity_ne` — **what other ids forget**;
* `TextDiagram.Session.Reachable.keeps_or_forgets` — what a change of the text keeps and forgets;
* `TextDiagram.Session.inheriting_of_placedAnew?` — a placed diagram hands down its own places;
* `TextDiagram.Session.Reachable.onText?_again` — **the same text once more** changes nothing.
-/

import TextDiagram.Proofs.Session.Coherence
import TextDiagram.Proofs.Session.Compilation
import TextDiagram.Proofs.Session.Event

set_option relaxedAutoImplicit false
set_option autoImplicit false

namespace TextDiagram

open Diagram (Node)

/-! ### Ids of documents -/

/-- A document has the nodes and the edges of a diagram, in whatever order. -/
structure Document.HasIdsOf (document : Document) (d : Diagram Float32) : Prop where
  /-- The nodes are the same. -/
  nodes : ∀ id, id ∈ document.nodes.map Document.Node.id ↔ id ∈ d.nodes.ids
  /-- The edges are the same. -/
  edges : ∀ id, id ∈ document.edges.map Document.Edge.id ↔ id ∈ d.edges.ids

namespace Diagram

variable {d fresh previous : Diagram Float32}

/-- A document has the identity of a diagram exactly if it has the nodes and edges of it. -/
theorem identity_ofDocument_eq_iff {names : List Id} {document : Document}
    (h : document.IsSound names) (style : Style) :
    (ofDocument style document).identity = d.identity ↔ document.HasIdsOf d := by
  have hnodes := ids_nodes_ofDocument style h
  have hedges := ids_edges_ofDocument style h
  rw [identity_eq_iff]
  constructor
  · intro hids
    exact ⟨hnodes ▸ hids.nodes, hedges ▸ hids.edges⟩
  · intro hids
    exact ⟨hnodes.symm ▸ hids.nodes, hedges.symm ▸ hids.edges⟩

/-! ### Geometry -/

/-- Where a node sits and where edges take hold of it. -/
def Node.geometry (n : Node Float32) : Point Float32 × List (Handle Float32) :=
  (n.position, n.handles)

/-- A diagram is a new one with the geometry of the one that was shown before. -/
structure IsRedrawn (d fresh previous : Diagram Float32) : Prop where
  /-- Every node that was shown keeps its geometry, and there are no other nodes. -/
  geometry : ∀ id, (d.nodes.get? id).map Node.geometry = (previous.nodes.get? id).map Node.geometry
  /-- A node is the new one, but for its geometry. -/
  node : ∀ id n, d.nodes.get? id = some n → ∃ new, fresh.nodes.get? id = some new ∧
    n = { new with position := n.position, handles := n.handles }
  /-- The edges are the new ones. -/
  edges : d.edges = fresh.edges
  /-- The routes are those between the nodes where they sit. -/
  routed : d.routes = TextDiagram.routes d.nodes d.edges

/-- A node of the same id as one before has its geometry. -/
theorem get?_inheriting (fresh previous : Diagram Float32) (id : Id) :
    (fresh.inheriting previous).nodes.get? id = (fresh.nodes.get? id).map fun n =>
      match previous.nodes.get? id with
      | some old => { n with position := old.position, handles := old.handles }
      | none => n :=
  Catalog.get?_map fresh.nodes _ id

/-- Where there are the same nodes, all of them inherit their geometry. -/
theorem isRedrawn_inheriting (hids : ∀ id, id ∈ fresh.nodes.ids ↔ id ∈ previous.nodes.ids) :
    (fresh.inheriting previous).IsRedrawn fresh previous where
  geometry := by
    intro id
    rw [get?_inheriting]
    cases hold : previous.nodes.get? id with
    | none =>
        have hnone : fresh.nodes.get? id = none :=
          Catalog.get?_eq_none_iff.2 (mt (hids id).1 (Catalog.get?_eq_none_iff.1 hold))
        rw [hnone]
        rfl
    | some old =>
        obtain ⟨n, hn⟩ := Catalog.mem_ids_iff.1 ((hids id).2 (Catalog.mem_ids_iff.2 ⟨old, hold⟩))
        rw [hn]
        rfl
  node := by
    intro id n hn
    rw [get?_inheriting] at hn
    obtain ⟨new, hnew, rfl⟩ := Option.map_eq_some_iff.1 hn
    refine ⟨new, hnew, ?_⟩
    cases previous.nodes.get? id with
    | none => rfl
    | some old => rfl
  edges := rfl
  routed := rfl

/-- A diagram whose nodes were given other geometry, and nothing else, is what a new one makes of
its geometry. -/
theorem inheriting_rerouted_map (fresh : Diagram Float32) {f : Id → Node Float32 → Node Float32}
    (hf : ∀ id n, f id n = { n with position := (f id n).position, handles := (f id n).handles }) :
    fresh.inheriting (rerouted { fresh with nodes := fresh.nodes.map f }) =
      rerouted { fresh with nodes := fresh.nodes.map f } := by
  rw [inheriting]
  congr 2
  refine Catalog.map_congr ?_
  intro id n hmem
  have hold : (fresh.nodes.map f).get? id = some (f id n) := by
    rw [Catalog.get?_map, Catalog.get?_eq_some_iff.2 hmem, Option.map_some]
  rw [rerouted_nodes, hold]
  exact (hf id n).symm

end Diagram

/-- A report asks for a layout. -/
def Report.AsksForLayout (report : Report) : Prop :=
  ∃ identity, Effect.layoutRequested identity ∈ report.effects

namespace Session

variable {s s' : Session} {c : Configuration} {text : String} {document : Document}

/-! ### Configurations -/

/-- No call changes the configuration. -/
theorem configuration_after? (hphase : s.phase = .idle) {call : Call}
    (hs : s.after? call = some s') : s'.configuration = s.configuration := by
  cases call with
  | textChanged text =>
      obtain ⟨⟨report, s₁⟩, hs₁, rfl⟩ := Option.map_eq_some_iff.1 hs
      rcases onText?_cases hphase hs₁ with ⟨-, -, rfl⟩ | ⟨-, _, _, -, -, -, rfl⟩
      · rfl
      · rfl
  | diagramChanged event origin =>
      obtain rfl := Option.some.inj hs
      rcases onDiagram_cases hphase event origin with
        ⟨_, heq, -⟩ | ⟨_, _, _, -, heq, -⟩ | ⟨_, _, _, _, _, _, -, -, -, heq⟩
      · rw [heq]
      · rw [heq]
      · rw [heq]
  | cursorMoved line =>
      obtain rfl := Option.some.inj hs
      rfl
  | layoutRequested =>
      obtain rfl := Option.some.inj hs
      rfl
  | layoutCompleted ticket result =>
      obtain rfl := Option.some.inj hs
      rcases s.completeLayout_cases ticket result with heq | ⟨positions, heq⟩
      · rw [heq]
      · rw [heq]

/-- A run keeps the configuration that it starts with. -/
theorem Reachable.configuration_eq (h : Reachable c s) : s.configuration = c := by
  induction h with
  | start => rfl
  | call call hreach hcall ih => exact (configuration_after? hreach.coherent.idle hcall).trans ih

/-! ### Diagrams for a text -/

/-- The diagram shown after a change of the text, if the change returns. -/
def shownFor? (s : Session) (text : String) : Option (Diagram Float32) :=
  (s.onText? text).map fun result => result.2.diagram

/-- A text that is not awaited shows its diagram, placed anew. -/
theorem shownFor?_eq_placedAnew? (hphase : s.phase = .idle) (hecho : s.echo ≠ some text)
    (hdocument : Document.ofText text = .ok document) :
    s.shownFor? text = s.placedAnew? (Diagram.ofDocument s.configuration.style document) := by
  cases hd : s.placedAnew? (Diagram.ofDocument s.configuration.style document) with
  | some d =>
      obtain ⟨report, hs⟩ := onText?_of_placedAnew? hphase hecho hdocument hd
      rw [shownFor?, hs, Option.map_some]
  | none =>
      rw [shownFor?, Option.map_eq_none_iff, Option.eq_none_iff_forall_ne_some]
      rintro ⟨report, s'⟩ hs
      rcases onText?_cases hphase hs with ⟨hawaited, -⟩ | ⟨-, document', d, hdocument', hd', -⟩
      · exact hecho hawaited
      · obtain rfl := Except.ok.inj (hdocument.symm.trans hdocument')
        cases hd.symm.trans hd'

/-- **Other ids forget what was shown**: the diagram is placed as in a new session. -/
theorem placedAnew?_of_identity_ne {fresh : Diagram Float32} (h : fresh.identity ≠ s.identity) :
    s.placedAnew? fresh = (start s.configuration).placedAnew? fresh := by
  rw [placedAnew?, if_neg h, placedAnew?_start_eq]

/-- Replacing a diagram asks for a layout if the diagram has other ids and the engine is the layered
one. -/
theorem asksForLayout_replacement_iff (s : Session) (origin : Option Provenance)
    (identity : Identity) : Report.AsksForLayout ⟨origin, s.replacement identity⟩ ↔
      identity ≠ s.identity ∧ s.configuration.placing.engine = .layered := by
  by_cases h : identity ≠ s.identity ∧ s.configuration.placing.engine = .layered
  · simp [Report.AsksForLayout, replacement, h.1, h.2]
  · have hplain : s.replacement identity = [.replaced identity] := by
      rw [replacement, if_neg (by simpa using h)]
    simp only [hplain, Report.AsksForLayout, List.mem_singleton, reduceCtorEq, exists_false, h]

/-- What a change to a text that is not awaited reports. -/
theorem asksForLayout_iff_of_onText? (h : s.IsCoherent) (hecho : s.echo ≠ some text)
    (hdocument : Document.ofText text = .ok document) {report : Report}
    (hs : s.onText? text = some (report, s')) :
    report.AsksForLayout ↔
      ¬ document.HasIdsOf s.diagram ∧ s.configuration.placing.engine = .layered := by
  rcases onText?_cases h.idle hs with ⟨hawaited, -⟩ | ⟨-, document', _, hdocument', -, rfl, -⟩
  · exact absurd hawaited hecho
  · obtain rfl := Except.ok.inj (hdocument.symm.trans hdocument')
    rw [asksForLayout_replacement_iff, h.identity, ne_eq,
      Diagram.identity_ofDocument_eq_iff (Document.isSound_of_ofText hdocument)]

/-- **What a change of the text keeps and forgets.**  Where the text has the nodes and edges that
are shown, it is shown with their geometry, and no layout is asked for.  Otherwise the diagram is
what a new session shows, and a layout is asked for exactly if the engine is the layered one. -/
theorem Reachable.keeps_or_forgets (h : Reachable c s) (hecho : s.echo ≠ some text) :
    ∃ document, Document.ofText text = .ok document ∧
      (document.HasIdsOf s.diagram → ∃ report s', s.onText? text = some (report, s') ∧
        s'.diagram.IsRedrawn (Diagram.ofDocument c.style document) s.diagram ∧
        ¬ report.AsksForLayout) ∧
      (¬ document.HasIdsOf s.diagram → s.shownFor? text = (Session.start c).shownFor? text ∧
        ∀ report s', s.onText? text = some (report, s') →
          (report.AsksForLayout ↔ c.placing.engine = .layered)) := by
  obtain rfl := h.configuration_eq
  have hcoherent := h.coherent
  obtain ⟨document, hdocument, -⟩ := Document.exists_isSound text
  have hsound := Document.isSound_of_ofText hdocument
  have hidentity : (Diagram.ofDocument s.configuration.style document).identity = s.identity ↔
      document.HasIdsOf s.diagram := by
    rw [hcoherent.identity, Diagram.identity_ofDocument_eq_iff hsound]
  refine ⟨document, hdocument, ?keeps, ?forgets⟩
  case keeps =>
    intro hids
    have hd : s.placedAnew? (Diagram.ofDocument s.configuration.style document) =
        some ((Diagram.ofDocument s.configuration.style document).inheriting s.diagram) :=
      if_pos (hidentity.2 hids)
    obtain ⟨report, hs⟩ := onText?_of_placedAnew? hcoherent.idle hecho hdocument hd
    refine ⟨report, _, hs, ?_, ?_⟩
    · apply Diagram.isRedrawn_inheriting
      simpa only [Diagram.ids_nodes_ofDocument _ hsound] using hids.nodes
    · rw [asksForLayout_iff_of_onText? hcoherent hecho hdocument hs]
      exact fun hasks => hasks.1 hids
  case forgets =>
    intro hids
    have hstart : (Session.start s.configuration).echo ≠ some text :=
      Option.some_ne_none text ∘ Eq.symm
    refine ⟨?_, ?_⟩
    · calc s.shownFor? text
          = s.placedAnew? (Diagram.ofDocument s.configuration.style document) :=
            shownFor?_eq_placedAnew? hcoherent.idle hecho hdocument
        _ = (Session.start s.configuration).placedAnew?
              (Diagram.ofDocument s.configuration.style document) :=
            placedAnew?_of_identity_ne (mt hidentity.1 hids)
        _ = (Session.start s.configuration).shownFor? text :=
            (shownFor?_eq_placedAnew? rfl hstart hdocument).symm
    · intro report s' hs
      rw [asksForLayout_iff_of_onText? hcoherent hecho hdocument hs]
      exact and_iff_right hids

/-- A node that was drawn at a place of its own gets a text that names it.  It stays where it is,
and the layered engine is not asked for anything. -/
theorem keeps_or_forgets_of_drawn_node :
    let c : Configuration := { placing := { engine := .layered } }
    ∃ s document report s', Reachable c s ∧ s.echo ≠ some "node_1" ∧
      Document.ofText "node_1" = .ok document ∧ document.HasIdsOf s.diagram ∧
      s.onText? "node_1" = some (report, s') ∧
      (s'.diagram.nodes.get? "node_1").map Node.geometry = some (⟨3, 4⟩, []) ∧
      ¬ report.AsksForLayout := by
  intro c
  let call : Call := .diagramChanged (.nodeAdded ⟨3, 4⟩) .diagram
  let s := ((start c).after? call).getD (start c)
  have h : Reachable c s := Reachable.start.getD call
  have hshown : s.diagram.nodes.ids = ["node_1"] ∧ s.diagram.edges.ids = [] := by decide +kernel
  have hplace : (s.diagram.nodes.get? "node_1").map Node.geometry = some (⟨3, 4⟩, []) := by
    decide +kernel
  have hread : (Document.ofText "node_1").toOption.any (fun document =>
      document.nodes.map Document.Node.id = ["node_1"] ∧ document.edges = []) = true := by
    decide +kernel
  have hecho : s.echo ≠ some "node_1" := by decide +kernel
  obtain ⟨document, hdocument, hkeeps, -⟩ := h.keeps_or_forgets hecho
  rw [hdocument] at hread
  obtain ⟨hnodes, hedges⟩ := of_decide_eq_true hread
  have hids : document.HasIdsOf s.diagram := by
    refine ⟨?_, ?_⟩
    · simp [hnodes, hshown.1]
    · simp [hedges, hshown.2]
  obtain ⟨report, s', hs, hredrawn, hasks⟩ := hkeeps hids
  exact ⟨s, document, report, s', h, hecho, hdocument, hids, hs,
    (hredrawn.geometry "node_1").trans hplace, hasks⟩

/-! ### The same text once more -/

/-- **A diagram that was placed hands down its own places**, whether they are inherited or those of
the grid. -/
theorem inheriting_of_placedAnew? {fresh d : Diagram Float32} (hd : s.placedAnew? fresh = some d) :
    fresh.inheriting d = d := by
  rcases placedAnew?_cases hd with rfl | ⟨positions, rfl⟩
  · refine Diagram.inheriting_rerouted_map fresh ?_
    intro id n
    cases s.diagram.nodes.get? id with
    | none => rfl
    | some old => rfl
  · refine Diagram.inheriting_rerouted_map fresh ?_
    intro id n
    obtain ⟨p, hp⟩ := n.exists_placedBy_eq (positions.get? id)
    rw [hp]

/-- **The same text once more changes nothing.**  A text that was taken in, and not dropped as an
echo, is taken in again, and the session stays as it is in every part: no place, no size, no handle
and no route changes, and no layout is asked for. -/
theorem Reachable.onText?_again (h : Reachable c s) (hecho : s.echo ≠ some text) {report : Report}
    (hs : s.onText? text = some (report, s')) :
    s'.onText? text = some (⟨some .text, [.replaced s'.identity]⟩, s') := by
  rcases onText?_cases h.coherent.idle hs with
    ⟨hawaited, -⟩ | ⟨-, document, d, hdocument, hd, -, rfl⟩
  · exact absurd hawaited hecho
  · let fresh := Diagram.ofDocument s.configuration.style document
    let shown : Session := { s with
      phase := .idle, lastOrigin := some .text, text, diagram := d, echo := none
      identity := fresh.identity, sourceMap := document.sourceMap }
    have hagain : shown.placedAnew? fresh = some d := by
      rw [placedAnew?, if_pos rfl]
      exact congrArg some (inheriting_of_placedAnew? hd)
    have hplain : shown.replacement fresh.identity = [.replaced fresh.identity] := by
      simp [replacement, shown]
    have hunawaited : shown.echo ≠ some text := Option.some_ne_none text ∘ Eq.symm
    obtain ⟨report', hs'⟩ := onText?_of_placedAnew? rfl hunawaited hdocument hagain
    rcases onText?_cases rfl hs' with ⟨hawaited, -⟩ | ⟨-, document', _, hdocument', -, rfl, -⟩
    · exact absurd hawaited hunawaited
    · obtain rfl := Except.ok.inj (hdocument.symm.trans hdocument')
      rw [← hplain]
      exact hs'

/-- A text takes the place of a node that was drawn.  It is placed on the grid, and the second time
it inherits that. -/
theorem onText?_again_of_drawn_node :
    ∃ s report s', Reachable {} s ∧ s.echo ≠ some "A > A" ∧
      s.onText? "A > A" = some (report, s') ∧ s.diagram.nodes.ids = ["node_1"] ∧
      s'.diagram.nodes.ids = ["A"] ∧
      s'.onText? "A > A" = some (⟨some .text, [.replaced s'.identity]⟩, s') := by
  let call : Call := .diagramChanged (.nodeAdded ⟨3, 4⟩) .diagram
  let s := ((start {}).after? call).getD (start {})
  have h : Reachable {} s := Reachable.start.getD call
  have hdrawn : s.diagram.nodes.ids = ["node_1"] := by decide +kernel
  have hecho : s.echo ≠ some "A > A" := by decide +kernel
  have hany : (s.onText? "A > A").any (fun result => result.2.diagram.nodes.ids = ["A"]) =
      true := by
    decide +kernel
  obtain ⟨⟨report, s'⟩, hs, hids⟩ := (Option.any_eq_true _ _).1 hany
  exact ⟨s, report, s', h, hecho, hs, hdrawn, of_decide_eq_true hids, h.onText?_again hecho hs⟩

end Session

end TextDiagram
