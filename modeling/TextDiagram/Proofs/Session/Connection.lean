/-
**What becomes of a drawn arrow in the text.**

All labels of a diagram are names: those of a document are names that its text mentions, and those
of added nodes are a word and a number.  The line of a drawn arrow is made of the labels of its two
nodes.  It is the last line of the text, and it says the arrow again if and only if the one label
can stand before the head of an arrow and the other one after it.

Main definitions:

* `TextDiagram.Diagram.IsNamed` — all labels are names.

Main results:

* `TextDiagram.Session.Reachable.isNamed` — **every run leads to labels that are names**;
* `TextDiagram.Session.Reachable.exists_connected_line` — **what becomes of a drawn arrow in the
  text**.
-/

import TextDiagram.Proofs.Diagram.Label
import TextDiagram.Proofs.Document.Nodes
import TextDiagram.Proofs.Session.Coherence
import TextDiagram.Proofs.Session.Event
import TextDiagram.Proofs.Session.Line
import TextDiagram.Proofs.Statement.Arrow

set_option relaxedAutoImplicit false
set_option autoImplicit false

namespace TextDiagram

open Diagram (Node)

/-! ### Names as labels -/

namespace Diagram

variable {d d' : Diagram Float32}

/-- All labels are names. -/
def IsNamed (d : Diagram Float32) : Prop := ∀ label ∈ d.labels, IsName label

theorem IsNamed.of_labels_eq (h : d.IsNamed) (hlabels : d'.labels = d.labels) : d'.IsNamed := by
  rw [IsNamed, hlabels]
  exact h

theorem EditsTo.labels_eq {event : DiagramEvent} (h : d.EditsTo event d') :
    d'.labels = d.labels := by
  cases h with
  | moved h => exact labels_of_moved? h
  | measured h => exact labels_of_measured? h
  | reconnected h => exact labels_of_reconnected? h

/-- A new node needs a name. -/
theorem IsNamed.withNode (h : d.IsNamed) {id : Id} (hid : id ∉ d.ids) {n : Node Float32}
    (hn : IsName n.label) : (d.withNode id n).IsNamed := by
  rw [IsNamed, labels_withNode hid]
  intro label hlabel
  rcases List.mem_append.1 hlabel with hlabel | hlabel
  · exact h label hlabel
  · rw [List.mem_singleton.1 hlabel]
    exact hn

/-- The nodes of a document have names. -/
theorem isNamed_ofDocument (style : Style) {text : String} {document : Document}
    (h : Document.ofText text = .ok document) : (ofDocument style document).IsNamed := by
  rw [IsNamed, labels_ofDocument style (Document.isSound_of_ofText h)]
  intro label hlabel
  obtain ⟨n, hn, rfl⟩ := List.mem_map.1 hlabel
  rw [Document.label_eq_id h n hn]
  exact Document.isName_id h n hn

end Diagram

namespace Session

variable {s s' : Session}

/-! ### Calls -/

/-- What is drawn has a name. -/
theorem DrawsTo.isNamed {counter : IdCounter} {d : Diagram Float32} {line : String}
    (h : s.diagram.IsNamed) (hdraws : s.DrawsTo counter d line) : d.IsNamed := by
  cases hdraws with
  | addition x n hkind hposition horigin hlabel =>
      have hname := x.kind.standsAlone_word.isName.countedName (s.allotted x).1.number
      exact h.withNode (s.allotted_id_notMem x) (hlabel ▸ hname)
  | arrow ha hb hd => exact h.of_labels_eq (Diagram.labels_of_withEdge? hd)

theorem isNamed_onDiagram (hphase : s.phase = .idle) (h : s.diagram.IsNamed)
    (event : DiagramEvent) (origin : Provenance) :
    (s.onDiagram event origin).2.diagram.IsNamed := by
  rcases onDiagram_cases hphase event origin with
    ⟨_, heq, -⟩ | ⟨d, _, _, hedits, heq, -⟩ | ⟨_, d, _, _, _, _, hdraws, -, -, heq⟩
  · rw [heq]
    exact h
  · rw [heq]
    exact h.of_labels_eq hedits.labels_eq
  · rw [heq]
    exact hdraws.isNamed h

theorem isNamed_onText? (hphase : s.phase = .idle) (h : s.diagram.IsNamed) {text : String}
    {report : Report} (hs : s.onText? text = some (report, s')) : s'.diagram.IsNamed := by
  rcases onText?_cases hphase hs with ⟨-, -, rfl⟩ | ⟨-, document, d, hdocument, hd, -, rfl⟩
  · exact h
  · have hnamed := Diagram.isNamed_ofDocument s.configuration.style hdocument
    rcases placedAnew?_cases hd with rfl | ⟨positions, rfl⟩
    · exact hnamed.of_labels_eq (Diagram.labels_inheriting _ _)
    · exact hnamed.of_labels_eq (Diagram.labels_placed _ _)

theorem isNamed_completeLayout (h : s.diagram.IsNamed) (ticket : Ticket) (result : ServiceResult) :
    (s.completeLayout ticket result).2.diagram.IsNamed := by
  rcases s.completeLayout_cases ticket result with heq | ⟨positions, heq⟩
  · rwa [heq]
  · rw [heq]
    exact h.of_labels_eq (Diagram.labels_placed _ _)

/-- **Every run leads to labels that are names.** -/
theorem Reachable.isNamed {configuration : Configuration} (h : Reachable configuration s) :
    s.diagram.IsNamed := by
  induction h with
  | start => exact fun _ h => absurd h List.not_mem_nil
  | call call hreach hs ih =>
      cases call with
      | textChanged text =>
          obtain ⟨⟨report, s₁⟩, hs₁, rfl⟩ := Option.map_eq_some_iff.1 hs
          exact isNamed_onText? hreach.coherent.idle ih hs₁
      | diagramChanged event origin =>
          obtain rfl := Option.some.inj hs
          exact isNamed_onDiagram hreach.coherent.idle ih event origin
      | cursorMoved line =>
          obtain rfl := Option.some.inj hs
          exact ih
      | layoutRequested =>
          obtain rfl := Option.some.inj hs
          exact ih
      | layoutCompleted ticket result =>
          obtain rfl := Option.some.inj hs
          exact isNamed_completeLayout ih ticket result

/-! ### Arrows -/

/-- **What becomes of a drawn arrow in the text.**  It makes a line that is the last one, and that
says an arrow between the labels of the two nodes if and only if the one label can start the line of
an arrow and the other one can end it. -/
theorem Reachable.exists_connected_line {configuration : Configuration}
    (h : Reachable configuration s) (hregenerate : s.configuration.regenerateText = true)
    {source target : Id} {a b : Node Float32} (ha : s.diagram.nodes.get? source = some a)
    (hb : s.diagram.nodes.get? target = some b) :
    ∃ kept line report s', s.onDiagram (.connected source target) .diagram = (report, s') ∧
      (Text.lines s.text = kept ∨ Text.lines s.text = kept ++ [""]) ∧
      Text.lines s'.text = kept ++ [line] ∧
      (Statement.ofLine? line =
          some (.edge { kind := .arrow, source := a.label, target := b.label }) ↔
        StartsArrow a.label ∧ EndsArrow b.label) := by
  have hsource : IsName a.label := h.isNamed _ (Diagram.mem_labels_of_get? ha)
  have htarget : IsName b.label := h.isNamed _ (Diagram.mem_labels_of_get? hb)
  let line := EdgeStatement.line { kind := .arrow, source := a.label, target := b.label }
  obtain ⟨kept, hkept, hlines⟩ :=
    exists_lines_withLine s.text (notMem_arrowLine hsource htarget)
  -- the event is applied while the session is marked as busy, which plays no part here
  let busy : Session := { s with phase := .applyingDiagram }
  obtain ⟨d, -, happly⟩ := exists_applyEvent_arrow (s := busy) ha hb
  have hdraw : s.onDiagram (.connected source target) .diagram = _ :=
    (onDiagram_event h.coherent.idle (.arrow source target)).trans
      (onEdit_of_drawnBy hregenerate happly)
  exact ⟨kept, line, _, _, hdraw, hkept, hlines, Statement.ofLine?_arrow_iff hsource htarget⟩

/-- A loop is drawn on a node with a plain name. -/
theorem exists_connected_line_of_plain_name :
    ∃ s a line report s', Reachable { regenerateText := true } s ∧
      s.diagram.nodes.get? "A" = some a ∧
      s.onDiagram (.connected "A" "A") .diagram = (report, s') ∧
      (Text.lines s'.text).getLast? = some line ∧
      Statement.ofLine? line =
        some (.edge { kind := .arrow, source := a.label, target := a.label }) := by
  have h : Reachable { regenerateText := true } _ := Reachable.start.getD (.textChanged "A")
  set s : Session := (after? (start { regenerateText := true }) (.textChanged "A")).getD
    (start { regenerateText := true })
  have hany : (s.diagram.nodes.get? "A").any (fun a => a.label = "A") = true := by
    decide +kernel
  have hregenerate : s.configuration.regenerateText = true := by
    decide +kernel
  obtain ⟨a, ha, hlabel⟩ := (Option.any_eq_true _ _).1 hany
  have hlabel := of_decide_eq_true hlabel
  obtain ⟨kept, line, report, s', hdraw, -, hlines, hiff⟩ :=
    h.exists_connected_line hregenerate ha ha
  have hopens : OpensName "A".toList :=
    ⟨by decide, by decide, by intro k; cases k <;> decide⟩
  refine ⟨s, a, line, report, s', h, ha, hdraw, ?_, hiff.2 ?_⟩
  · rw [hlines, List.getLast?_concat]
  · rw [hlabel]
    exact ⟨⟨hopens, by decide, by decide⟩, ⟨by decide, by decide, by decide⟩⟩

/-- A loop is drawn on a node whose name holds a colon, and what comes after the colon is read as
the label of the edge. -/
theorem not_connected_line_of_colon :
    ∃ s a, Reachable { regenerateText := true } s ∧ s.diagram.nodes.get? "A: B" = some a ∧
      (s.onDiagram (.connected "A: B" "A: B") .diagram).2.text = "A: B\nA: B > A: B" ∧
      Statement.ofLine? "A: B > A: B" =
        some (.edge { kind := .arrow, source := a.label, target := "A", label := some "B" }) ∧
      Statement.ofLine? "A: B > A: B" ≠
        some (.edge { kind := .arrow, source := a.label, target := a.label }) := by
  have h : Reachable { regenerateText := true } _ := Reachable.start.getD (.textChanged "A: B")
  set s : Session := (after? (start { regenerateText := true }) (.textChanged "A: B")).getD
    (start { regenerateText := true })
  have hany : (s.diagram.nodes.get? "A: B").any (fun a => a.label = "A: B") = true := by
    decide +kernel
  have htext : (s.onDiagram (.connected "A: B" "A: B") .diagram).2.text =
      "A: B\nA: B > A: B" := by
    decide +kernel
  obtain ⟨a, ha, hlabel⟩ := (Option.any_eq_true _ _).1 hany
  refine ⟨s, a, h, ha, htext, ?_, ?_⟩
  · rw [of_decide_eq_true hlabel]
    decide
  · rw [of_decide_eq_true hlabel]
    decide

end Session

end TextDiagram
