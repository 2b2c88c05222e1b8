/-
**The ids of what is drawn.**

Nodes, groups and arrows that are drawn get their ids from one counter.  The counter only grows, and
every id ends in the number that it was made from; so no id is given twice in a run, whatever the
ends of an arrow are called, and whatever texts are read in between.  A text may well use an id
before the counter gets there: then the number is skipped.

Main definitions:

* `TextDiagram.Session.allottedTo` — the id that a drawing gets;
* `TextDiagram.Session.drawing?` — what a call draws;
* `TextDiagram.Drawing.Adds` — a diagram has what was drawn besides what it had;
* `TextDiagram.Session.drawnIds` — the ids that are given in a run.

Main results:

* `TextDiagram.Session.allottedTo_spec` — an allotted id is new, and so is its number;
* `TextDiagram.Session.IsCoherent.adds`, `TextDiagram.Session.IsCoherent.isPatchOf` — **what a call
  does to the ids** of a diagram;
* `TextDiagram.Session.IsCoherent.pairwise_drawnIds` — the numbers of the drawn ids increase;
* `TextDiagram.Session.drawnIds_never_repeat` — **no id is given twice**.
-/

import TextDiagram.Proofs.Session.Edges

set_option relaxedAutoImplicit false
set_option autoImplicit false

namespace TextDiagram

open Diagram (Node Edge)

/-! ### What is drawn -/

namespace Drawing

/-- The form of the ids of what is drawn. -/
def form : Drawing → Nat → Id
  | node _ => Id.numbered "node"
  | group _ => Id.numbered "group"
  | arrow source target => Id.drawnEdge source target

theorem isForm_form (x : Drawing) : Id.IsForm x.form := by
  cases x with
  | node position => exact .numbered "node"
  | group position => exact .numbered "group"
  | arrow source target => exact .drawnEdge source target

/-- A diagram has what was drawn under an id, after everything that it had. -/
inductive Adds (d d' : Diagram Float32) (id : Id) : Drawing → Prop
  | addition (x : Addition) (n : Node Float32) :
      n.kind = x.kind → n.position = x.position →
      d'.nodes.entries = d.nodes.entries ++ [(id, n)] → d'.edges = d.edges → Adds d d' id x.drawing
  | arrow (e : Edge) :
      d'.edges.entries = d.edges.entries ++ [(id, e)] → d'.nodes = d.nodes →
      Adds d d' id (.arrow e.source e.target)

end Drawing

/-- What an event draws, where that is possible. -/
def DiagramEvent.drawing? : DiagramEvent → Option Drawing
  | nodeAdded position => some (.node position)
  | groupAdded position => some (.group position)
  | connected source target => some (.arrow source target)
  | _ => none

namespace Session

variable {s s' : Session} {call : Call} {x : Drawing}

/-- The id and the number that a drawing gets, and the counter after that. -/
def allottedTo (s : Session) (x : Drawing) : IdCounter.Numbered × IdCounter :=
  s.counter.allocate x.form s.diagram.ids

/-- An allotted id is new, and it ends in a number that was not given before, which the counter
leaves behind. -/
theorem allottedTo_spec (s : Session) (x : Drawing) :
    (s.allottedTo x).1.id ∉ s.diagram.ids ∧
      s.counter.next ≤ (s.allottedTo x).1.id.endNumber ∧
      (s.allottedTo x).1.id.endNumber < (s.allottedTo x).2.next := by
  obtain ⟨n, heq, hleast, -⟩ :=
    s.counter.exists_allocate_eq s.diagram.ids x.isForm_form.injective
  have hnumber : (x.form n).endNumber = n := x.isForm_form.endNumber_eq n
  rw [allottedTo, heq]
  refine ⟨hleast.1.2, ?_, ?_⟩
  · exact hnumber.symm ▸ hleast.1.1
  · exact hnumber.symm ▸ Nat.lt_succ_self n

/-- What a call draws: an arrow needs two nodes. -/
def drawing? (s : Session) : Call → Option Drawing
  | .diagramChanged event .diagram => event.drawing?.filter (·.isPossible s)
  | _ => none

/-- A call draws what its event asks for. -/
theorem eq_of_drawing? (h : s.drawing? call = some x) :
    call = .diagramChanged x.event .diagram ∧ x.isPossible s = true := by
  cases call with
  | diagramChanged event origin =>
      cases origin with
      | text => exact nomatch h
      | diagram =>
          obtain ⟨hevent, hpossible⟩ := Option.filter_eq_some_iff.1 h
          refine ⟨?_, hpossible⟩
          cases event with
          | nodeAdded position => rw [← Option.some.inj hevent]; rfl
          | groupAdded position => rw [← Option.some.inj hevent]; rfl
          | connected source target => rw [← Option.some.inj hevent]; rfl
          | _ => exact nomatch hevent
  | _ => exact nomatch h

/-! ### What a call does to the ids -/

/-- **A drawing gets its id** and is there under that id. -/
theorem onDiagram_event_adds (hphase : s.phase = .idle) (hx : x.isPossible s = true) :
    (s.onDiagram x.event .diagram).2.counter = (s.allottedTo x).2 ∧
      x.Adds s.diagram (s.onDiagram x.event .diagram).2.diagram (s.allottedTo x).1.id := by
  obtain ⟨hnew, -, -⟩ := s.allottedTo_spec x
  rw [Diagram.mem_ids_iff, not_or] at hnew
  rw [onDiagram_event hphase, counter_onEdit, diagram_onEdit]
  have haddition : ∀ y : Addition, x = y.drawing → x.form = Id.numbered y.kind.stem →
      (applyEvent { s with phase := .applyingDiagram } x.event).2.counter = (s.allottedTo x).2 ∧
        x.Adds s.diagram (applyEvent { s with phase := .applyingDiagram } x.event).2.diagram
          (s.allottedTo x).1.id := by
    rintro y rfl hform
    have hallotted : ({ s with phase := .applyingDiagram } : Session).allotted y =
        s.allottedTo y.drawing := by
      rw [allotted, allottedTo, hform]
    obtain ⟨n, hkind, hposition, -, -, happly⟩ :=
      exists_applyEvent_addition { s with phase := .applyingDiagram } y
    rw [happly, counter_drawnBy, diagram_drawnBy, hallotted]
    exact ⟨rfl, .addition y n hkind hposition (Catalog.entries_insert_of_notMem hnew.1 n) rfl⟩
  cases x with
  | node position => exact haddition ⟨.default, position⟩ rfl rfl
  | group position => exact haddition ⟨.group, position⟩ rfl rfl
  | arrow source target =>
      obtain ⟨hsource, htarget⟩ := Bool.and_eq_true_iff.1 hx
      obtain ⟨a, ha⟩ := Option.isSome_iff_exists.1 hsource
      obtain ⟨b, hb⟩ := Option.isSome_iff_exists.1 htarget
      obtain ⟨d, hd, happly⟩ :=
        exists_applyEvent_arrow (s := { s with phase := .applyingDiagram }) ha hb
      obtain ⟨-, hd⟩ := Option.ite_none_right_eq_some.1 hd
      have hdraw : Drawing.event (.arrow source target) = .connected source target := rfl
      rw [hdraw, happly, counter_drawnBy, diagram_drawnBy, ← Option.some.inj hd]
      exact ⟨rfl, .arrow { source, target, kind := .arrow, origin := .diagram }
        (Catalog.entries_insert_of_notMem hnew.2 _) rfl⟩

theorem IsCoherent.adds (h : s.IsCoherent) (hx : s.drawing? call = some x)
    (hs : s.after? call = some s') :
    s'.counter = (s.allottedTo x).2 ∧ x.Adds s.diagram s'.diagram (s.allottedTo x).1.id := by
  obtain ⟨rfl, hpossible⟩ := eq_of_drawing? hx
  obtain rfl := Option.some.inj hs
  exact onDiagram_event_adds h.idle hpossible

theorem isPatchOf_patchedBy {patch : Option (Diagram Float32)}
    (hpatch : ∀ d, patch = some d → d.IsPatchOf s.diagram) :
    (s.patchedBy patch).2.diagram.IsPatchOf s.diagram := by
  cases patch with
  | none => exact .refl _
  | some d => exact hpatch d rfl

/-- An event that draws nothing patches the diagram at most. -/
theorem isPatchOf_onDiagram (h : s.diagram.IsClosed) {event : DiagramEvent} {origin : Provenance}
    (hnone : s.drawing? (.diagramChanged event origin) = none) :
    (s.onDiagram event origin).2.diagram.IsPatchOf s.diagram := by
  unfold onDiagram
  split
  · exact .refl _
  · split
    · exact .refl _
    · exact .refl _
    · unfold onFollowUp
      split
      · split
        · next hd => exact (h.measured hd).2
        · exact .refl _
      · exact .refl _
    · rw [diagram_onEdit]
      cases event with
      | moved id position => exact isPatchOf_patchedBy fun d hd => (h.moved hd).2
      | connected source target =>
          have hjoins : s.diagram.joins source target = false := by
            simpa [drawing?, DiagramEvent.drawing?, Drawing.isPossible] using hnone
          rw [applyEvent, connect_of_not_joins (s := { s with phase := .applyingDiagram }) hjoins]
          exact .refl _
      | reconnected id source target => exact isPatchOf_patchedBy fun d hd => (h.reconnected hd).2
      | nodeAdded position => exact nomatch hnone
      | groupAdded position => exact nomatch hnone
      | measured id size handles => exact isPatchOf_patchedBy fun d hd => (h.measured hd).2
      | nodeSelected id => exact .refl _
      | edgeSelected id => exact .refl _

theorem isPatchOf_completeLayout (h : s.diagram.IsClosed) (ticket : Ticket)
    (result : ServiceResult) : (s.completeLayout ticket result).2.diagram.IsPatchOf s.diagram := by
  rcases s.completeLayout_cases ticket result with heq | ⟨positions, heq⟩
  · rw [heq]
    exact .refl _
  · rw [heq]
    exact (h.placed positions).2

/-- **A call that draws nothing** keeps all ids, unless it changes the text. -/
theorem IsCoherent.isPatchOf (h : s.IsCoherent) (hnone : s.drawing? call = none)
    (htext : ∀ text, call ≠ .textChanged text) (hs : s.after? call = some s') :
    s'.diagram.IsPatchOf s.diagram := by
  cases call with
  | textChanged text => exact absurd rfl (htext text)
  | diagramChanged event origin =>
      obtain rfl := Option.some.inj hs
      exact isPatchOf_onDiagram h.sound.toIsClosed hnone
  | cursorMoved line =>
      obtain rfl := Option.some.inj hs
      exact .refl _
  | layoutRequested =>
      obtain rfl := Option.some.inj hs
      exact .refl _
  | layoutCompleted ticket result =>
      obtain rfl := Option.some.inj hs
      exact isPatchOf_completeLayout h.sound.toIsClosed ticket result

/-! ### Runs -/

/-- The ids that are given in a run, as far as its calls return. -/
def drawnIds : Session → List Call → List Id
  | _, [] => []
  | s, call :: calls =>
      match s.after? call with
      | some s' =>
          ((s.drawing? call).map fun x => (s.allottedTo x).1.id).toList ++ s'.drawnIds calls
      | none => []

/-- **The numbers of the drawn ids increase**, from the counter on. -/
theorem IsCoherent.pairwise_drawnIds (h : s.IsCoherent) (calls : List Call) :
    (∀ id ∈ s.drawnIds calls, s.counter.next ≤ id.endNumber) ∧
      (s.drawnIds calls).Pairwise fun id id' => id.endNumber < id'.endNumber := by
  induction calls generalizing s with
  | nil => exact ⟨fun id hid => absurd hid List.not_mem_nil, .nil⟩
  | cons call calls ih =>
      rw [drawnIds]
      cases hs : s.after? call with
      | none => exact ⟨fun id hid => absurd hid List.not_mem_nil, .nil⟩
      | some s' =>
          obtain ⟨hlater, hpairwise⟩ := ih (h.after hs)
          cases hx : s.drawing? call with
          | none =>
              have hle := (h.edgeStep hs).counter_le
              exact ⟨fun id hid => hle.trans (hlater id hid), hpairwise⟩
          | some x =>
              -- the counter has left the number of this id behind before any later id is made
              obtain ⟨-, hle, hlt⟩ := s.allottedTo_spec x
              rw [← (h.adds hx hs).1] at hlt
              refine ⟨?_, List.pairwise_cons.2 ⟨fun id hid => hlt.trans_le (hlater id hid),
                hpairwise⟩⟩
              intro id hid
              rcases List.mem_cons.1 hid with rfl | hid
              · exact hle
              · exact (hle.trans hlt.le).trans (hlater id hid)

/-- **No id is given twice.**  In every run, the ids of the nodes, groups and arrows that are drawn
differ from each other.  Each of them is new to the diagram that it comes into, and besides drawings
only a change of the text brings ids into a diagram.  An id can always be given: the free one with
the least number that is not below the counter, whatever is taken, and the counter is just above
that number then. -/
theorem drawnIds_never_repeat (configuration : Configuration) :
    (∀ calls, ((start configuration).drawnIds calls).Nodup) ∧
      (∀ s s' call, Reachable configuration s → s.after? call = some s' →
        (∀ x, s.drawing? call = some x → (s.allottedTo x).1.id ∉ s.diagram.ids ∧
          x.Adds s.diagram s'.diagram (s.allottedTo x).1.id) ∧
        (s.drawing? call = none → (∀ text, call ≠ .textChanged text) →
          s'.diagram.nodes.ids = s.diagram.nodes.ids ∧
          s'.diagram.edges.ids = s.diagram.edges.ids)) ∧
      ∀ (counter : IdCounter) (form : Nat → Id) (taken : List Id), Id.IsForm form →
        ∃ n, counter.allocate form taken = (⟨form n, n⟩, ⟨n + 1⟩) ∧
          IsLeast {m | counter.next ≤ m ∧ form m ∉ taken} n ∧
          n ≤ counter.next + taken.length := by
  refine ⟨?_, ?_, ?_⟩
  · intro calls
    obtain ⟨-, hpairwise⟩ := (isCoherent_start configuration).pairwise_drawnIds calls
    refine hpairwise.imp ?_
    rintro id id' hlt rfl
    exact Nat.lt_irrefl _ hlt
  · intro s s' call hreach hs
    refine ⟨?_, ?_⟩
    · intro x hx
      exact ⟨(s.allottedTo_spec x).1, (hreach.coherent.adds hx hs).2⟩
    · intro hnone htext
      have hpatch := hreach.coherent.isPatchOf hnone htext hs
      exact ⟨hpatch.node_ids, hpatch.edge_ids⟩
  · intro counter form taken hform
    exact counter.exists_allocate_eq taken hform.injective

/-- A text uses the first number of the nodes, so that number is skipped.  An arrow that has no node
at one end gets no id. -/
example :
    (start {}).drawnIds
      [.textChanged "node_1", .diagramChanged (.nodeAdded ⟨0, 0⟩) .diagram,
        .diagramChanged (.connected "node_1" "node_2") .diagram,
        .diagramChanged (.connected "node_1" "node_3") .diagram,
        .diagramChanged (.groupAdded ⟨0, 0⟩) .diagram] =
    ["node_2", "node_1-node_2-3", "group_4"] := by
  decide +kernel

end Session

end TextDiagram
