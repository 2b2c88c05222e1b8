/-
**Where nodes can be.**

A node comes to its place in one of five ways: from the grid, from the answer of a layout service,
by being moved, by taking over the place of the node that was shown before, and by being added.  The
first three take no place that is not finite, and the fourth takes a place that was there already.
The last one takes any place.  So every place that is not finite is the place of an addition.

What one call keeps is therefore stated for any kind of places that all finite ones belong to: if
the places shown are of this kind, and so is the place of what the call adds, then the places shown
after the call are of this kind.

Main definitions:

* `TextDiagram.Diagram.IsPlacedIn` — all nodes are at places of a kind;
* `TextDiagram.DiagramEvent.addedAt?`, `TextDiagram.Session.Call.addedAt?` — the place at which
  something is added.

Main results:

* `TextDiagram.Session.isPlacedIn_after?` — **what one call keeps**;
* `TextDiagram.Session.isPlacedIn_afterAll?` — what a run keeps;
* `TextDiagram.Session.isPlacedIn_isFinite_iff` — **the places are finite throughout a run exactly
  if everything that is added is added at a finite place**.
-/

import TextDiagram.Proofs.Session.Coherence
import TextDiagram.Proofs.Session.Event

set_option relaxedAutoImplicit false
set_option autoImplicit false

namespace TextDiagram

open Diagram (Node Edge)

/-! ### Diagrams -/

namespace Diagram

/-- All nodes of a diagram are at places of a kind. -/
def IsPlacedIn (d : Diagram Float32) (P : Point Float32 → Prop) : Prop :=
  ∀ id n, d.nodes.get? id = some n → P n.position

section IsPlacedIn

variable {d d' : Diagram Float32} {P : Point Float32 → Prop} {id : Id}

theorem isPlacedIn_empty (P : Point Float32 → Prop) : IsPlacedIn {} P := by
  intro id n hn
  exact nomatch hn

/-- Changing nodes keeps the kind of the places, if it does so for every single node. -/
theorem IsPlacedIn.mapNodes (h : d.IsPlacedIn P) {f : Id → Node Float32 → Node Float32}
    (hf : ∀ id n, P n.position → P (f id n).position) :
    IsPlacedIn { d with nodes := d.nodes.map f } P := by
  intro id n hn
  rw [Catalog.get?_map] at hn
  obtain ⟨old, hold, rfl⟩ := Option.map_eq_some_iff.1 hn
  exact hf id old (h id old hold)

theorem IsPlacedIn.rerouted (h : d.IsPlacedIn P) : d.rerouted.IsPlacedIn P := h

/-- Measuring a node leaves it at its place. -/
theorem IsPlacedIn.measured (h : d.IsPlacedIn P) {size : Size Float32}
    {handles : List (Handle Float32)} (hd : d.measured? id size handles = some d') :
    d'.IsPlacedIn P := by
  obtain ⟨-, hd⟩ := Option.ite_none_right_eq_some.1 hd
  obtain rfl := Option.some.inj hd
  refine (h.mapNodes ?_).rerouted
  intro key n hn
  split
  · exact hn
  · exact hn

theorem IsPlacedIn.reconnected (h : d.IsPlacedIn P) {source target : Id}
    (hd : d.reconnected? id source target = some d') : d'.IsPlacedIn P := by
  obtain ⟨-, hd⟩ := Option.ite_none_right_eq_some.1 hd
  obtain rfl := Option.some.inj hd
  exact h

theorem IsPlacedIn.withEdge (h : d.IsPlacedIn P) {e : Edge} (hd : d.withEdge? id e = some d') :
    d'.IsPlacedIn P := by
  obtain ⟨-, hd⟩ := Option.ite_none_right_eq_some.1 hd
  obtain rfl := Option.some.inj hd
  exact h

/-- A new node brings its own place. -/
theorem IsPlacedIn.withNode (h : d.IsPlacedIn P) (id : Id) {n : Node Float32} (hn : P n.position) :
    (d.withNode id n).IsPlacedIn P := by
  intro key m hm
  rw [Diagram.withNode] at hm
  by_cases hkey : key = id
  · subst hkey
    rw [Catalog.get?_insert_self] at hm
    obtain rfl := Option.some.inj hm
    exact hn
  · rw [Catalog.get?_insert_of_ne _ hkey] at hm
    exact h key m hm

/-- The place of a node that was shown before is one of the places that were shown. -/
theorem IsPlacedIn.inheriting (h : d.IsPlacedIn P) {previous : Diagram Float32}
    (hprevious : previous.IsPlacedIn P) : (d.inheriting previous).IsPlacedIn P := by
  refine (h.mapNodes ?_).rerouted
  intro id n hn
  cases hold : previous.nodes.get? id with
  | none => exact hn
  | some old => exact hprevious id old hold

/-! ### Finite places -/

theorem isFinite_origin : (Point.origin : Point Float32).isFinite = true := by decide +kernel

/-- A node is placed at a finite place, or it stays where it is. -/
theorem Node.position_placedBy (n : Node Float32) (position : Option (Point Float32)) :
    (n.placedBy position).position = n.position ∨
      (n.placedBy position).position.isFinite = true := by
  cases position with
  | none => exact Or.inl rfl
  | some p =>
      rw [placedBy, Option.elim_some, placedAt]
      by_cases hp : p.isFinite = true
      · rw [if_pos hp]
        exact Or.inr hp
      · rw [if_neg hp]
        exact Or.inl rfl

-- finite places are taken over from anywhere, so all of them have to be of the kind
variable (hP : ∀ p : Point Float32, p.isFinite = true → P p)

include hP

/-- Positions are taken over where they are finite. -/
theorem IsPlacedIn.placed (h : d.IsPlacedIn P) (positions : Catalog (Point Float32)) :
    (d.placed positions).IsPlacedIn P := by
  refine (h.mapNodes ?_).rerouted
  intro id n hn
  rcases n.position_placedBy (positions.get? id) with hkept | hfinite
  · rw [hkept]
    exact hn
  · exact hP _ hfinite

/-- A node is moved to finite places only. -/
theorem IsPlacedIn.moved (h : d.IsPlacedIn P) {position : Point Float32}
    (hd : d.moved? id position = some d') : d'.IsPlacedIn P := by
  obtain ⟨hguard, hd⟩ := Option.ite_none_right_eq_some.1 hd
  obtain rfl := Option.some.inj hd
  obtain ⟨-, hfinite⟩ := Bool.and_eq_true_iff.1 hguard
  refine (h.mapNodes ?_).rerouted
  intro key n hn
  split
  · exact hP position hfinite
  · exact hn

/-- The nodes of a document are in the corner of the plane, as long as they have no places. -/
theorem isPlacedIn_ofDocument (style : Style) {names : List Id} {document : Document}
    (h : document.IsSound names) : (ofDocument style document).IsPlacedIn P := by
  intro id n hn
  obtain ⟨m, -, -, rfl⟩ := (get?_nodes_ofDocument_iff style h).1 hn
  exact hP _ isFinite_origin

end IsPlacedIn

end Diagram

/-! ### Additions -/

/-- The place at which an event adds a node or a group. -/
def DiagramEvent.addedAt? : DiagramEvent → Option (Point Float32)
  | nodeAdded position | groupAdded position => some position
  | _ => none

/-- An event that adds something is the event of an addition. -/
theorem DiagramEvent.exists_addition {event : DiagramEvent} {p : Point Float32}
    (h : event.addedAt? = some p) : ∃ x : Addition, event = x.drawing.event ∧ x.position = p := by
  cases event with
  | nodeAdded position => exact ⟨⟨.default, position⟩, rfl, Option.some.inj h⟩
  | groupAdded position => exact ⟨⟨.group, position⟩, rfl, Option.some.inj h⟩
  | _ => exact nomatch h

namespace Session

variable {s s' : Session} {P : Point Float32 → Prop}

/-- The place at which a call adds a node or a group. -/
def Call.addedAt? : Call → Option (Point Float32)
  | diagramChanged event .diagram => event.addedAt?
  | _ => none

/-! ### Single calls -/

/-- An addition adds a node at its place. -/
theorem exists_withNode_of_addedAt? {event : DiagramEvent} {p : Point Float32}
    (hadded : event.addedAt? = some p) :
    ∃ id n, id ∉ s.diagram.ids ∧ n.position = p ∧
      (s.applyEvent event).2.diagram = s.diagram.withNode id n := by
  obtain ⟨x, rfl, rfl⟩ := DiagramEvent.exists_addition hadded
  obtain ⟨n, -, hposition, -, -, happly⟩ := s.exists_applyEvent_addition x
  refine ⟨(s.allotted x).1.id, n, s.allotted_id_notMem x, hposition, ?_⟩
  rw [happly]
  exact diagram_drawnBy _ _ _

theorem isPlacedIn_patchedBy (h : s.diagram.IsPlacedIn P) {patch : Option (Diagram Float32)}
    (hpatch : ∀ d, patch = some d → d.IsPlacedIn P) :
    (s.patchedBy patch).2.diagram.IsPlacedIn P := by
  cases patch with
  | none => exact h
  | some d => exact hpatch d rfl

/-- A call that adds something shows a node at the place of it. -/
theorem exists_position_of_addedAt? (hphase : s.phase = .idle) {call : Call} {p : Point Float32}
    (hcall : call.addedAt? = some p) (hs : s.after? call = some s') :
    ∃ id n, s'.diagram.nodes.get? id = some n ∧ n.position = p := by
  cases call with
  | diagramChanged event origin =>
      cases origin with
      | text => exact nomatch hcall
      | diagram =>
          have hadded : event.addedAt? = some p := hcall
          obtain rfl := Option.some.inj hs
          obtain ⟨x, hevent, -⟩ := DiagramEvent.exists_addition hadded
          obtain ⟨id, n, -, hposition, hdiagram⟩ :=
            exists_withNode_of_addedAt? (s := { s with phase := .applyingDiagram }) hadded
          refine ⟨id, n, ?_, hposition⟩
          rw [hevent, onDiagram_event hphase, ← hevent, diagram_onEdit, hdiagram]
          exact Catalog.get?_insert_self _ _ _
  | _ => exact nomatch hcall

section kept

variable (hP : ∀ p : Point Float32, p.isFinite = true → P p)

include hP

/-- The change that an event asks for keeps the kind of the places, if it adds nothing at a place of
another kind. -/
theorem isPlacedIn_applyEvent (h : s.diagram.IsPlacedIn P) {event : DiagramEvent}
    (hevent : ∀ p, event.addedAt? = some p → P p) :
    (s.applyEvent event).2.diagram.IsPlacedIn P := by
  have haddition : ∀ p, event.addedAt? = some p →
      (s.applyEvent event).2.diagram.IsPlacedIn P := by
    intro p hp
    obtain ⟨id, n, -, hposition, hdiagram⟩ := exists_withNode_of_addedAt? (s := s) hp
    rw [hdiagram]
    exact h.withNode id (hposition ▸ hevent p hp)
  cases event with
  | moved id position => exact isPlacedIn_patchedBy h fun d hd => h.moved hP hd
  | connected source target =>
      cases hjoins : s.diagram.joins source target with
      | false => simpa only [applyEvent, connect_of_not_joins hjoins] using h
      | true =>
          obtain ⟨e, d, line, -, hd, hconnect⟩ := connect_of_joins hjoins
          -- the echo plays no part here, so it may be the one that is awaited
          have hdrawn : s.applyEvent (.connected source target) = _ := hconnect s.echo
          rw [hdrawn, diagram_drawnBy]
          exact h.withEdge hd
  | reconnected id source target => exact isPlacedIn_patchedBy h fun d hd => h.reconnected hd
  | nodeAdded position => exact haddition position rfl
  | groupAdded position => exact haddition position rfl
  | measured id size handles => exact isPlacedIn_patchedBy h fun d hd => h.measured hd
  | nodeSelected id => exact h
  | edgeSelected id => exact h

theorem isPlacedIn_onDiagram (h : s.diagram.IsPlacedIn P) {event : DiagramEvent}
    {origin : Provenance}
    (hevent : ∀ p, (Call.diagramChanged event origin).addedAt? = some p → P p) :
    (s.onDiagram event origin).2.diagram.IsPlacedIn P := by
  unfold onDiagram
  split
  · exact h
  · split
    · exact h
    · exact h
    · unfold onFollowUp
      split
      · split
        · next hd => exact h.measured hd
        · exact h
      · exact h
    · rw [diagram_onEdit]
      exact isPlacedIn_applyEvent (s := { s with phase := .applyingDiagram }) hP h hevent

/-- A document is placed on the grid, or where its nodes were shown before. -/
theorem isPlacedIn_placedAnew? {fresh d : Diagram Float32} (h : s.diagram.IsPlacedIn P)
    (hfresh : fresh.IsPlacedIn P) (hd : s.placedAnew? fresh = some d) : d.IsPlacedIn P := by
  rcases placedAnew?_cases hd with rfl | ⟨positions, rfl⟩
  · exact hfresh.inheriting h
  · exact hfresh.placed hP positions

theorem isPlacedIn_onText? (hphase : s.phase = .idle) (h : s.diagram.IsPlacedIn P)
    {text : String} {report : Report} (hs : s.onText? text = some (report, s')) :
    s'.diagram.IsPlacedIn P := by
  rcases onText?_cases hphase hs with ⟨-, -, rfl⟩ | ⟨-, document, d, hdocument, hd, -, rfl⟩
  · exact h
  · have hsound := Document.isSound_of_ofText hdocument
    exact isPlacedIn_placedAnew? hP h (Diagram.isPlacedIn_ofDocument hP _ hsound) hd

theorem isPlacedIn_completeLayout (h : s.diagram.IsPlacedIn P) (ticket : Ticket)
    (result : ServiceResult) :
    (s.completeLayout ticket result).2.diagram.IsPlacedIn P := by
  rcases s.completeLayout_cases ticket result with heq | ⟨positions, heq⟩
  · rwa [heq]
  · rw [heq]
    exact h.placed hP positions

/-- **What one call keeps**: the kind of the places, if it adds nothing at a place of another
kind. -/
theorem isPlacedIn_after? (hphase : s.phase = .idle) (h : s.diagram.IsPlacedIn P)
    {call : Call} (hcall : ∀ p, call.addedAt? = some p → P p) (hs : s.after? call = some s') :
    s'.diagram.IsPlacedIn P := by
  cases call with
  | textChanged text =>
      obtain ⟨⟨report, s₁⟩, hs₁, rfl⟩ := Option.map_eq_some_iff.1 hs
      exact isPlacedIn_onText? hP hphase h hs₁
  | diagramChanged event origin =>
      obtain rfl := Option.some.inj hs
      exact isPlacedIn_onDiagram hP h hcall
  | cursorMoved line =>
      obtain rfl := Option.some.inj hs
      exact h
  | layoutRequested =>
      obtain rfl := Option.some.inj hs
      exact h
  | layoutCompleted ticket result =>
      obtain rfl := Option.some.inj hs
      exact isPlacedIn_completeLayout hP h ticket result

/-! ### Runs -/

/-- What a run keeps: the kind of the places, if nothing is added at a place of another kind. -/
theorem isPlacedIn_afterAll? (hcoherent : s.IsCoherent) (h : s.diagram.IsPlacedIn P)
    {calls : List Call} (hcalls : ∀ call ∈ calls, ∀ p, call.addedAt? = some p → P p)
    (hs : s.afterAll? calls = some s') : s'.diagram.IsPlacedIn P := by
  induction calls generalizing s with
  | nil =>
      obtain rfl := Option.some.inj hs
      exact h
  | cons call calls ih =>
      obtain ⟨s₁, hcall, hs⟩ := Option.bind_eq_some_iff.1 hs
      have hfirst := isPlacedIn_after? hP hcoherent.idle h (hcalls call List.mem_cons_self) hcall
      refine ih (hcoherent.after hcall) hfirst ?_ hs
      intro later hlater
      exact hcalls later (List.mem_cons_of_mem _ hlater)

end kept

/-- **The places are finite throughout a run exactly if everything that is added is added at a
finite place.**  In any case, a place that is not finite is the place of something that was added,
as long as it is shown. -/
theorem isPlacedIn_isFinite_iff {configuration : Configuration} {calls : List Call}
    (hs : (start configuration).afterAll? calls = some s) :
    ((∀ done s', done <+: calls → (start configuration).afterAll? done = some s' →
        s'.diagram.IsPlacedIn fun p => p.isFinite = true) ↔
      ∀ call ∈ calls, ∀ p, call.addedAt? = some p → p.isFinite = true) ∧
    s.diagram.IsPlacedIn fun p =>
      p.isFinite = true ∨ ∃ call ∈ calls, call.addedAt? = some p := by
  have hcoherent := isCoherent_start configuration
  refine ⟨⟨?_, ?_⟩, ?_⟩
  · intro hfinite call hcall p hp
    -- the run up to the addition is a run as well, and it ends with a node at the place
    obtain ⟨before, s₁, s₂, hstarts, hs₁, hafter, hs₂⟩ := exists_after?_of_mem hs hcall
    have hreach : Reachable configuration s₁ := Reachable.start.afterAll hs₁
    obtain ⟨id, n, hn, rfl⟩ := exists_position_of_addedAt? hreach.coherent.idle hp hafter
    exact hfinite _ s₂ hstarts hs₂ id n hn
  · intro hadded done s' hdone hs'
    refine isPlacedIn_afterAll? (fun p hp => hp) hcoherent (Diagram.isPlacedIn_empty _) ?_ hs'
    intro call hcall
    exact hadded call (hdone.subset hcall)
  · refine isPlacedIn_afterAll? (fun p hp => Or.inl hp) hcoherent (Diagram.isPlacedIn_empty _) ?_ hs
    intro call hcall p hp
    exact Or.inr ⟨call, hcall, hp⟩

/-- A node is moved to a place that is no number, and a layout puts it infinitely far away: both are
dropped, and what is added is added at a finite place. -/
theorem isPlacedIn_isFinite_of_infinite_answer :
    ∃ calls s, (start {}).afterAll? calls = some s ∧
      .diagramChanged (.moved "A" ⟨0 / 0, 0⟩) .diagram ∈ calls ∧
      s.diagram.nodes.ids = ["A", "node_1"] ∧
      (∀ call ∈ calls, ∀ p, call.addedAt? = some p → p.isFinite = true) ∧
      s.diagram.IsPlacedIn fun p => p.isFinite = true := by
  let calls : List Call :=
    [.textChanged "A > A", .diagramChanged (.moved "A" ⟨0 / 0, 0⟩) .diagram, .layoutRequested,
      .layoutCompleted ⟨.of ["A"] ["edge_A_A_0"], 1⟩ (.ok (.ofList [("A", ⟨1 / 0, 0⟩)])),
      .diagramChanged (.nodeAdded ⟨3, 4⟩) .diagram]
  have hany : ((start {}).afterAll? calls).any
      (fun s => s.diagram.nodes.ids = ["A", "node_1"]) = true := by
    decide +kernel
  obtain ⟨s, hs, hids⟩ := (Option.any_eq_true _ _).1 hany
  have hadded : ∀ call ∈ calls, ∀ p, call.addedAt? = some p → p.isFinite = true := by
    intro call hcall p hp
    have hplaces : p ∈ calls.filterMap Call.addedAt? := List.mem_filterMap.2 ⟨call, hcall, hp⟩
    have hall : (calls.filterMap Call.addedAt?).all Point.isFinite = true := by decide +kernel
    exact List.all_eq_true.1 hall p hplaces
  exact ⟨calls, s, hs, by simp [calls], of_decide_eq_true hids, hadded,
    (isPlacedIn_isFinite_iff hs).1.2 hadded calls s List.prefix_rfl hs⟩

/-- Something is added at a place that is no number, and is shown there. -/
theorem not_isPlacedIn_isFinite_of_addition :
    ∃ s, Reachable {} s ∧ ¬ s.diagram.IsPlacedIn fun p => p.isFinite = true := by
  have h : Reachable {} _ :=
    Reachable.start.getD (.diagramChanged (.nodeAdded ⟨0 / 0, 0⟩) .diagram)
  refine ⟨_, h, ?_⟩
  intro hfinite
  have hshown : ((((start {}).after? (.diagramChanged (.nodeAdded ⟨0 / 0, 0⟩) .diagram)).getD
      (start {})).diagram.nodes.get? "node_1").any (fun n => !n.position.isFinite) = true := by
    decide +kernel
  obtain ⟨n, hn, hposition⟩ := (Option.any_eq_true _ _).1 hshown
  have hnumber := hfinite "node_1" n hn
  simp [hnumber] at hposition

end Session

end TextDiagram
