/-
**What an event leaves alone.**

An event that follows from a change of the text comes from a host that has drawn the new diagram.
It can tell what a node measures, and nothing else: a measurement changes the size and the handles
of the node and draws the routes anew, and every other event of this kind is dropped.  A selection
changes nothing whoever makes it.

An event that has no effects was not made at all, even where it got as far as asking for an id or
looking up a node.  These facts hold in every state, also while a change is being applied, when all
events are dropped.

Main definitions:

* `TextDiagram.DiagramEvent.isSelection` — whether an event selects something;
* `TextDiagram.Diagram.IsMeasuredFrom` — a diagram is another one in which a node was measured.

Main results:

* `TextDiagram.Diagram.isMeasuredFrom_of_measured?` — what a measurement changes;
* `TextDiagram.Session.onDiagram_text_cases` — what an event can do that follows from the text;
* `TextDiagram.Session.onDiagram_of_effects_eq_nil` — **an event without effects changes nothing**;
* `TextDiagram.Session.onDiagram_frame` — **what an event leaves alone**.
-/

import TextDiagram.Proofs.Diagram.Placement
import TextDiagram.Proofs.Session.Event

set_option relaxedAutoImplicit false
set_option autoImplicit false

namespace TextDiagram

open Diagram (Node)

/-- Whether an event selects something. -/
def DiagramEvent.isSelection : DiagramEvent → Bool
  | nodeSelected _ | edgeSelected _ => true
  | _ => false

/-! ### Measurements -/

namespace Diagram

variable {d d' : Diagram Float32} {id : Id} {size : Size Float32} {handles : List (Handle Float32)}

/-- A node with the size and the handles that it was found to have.  The size of a single point
tells nothing. -/
def Node.measuring (n : Node Float32) (size : Size Float32) (handles : List (Handle Float32)) :
    Node Float32 :=
  { n with size := if size.isZero then n.size else size, handles }

/-- A diagram is another one in which the node of an id was measured. -/
structure IsMeasuredFrom (d' d : Diagram Float32) (id : Id) (size : Size Float32)
    (handles : List (Handle Float32)) : Prop where
  /-- There is a node to measure. -/
  known : id ∈ d.nodes.ids
  /-- The node has the size and the handles that were found. -/
  node : ∀ n, d.nodes.get? id = some n → d'.nodes.get? id = some (n.measuring size handles)
  /-- Every other node is as it was. -/
  others : ∀ other, other ≠ id → d'.nodes.get? other = d.nodes.get? other
  /-- No node is moved, added or taken away. -/
  positions : d'.positions = d.positions
  /-- The routes are those between the nodes as they were measured. -/
  routed : d'.routes = TextDiagram.routes d'.nodes d'.edges
  /-- Nothing else changes. -/
  rest : d' = { d with nodes := d'.nodes, routes := d'.routes }

/-- There is nothing to measure where there is no node. -/
theorem measured?_eq_none_iff : d.measured? id size handles = none ↔ id ∉ d.nodes.ids := by
  simp [measured?, Catalog.contains_iff]

namespace IsMeasuredFrom

/-- A measurement keeps the nodes there are. -/
theorem node_ids (h : d'.IsMeasuredFrom d id size handles) : d'.nodes.ids = d.nodes.ids := by
  have hids := congrArg Catalog.ids h.positions
  simpa only [Diagram.positions, Catalog.ids_map] using hids

/-- A measurement keeps the edges. -/
theorem edges_eq (h : d'.IsMeasuredFrom d id size handles) : d'.edges = d.edges := by
  have hedges := congrArg Diagram.edges h.rest
  exact hedges

end IsMeasuredFrom

/-- What a measurement changes. -/
theorem isMeasuredFrom_of_measured? (h : d.measured? id size handles = some d') :
    d'.IsMeasuredFrom d id size handles := by
  obtain ⟨hknown, h⟩ := Option.ite_none_right_eq_some.1 h
  obtain rfl := Option.some.inj h
  constructor
  case known => exact Catalog.contains_iff.1 hknown
  case node =>
    intro n hn
    simp [Catalog.modify, Catalog.get?_map, hn, Node.measuring]
  case others =>
    intro other hne
    simp [Catalog.modify, Catalog.get?_map, hne]
  case positions =>
    rw [Diagram.positions, rerouted_nodes, Catalog.modify, Catalog.map_map]
    refine Catalog.map_congr ?_
    intro key n _
    by_cases hkey : key = id
    · simp [hkey]
    · simp [hkey]
  case routed => rfl
  case rest => rfl

end Diagram

/-! ### Events -/

namespace Session

variable {s : Session}

/-- No event counts while a change is being applied. -/
theorem onDiagram_of_phase_ne (hphase : s.phase ≠ .idle) (event : DiagramEvent)
    (origin : Provenance) : s.onDiagram event origin = (.ignored, s) := by
  unfold onDiagram
  rw [if_pos hphase]

/-- A selection changes nothing. -/
theorem onDiagram_of_isSelection (s : Session) {event : DiagramEvent}
    (hevent : event.isSelection = true) (origin : Provenance) :
    (s.onDiagram event origin).2 = s := by
  by_cases hphase : s.phase = .idle
  · unfold onDiagram
    rw [if_neg (not_not.2 hphase)]
    cases event with
    | nodeSelected id => rfl
    | edgeSelected id => rfl
    | _ => exact absurd hevent Bool.false_ne_true
  · rw [onDiagram_of_phase_ne hphase]

/-- An event that follows from a change of the text, and that is no selection, tells what the host
has measured or nothing. -/
theorem onDiagram_text (hphase : s.phase = .idle) {event : DiagramEvent}
    (hevent : event.isSelection = false) : s.onDiagram event .text = s.onFollowUp event := by
  unfold onDiagram
  rw [if_neg (not_not.2 hphase)]
  cases event with
  | nodeSelected id => exact absurd hevent.symm Bool.false_ne_true
  | edgeSelected id => exact absurd hevent.symm Bool.false_ne_true
  | _ => rfl

/-- What the host has measured is taken over if there is such a node, and nothing else is. -/
theorem onFollowUp_cases (s : Session) (event : DiagramEvent) :
    (∃ id size handles d, event = .measured id size handles ∧
      s.diagram.measured? id size handles = some d ∧
      s.onFollowUp event = (⟨some .text, [.patched]⟩, { s with diagram := d })) ∨
    ((∀ id size handles, event = .measured id size handles → id ∉ s.diagram.nodes.ids) ∧
      s.onFollowUp event = (.ignored, s)) := by
  cases event with
  | measured id size handles =>
      rw [onFollowUp]
      cases hd : s.diagram.measured? id size handles with
      | some d => exact Or.inl ⟨id, size, handles, d, rfl, hd, rfl⟩
      | none =>
          refine Or.inr ⟨?_, rfl⟩
          intro id' size' handles' heq
          cases heq
          exact Diagram.measured?_eq_none_iff.1 hd
  | _ => exact Or.inr ⟨(fun _ _ _ h => nomatch h), rfl⟩

/-- **What an event can do that follows from a change of the text**: it tells what a node measures,
and is taken over if there is such a node and no change is being applied; or it does nothing. -/
theorem onDiagram_text_cases (s : Session) (event : DiagramEvent) :
    (∃ id size handles d, event = .measured id size handles ∧ s.phase = .idle ∧
      s.diagram.measured? id size handles = some d ∧
      (s.onDiagram event .text).2 = { s with diagram := d }) ∨
    ((∀ id size handles, event = .measured id size handles → s.phase = .idle →
        id ∉ s.diagram.nodes.ids) ∧
      (s.onDiagram event .text).2 = s) := by
  by_cases hphase : s.phase = .idle
  · cases hevent : event.isSelection with
    | true =>
        refine Or.inr ⟨?_, onDiagram_of_isSelection s hevent .text⟩
        rintro id size handles rfl _
        exact absurd hevent Bool.false_ne_true
    | false =>
        rw [onDiagram_text hphase hevent]
        rcases s.onFollowUp_cases event with
          ⟨id, size, handles, d, hmeasured, hd, heq⟩ | ⟨hnone, heq⟩
        · exact Or.inl ⟨id, size, handles, d, hmeasured, hphase, hd, by rw [heq]⟩
        · refine Or.inr ⟨?_, by rw [heq]⟩
          intro id size handles hmeasured _
          exact hnone id size handles hmeasured
  · refine Or.inr ⟨?_, by rw [onDiagram_of_phase_ne hphase]⟩
    intro id size handles _ hidle
    exact absurd hidle hphase

/-- A line that is added is an effect, and so is a drawing without a line. -/
theorem WritesLine.effects_ne_nil {line : String} {effects : List Effect} {text : String}
    {echo : Option String} (h : s.WritesLine line effects text echo) : effects ≠ [] := by
  cases h with
  | regenerated => exact List.cons_ne_nil _ _
  | dropped => exact List.cons_ne_nil _ _

/-- **An event without effects changes nothing**, whatever it asked for. -/
theorem onDiagram_of_effects_eq_nil {event : DiagramEvent} {origin : Provenance}
    (h : (s.onDiagram event origin).1.effects = []) : (s.onDiagram event origin).2 = s := by
  by_cases hphase : s.phase = .idle
  · rcases onDiagram_cases hphase event origin with
      ⟨_, heq, -⟩ | ⟨d, _, _, -, heq, -⟩ | ⟨_, d, _, effects, _, _, -, hwrites, -, heq⟩
    · rw [heq]
    · rw [heq] at h
      exact absurd h (List.cons_ne_nil _ _)
    · rw [heq] at h
      exact absurd h hwrites.effects_ne_nil
  · rw [onDiagram_of_phase_ne hphase]

/-- **What an event leaves alone**, in whatever state it arrives.  One that follows from a change of
the text leaves everything but the diagram, and of that the positions, the ids and the edges; the
diagram itself changes only where the event tells what a node measures that is there, and then only
in the size and the handles of this node, and in the routes.  A selection leaves everything, and so
does every event that has no effects. -/
theorem onDiagram_frame (s : Session) (event : DiagramEvent) (origin : Provenance) :
    (origin = .text → ∃ d, (s.onDiagram event origin).2 = { s with diagram := d } ∧
      d.positions = s.diagram.positions ∧ d.nodes.ids = s.diagram.nodes.ids ∧
      d.edges = s.diagram.edges ∧
      ((∃ id size handles, event = .measured id size handles ∧ s.phase = .idle ∧
          d.IsMeasuredFrom s.diagram id size handles) ∨
        (d = s.diagram ∧ ∀ id size handles, event = .measured id size handles →
          s.phase = .idle → id ∉ s.diagram.nodes.ids))) ∧
    (event.isSelection = true → (s.onDiagram event origin).2 = s) ∧
    ((s.onDiagram event origin).1.effects = [] → (s.onDiagram event origin).2 = s) := by
  refine ⟨?_, ?_, onDiagram_of_effects_eq_nil⟩
  · rintro rfl
    rcases s.onDiagram_text_cases event with
      ⟨id, size, handles, d, hevent, hphase, hd, heq⟩ | ⟨hnone, heq⟩
    · have hmeasured := Diagram.isMeasuredFrom_of_measured? hd
      exact ⟨d, heq, hmeasured.positions, hmeasured.node_ids, hmeasured.edges_eq,
        Or.inl ⟨id, size, handles, hevent, hphase, hmeasured⟩⟩
    · exact ⟨s.diagram, heq, rfl, rfl, rfl, Or.inr ⟨rfl, hnone⟩⟩
  · intro hevent
    exact onDiagram_of_isSelection s hevent origin

end Session

end TextDiagram
