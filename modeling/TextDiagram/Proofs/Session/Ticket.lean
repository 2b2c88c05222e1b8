/-
**Late answers.**

A layout is asked for with a ticket, and its answer may come after any number of other calls.  It
comes too late exactly when another layout was asked for in between, or when the diagram has other
nodes or edges than at the time of the request; it does not matter what the diagram was like
meanwhile.  The number of a ticket tells the first, as only requests count the number up.  The
identity on it tells the second, as it is that of the diagram at all times.

Main definitions:

* `TextDiagram.Session.Call.isRequest` — the calls that ask for a layout.

Main results:

* `TextDiagram.Session.generation_afterAll?` — the number of the last ticket counts the requests;
* `TextDiagram.Session.Reachable.isStale_ticket_iff` — which tickets are stale after some calls;
* `TextDiagram.Session.Reachable.completeLayout_answer` — **an answer is dropped exactly when it
  comes too late**, and otherwise the nodes follow it.
-/

import TextDiagram.Proofs.Diagram.Identity
import TextDiagram.Proofs.Diagram.Placement
import TextDiagram.Proofs.Session.Coherence
import TextDiagram.Proofs.Session.Event

set_option relaxedAutoImplicit false
set_option autoImplicit false

namespace TextDiagram.Session

variable {s s' : Session}

/-! ### Counting requests -/

/-- Whether a call asks for a layout. -/
def Call.isRequest : Call → Bool
  | .layoutRequested => true
  | _ => false

theorem Call.isRequest_iff {call : Call} : call.isRequest = true ↔ call = .layoutRequested := by
  cases call <;> simp [isRequest]

theorem generation_onDiagram (hphase : s.phase = .idle) (event : DiagramEvent)
    (origin : Provenance) : (s.onDiagram event origin).2.generation = s.generation := by
  rcases onDiagram_cases hphase event origin with
    ⟨_, heq, -⟩ | ⟨_, _, _, -, heq, -⟩ | ⟨_, _, _, _, _, _, -, -, -, heq⟩
  all_goals rw [heq]

theorem generation_completeLayout (ticket : Ticket) (result : ServiceResult) :
    (s.completeLayout ticket result).2.generation = s.generation := by
  rcases s.completeLayout_cases ticket result with heq | ⟨positions, heq⟩
  · rw [heq]
  · rw [heq]

/-- Only a request counts the number of the last ticket up. -/
theorem IsCoherent.generation_after? (h : s.IsCoherent) {call : Call}
    (hs : s.after? call = some s') :
    s'.generation = s.generation + if call.isRequest then 1 else 0 := by
  cases call with
  | textChanged text =>
      obtain ⟨⟨report, s₁⟩, hs₁, rfl⟩ := Option.map_eq_some_iff.1 hs
      rcases onText?_cases h.idle hs₁ with ⟨-, -, rfl⟩ | ⟨-, document, d, -, -, -, rfl⟩ <;> rfl
  | diagramChanged event origin =>
      obtain rfl := Option.some.inj hs
      exact generation_onDiagram h.idle event origin
  | cursorMoved line =>
      obtain rfl := Option.some.inj hs
      rfl
  | layoutRequested =>
      obtain rfl := Option.some.inj hs
      rfl
  | layoutCompleted ticket result =>
      obtain rfl := Option.some.inj hs
      exact generation_completeLayout ticket result

/-- The number of the last ticket counts the requests. -/
theorem IsCoherent.generation_afterAll? (h : s.IsCoherent) {calls : List Call}
    (hs : s.afterAll? calls = some s') :
    s'.generation = s.generation + calls.countP Call.isRequest := by
  induction calls generalizing s with
  | nil =>
      obtain rfl := Option.some.inj hs
      rfl
  | cons call calls ih =>
      obtain ⟨s₁, hcall, hs⟩ := Option.bind_eq_some_iff.1 hs
      have hfirst := h.generation_after? hcall
      have hrest := ih (h.after hcall) hs
      rw [List.countP_cons, hrest, hfirst]
      omega

/-! ### Answers -/

/-- The ticket of a request is stale if another one was handed out since, or if the diagram has
other nodes or edges by now. -/
theorem Reachable.isStale_ticket_iff {configuration : Configuration} (h : Reachable configuration s)
    {calls : List Call} (hs : s.requestLayout.2.afterAll? calls = some s') :
    s'.isStale s.requestLayout.1.ticket = true ↔
      .layoutRequested ∈ calls ∨ ¬ s'.diagram.HasIdsOf s.diagram := by
  have hrequested : Reachable configuration s.requestLayout.2 := .call .layoutRequested h rfl
  have hgeneration := hrequested.coherent.generation_afterAll? hs
  have hticket : s.requestLayout.1.ticket.generation ≠ s'.generation ↔
      .layoutRequested ∈ calls := by
    have hcount : 0 < calls.countP Call.isRequest ↔ .layoutRequested ∈ calls := by
      simp only [List.countP_pos_iff, Call.isRequest_iff, exists_eq_right]
    rw [← hcount, hgeneration]
    simp only [requestLayout]
    omega
  have hidentity : s.requestLayout.1.ticket.identity ≠ s'.identity ↔
      ¬ s'.diagram.HasIdsOf s.diagram := by
    -- both identities are those of the diagrams at their times
    rw [← Diagram.identity_eq_iff, ← (hrequested.afterAll hs).coherent.identity,
      ← h.coherent.identity]
    exact ne_comm
  rw [isStale_iff, hticket, hidentity, or_comm]

/-- **An answer is dropped exactly when it comes too late**: after another request, or when the
diagram has other nodes or edges than at the time of the request.  Otherwise a failure is reported,
or the nodes follow the answer; and nothing changes but the diagram, and that only if the answer is
followed. -/
theorem Reachable.completeLayout_answer {configuration : Configuration}
    (h : Reachable configuration s) {calls : List Call}
    (hs : s.requestLayout.2.afterAll? calls = some s') (result : ServiceResult) :
    ∃ outcome s₁, s'.completeLayout s.requestLayout.1.ticket result = (outcome, s₁) ∧
      (outcome = .stale ↔ .layoutRequested ∈ calls ∨ ¬ s'.diagram.HasIdsOf s.diagram) ∧
      (outcome ≠ .applied → s₁ = s') ∧
      (outcome ≠ .stale →
        (∀ error, result = .error error → outcome = .failed error) ∧
        ∀ placed, result = .ok placed → outcome = .applied ∧
          s₁ = { s' with diagram := s₁.diagram } ∧ s₁.diagram.Follows s'.diagram placed) := by
  have hiff := h.isStale_ticket_iff hs
  cases hstale : s'.isStale s.requestLayout.1.ticket with
  | true =>
      refine ⟨.stale, s', completeLayout_of_isStale hstale result, ?_, fun _ => rfl, ?_⟩
      · exact ⟨fun _ => hiff.1 hstale, fun _ => rfl⟩
      · intro hne
        exact absurd rfl hne
  | false =>
      rw [hstale] at hiff
      have hintime : ∀ outcome : LayoutOutcome, outcome ≠ .stale →
          (outcome = .stale ↔ .layoutRequested ∈ calls ∨ ¬ s'.diagram.HasIdsOf s.diagram) := by
        intro outcome hne
        exact ⟨fun heq => absurd heq hne, fun hlate => nomatch hiff.2 hlate⟩
      cases result with
      | error error =>
          refine ⟨_, _, completeLayout_error hstale error, hintime _ (by simp), fun _ => rfl, ?_⟩
          intro _
          refine ⟨?_, fun _ heq => nomatch heq⟩
          intro error' heq
          rw [Except.error.inj heq]
      | ok placed =>
          refine ⟨_, _, completeLayout_ok hstale placed, hintime _ (by simp), ?_, ?_⟩
          · intro hne
            exact absurd rfl hne
          · intro _
            refine ⟨(fun _ heq => nomatch heq), ?_⟩
            intro placed' heq
            obtain rfl := Except.ok.inj heq
            exact ⟨rfl, rfl, s'.diagram.follows_placed placed⟩

/-- A node is moved and a comment is added to the text before the answer comes, which is in time:
the diagram has the node that it had.  So the node is where the answer places it. -/
theorem completeLayout_answer_in_time :
    ∃ s s' s₁, Reachable {} s ∧
      s.requestLayout.2.afterAll?
        [.diagramChanged (.moved "A" ⟨1, 2⟩) .diagram, .textChanged "A\n// note"] = some s' ∧
      s'.completeLayout s.requestLayout.1.ticket (.ok (.ofList [("A", ⟨5, 7⟩)])) = (.applied, s₁) ∧
      s₁.diagram.Follows s'.diagram (.ofList [("A", ⟨5, 7⟩)]) ∧
      s'.diagram.nodes.ids = ["A"] := by
  have h : Reachable {} _ := Reachable.start.getD (.textChanged "A")
  set s : Session := (after? (start {}) (.textChanged "A")).getD (start {})
  let calls : List Call :=
    [.diagramChanged (.moved "A" ⟨1, 2⟩) .diagram, .textChanged "A\n// note"]
  have hany : (s.requestLayout.2.afterAll? calls).any (fun s' =>
      decide (s'.diagram.identity = s.diagram.identity) &&
        decide (s'.diagram.nodes.ids = ["A"])) = true := by
    decide +kernel
  obtain ⟨s', hs', hsame⟩ := (Option.any_eq_true _ _).1 hany
  obtain ⟨hidentity, hids⟩ := Bool.and_eq_true_iff.1 hsame
  have hsame := Diagram.identity_eq_iff.1 (of_decide_eq_true hidentity)
  obtain ⟨outcome, s₁, hcomplete, hstale, -, hintime⟩ :=
    h.completeLayout_answer hs' (.ok (.ofList [("A", ⟨5, 7⟩)]))
  have hne : outcome ≠ .stale := by
    intro heq
    rcases hstale.1 heq with hrequested | hother
    · simp [calls] at hrequested
    · exact hother hsame
  obtain ⟨rfl, -, hfollows⟩ := (hintime hne).2 _ rfl
  exact ⟨s, s', s₁, h, hs', hcomplete, hfollows, of_decide_eq_true hids⟩

end TextDiagram.Session
