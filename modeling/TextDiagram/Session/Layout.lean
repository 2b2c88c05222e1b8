/-
**Layouts of a session.**

A layout takes its time, and the diagram may change meanwhile.  So a request is handed out with a
ticket, and its answer is taken over only if the ticket is the last one handed out and the diagram
still has the nodes and edges that it had.

Main definitions:

* `TextDiagram.Ticket`, `TextDiagram.LayoutJob` — what a host gets that asks for a layout;
* `TextDiagram.Session.requestLayout`, `TextDiagram.Session.completeLayout` — handing out a request
  and taking over its answer;
* `TextDiagram.Session.runLayout` — both at once.

Main results:

* `TextDiagram.Session.completeLayout_of_isStale`, `TextDiagram.Session.completeLayout_error`,
  `TextDiagram.Session.completeLayout_ok` — an answer that is stale or a failure changes nothing,
  and any other one is merged with the positions shown.
-/

import TextDiagram.Session.Basic
import TextDiagram.Diagram.Edit
import TextDiagram.Placement.Service

set_option relaxedAutoImplicit false
set_option autoImplicit false

namespace TextDiagram

/-- Which request a layout answers, and for which nodes and edges. -/
structure Ticket where
  identity : Identity
  generation : Nat
  deriving DecidableEq, Repr

/-- A request with its ticket. -/
structure LayoutJob where
  ticket : Ticket
  request : LayoutRequest
  deriving DecidableEq, Repr

/-- What came of an answer. -/
inductive LayoutOutcome where
  | applied
  | stale
  | failed (error : ServiceError)
  deriving DecidableEq, Repr

namespace Session

/-- Hands out a request for the diagram.  All tickets handed out before become stale. -/
def requestLayout (s : Session) : LayoutJob × Session :=
  let generation := s.generation + 1
  let request := LayoutRequest.ofDiagram s.configuration.placing.layered s.diagram
  (⟨⟨s.identity, generation⟩, request⟩, { s with generation })

/-- Whether a ticket is not the last one, or the diagram has other nodes or edges by now. -/
def isStale (s : Session) (ticket : Ticket) : Bool :=
  ticket.identity ≠ s.identity || ticket.generation ≠ s.generation

/-- Takes over an answer, unless it comes too late. -/
def completeLayout (s : Session) (ticket : Ticket) (result : ServiceResult) :
    LayoutOutcome × Session :=
  if s.isStale ticket then (.stale, s)
  else
    match result with
    | .error error => (.failed error, s)
    | .ok placed =>
        let positions := merged s.diagram.positions (.ok placed)
        (.applied, { s with diagram := s.diagram.placed positions })

/-- Requests a layout of a service and takes over its answer. -/
def runLayout (s : Session) (service : LayoutService) : LayoutOutcome × Session :=
  let (job, s) := s.requestLayout
  s.completeLayout job.ticket (service job.request)

/-- The answer to a stale ticket changes nothing. -/
theorem completeLayout_of_isStale {s : Session} {ticket : Ticket} (h : s.isStale ticket = true)
    (result : ServiceResult) : s.completeLayout ticket result = (.stale, s) := by
  simp [completeLayout, h]

theorem isStale_iff {s : Session} {ticket : Ticket} :
    s.isStale ticket = true ↔ ticket.identity ≠ s.identity ∨ ticket.generation ≠ s.generation := by
  simp [isStale]

/-- A failure in time changes nothing. -/
theorem completeLayout_error {s : Session} {ticket : Ticket} (h : s.isStale ticket = false)
    (error : ServiceError) : s.completeLayout ticket (.error error) = (.failed error, s) := by
  simp [completeLayout, h]

/-- An answer in time is merged with the positions shown. -/
theorem completeLayout_ok {s : Session} {ticket : Ticket} (h : s.isStale ticket = false)
    (placed : Catalog (Point Float32)) :
    s.completeLayout ticket (.ok placed) =
      (.applied, { s with
        diagram := s.diagram.placed (merged s.diagram.positions (.ok placed)) }) := by
  simp [completeLayout, h]

end Session

end TextDiagram
