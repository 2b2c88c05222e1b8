/-
**Runs of a session.**

A host reports changes of the text and of the diagram, moves of the cursor, and asks for layouts, in
any order.  Every call takes the session to its next state, except for a change of the text that the
grid placement has no answer to: that one does not return.

Main definitions:

* `TextDiagram.Session.Call`, `TextDiagram.Session.after?`, `TextDiagram.Session.afterAll?` — what a
  host can call, and the session after a call or after some;
* `TextDiagram.Session.Reachable` — the sessions that runs lead to.

Main results:

* `TextDiagram.Session.onText?_cases` — **what a change of the text can do**: it is an echo, or it
  makes the diagram anew;
* `TextDiagram.Session.placedAnew?_cases`, `TextDiagram.Session.completeLayout_cases` — how a
  diagram is placed, and what an answer to a request can do;
* `TextDiagram.Session.Reachable.getD`, `TextDiagram.Session.Reachable.afterAll` — calls lead on
  from where a run has led.
-/

import TextDiagram.Session.Layout
import TextDiagram.Proofs.Document.Reader
import TextDiagram.Proofs.Session.Drawing

set_option relaxedAutoImplicit false
set_option autoImplicit false

namespace TextDiagram.Session

/-! ### Calls -/

/-- What a host can call. -/
inductive Call where
  | textChanged (text : String)
  | diagramChanged (event : DiagramEvent) (origin : Provenance)
  | cursorMoved (line : Nat)
  | layoutRequested
  | layoutCompleted (ticket : Ticket) (result : ServiceResult)

/-- The session after a call, if the call returns. -/
def after? (s : Session) : Call → Option Session
  | .textChanged text => (s.onText? text).map Prod.snd
  | .diagramChanged event origin => some (s.onDiagram event origin).2
  | .cursorMoved _ => some s
  | .layoutRequested => some s.requestLayout.2
  | .layoutCompleted ticket result => some (s.completeLayout ticket result).2

/-- The session after some calls, if all of them return. -/
def afterAll? (s : Session) : List Call → Option Session
  | [] => some s
  | call :: calls => (s.after? call).bind fun s => s.afterAll? calls

/-- Calls one after the other can be made in two parts. -/
theorem afterAll?_append (s : Session) (calls calls' : List Call) :
    s.afterAll? (calls ++ calls') = (s.afterAll? calls).bind fun s => s.afterAll? calls' := by
  induction calls generalizing s with
  | nil => rfl
  | cons call calls ih =>
      simp only [List.cons_append, afterAll?]
      cases s.after? call with
      | none => rfl
      | some s' => simpa only [Option.bind_some] using ih s'

/-- A call of a run that returns is made in some state, and it returns. -/
theorem exists_after?_of_mem {s s' : Session} {calls : List Call} {call : Call}
    (hs : s.afterAll? calls = some s') (hcall : call ∈ calls) :
    ∃ before s₁ s₂, before ++ [call] <+: calls ∧ s.afterAll? before = some s₁ ∧
      s₁.after? call = some s₂ ∧ s.afterAll? (before ++ [call]) = some s₂ := by
  obtain ⟨before, after, rfl⟩ := List.append_of_mem hcall
  rw [afterAll?_append] at hs
  obtain ⟨s₁, hs₁, hs⟩ := Option.bind_eq_some_iff.1 hs
  obtain ⟨s₂, hs₂, -⟩ := Option.bind_eq_some_iff.1 hs
  refine ⟨before, s₁, s₂, ⟨after, by simp⟩, hs₁, hs₂, ?_⟩
  rw [afterAll?_append, hs₁, Option.bind_some, afterAll?, hs₂, Option.bind_some, afterAll?]

/-- **What a change of the text can do** to an idle session: it is the echo that is awaited, or it
makes the diagram of the new text.  Either way, nothing is awaited any more. -/
theorem onText?_cases {s s' : Session} (hphase : s.phase = .idle) {text : String} {report : Report}
    (hs : s.onText? text = some (report, s')) :
    (s.echo = some text ∧ report = .ignored ∧ s' = s.awaiting none) ∨
    (s.echo ≠ some text ∧ ∃ document diagram, Document.ofText text = .ok document ∧
      s.placedAnew? (Diagram.ofDocument s.configuration.style document) = some diagram ∧
      report = ⟨some .text,
        s.replacement (Diagram.ofDocument s.configuration.style document).identity⟩ ∧
      s' = { s with
        phase := .idle, lastOrigin := some .text, text, diagram, echo := none
        identity := (Diagram.ofDocument s.configuration.style document).identity
        sourceMap := document.sourceMap }) := by
  rw [onText?, if_neg (not_not.2 hphase)] at hs
  split at hs
  · next hecho =>
      obtain ⟨rfl, rfl⟩ := Prod.mk.inj (Option.some.inj hs)
      exact Or.inl ⟨hecho, rfl, rfl⟩
  · next hecho =>
      -- reading the text does not fail, so only the placement can keep the call from returning
      obtain ⟨document, hdocument, -⟩ := Document.exists_isSound text
      rw [applyText?, hdocument] at hs
      simp only [Option.map_map, Option.map_eq_some_iff] at hs
      obtain ⟨diagram, hdiagram, heq⟩ := hs
      obtain ⟨rfl, rfl⟩ := Prod.mk.inj heq
      exact Or.inr ⟨hecho, document, diagram, hdocument, hdiagram, rfl, rfl⟩

/-- **A diagram is placed in one of two ways**: its nodes inherit the places that are shown, or they
are put at positions. -/
theorem placedAnew?_cases {s : Session} {fresh d : Diagram Float32}
    (hd : s.placedAnew? fresh = some d) :
    d = fresh.inheriting s.diagram ∨ ∃ positions, d = fresh.placed positions := by
  rw [placedAnew?] at hd
  split at hd
  · exact Or.inl (Option.some.inj hd).symm
  · obtain ⟨positions, -, rfl⟩ := Option.map_eq_some_iff.1 hd
    exact Or.inr ⟨positions, rfl⟩

/-- **What an answer to a request can do**: nothing, or the nodes are put at positions. -/
theorem completeLayout_cases (s : Session) (ticket : Ticket) (result : ServiceResult) :
    (s.completeLayout ticket result).2 = s ∨ ∃ positions,
      (s.completeLayout ticket result).2 = { s with diagram := s.diagram.placed positions } := by
  unfold completeLayout
  split
  · exact Or.inl rfl
  · cases result with
    | error error => exact Or.inl rfl
    | ok placed => exact Or.inr ⟨merged s.diagram.positions (.ok placed), rfl⟩

/-- A session before any call. -/
def start (configuration : Configuration) : Session := { configuration }

/-- The sessions that calls lead to, all of which return. -/
inductive Reachable (configuration : Configuration) : Session → Prop
  | start : Reachable configuration (start configuration)
  | call {s s' : Session} (call : Call) :
      Reachable configuration s → s.after? call = some s' → Reachable configuration s'

/-- A call that returns leads on, and any other one is as if it was not made. -/
theorem Reachable.getD {configuration : Configuration} {s : Session} (h : Reachable configuration s)
    (call : Call) : Reachable configuration ((s.after? call).getD s) := by
  cases hs : s.after? call with
  | none => exact h
  | some s' => exact .call call h hs

theorem Reachable.afterAll {configuration : Configuration} {s s' : Session} {calls : List Call}
    (h : Reachable configuration s) (hs : s.afterAll? calls = some s') :
    Reachable configuration s' := by
  induction calls generalizing s with
  | nil => exact Option.some.inj hs ▸ h
  | cons call calls ih =>
      obtain ⟨s₁, hcall, hs⟩ := Option.bind_eq_some_iff.1 hs
      exact ih (.call call h hcall) hs

end TextDiagram.Session
