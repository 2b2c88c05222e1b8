/-
**Sessions are coherent.**

Between two calls a session is idle, its diagram is sound, its identity is that of its diagram, the
source map knows only what is in the diagram, and an awaited echo is the text.  Every call keeps
this.  An event may extend the diagram, but takes nothing away; so whatever the source map knows is
still there.  Only a change of the text makes a new diagram, and then a new source map with it.

Main definitions:

* `TextDiagram.Session.IsCoherent` — the invariant of sessions;
* `TextDiagram.Session.IsEditOf` — what an event may do to a session.

Main results:

* `TextDiagram.Session.isEditOf_applyEvent` — **an event extends the diagram**, and with it perhaps
  the text;
* `TextDiagram.Session.IsCoherent.after` — every call that returns keeps a session coherent;
* `TextDiagram.Session.Reachable.isCoherent` — **every run leads to coherent sessions**, with a
  route for every edge.
-/

import TextDiagram.Proofs.Diagram.Document
import TextDiagram.Proofs.Session.Run

set_option relaxedAutoImplicit false
set_option autoImplicit false

namespace TextDiagram.Session

/-- The invariant of sessions between two calls. -/
structure IsCoherent (s : Session) : Prop where
  /-- Nothing is being applied. -/
  idle : s.phase = .idle
  /-- The edges join nodes, no id is used twice, and the routes are current. -/
  sound : s.diagram.IsSound
  /-- What the source map relates to lines is in the diagram and comes from lines. -/
  mapped : s.diagram.IsMappedBy s.sourceMap
  /-- The identity is that of the diagram. -/
  identity : s.identity = s.diagram.identity
  /-- The echo that is awaited is the text. -/
  echo : ∀ text, s.echo = some text → text = s.text

variable {s s' : Session}

theorem isCoherent_start (configuration : Configuration) : (start configuration).IsCoherent where
  idle := rfl
  sound := Diagram.isSound_empty
  mapped := ⟨fun _ _ h => absurd h List.not_mem_nil, fun _ _ h => absurd h List.not_mem_nil⟩
  identity := rfl
  echo := fun _ h => nomatch h

/-! ### Edits -/

/-- What an event may do to a session, given the effects that it reports: the diagram is extended,
and the text is left alone or else awaited as an echo. -/
structure IsEditOf (result : List Effect × Session) (s : Session) : Prop where
  /-- The diagram is still sound. -/
  sound : result.2.diagram.IsSound
  /-- The diagram has all that it had. -/
  extension : result.2.diagram.IsExtensionOf s.diagram
  /-- The source map and the configuration are kept, and the identity is not touched. -/
  kept : result.2.sourceMap = s.sourceMap ∧ result.2.configuration = s.configuration ∧
    result.2.identity = s.identity
  /-- Without effects the diagram is left alone. -/
  unchanged : result.1 = [] → result.2.diagram = s.diagram
  /-- The text is left alone, or it is awaited. -/
  echo : result.2.echo = s.echo ∧ result.2.text = s.text ∨ result.2.echo = some result.2.text

namespace IsEditOf

theorem nothing (hsound : s.diagram.IsSound) : IsEditOf ([], s) s :=
  ⟨hsound, .refl _, ⟨rfl, rfl, rfl⟩, fun _ => rfl, Or.inl ⟨rfl, rfl⟩⟩

/-- The counter plays no part in edits. -/
theorem of_counter {result : List Effect × Session} {counter : IdCounter}
    (h : IsEditOf result { s with counter }) : IsEditOf result s :=
  ⟨h.sound, h.extension, h.kept, h.unchanged, h.echo⟩

/-- A patch is an edit. -/
theorem patchedBy (hsound : s.diagram.IsSound) {patch : Option (Diagram Float32)}
    (hpatch : ∀ d, patch = some d → d.IsSound ∧ d.IsPatchOf s.diagram) :
    IsEditOf (s.patchedBy patch) s := by
  cases patch with
  | none => exact nothing hsound
  | some d =>
      obtain ⟨hd, hext⟩ := hpatch d rfl
      exact ⟨hd, hext.isExtensionOf, ⟨rfl, rfl, rfl⟩, fun h => absurd h (List.cons_ne_nil _ _),
        Or.inl ⟨rfl, rfl⟩⟩

/-- What is drawn is an edit, whether or not it becomes a line of the text. -/
theorem drawnBy {d : Diagram Float32} (hd : d.IsSound) (hext : d.IsExtensionOf s.diagram)
    (line : String) : IsEditOf (s.drawnBy d line) s := by
  unfold Session.drawnBy regenerated
  by_cases hregenerate : s.configuration.regenerateText = true
  · simp only [hregenerate, if_true]
    exact ⟨hd, hext, ⟨rfl, rfl, rfl⟩, fun h => absurd h (List.cons_ne_nil _ _), Or.inr rfl⟩
  · simp only [hregenerate]
    exact ⟨hd, hext, ⟨rfl, rfl, rfl⟩, fun h => absurd h (List.cons_ne_nil _ _),
      Or.inl ⟨rfl, rfl⟩⟩

/-- Drawing a node with an id of its own is an edit. -/
theorem withNode (hsound : s.diagram.IsSound) {id : Id} (hid : id ∉ s.diagram.ids)
    (counter : IdCounter) (n : Diagram.Node Float32) (line : String) :
    IsEditOf ({ s with counter }.drawnBy (s.diagram.withNode id n) line) s :=
  (drawnBy (s := { s with counter }) (hsound.withNode hid n) (.withNode hid n) line).of_counter

/-- Drawing an edge with an id of its own is an edit. -/
theorem withEdge (hsound : s.diagram.IsSound) {id : Id} (hid : id ∉ s.diagram.ids)
    (counter : IdCounter) {e : Diagram.Edge} {d : Diagram Float32}
    (hd : s.diagram.withEdge? id e = some d) (line : String) :
    IsEditOf ({ s with counter }.drawnBy d line) s :=
  (drawnBy (s := { s with counter }) (hsound.withEdge hid hd) (.withEdge hid hd) line).of_counter

end IsEditOf

/-- An arrow gets an id of its own, so it takes nothing away. -/
theorem isEditOf_connect (hsound : s.diagram.IsSound) (source target : Id) :
    IsEditOf (s.connect source target) s := by
  have hfree :
      (s.counter.allocate (Id.drawnEdge source target) s.diagram.ids).1.id ∉ s.diagram.ids :=
    IdCounter.allocate_id_notMem (Id.drawnEdge_injective source target)
  cases hjoins : s.diagram.joins source target with
  | false =>
      rw [connect_of_not_joins hjoins]
      exact .nothing hsound
  | true =>
      obtain ⟨e, d, line, -, hd, hconnect⟩ := connect_of_joins hjoins
      -- the echo plays no part here, so it may be the one that is awaited
      have hdrawn : s.connect source target = _ := hconnect s.echo
      rw [hdrawn]
      exact .withEdge hsound hfree _ hd line

/-- A node gets an id of its own, so it takes nothing away. -/
theorem isEditOf_addNode (hsound : s.diagram.IsSound) (position : Point Float32) :
    IsEditOf (s.addNode position) s :=
  .withNode hsound (IdCounter.allocate_id_notMem (Id.numbered_injective "node")) _ _ _

/-- A group gets an id of its own, so it takes nothing away. -/
theorem isEditOf_addGroup (hsound : s.diagram.IsSound) (position : Point Float32) :
    IsEditOf (s.addGroup position) s :=
  .withNode hsound (IdCounter.allocate_id_notMem (Id.numbered_injective "group")) _ _ _

/-- **An event extends the diagram**, and with it perhaps the text. -/
theorem isEditOf_applyEvent (hsound : s.diagram.IsSound) (event : DiagramEvent) :
    IsEditOf (s.applyEvent event) s := by
  cases event with
  | moved id position => exact .patchedBy hsound fun d hd => hsound.moved hd
  | connected source target => exact isEditOf_connect hsound source target
  | reconnected id source target => exact .patchedBy hsound fun d hd => hsound.reconnected hd
  | nodeAdded position => exact isEditOf_addNode hsound position
  | groupAdded position => exact isEditOf_addGroup hsound position
  | measured id size handles => exact .patchedBy hsound fun d hd => hsound.measured hd
  | nodeSelected id => exact .nothing hsound
  | edgeSelected id => exact .nothing hsound

/-! ### Calls -/

/-- A document is placed in one of two ways, and both keep its ids and draw all routes. -/
theorem isSound_placedAnew {fresh d : Diagram Float32} (hfresh : fresh.IsClosed)
    (hd : s.placedAnew? fresh = some d) : d.IsSound ∧ d.IsPatchOf fresh := by
  rcases placedAnew?_cases hd with rfl | ⟨positions, rfl⟩
  · exact hfresh.inheriting s.diagram
  · exact hfresh.placed positions

namespace IsCoherent

/-- A session may give up waiting. -/
theorem awaitingNone (h : s.IsCoherent) : (s.awaiting none).IsCoherent where
  idle := h.idle
  sound := h.sound
  mapped := h.mapped
  identity := h.identity
  echo := fun text htext => absurd htext.symm (Option.some_ne_none text)

/-- A new text makes a new diagram and a new source map that belong together. -/
theorem onText (h : s.IsCoherent) {text : String} {report : Report}
    (hs : s.onText? text = some (report, s')) : s'.IsCoherent := by
  rcases onText?_cases h.idle hs with ⟨-, -, rfl⟩ | ⟨-, document, d, hdocument, hd, -, rfl⟩
  · exact h.awaitingNone
  · have hvalid := Document.isSound_of_ofText hdocument
    obtain ⟨hsound, hpatch⟩ :=
      isSound_placedAnew (Diagram.isClosed_ofDocument s.configuration.style hvalid) hd
    have hmapped := Diagram.isMappedBy_ofDocument s.configuration.style hvalid
    exact ⟨rfl, hsound, hmapped.of_isExtensionOf hpatch.isExtensionOf, hpatch.identity_eq.symm,
      fun text htext => absurd htext.symm (Option.some_ne_none text)⟩

/-- After a change of the text, the text is the new one. -/
theorem text_of_onText? (h : s.IsCoherent) {text : String} {report : Report}
    (hs : s.onText? text = some (report, s')) :
    s'.text = text ∧ s'.configuration = s.configuration := by
  rcases onText?_cases h.idle hs with ⟨hecho, -, rfl⟩ | ⟨-, document, d, -, -, -, rfl⟩
  · exact ⟨(h.echo text hecho).symm, rfl⟩
  · exact ⟨rfl, rfl⟩

/-- A patch of the diagram keeps a session coherent. -/
theorem of_isPatchOf (h : s.IsCoherent) {d : Diagram Float32}
    (hd : d.IsSound ∧ d.IsPatchOf s.diagram) : IsCoherent { s with diagram := d } where
  idle := h.idle
  sound := hd.1
  mapped := h.mapped.of_isExtensionOf hd.2.isExtensionOf
  identity := h.identity.trans hd.2.identity_eq.symm
  echo := h.echo

/-- What the host has measured keeps a session coherent. -/
theorem onFollowUp (h : s.IsCoherent) (event : DiagramEvent) :
    (s.onFollowUp event).2.IsCoherent := by
  unfold Session.onFollowUp
  split
  · split
    · next hd => exact h.of_isPatchOf (h.sound.measured hd)
    · exact h
  · exact h

section IsEditOf

variable {result : List Effect × Session} {phase : Phase}

theorem mapped_of_isEditOf (h : s.IsCoherent) (hedit : IsEditOf result { s with phase }) :
    result.2.diagram.IsMappedBy result.2.sourceMap := by
  rw [hedit.kept.1]
  exact h.mapped.of_isExtensionOf hedit.extension

theorem echo_of_isEditOf (h : s.IsCoherent) (hedit : IsEditOf result { s with phase }) :
    ∀ text, result.2.echo = some text → text = result.2.text := by
  intro text htext
  rcases hedit.echo with ⟨hecho, hsame⟩ | hecho
  · rw [hsame]
    exact h.echo text (hecho ▸ htext)
  · exact Option.some.inj (htext.symm.trans hecho)

end IsEditOf

theorem onEdit (h : s.IsCoherent) (event : DiagramEvent) : (s.onEdit event).2.IsCoherent := by
  have hedit := isEditOf_applyEvent (s := { s with phase := .applyingDiagram }) h.sound event
  have hmapped := h.mapped_of_isEditOf hedit
  have hecho := h.echo_of_isEditOf hedit
  unfold Session.onEdit
  split
  · next changed heq =>
      -- there are no effects, so the diagram and its identity are what they were
      rw [heq] at hedit hmapped hecho
      have hidentity : changed.identity = changed.diagram.identity := by
        rw [hedit.kept.2.2, hedit.unchanged rfl]
        exact h.identity
      exact ⟨rfl, hedit.sound, hmapped, hidentity, hecho⟩
  · next heq =>
      rw [heq] at hedit hmapped hecho
      exact ⟨rfl, hedit.sound, hmapped, rfl, hecho⟩

theorem onDiagram (h : s.IsCoherent) (event : DiagramEvent) (origin : Provenance) :
    (s.onDiagram event origin).2.IsCoherent := by
  unfold Session.onDiagram
  rw [if_neg (not_not.2 h.idle)]
  split
  · exact h
  · exact h
  · exact h.onFollowUp event
  · exact h.onEdit event

/-- A request changes nothing but the number of the last ticket. -/
theorem requestLayout (h : s.IsCoherent) : s.requestLayout.2.IsCoherent :=
  ⟨h.idle, h.sound, h.mapped, h.identity, h.echo⟩

theorem completeLayout (h : s.IsCoherent) (ticket : Ticket) (result : ServiceResult) :
    (s.completeLayout ticket result).2.IsCoherent := by
  rcases s.completeLayout_cases ticket result with heq | ⟨positions, heq⟩
  · rwa [heq]
  · rw [heq]
    exact h.of_isPatchOf (h.sound.placed positions)

/-- Every call that returns keeps a session coherent. -/
theorem after (h : s.IsCoherent) {call : Call} (hs : s.after? call = some s') : s'.IsCoherent := by
  cases call with
  | textChanged text =>
      obtain ⟨⟨report, s₁⟩, hs₁, rfl⟩ := Option.map_eq_some_iff.1 hs
      exact h.onText hs₁
  | diagramChanged event origin =>
      obtain rfl := Option.some.inj hs
      exact h.onDiagram event origin
  | cursorMoved line =>
      obtain rfl := Option.some.inj hs
      exact h
  | layoutRequested =>
      obtain rfl := Option.some.inj hs
      exact h.requestLayout
  | layoutCompleted ticket result =>
      obtain rfl := Option.some.inj hs
      exact h.completeLayout ticket result

end IsCoherent

/-! ### Runs -/

theorem Reachable.coherent {configuration : Configuration} (h : Reachable configuration s) :
    s.IsCoherent := by
  induction h with
  | start => exact isCoherent_start configuration
  | call call _ hs ih => exact ih.after hs

/-- **Every run leads to coherent sessions**, with a route for every edge, in the order of the
edges. -/
theorem Reachable.isCoherent {configuration : Configuration} (h : Reachable configuration s) :
    s.IsCoherent ∧ s.diagram.routes.ids = s.diagram.edges.ids :=
  ⟨h.coherent, h.coherent.sound.routes_ids⟩

/-- A loop that is drawn on a node of the text: its echo is awaited, and it has a route. -/
theorem isCoherent_loop :
    ∃ s, Reachable { regenerateText := true } s ∧ s.echo = some "A\nA > A" ∧
      s.diagram.edges.ids = ["A-A-1"] ∧
      s.IsCoherent ∧ s.diagram.routes.ids = s.diagram.edges.ids := by
  have h : Reachable { regenerateText := true } _ := Reachable.start.getD (.textChanged "A")
  have h := h.getD (.diagramChanged (.connected "A" "A") .diagram)
  exact ⟨_, h, by decide +kernel, by decide +kernel, h.isCoherent⟩

end TextDiagram.Session
