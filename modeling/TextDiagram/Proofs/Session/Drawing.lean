/-
**What drawing does to a session.**

Nodes, groups and arrows can be drawn.  A node or a group can always be drawn, an arrow only between
nodes.  What can be drawn is patched into the diagram and, if the configuration says so, makes the
text longer by a line; the longer text is then awaited as an echo, whatever was awaited before.

Main definitions:

* `TextDiagram.Drawing` — what can be drawn, and whether it can be drawn in a session;
* `TextDiagram.Session.Draws` — an edit draws something, whatever echo is awaited.

Main results:

* `TextDiagram.Session.onDiagram_of_isPossible`, `TextDiagram.Session.onDiagram_of_not_isPossible` —
  **what is drawn makes a longer text that is awaited**, and what cannot be drawn changes nothing.
-/

import TextDiagram.Session.Update

set_option relaxedAutoImplicit false
set_option autoImplicit false

namespace TextDiagram

/-! ### Drawings -/

/-- What can be drawn. -/
inductive Drawing where
  | node (position : Point Float32)
  | group (position : Point Float32)
  | arrow (source target : Id)

namespace Drawing

/-- The event of a drawing. -/
def event : Drawing → DiagramEvent
  | node position => .nodeAdded position
  | group position => .groupAdded position
  | arrow source target => .connected source target

/-- Whether something can be drawn: an arrow needs two nodes. -/
def isPossible (s : Session) : Drawing → Bool
  | node _ | group _ => true
  | arrow source target => s.diagram.joins source target

end Drawing

namespace Session

variable {s : Session}

/-- A session that awaits another echo. -/
def awaiting (s : Session) (echo : Option String) : Session := { s with echo }

/-! ### Lines -/

/-- A line makes a text longer, unless it is empty. -/
theorem length_lt_withLine {line : String} (hline : line ≠ "") (text : String) :
    text.length < (withLine text line).length := by
  have hpos : 0 < line.length := Nat.pos_of_ne_zero (mt String.length_eq_zero_iff.1 hline)
  unfold withLine
  split <;> simp only [String.length_append] <;> omega

/-- The line of an edge is not empty. -/
theorem edgeLine_ne_empty (e : EdgeStatement) (hlabel : e.label = none) (hcolor : e.color = none) :
    e.line ≠ "" := by
  simp [EdgeStatement.line, hlabel, hcolor, toString, String.append_eq_empty_iff]

/-- The line of a node is not empty if its label is not. -/
theorem nodeLine_ne_empty {name : String} (hname : name ≠ "") (entries : List (String × String)) :
    nodeLine name entries ≠ "" := by
  unfold nodeLine
  split
  · exact hname
  · simp [toString, String.append_eq_empty_iff]

/-! ### Single edits -/

/-- An edit draws something with a line that is not empty, whatever echo is awaited. -/
def Draws (s : Session) (edit : Session → List Effect × Session) : Prop :=
  ∃ counter d line, line ≠ "" ∧
    ∀ echo, edit (s.awaiting echo) = drawnBy { s.awaiting echo with counter } d line

/-- An arrow between nodes gets an edge of its own, and a line with the labels of the nodes. -/
theorem connect_of_get? {source target : Id} {a b : Diagram.Node Float32}
    (ha : s.diagram.nodes.get? source = some a) (hb : s.diagram.nodes.get? target = some b) :
    ∃ d,
      s.diagram.withEdge? (s.counter.allocate (Id.drawnEdge source target) s.diagram.ids).1.id
        { source, target, kind := .arrow, origin := .diagram } = some d ∧
      ∀ echo, (s.awaiting echo).connect source target =
        drawnBy { s.awaiting echo with counter :=
            (s.counter.allocate (Id.drawnEdge source target) s.diagram.ids).2 }
          d (EdgeStatement.line { kind := .arrow, source := a.label, target := b.label }) := by
  rcases hnamed : s.counter.allocate (Id.drawnEdge source target) s.diagram.ids with
    ⟨named, counter⟩
  have hjoins : s.diagram.joins source target = true := by
    simp [Diagram.joins, Catalog.contains, ha, hb]
  obtain ⟨d, hd⟩ : ∃ d, s.diagram.withEdge? named.id
      { source, target, kind := .arrow, origin := .diagram } = some d := ⟨_, if_pos hjoins⟩
  refine ⟨d, hd, ?_⟩
  intro echo
  simp only [connect, awaiting, ha, hb, hnamed]
  rw [hd]

/-- An arrow between nodes gets an edge of its own. -/
theorem connect_of_joins {source target : Id} (h : s.diagram.joins source target = true) :
    ∃ e d line, line ≠ "" ∧
      s.diagram.withEdge? (s.counter.allocate (Id.drawnEdge source target) s.diagram.ids).1.id e =
        some d ∧
      ∀ echo, (s.awaiting echo).connect source target =
        drawnBy { s.awaiting echo with counter :=
          (s.counter.allocate (Id.drawnEdge source target) s.diagram.ids).2 } d line := by
  obtain ⟨hsource, htarget⟩ := Bool.and_eq_true_iff.1 h
  obtain ⟨a, ha⟩ := Option.isSome_iff_exists.1 hsource
  obtain ⟨b, hb⟩ := Option.isSome_iff_exists.1 htarget
  obtain ⟨d, hd, hconnect⟩ := connect_of_get? ha hb
  exact ⟨_, d, _, edgeLine_ne_empty _ rfl rfl, hd, hconnect⟩

/-- An arrow that has no node at one end is not drawn. -/
theorem connect_of_not_joins {source target : Id} (h : s.diagram.joins source target = false) :
    s.connect source target = ([], s) := by
  unfold connect
  split
  · next hsource htarget =>
      simp [Diagram.joins, Catalog.contains, hsource, htarget] at h
  · rfl

theorem draws_connect {source target : Id} (h : s.diagram.joins source target = true) :
    s.Draws fun s => s.connect source target := by
  obtain ⟨_, d, line, hline, -, hconnect⟩ := connect_of_joins h
  exact ⟨_, d, line, hline, hconnect⟩

theorem draws_addNode (position : Point Float32) : s.Draws fun s => s.addNode position := by
  let named := s.counter.allocate (Id.numbered "node") s.diagram.ids
  let label := s!"Asset {named.1.number}"
  let node : Diagram.Node Float32 :=
    { kind := .default, position, label, color := some "blue", origin := .diagram
      size := nodeSize s.configuration.style label false false s.diagram.appearance.typeface }
  have hlabel : label ≠ "" := by simp [label, toString, String.append_eq_empty_iff]
  exact ⟨named.2, s.diagram.withNode named.1.id node, _, nodeLine_ne_empty hlabel [], fun _ => rfl⟩

theorem draws_addGroup (position : Point Float32) : s.Draws fun s => s.addGroup position := by
  let named := s.counter.allocate (Id.numbered "group") s.diagram.ids
  let label := s!"Group {named.1.number}"
  let node : Diagram.Node Float32 :=
    { kind := .group, position, label, color := some "gray", origin := .diagram, size := groupSize }
  have hlabel : label ≠ "" := by simp [label, toString, String.append_eq_empty_iff]
  exact ⟨named.2, s.diagram.withNode named.1.id node, _,
    nodeLine_ne_empty hlabel [("type", "group")], fun _ => rfl⟩

/-! ### Drawings of a session -/

theorem draws_applyEvent {x : Drawing} (h : x.isPossible s = true) :
    s.Draws fun s => s.applyEvent x.event := by
  cases x with
  | node position => exact draws_addNode position
  | group position => exact draws_addGroup position
  | arrow source target => exact draws_connect h

/-- A drawing is the edit of someone who draws. -/
theorem onDiagram_event (hphase : s.phase = .idle) (x : Drawing) :
    s.onDiagram x.event .diagram = s.onEdit x.event := by
  cases x <;> simp [onDiagram, hphase, Drawing.event]

theorem onEdit_of_nil (event : DiagramEvent) {changed : Session}
    (h : applyEvent { s with phase := .applyingDiagram } event = ([], changed)) :
    s.onEdit event = (.ignored, { changed with phase := .idle }) := by
  rw [onEdit, h]

theorem onEdit_of_cons {event : DiagramEvent} {effect : Effect} {effects : List Effect}
    {changed : Session}
    (h : applyEvent { s with phase := .applyingDiagram } event = (effect :: effects, changed)) :
    s.onEdit event =
      (⟨some .diagram, effect :: effects⟩,
        { changed with phase := .idle, identity := changed.diagram.identity,
                       lastOrigin := some .diagram }) := by
  simp only [onEdit, h]

theorem drawnBy_of_regenerateText (hregenerate : s.configuration.regenerateText = true)
    (d : Diagram Float32) (line : String) :
    s.drawnBy d line =
      ([.patched, .textRegenerated (withLine s.text line)],
        { s with diagram := d, text := withLine s.text line,
                 echo := some (withLine s.text line) }) := by
  simp only [drawnBy, regenerated, hregenerate, if_true]

theorem drawnBy_of_not_regenerateText (hregenerate : s.configuration.regenerateText = false)
    (d : Diagram Float32) (line : String) :
    s.drawnBy d line = ([.patched], { s with diagram := d }) := by
  simp only [drawnBy, regenerated, hregenerate, Bool.false_eq_true, if_false]

/-- The edit of someone who draws, in a session that adds lines to its text. -/
theorem onEdit_of_drawnBy (hregenerate : s.configuration.regenerateText = true)
    {event : DiagramEvent} {counter : IdCounter} {d : Diagram Float32} {line : String}
    (h : applyEvent { s with phase := .applyingDiagram } event =
      drawnBy { s with phase := .applyingDiagram, counter } d line) :
    s.onEdit event = (⟨some .diagram, [.patched, .textRegenerated (withLine s.text line)]⟩,
      { s with counter, diagram := d, text := withLine s.text line,
               echo := some (withLine s.text line), phase := .idle, identity := d.identity,
               lastOrigin := some .diagram }) := by
  let drawing : Session := { s with phase := .applyingDiagram, counter }
  have hdrawn := drawnBy_of_regenerateText (s := drawing) hregenerate d line
  exact onEdit_of_cons (h.trans hdrawn)

/-- **What is drawn makes a longer text that is awaited**, whatever was awaited before. -/
theorem onDiagram_of_isPossible (hphase : s.phase = .idle)
    (hregenerate : s.configuration.regenerateText = true) {x : Drawing}
    (h : x.isPossible s = true) :
    ∃ s', s.text.length < s'.text.length ∧ s'.echo = some s'.text ∧
      s'.configuration = s.configuration ∧
      ∀ echo, (s.awaiting echo).onDiagram x.event .diagram =
        (⟨some .diagram, [.patched, .textRegenerated s'.text]⟩, s') := by
  obtain ⟨counter, d, line, hline, hdraw⟩ :=
    draws_applyEvent (s := { s with phase := .applyingDiagram }) (x := x) (by cases x <;> exact h)
  refine ⟨{ s with counter, diagram := d, text := withLine s.text line,
                   echo := some (withLine s.text line), phase := .idle, identity := d.identity,
                   lastOrigin := some .diagram },
    length_lt_withLine hline s.text, rfl, rfl, ?_⟩
  intro echo
  rw [onDiagram_event (s := s.awaiting echo) hphase]
  exact onEdit_of_drawnBy (s := s.awaiting echo) hregenerate (hdraw echo)

/-- What cannot be drawn changes nothing. -/
theorem onDiagram_of_not_isPossible (hphase : s.phase = .idle) {x : Drawing}
    (h : x.isPossible s = false) : s.onDiagram x.event .diagram = (.ignored, s) := by
  rw [onDiagram_event hphase]
  cases x with
  | node position => exact nomatch h
  | group position => exact nomatch h
  | arrow source target =>
      have hconnect := connect_of_not_joins (s := { s with phase := .applyingDiagram }) h
      refine (onEdit_of_nil (s := s) (.connected source target) hconnect).trans ?_
      congr 1
      obtain ⟨⟩ := s
      congr 1
      exact hphase.symm

end Session

end TextDiagram
