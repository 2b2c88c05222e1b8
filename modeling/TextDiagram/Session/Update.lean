/-
**Changes of a session.**

A change of the text replaces the diagram.  Where the new diagram has the nodes and edges of the old
one, it takes over their places; otherwise it is placed on the grid, and the layered engine asks for
a layout besides.  A change that comes back from the editor as the echo of an added line is dropped.

A change of the diagram patches it.  What is connected or added gets an id of its own and, if the
configuration says so, a line at the end of the text.

Main definitions:

* `TextDiagram.Session.onText?` — the text was changed, which has no answer where the grid placement
  has none;
* `TextDiagram.Session.onDiagram` — something happened on the diagram.

Main results:

* `TextDiagram.Session.onText?_of_echo` — an echo changes nothing but that it is no longer awaited.
-/

import TextDiagram.Session.Basic
import TextDiagram.Document.Reader
import TextDiagram.Statement.Writer
import TextDiagram.Diagram.Edit
import TextDiagram.Diagram.Measure
import TextDiagram.Placement.Position

set_option relaxedAutoImplicit false
set_option autoImplicit false

namespace TextDiagram.Session

/-! ### Changes of the text -/

/-- The diagram of a document, placed: where the diagram shown has the same nodes and edges, at
their places there, and otherwise on the grid. -/
def placedAnew? (s : Session) (fresh : Diagram Float32) : Option (Diagram Float32) :=
  if fresh.identity = s.identity then some (fresh.inheriting s.diagram)
  else (s.configuration.placing.onGrid? fresh).map fresh.placed

/-- What the host has to do when a diagram was replaced. -/
def replacement (s : Session) (identity : Identity) : List Effect :=
  if identity ≠ s.identity && s.configuration.placing.engine = .layered then
    [.replaced identity, .layoutRequested identity]
  else [.replaced identity]

/-- Makes the diagram of the text. -/
def applyText? (s : Session) : Option (Report × Session) :=
  match Document.ofText s.text with
  | .error error => some (⟨some .text, [.parseFailed error.line error.message]⟩, s)
  | .ok document =>
      let fresh := Diagram.ofDocument s.configuration.style document
      (s.placedAnew? fresh).map fun diagram =>
        (⟨some .text, s.replacement fresh.identity⟩,
          { s with diagram, identity := fresh.identity, sourceMap := document.sourceMap,
                   lastOrigin := some .text })

/-- The text was changed. -/
def onText? (s : Session) (text : String) : Option (Report × Session) :=
  if s.phase ≠ .idle then some (.ignored, s)
  else if s.echo = some text then some (.ignored, { s with echo := none })
  else
    (applyText? { s with echo := none, text, phase := .applyingText }).map fun (report, s) =>
      (report, { s with phase := .idle })

/-- An echo changes nothing but that it is no longer awaited. -/
theorem onText?_of_echo {s : Session} {text : String} (hphase : s.phase = .idle)
    (hecho : s.echo = some text) : s.onText? text = some (.ignored, { s with echo := none }) := by
  simp [onText?, hphase, hecho]

/-! ### Adding lines to the text -/

/-- A text with one more line. -/
def withLine (text line : String) : String :=
  if text.isEmpty || text.toList.getLast? = some '\n' then text ++ line else text ++ "\n" ++ line

/-- Adds the line of what was drawn, if the configuration says so. -/
def regenerated (s : Session) (line : String) : List Effect × Session :=
  if s.configuration.regenerateText then
    let text := withLine s.text line
    ([.textRegenerated text], { s with text, echo := some text })
  else ([], s)

/-! ### Changes of the diagram -/

/-- The session with its diagram patched, if there was anything to patch. -/
def patchedBy (s : Session) (diagram : Option (Diagram Float32)) : List Effect × Session :=
  match diagram with
  | some diagram => ([.patched], { s with diagram })
  | none => ([], s)

/-- The session with its diagram patched and a line for what was drawn. -/
def drawnBy (s : Session) (diagram : Diagram Float32) (line : String) : List Effect × Session :=
  let (effects, s) := regenerated { s with diagram } line
  (.patched :: effects, s)

/-- An arrow is drawn between two nodes. -/
def connect (s : Session) (source target : Id) : List Effect × Session :=
  match s.diagram.nodes.get? source, s.diagram.nodes.get? target with
  | some a, some b =>
      let (named, counter) := s.counter.allocate (Id.drawnEdge source target) s.diagram.ids
      let edge : Diagram.Edge := { source, target, kind := .arrow, origin := .diagram }
      let line := EdgeStatement.line { kind := .arrow, source := a.label, target := b.label }
      match s.diagram.withEdge? named.id edge with
      | some diagram => drawnBy { s with counter } diagram line
      | none => ([], { s with counter })
  | _, _ => ([], s)

/-- A node is added. -/
def addNode (s : Session) (position : Point Float32) : List Effect × Session :=
  let (named, counter) := s.counter.allocate (Id.numbered "node") s.diagram.ids
  let label := s!"Asset {named.number}"
  let node : Diagram.Node Float32 :=
    { kind := .default, position, label, color := some "blue", origin := .diagram
      size := nodeSize s.configuration.style label false false s.diagram.appearance.typeface }
  drawnBy { s with counter } (s.diagram.withNode named.id node) (nodeLine label [])

/-- A group is added. -/
def addGroup (s : Session) (position : Point Float32) : List Effect × Session :=
  let (named, counter) := s.counter.allocate (Id.numbered "group") s.diagram.ids
  let label := s!"Group {named.number}"
  let node : Diagram.Node Float32 :=
    { kind := .group, position, label, color := some "gray", origin := .diagram, size := groupSize }
  drawnBy { s with counter } (s.diagram.withNode named.id node) (nodeLine label [("type", "group")])

/-- Makes the change that an event asks for. -/
def applyEvent (s : Session) : DiagramEvent → List Effect × Session
  | .moved id position => s.patchedBy (s.diagram.moved? id position)
  | .connected source target => s.connect source target
  | .reconnected id source target => s.patchedBy (s.diagram.reconnected? id source target)
  | .nodeAdded position => s.addNode position
  | .groupAdded position => s.addGroup position
  | .measured id size handles => s.patchedBy (s.diagram.measured? id size handles)
  | .nodeSelected _ | .edgeSelected _ => ([], s)

/-- An event that follows from a change of the text: only what the host has measured counts. -/
def onFollowUp (s : Session) : DiagramEvent → Report × Session
  | .measured id size handles =>
      match s.diagram.measured? id size handles with
      | some diagram => (⟨some .text, [.patched]⟩, { s with diagram })
      | none => (.ignored, s)
  | _ => (.ignored, s)

/-- An event of someone who edits the diagram. -/
def onEdit (s : Session) (event : DiagramEvent) : Report × Session :=
  match applyEvent { s with phase := .applyingDiagram } event with
  | ([], changed) => (.ignored, { changed with phase := .idle })
  | (effects, changed) =>
      (⟨some .diagram, effects⟩,
        { changed with phase := .idle, identity := changed.diagram.identity,
                       lastOrigin := some .diagram })

/-- Something happened on the diagram. -/
def onDiagram (s : Session) (event : DiagramEvent) (origin : Provenance) : Report × Session :=
  if s.phase ≠ .idle then (.ignored, s)
  else
    match event, origin with
    | .nodeSelected id, _ => (s.onSelection ⟨.node, id⟩, s)
    | .edgeSelected id, _ => (s.onSelection ⟨.edge, id⟩, s)
    | event, .text => s.onFollowUp event
    | event, .diagram => s.onEdit event

end TextDiagram.Session
