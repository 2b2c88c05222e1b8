/-
**Sessions.**

A session keeps a text and its diagram in step while both are edited.  The text is the master: a
change of it makes the diagram anew.  What is drawn on the diagram stays on the diagram, and can be
added to the text as further lines; the editor then shows the longer text and reports it as a
change, which is to change nothing.

Main definitions:

* `TextDiagram.DiagramEvent` — what can happen on a diagram;
* `TextDiagram.Effect`, `TextDiagram.Report` — what the host has to do;
* `TextDiagram.Session` — the text, the diagram, and what relates them;
* `TextDiagram.Session.onCursor`, `TextDiagram.Session.onSelection`, `TextDiagram.Session.lineFor` —
  looking up the lines of entities and the entities of lines.

Main results:

* `TextDiagram.Session.lineFor_of_isDrawn` — what was drawn has no line.
-/

import TextDiagram.Diagram.Basic
import TextDiagram.Configuration.Basic

set_option relaxedAutoImplicit false
set_option autoImplicit false

namespace TextDiagram

/-! ### Events -/

/-- Which side a change comes from. -/
inductive Provenance where
  | text
  | diagram
  deriving DecidableEq, Repr

/-- The name of a side. -/
def Provenance.name : Provenance → String
  | text => "text"
  | diagram => "diagram"

/-- What can happen on a diagram. -/
inductive DiagramEvent where
  | moved (id : Id) (position : Point Float32)
  | connected (source target : Id)
  | reconnected (id source target : Id)
  | nodeAdded (position : Point Float32)
  | groupAdded (position : Point Float32)
  | measured (id : Id) (size : Size Float32) (handles : List (Handle Float32))
  | nodeSelected (id : Id)
  | edgeSelected (id : Id)
  deriving DecidableEq, Repr

/-! ### Reports -/

/-- What the host has to do after an event. -/
inductive Effect where
  | replaced (identity : Identity)
  | patched
  | textRegenerated (text : String)
  | lineHighlighted (line : Nat)
  | entityFocused (entity : Entity)
  | layoutRequested (identity : Identity)
  | parseFailed (line : Nat) (message : String)
  deriving DecidableEq, Repr

/-- What came of an event: the side whose change was applied, if one was, and what to do. -/
structure Report where
  origin : Option Provenance := none
  effects : List Effect := []
  deriving DecidableEq, Repr

/-- Nothing came of an event. -/
def Report.ignored : Report := {}

/-! ### Sessions -/

/-- What a session is doing. -/
inductive Phase where
  | idle
  | applyingText
  | applyingDiagram
  deriving DecidableEq, Repr

/-- The name of a phase. -/
def Phase.name : Phase → String
  | idle => "Idle"
  | applyingText => "ApplyingFromText"
  | applyingDiagram => "ApplyingFromDiagram"

/-- A text and its diagram, with the text that the editor is expected to report back. -/
structure Session where
  configuration : Configuration := {}
  phase : Phase := .idle
  lastOrigin : Option Provenance := none
  text : String := ""
  diagram : Diagram Float32 := {}
  sourceMap : SourceMap := {}
  identity : Identity := .of [] []
  generation : Nat := 0
  counter : IdCounter := {}
  echo : Option String := none

namespace Session

/-! ### Lines and entities -/

/-- The line of a selected entity is highlighted. -/
def onSelection (s : Session) (entity : Entity) : Report :=
  match s.sourceMap.lineOf? entity with
  | some line => ⟨none, [.lineHighlighted line]⟩
  | none => .ignored

/-- The entity of the line under the cursor is focused. -/
def onCursor (s : Session) (line : Nat) : Report :=
  match s.sourceMap.entityAt? line with
  | some entity => ⟨none, [.entityFocused entity]⟩
  | none => .ignored

/-- Where the node, or else the edge, of an id comes from. -/
def originOf? (s : Session) (id : Id) : Option Origin :=
  (s.diagram.nodes.get? id).map Diagram.Node.origin <|>
    (s.diagram.edges.get? id).map Diagram.Edge.origin

/-- The line of an id, which is -1 for what was drawn and for what has no line. -/
def lineFor (s : Session) (id : Id) : Int :=
  if s.originOf? id = some .diagram then -1
  else
    match s.sourceMap.lineOfId? id with
    | some line => if line ≤ Origin.maxNumber then line else -1
    | none => -1

/-- What was drawn has no line. -/
theorem lineFor_of_isDrawn {s : Session} {id : Id} (h : s.originOf? id = some .diagram) :
    s.lineFor id = -1 := by
  simp [lineFor, h]

end Session

end TextDiagram
