/-
**Reading documents.**

The statements of a text are applied in order.  The first mention of a name makes its node: an edge
that names an unknown node makes a bare one, and no later declaration replaces it.

Generated ids are valid node names too.  So all names of the text are reserved before anything is
applied, and a generated id that is one of them is primed until it is free: an id names one thing.

Main definitions:

* `TextDiagram.statements` — the statements of a text with their lines;
* `TextDiagram.Draft` — a document in the making, with the steps that apply a statement;
* `TextDiagram.Document.ofText` — the document of a text.
-/

import TextDiagram.Text.Lines
import TextDiagram.Statement.Reader
import TextDiagram.Document.Basic

set_option relaxedAutoImplicit false
set_option autoImplicit false

namespace TextDiagram

/-! ### Errors -/

/-- Why statements do not make a document. -/
inductive ParseError where
  | danglingEdge (line : Nat) (edge endpoint : Id)
  | sourceMap (conflict : MapConflict)
  deriving DecidableEq, Repr

namespace ParseError

/-- What is said of an error. -/
def message : ParseError → String
  | danglingEdge line edge endpoint =>
      s!"edge `{edge}` on line {line} references unknown node `{endpoint}`"
  | sourceMap conflict => s!"source map conflict: {conflict.message}"

/-- The line that an error is reported on. -/
def line : ParseError → Nat
  | danglingEdge line _ _ => line
  | sourceMap conflict => conflict.line

end ParseError

/-! ### Statements of a text -/

/-- The statements of a text with the numbers of their lines. -/
def statements (text : String) : List (Nat × Statement) :=
  (Text.numberedLines text).filterMap fun (number, line) =>
    (Statement.ofLine? line).map fun statement => (number, statement)

/-- The names of all nodes that statements mention, in order of mention. -/
def mentionedNames (given : List (Nat × Statement)) : List Id :=
  given.flatMap fun (_, statement) => statement.names

/-! ### Drafts -/

/-- A document in the making, with the names that no generated id may have. -/
structure Draft where
  document : Document := {}
  reserved : List Id := []

namespace Draft

/-- Relates a line to what it made. -/
def relate (draft : Draft) (line : Nat) (kind : EntityKind) (id : Id) : Except ParseError Draft :=
  match draft.document.sourceMap.insert line ⟨kind, id⟩ with
  | .ok sourceMap => .ok { draft with document := { draft.document with sourceMap } }
  | .error conflict => .error (.sourceMap conflict)

/-- Whether there is a node of a name. -/
def hasNode (draft : Draft) (id : Id) : Bool := draft.document.nodes.any fun n => n.id = id

/-- Adds a node unless there is one of its name. -/
def ensureNode (draft : Draft) (node : Document.Node) : Draft :=
  if draft.hasNode node.id then draft
  else
    { draft with document := { draft.document with nodes := draft.document.nodes ++ [node] } }

/-- Adds an edge. -/
def addEdge (draft : Draft) (edge : Document.Edge) : Draft :=
  { draft with document := { draft.document with edges := draft.document.edges ++ [edge] } }

/-- Takes over the setting of a directive, if it has one. -/
def set (draft : Draft) (directive : Directive) : Draft :=
  let d := draft.document
  let a := d.appearance
  let changed := match directive with
    | .direction (some direction) => { d with direction }
    | .colorMode (some colorMode) => { d with appearance := { a with colorMode } }
    | .styleMode (some styleMode) => { d with appearance := { a with styleMode } }
    | .typeface (some typeface) => { d with appearance := { a with typeface } }
    | _ => d
  { draft with document := changed }

/-- The kind of entity that a directive makes. -/
def entityKind : Directive → EntityKind
  | .direction _ => .direction
  | _ => .style

/-- Applies a directive. -/
def applyDirective (draft : Draft) (line : Nat) (directive : Directive) : Except ParseError Draft :=
  let kind := entityKind directive
  (draft.set directive).relate line kind
    (Id.primedUntilFree draft.reserved (Id.numbered kind.name line))

/-- Applies an edge statement: it mentions its source, then its target. -/
def applyEdge (draft : Draft) (line : Nat) (e : EdgeStatement) : Except ParseError Draft :=
  let mentioned := (draft.ensureNode (.bare e.source (.line line))).ensureNode
    (.bare e.target (.line line))
  let edge := Document.Edge.onLine e.source e.target e.kind line e.label e.color
  let id := Id.primedUntilFree draft.reserved edge.id
  (mentioned.addEdge { edge with id }).relate line .edge id

/-- Applies a node statement.  The first one of a name is the node's line, even where an edge has
mentioned the name before. -/
def applyNode (draft : Draft) (line : Nat) (n : NodeStatement) : Except ParseError Draft :=
  let declared := draft.ensureNode
    { id := n.name, label := n.name, icon := n.icon, color := n.color, parent := n.parent,
      isGroup := n.isGroup, appearance := some draft.document.appearance, origin := .line line }
  if declared.document.sourceMap.contains ⟨.node, n.name⟩ then .ok declared
  else declared.relate line .node n.name

/-- Applies the statement of a line. -/
def apply (draft : Draft) : Nat × Statement → Except ParseError Draft
  | (line, .directive directive) => draft.applyDirective line directive
  | (line, .edge e) => draft.applyEdge line e
  | (line, .node n) => draft.applyNode line n

/-- The first end of an edge that is no node. -/
def danglingEnd? (draft : Draft) : Option ParseError :=
  draft.document.edges.findSome? fun edge =>
    [edge.source, edge.target].findSome? fun endpoint =>
      if draft.hasNode endpoint then none
      else some (.danglingEdge (edge.origin.line?.getD 0) edge.id endpoint)

/-- The document of a draft whose edges all join nodes. -/
def finish (draft : Draft) : Except ParseError Document :=
  match draft.danglingEnd? with
  | some error => .error error
  | none => .ok draft.document

end Draft

/-- The document that statements make. -/
def Document.ofStatements (given : List (Nat × Statement)) : Except ParseError Document := do
  let start : Draft := { reserved := mentionedNames given }
  let draft ← given.foldlM Draft.apply start
  draft.finish

/-- The document of a text. -/
def Document.ofText (text : String) : Except ParseError Document :=
  Document.ofStatements (statements text)

end TextDiagram
