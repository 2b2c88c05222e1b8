/-
**Documents.**

A document is what a diagram text says as a whole: its nodes and edges in order, the direction and
the appearance that hold at its end, and which line made what.

Main definitions:

* `TextDiagram.Origin` — where a node or an edge comes from;
* `TextDiagram.Document.Node`, `TextDiagram.Document.Edge`, `TextDiagram.Document` — the parts of a
  document and the whole.
-/

import TextDiagram.Vocabulary
import TextDiagram.Document.SourceMap

set_option relaxedAutoImplicit false
set_option autoImplicit false

namespace TextDiagram

/-! ### Origins -/

/-- Where a node or an edge comes from: a line of the text, or the drawn diagram. -/
inductive Origin where
  | line (number : Nat)
  | diagram
  deriving DecidableEq, Repr

namespace Origin

/-- The line of an origin. -/
def line? : Origin → Option Nat
  | line number => some number
  | diagram => none

/-- The greatest number that a line is reported with. -/
def maxNumber : Nat := Nat.pow 2 63 - 1

/-- The number that an origin is reported with, which is -1 for what was drawn. -/
def number : Origin → Int
  | line n => min n maxNumber
  | diagram => -1

end Origin

/-! ### Documents -/

namespace Document

/-- A node of a document.  A node that was only mentioned has no appearance of its own. -/
structure Node where
  id : Id
  label : String
  icon : Option String := none
  color : Option String := none
  parent : Option Id := none
  isGroup : Bool := false
  appearance : Option Appearance := none
  origin : Origin
  deriving DecidableEq, Repr

/-- The node that a mention makes. -/
def Node.bare (id : Id) (origin : Origin) : Node := { id, label := id, origin }

/-- An edge of a document. -/
structure Edge where
  id : Id
  source : Id
  target : Id
  kind : EdgeKind
  label : Option String := none
  color : Option String := none
  origin : Origin
  deriving DecidableEq, Repr

/-- The edge that stands on a line.  An empty label is none. -/
def Edge.onLine (source target : Id) (kind : EdgeKind) (line : Nat) (label color : Option String) :
    Edge where
  id := Id.edge source target line
  source := source
  target := target
  kind := kind
  label := label.filter (· ≠ "")
  color := color
  origin := .line line

end Document

/-- What a diagram text says as a whole. -/
structure Document where
  nodes : List Document.Node := []
  edges : List Document.Edge := []
  direction : Direction := .right
  appearance : Appearance := {}
  sourceMap : SourceMap := {}
  deriving DecidableEq, Repr, Inhabited

namespace Document

/-- The first node of an id. -/
def node? (d : Document) (id : Id) : Option Node := d.nodes.find? fun n => n.id = id

/-- The first edge of an id. -/
def edge? (d : Document) (id : Id) : Option Edge := d.edges.find? fun e => e.id = id

end Document

end TextDiagram
