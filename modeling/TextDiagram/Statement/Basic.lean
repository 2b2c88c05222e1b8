/-
**Statements.**

A line of a diagram text says at most one thing: it sets a direction or a part of the appearance,
draws an edge, or declares a node.

Main definitions:

* `TextDiagram.Directive` — the setting that a directive asks for;
* `TextDiagram.EdgeStatement`, `TextDiagram.NodeStatement` — edges and nodes as they are written;
* `TextDiagram.Statement` — what a line says;
* `TextDiagram.Statement.names` — the nodes that a statement mentions.
-/

import TextDiagram.Vocabulary
import TextDiagram.Identifier

set_option relaxedAutoImplicit false
set_option autoImplicit false

namespace TextDiagram

/-- The setting that a directive asks for.  There is none when its word is not in the vocabulary. -/
inductive Directive where
  | direction (value : Option Direction)
  | colorMode (value : Option ColorMode)
  | styleMode (value : Option StyleMode)
  | typeface (value : Option Typeface)
  deriving DecidableEq, Repr

/-- An edge as it is written. -/
structure EdgeStatement where
  kind : EdgeKind
  source : String
  target : String
  label : Option String := none
  color : Option String := none
  deriving DecidableEq, Repr

/-- A node as it is declared. -/
structure NodeStatement where
  name : String
  icon : Option String := none
  color : Option String := none
  parent : Option String := none
  isGroup : Bool := false
  deriving DecidableEq, Repr

/-- What a line says. -/
inductive Statement where
  | directive (directive : Directive)
  | edge (edge : EdgeStatement)
  | node (node : NodeStatement)
  deriving DecidableEq, Repr

/-- The names of the nodes that a statement mentions, in order. -/
def Statement.names : Statement → List Id
  | directive _ => []
  | edge e => [e.source, e.target]
  | node n => [n.name]

end TextDiagram
