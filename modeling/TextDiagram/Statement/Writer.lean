/-
**Writing statements.**

What is drawn on a diagram is added to its text as further lines.  A line holds an edge or a node
in the form that the language gives them; whether it is read back as the same statement depends on
the characters of its parts.

Main definitions:

* `TextDiagram.EdgeStatement.line` — the line of an edge;
* `TextDiagram.nodeLine` — the line of a node with its properties.
-/

import TextDiagram.Statement.Basic

set_option relaxedAutoImplicit false
set_option autoImplicit false

namespace TextDiagram

/-- A property as it is written. -/
def propertyText (key value : String) : String := s!"{key}: {value}"

/-- Properties as they are written between brackets. -/
def propertyBlock (entries : List (String × String)) : String :=
  "[" ++ ", ".intercalate (entries.map fun (key, value) => propertyText key value) ++ "]"

/-- The line of an edge. -/
def EdgeStatement.line (e : EdgeStatement) : String :=
  let ends := s!"{e.source} {e.kind.connector} {e.target}"
  let block := fun (color : String) => propertyBlock [("color", color)]
  match e.label, e.color with
  | none, none => ends
  | some label, none => s!"{ends}: {label}"
  | none, some color => s!"{ends}: {block color}"
  | some label, some color => s!"{ends}: {label} {block color}"

/-- The line of a node with properties, or of its bare name. -/
def nodeLine (name : String) (entries : List (String × String)) : String :=
  if entries.isEmpty then name else s!"{name} {propertyBlock entries}"

end TextDiagram
