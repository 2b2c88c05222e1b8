/-
**Reading statements.**

A line is first classified, by looking no further than its first word and the connectors in it, and
then taken apart.  Reading never fails on a line: a line that does not fit its class says nothing.

Main definitions:

* `TextDiagram.LineClass.of` — the class of a line;
* `TextDiagram.Statement.ofLine?` — what a line says.

Main results:

* `TextDiagram.connectorIn?_eq_none_iff` — a text without connectors.
-/

import TextDiagram.Text.Blank
import TextDiagram.Text.Cut
import TextDiagram.Statement.Basic

set_option relaxedAutoImplicit false
set_option autoImplicit false

namespace TextDiagram

open Text

/-! ### Classes of lines -/

/-- The keywords of the directives. -/
inductive Keyword where
  | direction
  | colorMode
  | styleMode
  | typeface
  deriving DecidableEq, Repr

namespace Keyword

/-- The keyword as it is written. -/
def word : Keyword → String
  | direction => "direction"
  | colorMode => "colorMode"
  | styleMode => "styleMode"
  | typeface => "typeface"

/-- The keyword that a word is. -/
def ofWord? (text : List Char) : Option Keyword :=
  [direction, colorMode, styleMode, typeface].find? fun k => k.word.toList = text

end Keyword

/-- The class of a line. -/
inductive LineClass where
  | blank
  | comment
  | directive (keyword : Keyword)
  | edge (kind : EdgeKind)
  | node
  deriving DecidableEq, Repr

/-- The kind of edge whose connector occurs in a text, the first in the order of precedence. -/
def connectorIn? (text : List Char) : Option EdgeKind :=
  EdgeKind.precedence.find? fun k => occursIn k.connector.toList text

/-- A text has no connector when none of the six occurs in it. -/
theorem connectorIn?_eq_none_iff {text : List Char} :
    connectorIn? text = none ↔ ∀ k : EdgeKind, occursIn k.connector.toList text = false := by
  simp only [connectorIn?, List.find?_eq_none, Bool.not_eq_true]
  exact ⟨fun h k => h k (EdgeKind.mem_precedence k), fun h k _ => h k⟩

namespace LineClass

/-- The class of a line: blank lines and comments first, then the directives by their first word,
then the edges by their connector.  Everything else declares a node. -/
def of (line : List Char) : LineClass :=
  if line.isEmpty then blank
  else if ['/', '/'].isPrefixOf line then comment
  else
    match Keyword.ofWord? (firstWord line) with
    | some keyword => directive keyword
    | none =>
        match connectorIn? line with
        | some kind => edge kind
        | none => node

/-- Whether lines of a class can never say anything. -/
def isIgnorable : LineClass → Bool
  | blank | comment => true
  | _ => false

end LineClass

/-! ### Properties -/

/-- The properties between two brackets: entries separated by commas, each a key and a value around
its first colon.  An entry without a colon is dropped. -/
def properties (block : List Char) : List (List Char × List Char) :=
  (pieces ',' block).filterMap fun entry =>
    (cutAround [':'] entry).map fun (key, value) => (trim key, trim value)

/-- The text of a part of a statement, if there is any. -/
def nonEmpty? (text : List Char) : Option String :=
  if text.isEmpty then none else some (String.ofList text)

/-! ### Directives -/

/-- The word after a keyword: it follows spaces and tabs and ends at the first blank. -/
def directiveWord (afterKeyword : List Char) : List Char :=
  (afterKeyword.dropWhile fun c => c = ' ' || c = '\t').takeWhile (!isBlank ·)

/-- The setting that a keyword and its word ask for. -/
def Directive.ofWord (keyword : Keyword) (word : String) : Directive :=
  match keyword with
  | .direction => .direction (Direction.ofName? word)
  | .colorMode => .colorMode (ColorMode.ofName? word)
  | .styleMode => .styleMode (StyleMode.ofName? word)
  | .typeface => .typeface (Typeface.ofName? word)

/-! ### Edges -/

/-- The label and the color of an edge, from the text after its colon.  The first closed pair of
brackets holds the color; the label is what stands around it. -/
def edgeDetails (text : List Char) : Option String × Option String :=
  let block := (cutAround ['['] text).bind fun (before, rest) =>
    (cutAround [']'] rest).map fun (inside, after) => (before, inside, after)
  match block with
  | none => (nonEmpty? (trim text), none)
  | some (before, inside, after) =>
      let color := (properties inside).find? fun (key, _) => key = "color".toList
      (nonEmpty? (trim (before ++ after)), color.map fun (_, value) => String.ofList value)

/-- The edge that a line draws: its connector stands between the source and the target, and a colon
ends the target.  Without a source or a target there is no edge. -/
def EdgeStatement.ofLine? (kind : EdgeKind) (line : List Char) : Option EdgeStatement := do
  let (before, after) ← cutAround kind.connector.toList line
  let (target, details) := match cutAround [':'] after with
    | some (target, details) => (target, edgeDetails details)
    | none => (after, (none, none))
  let source ← nonEmpty? (trim before)
  let target ← nonEmpty? (trim target)
  return ⟨kind, source, target, details.1, details.2⟩

/-! ### Nodes -/

/-- A declaration with one more property.  A later entry of a key replaces an earlier one, an empty
value takes the property away, and other keys mean nothing. -/
def NodeStatement.withProperty (node : NodeStatement) (key value : List Char) : NodeStatement :=
  let given := nonEmpty? value
  if key = "icon".toList then { node with icon := given }
  else if key = "color".toList then { node with color := given }
  else if key = "parent".toList then { node with parent := given }
  else if key = "type".toList then { node with isGroup := given = some "group" }
  else node

/-- The node that a line declares: the text before the first opening bracket is its name, and the
properties reach from there to the last closing bracket.  Brackets that are never closed hold
nothing. -/
def NodeStatement.ofLine? (line : List Char) : Option NodeStatement := do
  let name ← nonEmpty? (trim (line.takeWhile (· ≠ '[')))
  let block := (beforeLast ']' ((line.dropWhile (· ≠ '[')).drop 1)).getD []
  return (properties block).foldl (fun node (key, value) => node.withProperty key value) { name }

/-! ### Lines -/

/-- What a trimmed line of a given class says. -/
def Statement.ofClass? (line : List Char) : LineClass → Option Statement
  | .blank | .comment => none
  | .directive keyword =>
      let word := directiveWord (line.drop keyword.word.toList.length)
      some (.directive (Directive.ofWord keyword (String.ofList word)))
  | .edge kind => (EdgeStatement.ofLine? kind line).map .edge
  | .node => (NodeStatement.ofLine? line).map .node

/-- What a line says, if it says anything. -/
def Statement.ofLine? (line : String) : Option Statement :=
  let trimmed := trim line.toList
  ofClass? trimmed (LineClass.of trimmed)

end TextDiagram
