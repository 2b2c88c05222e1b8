/-
**The lines of a text.**

Lines are counted from zero and separated by line feeds.  A text therefore always has at least one
line, and a text that ends in a line feed has an empty last line, as an editor counts.  A carriage
return before a line feed stays in the line and is dropped when the line is trimmed.

Main definitions:

* `TextDiagram.Text.lines` — the lines of a text;
* `TextDiagram.Text.numberedLines` — the lines with their numbers;
* `TextDiagram.Text.lineSpan` — the bytes that a line takes in a text, for pointing at it;
* `TextDiagram.Text.displayLines` — the lines that a label is drawn in.
-/

import TextDiagram.Text.Cut

set_option relaxedAutoImplicit false
set_option autoImplicit false

namespace TextDiagram.Text

/-! ### Lines of a source text -/

/-- The lines of a text, in order. -/
def lines (text : String) : List String := (pieces '\n' text.toList).map String.ofList

/-- The lines of a text with their numbers, counted from zero. -/
def numberedLines (text : String) : List (Nat × String) :=
  (lines text).zipIdx.map fun (line, number) => (number, line)

/-! ### Where a line stands -/

/-- A run of bytes in a text: where it starts and how many bytes it has. -/
structure Span where
  offset : Nat
  length : Nat
  deriving DecidableEq, Repr

/-- The number of bytes of a text in UTF-8. -/
def byteLength : List Char → Nat
  | [] => 0
  | c :: rest => c.utf8Size + byteLength rest

/-- The pieces of a text with the separators that end them.  Nothing follows a separator that ends
the text. -/
def endedPieces (separator : Char) : List Char → List (List Char)
  | [] => []
  | c :: rest =>
      if c = separator then [c] :: endedPieces separator rest
      else
        match endedPieces separator rest with
        | [] => [[c]]
        | piece :: others => (c :: piece) :: others

/-- A line without the line feeds and carriage returns at its end. -/
def withoutEnd (line : List Char) : List Char :=
  (line.reverse.dropWhile fun c => c = '\n' || c = '\r').reverse

/-- The span of the piece with the given number among the remaining pieces, of which the first
starts at the byte `offset`. -/
def spanFrom (offset : Nat) : List (List Char) → Nat → Option Span
  | [], _ => none
  | piece :: _, 0 => some ⟨offset, byteLength (withoutEnd piece)⟩
  | piece :: rest, number + 1 => spanFrom (offset + byteLength piece) rest number

/-- The bytes that a line takes in a text, without the carriage returns at its end.  An empty last
line has no span: nothing could be pointed at. -/
def lineSpan (text : String) (number : Nat) : Option Span :=
  spanFrom 0 (endedPieces '\n' text.toList) number

/-! ### Lines of a label -/

/-- A line that was ended by a line feed, without a carriage return before it. -/
def withoutReturn (line : List Char) : List Char :=
  if line.getLast? = some '\r' then line.dropLast else line

/-- The lines that a label is drawn in: a final line feed opens no further line, and a carriage
return belongs to the line feed after it. -/
def displayLines (label : String) : List (List Char) :=
  let all := pieces '\n' label.toList
  let last := all.getLastD []
  all.dropLast.map withoutReturn ++ (if last.isEmpty then [] else [last])

end TextDiagram.Text
