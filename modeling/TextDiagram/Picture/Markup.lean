/-
**Markup.**

A picture is a tree of elements with attributes, and texts inside them.  It is written with the
attributes of an element in the order of their names, and with every child on lines of its own.
Escaping happens when the tree is written, and nowhere else.

Main definitions:

* `TextDiagram.Markup` — elements and texts;
* `TextDiagram.Markup.escapeValue`, `TextDiagram.Markup.escapeText` — values and texts as they are
  written;
* `TextDiagram.Markup.chars`, `TextDiagram.Markup.print` — a tree as it is written.
-/

import TextDiagram.Number.Decimal

set_option relaxedAutoImplicit false
set_option autoImplicit false

namespace TextDiagram

/-- The value of an attribute. -/
inductive AttributeValue where
  | text (value : String)
  | number (value : Float32)
  | count (value : Nat)
  deriving DecidableEq, Repr

/-- The text of the value of an attribute. -/
def AttributeValue.toText : AttributeValue → String
  | text value => value
  | number value => Number.text value
  | count value => toString value

/-- An attribute with its name. -/
structure Attribute where
  name : String
  value : AttributeValue
  deriving DecidableEq, Repr

/-- An attribute that is a word. -/
def Attribute.word (name value : String) : Attribute := ⟨name, .text value⟩

/-- An attribute that is a length. -/
def Attribute.length (name : String) (value : Float32) : Attribute := ⟨name, .number value⟩

/-- An attribute that is a count. -/
def Attribute.count (name : String) (value : Nat) : Attribute := ⟨name, .count value⟩

/-- A tree of elements and texts. -/
inductive Markup where
  | element (name : String) (attributes : List Attribute) (children : List Markup)
  | text (content : String)

namespace Markup

/-! ### Escaping -/

/-- A character inside a text. -/
def escapeTextChar : Char → List Char
  | '&' => "&amp;".toList
  | '<' => "&lt;".toList
  | '>' => "&gt;".toList
  | c => [c]

/-- A character inside the value of an attribute. -/
def escapeValueChar : Char → List Char
  | '"' => "&quot;".toList
  | '\'' => "&apos;".toList
  | c => escapeTextChar c

/-- A text as it is written. -/
def escapeText (text : List Char) : List Char := text.flatMap escapeTextChar

/-- The value of an attribute as it is written. -/
def escapeValue (value : List Char) : List Char := value.flatMap escapeValueChar

/-! ### Writing -/

/-- An attribute as it is written. -/
def attributeChars (a : Attribute) : List Char :=
  ' ' :: a.name.toList ++ '=' :: '"' :: escapeValue a.value.toText.toList ++ ['"']

/-- The opening of an element, up to its closing bracket. -/
def opening (name : String) (attributes : List Attribute) : List Char :=
  '<' :: name.toList ++
    (attributes.mergeSort fun a b => decide (a.name ≤ b.name)).flatMap attributeChars

/-- The end of an element that has children. -/
def closing (name : String) : List Char := '\n' :: '<' :: '/' :: name.toList ++ ['>']

mutual

/-- A tree as it is written. -/
def chars : Markup → List Char
  | text content => escapeText content.toList
  | element name attributes [] => opening name attributes ++ ['/', '>']
  | element name attributes (child :: rest) =>
      opening name attributes ++ '>' :: childrenChars (child :: rest) ++ closing name

/-- The children of an element as they are written. -/
def childrenChars : List Markup → List Char
  | [] => []
  | child :: rest => '\n' :: chars child ++ childrenChars rest

end

/-- A tree as it is written. -/
def print (m : Markup) : String := String.ofList m.chars

/-! ### Making trees -/

/-- An element without children. -/
def leaf (name : String) (attributes : List Attribute) : Markup := element name attributes []

/-- An element that holds a text. -/
def label (attributes : List Attribute) (content : String) : Markup :=
  element "text" attributes [text content]

end Markup

end TextDiagram
