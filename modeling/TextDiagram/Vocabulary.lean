/-
**The words of the diagram language.**

A few words of a diagram text have a fixed meaning: the directions a diagram can flow in, the three
choices of an appearance, and the six connectors of an edge.

Main definitions:

* `TextDiagram.Direction`, `TextDiagram.ColorMode`, `TextDiagram.StyleMode`,
  `TextDiagram.Typeface` — the values of the directives, with their names;
* `TextDiagram.Appearance` — the choices that a node is drawn with;
* `TextDiagram.EdgeKind` — the kinds of edges, with their connectors in order of precedence.

Main results:

* `TextDiagram.Direction.ofName?_name` and its companions — a name is read back.
-/

set_option relaxedAutoImplicit false
set_option autoImplicit false

namespace TextDiagram

/-! ### Directions -/

/-- The direction that a diagram flows in. -/
inductive Direction where
  | right
  | left
  | up
  | down
  deriving DecidableEq, Repr, Inhabited

namespace Direction

/-- The word for a direction. -/
def name : Direction → String
  | right => "right"
  | left => "left"
  | up => "up"
  | down => "down"

/-- The direction that a word stands for. -/
def ofName? (word : String) : Option Direction :=
  [right, left, up, down].find? fun d => d.name = word

@[simp] theorem ofName?_name (d : Direction) : ofName? d.name = some d := by
  cases d <;> decide

/-- Whether a diagram flows along the lines of text. -/
def isHorizontal : Direction → Bool
  | right | left => true
  | up | down => false

end Direction

/-! ### Appearances -/

/-- How the color of a node is spent on its box. -/
inductive ColorMode where
  | pastel
  | bold
  | outline
  deriving DecidableEq, Repr, Inhabited

namespace ColorMode

/-- The word for a color mode. -/
def name : ColorMode → String
  | pastel => "pastel"
  | bold => "bold"
  | outline => "outline"

/-- The color mode that a word stands for. -/
def ofName? (word : String) : Option ColorMode :=
  [pastel, bold, outline].find? fun m => m.name = word

@[simp] theorem ofName?_name (m : ColorMode) : ofName? m.name = some m := by
  cases m <;> decide

end ColorMode

/-- How the box of a node is set off from the ground. -/
inductive StyleMode where
  | shadow
  | plain
  | watercolor
  deriving DecidableEq, Repr, Inhabited

namespace StyleMode

/-- The word for a style mode. -/
def name : StyleMode → String
  | shadow => "shadow"
  | plain => "plain"
  | watercolor => "watercolor"

/-- The style mode that a word stands for. -/
def ofName? (word : String) : Option StyleMode :=
  [shadow, plain, watercolor].find? fun m => m.name = word

@[simp] theorem ofName?_name (m : StyleMode) : ofName? m.name = some m := by
  cases m <;> decide

end StyleMode

/-- The letters that labels are drawn in. -/
inductive Typeface where
  | rough
  | clean
  | mono
  deriving DecidableEq, Repr, Inhabited

namespace Typeface

/-- The word for a typeface. -/
def name : Typeface → String
  | rough => "rough"
  | clean => "clean"
  | mono => "mono"

/-- The typeface that a word stands for. -/
def ofName? (word : String) : Option Typeface :=
  [rough, clean, mono].find? fun t => t.name = word

@[simp] theorem ofName?_name (t : Typeface) : ofName? t.name = some t := by
  cases t <;> decide

end Typeface

/-- The choices that a node is drawn with. -/
structure Appearance where
  colorMode : ColorMode := .pastel
  styleMode : StyleMode := .shadow
  typeface : Typeface := .rough
  deriving DecidableEq, Repr, Inhabited

/-! ### Kinds of edges -/

/-- The kinds of edges. -/
inductive EdgeKind where
  | dashedArrow
  | dashed
  | bidirectional
  | arrow
  | reverseArrow
  | plain
  deriving DecidableEq, Repr

namespace EdgeKind

/-- The kinds in the order in which their connectors are looked for: a connector comes before every
other one that is a part of it. -/
def precedence : List EdgeKind :=
  [dashedArrow, dashed, bidirectional, arrow, reverseArrow, plain]

/-- Every kind has its place in the order. -/
theorem mem_precedence (k : EdgeKind) : k ∈ precedence := by
  cases k <;> decide

/-- The connector that is written between the two nodes of an edge. -/
def connector : EdgeKind → String
  | dashedArrow => "-->"
  | dashed => "--"
  | bidirectional => "<>"
  | arrow => ">"
  | reverseArrow => "<"
  | plain => "-"

/-- The name of a kind. -/
def name : EdgeKind → String
  | dashedArrow => "dashed-arrow"
  | dashed => "dashed"
  | bidirectional => "bidirectional"
  | arrow => "arrow"
  | reverseArrow => "reverse-arrow"
  | plain => "plain"

/-- The kind of a given name. -/
def ofName? (word : String) : Option EdgeKind :=
  precedence.find? fun k => k.name = word

@[simp] theorem ofName?_name (k : EdgeKind) : ofName? k.name = some k := by
  cases k <;> decide

/-- Whether the line of an edge is dashed. -/
def isDashed : EdgeKind → Bool
  | dashedArrow | dashed => true
  | _ => false

/-- Whether an edge has a head at its source. -/
def hasStartMarker : EdgeKind → Bool
  | bidirectional | reverseArrow => true
  | _ => false

/-- Whether an edge has a head at its target. -/
def hasEndMarker : EdgeKind → Bool
  | dashedArrow | bidirectional | arrow => true
  | _ => false

end EdgeKind

/-! ### Unknown words -/

/-- What a word was expected to be when it was none. -/
inductive UnknownWord where
  | direction
  | colorMode
  | styleMode
  | typeface
  deriving DecidableEq, Repr

/-- What is said of a word that is not in the vocabulary. -/
def UnknownWord.message : UnknownWord → String
  | direction => "Invalid direction"
  | colorMode => "Invalid color mode"
  | styleMode => "Invalid style mode"
  | typeface => "Invalid typeface"

/-- The direction that a word stands for, or the complaint. -/
def Direction.read (word : String) : Except UnknownWord Direction :=
  (ofName? word).elim (.error .direction) .ok

/-- The color mode that a word stands for, or the complaint. -/
def ColorMode.read (word : String) : Except UnknownWord ColorMode :=
  (ofName? word).elim (.error .colorMode) .ok

/-- The style mode that a word stands for, or the complaint. -/
def StyleMode.read (word : String) : Except UnknownWord StyleMode :=
  (ofName? word).elim (.error .styleMode) .ok

/-- The typeface that a word stands for, or the complaint. -/
def Typeface.read (word : String) : Except UnknownWord Typeface :=
  (ofName? word).elim (.error .typeface) .ok

end TextDiagram
