/-
**Configurations.**

A configuration says how nodes are placed, how the picture looks, and whether drawing on a diagram
adds lines to its text.  Everything has a default.

Main definitions:

* `TextDiagram.Engine` — the ways to place nodes;
* `TextDiagram.GridSpacing`, `TextDiagram.LayerSpacing` — their distances;
* `TextDiagram.Style` — the look of a picture, with its two colors read on demand and the fonts that
  its labels are measured with;
* `TextDiagram.Configuration` — all of it.

Main results:

* `TextDiagram.Style.read_of_background`, `TextDiagram.Style.read_of_edge` — the colors of a style
  are read from its texts.
-/

import TextDiagram.Text.Shaping
import TextDiagram.Color.Reader

set_option relaxedAutoImplicit false
set_option autoImplicit false

namespace TextDiagram

/-! ### Placement -/

/-- The ways to place nodes. -/
inductive Engine where
  | grid
  | layered
  deriving DecidableEq, Repr, Inhabited

namespace Engine

/-- The word for an engine. -/
def name : Engine → String
  | grid => "grid"
  | layered => "hierarchical"

/-- The engine that a word stands for. -/
def ofName? (word : String) : Option Engine := [grid, layered].find? fun e => e.name = word

@[simp] theorem ofName?_name (e : Engine) : ofName? e.name = some e := by
  cases e <;> decide

/-- What is said of a word that stands for no engine. -/
def complaint (word : String) : String := s!"unknown layout engine `{word}`"

end Engine

/-- The distances of the grid placement. -/
structure GridSpacing (α : Type) where
  node : α
  group : α
  origin : α
  childOffset : α
  childColumn : α
  childRow : α
  deriving DecidableEq, Repr

/-- The distances that the grid placement keeps by default. -/
def GridSpacing.standard : GridSpacing Float32 := ⟨200, 300, 50, 50, 100, 80⟩

/-- The distances of the layered placement, with the size of a node that was not measured. -/
structure LayerSpacing where
  layer : Float32 := 100
  node : Float32 := 80
  defaultWidth : Float32 := 150
  defaultHeight : Float32 := 50
  deriving DecidableEq, Repr

/-- The size of a node that was not measured. -/
def LayerSpacing.defaultSize (s : LayerSpacing) : Size Float32 := ⟨s.defaultWidth, s.defaultHeight⟩

/-- How nodes are placed. -/
structure Placing where
  engine : Engine := .grid
  grid : GridSpacing Float32 := .standard
  layered : LayerSpacing := {}
  deriving DecidableEq, Repr

/-! ### Looks -/

/-- The look of a picture, with the fonts of the machine that its labels are measured with.  The
colors are texts, which may turn out to be none. -/
structure Style where
  backgroundColor : Option String := none
  edgeColor : String := "#555555"
  fontSize : UInt16 := 14
  fontFamily : Option String := none
  fonts : Fonts := .none

/-- Why the look of a picture cannot be drawn. -/
inductive StyleFlaw where
  | background (given : String) (flaw : Color.Flaw)
  | edge (given : String) (flaw : Color.Flaw)
  deriving DecidableEq, Repr

/-- What is said of a look that cannot be drawn. -/
def StyleFlaw.message : StyleFlaw → String
  | background given flaw =>
      s!"Invalid background color in config: {Color.complaint given flaw}"
  | edge given flaw => s!"Invalid edge color in config: {Color.complaint given flaw}"

namespace Style

/-- The color of the ground, if there is one. -/
def background (s : Style) : Except StyleFlaw (Option Color) :=
  match s.backgroundColor with
  | none => .ok none
  | some given =>
      match Color.read given with
      | .ok color => .ok (some color)
      | .error flaw => .error (.background given flaw)

/-- The color of the edges that have none of their own. -/
def edge (s : Style) : Except StyleFlaw Color :=
  match Color.read s.edgeColor with
  | .ok color => .ok color
  | .error flaw => .error (.edge s.edgeColor flaw)

/-- A color of the ground is read from the text that is set. -/
theorem read_of_background {s : Style} {color : Color} (h : s.background = .ok (some color)) :
    ∃ given, s.backgroundColor = some given ∧ Color.read given = .ok color := by
  rw [background] at h
  split at h
  · cases h
  · next given hgiven =>
      split at h
      · next hread =>
          obtain rfl := Option.some.inj (Except.ok.inj h)
          exact ⟨given, hgiven, hread⟩
      · cases h

/-- The color of the edges is read from the text that is set. -/
theorem read_of_edge {s : Style} {color : Color} (h : s.edge = .ok color) :
    Color.read s.edgeColor = .ok color := by
  rw [edge] at h
  split at h
  · next hread =>
      obtain rfl := Except.ok.inj h
      exact hread
  · cases h

/-- The font size as a length. -/
def fontHeight (s : Style) : Float32 := Float32.ofNat s.fontSize.toNat

/-- The fonts that labels of a typeface are asked for in: those that the style names, if it names
any. -/
def family (s : Style) (typeface : Typeface) : FontFamily :=
  match s.fontFamily with
  | some name => .named name
  | none => typeface.family

end Style

/-! ### The whole -/

/-- How a diagram is placed, drawn and kept in step with its text. -/
structure Configuration where
  placing : Placing := {}
  style : Style := {}
  regenerateText : Bool := false

namespace Configuration

/-- The configuration with another engine. -/
def withEngine (c : Configuration) (engine : Engine) : Configuration :=
  { c with placing := { c.placing with engine } }

/-- The configuration on a machine with given fonts. -/
def withFonts (c : Configuration) (fonts : Fonts) : Configuration :=
  { c with style := { c.style with fonts } }

/-- The first color of a configuration that cannot be drawn, the ground before the edges. -/
def flaw? (c : Configuration) : Option StyleFlaw :=
  match c.style.background, c.style.edge with
  | .error flaw, _ => some flaw
  | .ok _, .error flaw => some flaw
  | .ok _, .ok _ => none

end Configuration

end TextDiagram
