/-
**How fonts shape a text.**

Fonts break a text into lines and set each line with glyphs, each of which starts somewhere in its
line and has a width.  Which glyphs they take is up to the fonts of the machine.  So fonts enter here
as what they make of a text, and nothing that follows depends on how they do it.  From the glyphs the
size of the text is measured: it is as wide as the line that reaches furthest, and as high as all of
its lines.

Main definitions:

* `TextDiagram.FontFamily` — the fonts that a text is asked for in;
* `TextDiagram.Fonts` — what the fonts of a machine make of a text, with `TextDiagram.Fonts.none`
  where there are none;
* `TextDiagram.Fonts.sizeOf` — the size of a text that is shaped.
-/

import TextDiagram.Vocabulary
import TextDiagram.Geometry.Basic

set_option relaxedAutoImplicit false
set_option autoImplicit false

namespace TextDiagram

/-! ### Families -/

/-- The fonts that a text is asked for in: those of a name, or any of a kind. -/
inductive FontFamily where
  | named (name : String)
  | cursive
  | sansSerif
  | monospace
  deriving DecidableEq, Repr

/-- The kind of fonts that a typeface is drawn in. -/
def Typeface.family : Typeface → FontFamily
  | rough => .cursive
  | clean => .sansSerif
  | mono => .monospace

/-! ### Shaped texts -/

/-- A glyph in a line: where it starts, and how wide it is. -/
structure Glyph where
  start : Float32
  width : Float32
  deriving DecidableEq, Repr

/-- How far a line of glyphs reaches: to the end of its last glyph. -/
def Glyph.lineEnd? (line : List Glyph) : Option Float32 :=
  line.getLast?.map fun glyph => glyph.start + glyph.width

/-- The fonts of a machine, as what they make of a text in a font size and with a line height: its
lines, each with its glyphs in order.  Fonts that cannot be used make no lines. -/
structure Fonts where
  shape (text : String) (fontSize lineHeight : Float32) (family : FontFamily) : List (List Glyph)

namespace Fonts

/-- A machine without fonts. -/
def none : Fonts := ⟨fun _ _ _ _ => []⟩

instance : Inhabited Fonts := ⟨none⟩

/-- The size of a text that is shaped.  Lines without glyphs count for the height only. -/
def sizeOf (fonts : Fonts) (text : String) (fontSize lineHeight : Float32)
    (family : FontFamily) : Size Float32 :=
  let lines := fonts.shape text fontSize lineHeight family
  ⟨(lines.filterMap Glyph.lineEnd?).foldl Number.larger 0,
    lines.foldl (fun height _ => height + lineHeight) 0⟩

end Fonts

end TextDiagram
