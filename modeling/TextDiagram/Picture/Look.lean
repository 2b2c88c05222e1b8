/-
**Looks.**

Before a diagram is drawn, the colors of its style are read once.  A style whose colors cannot be
read draws nothing.

Main definitions:

* `TextDiagram.Look` — a style with its colors;
* `TextDiagram.Look.fontFamily` — the fonts that a label is drawn in.

Main results:

* `TextDiagram.Look.ofStyle_eq_ok_iff` — which styles have a look.
-/

import TextDiagram.Vocabulary
import TextDiagram.Configuration.Basic

set_option relaxedAutoImplicit false
set_option autoImplicit false

namespace TextDiagram

/-- A style with its colors. -/
structure Look where
  background : Option Color
  edge : Color
  style : Style

namespace Look

/-- The look of a style.  The ground is looked at before the edges. -/
def ofStyle (style : Style) : Except StyleFlaw Look :=
  match style.background, style.edge with
  | .error flaw, _ => .error flaw
  | .ok _, .error flaw => .error flaw
  | .ok background, .ok edge => .ok { background, edge, style }

/-- Which styles have a look: those of which both colors can be read. -/
theorem ofStyle_eq_ok_iff {style : Style} {look : Look} :
    ofStyle style = .ok look ↔
      style.background = .ok look.background ∧ style.edge = .ok look.edge ∧ style = look.style := by
  obtain ⟨background, edge, s⟩ := look
  simp only [ofStyle]
  split
  · rename_i h
    simp [h]
  · rename_i h h'
    simp [h']
  · rename_i h h'
    simp [h, h']

/-- The fonts that labels of a typeface are drawn in. -/
def fontFamily (look : Look) (typeface : Typeface) : String :=
  match look.style.fontFamily, typeface with
  | some family, _ => family
  | none, .rough => "'Comic Sans MS', 'Segoe Print', cursive"
  | none, .clean => "Helvetica, Arial, sans-serif"
  | none, .mono => "'Courier New', monospace"

end Look

end TextDiagram
