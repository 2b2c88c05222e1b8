/-
**Drawing nodes.**

A node is a rounded box with its label in the middle and its icon, as a word, above the label.  A
group is a dashed box with its label in the corner.

Main definitions:

* `TextDiagram.Palette` — what a color mode makes of a color;
* `TextDiagram.Look.node` — the drawing of a node.
-/

import TextDiagram.Diagram.Basic
import TextDiagram.Picture.Markup
import TextDiagram.Picture.Look

set_option relaxedAutoImplicit false
set_option autoImplicit false

namespace TextDiagram

open Markup (leaf label)
open Attribute (word length count)

/-! ### Colors -/

/-- What a color mode makes of a color. -/
structure Palette where
  fill : String
  opacity : Float32
  stroke : String
  text : String

/-- The palette of a color. -/
def Palette.of (color : Color) : ColorMode → Palette
  | .pastel => ⟨color.css, 0.2, color.css, "black"⟩
  | .bold => ⟨color.css, color.alpha, color.css, "white"⟩
  | .outline => ⟨"white", 1, color.css, color.css⟩

/-- The color of a node that has none of its own. -/
def NodeKind.color : NodeKind → Color
  | .default => Color.resolve (some "#4a90d9") Color.black
  | .group => Color.resolve (some "gray") Color.black

namespace Look

/-! ### Boxes -/

/-- The attributes that place a box. -/
def frame (corner : Point Float32) (size : Size Float32) : List Attribute :=
  [length "x" corner.x, length "y" corner.y, length "width" size.width,
    length "height" size.height]

/-- The shadow of a box. -/
def shadow (box : Box Float32) : Markup :=
  leaf "rect" (frame ⟨box.minX + 4, box.minY + 4⟩ box.size ++
    [word "rx" "8", word "fill" "black", word "fill-opacity" "0.15"])

/-- How the box of a node is filled and outlined. -/
def filling (palette : Palette) : NodeKind → StyleMode → List Attribute
  | .group, _ => [length "fill-opacity" (palette.opacity * 0.4), word "stroke-dasharray" "8,4"]
  | .default, .watercolor =>
      [length "fill-opacity" (palette.opacity * 0.7), word "stroke-opacity" "0.5"]
  | .default, _ => [length "fill-opacity" palette.opacity]

/-- The box of a node. -/
def nodeBox (box : Box Float32) (palette : Palette) (kind : NodeKind) (mode : StyleMode) : Markup :=
  leaf "rect" (frame ⟨box.minX, box.minY⟩ box.size ++
    [word "rx" "8", word "fill" palette.fill, word "stroke" palette.stroke,
      word "stroke-width" "1.5"] ++
    filling palette kind mode)

/-! ### Labels -/

/-- The attributes of a text that is centered at a point. -/
def centered (center : Point Float32) : List Attribute :=
  [length "x" center.x, length "y" center.y, word "text-anchor" "middle",
    word "dominant-baseline" "middle"]

/-- The font size of a look as an attribute. -/
def fontSize (look : Look) : Attribute := count "font-size" look.style.fontSize.toNat

/-- The label of a group. -/
def groupLabel (look : Look) (family : String) (palette : Palette) (box : Box Float32)
    (content : String) : Markup :=
  label [length "x" (box.minX + 12), length "y" (box.minY + 12 + look.style.fontHeight),
    word "font-family" family, look.fontSize, word "font-weight" "bold", word "fill" palette.stroke]
    content

/-- The font size of the word for an icon. -/
def captionHeight (look : Look) : Float32 := Number.roundAway (look.style.fontHeight * 0.8)

/-- The word for an icon. -/
def caption (look : Look) (family : String) (palette : Palette) (center : Point Float32)
    (icon : String) : Markup :=
  label (centered ⟨center.x, center.y - look.captionHeight / 2 - 2⟩ ++
    [word "class" "icon", word "font-family" family, length "font-size" look.captionHeight,
      word "font-style" "italic", word "fill" palette.text])
    icon

/-- The label of a node. -/
def nodeLabel (look : Look) (family : String) (palette : Palette) (center : Point Float32)
    (content : String) : Markup :=
  label (centered center ++
    [word "font-family" family, look.fontSize, word "fill" palette.text])
    content

/-- The texts of a node: the label of a group, and otherwise the word for the icon, if there is one,
with the label below it. -/
def texts (look : Look) (n : Diagram.Node Float32) (family : String) (palette : Palette) :
    List Markup :=
  let center := n.box.center
  match n.kind, n.icon with
  | .group, _ => [look.groupLabel family palette n.box n.label]
  | .default, none => [look.nodeLabel family palette center n.label]
  | .default, some icon =>
      [look.caption family palette center icon,
        look.nodeLabel family palette ⟨center.x, center.y + look.captionHeight / 2 + 2⟩ n.label]

/-! ### Nodes -/

/-- The drawing of a node.  Without an appearance of its own it has that of the diagram. -/
def node (look : Look) (inherited : Appearance) (id : Id) (n : Diagram.Node Float32) : Markup :=
  let appearance := n.appearance.getD inherited
  let palette := Palette.of (Color.resolve n.color n.kind.color) appearance.colorMode
  let shadows := if appearance.styleMode = .shadow && !n.isGroup then [shadow n.box] else []
  .element "g" [word "class" "node", word "data-node" id, word "data-kind" n.kind.name]
    (shadows ++ [nodeBox n.box palette n.kind appearance.styleMode] ++
      look.texts n (look.fontFamily appearance.typeface) palette)

end Look

end TextDiagram
