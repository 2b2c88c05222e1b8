/-
**Colors.**

A color is a point of a color space with an opacity.  It remembers how it was written, because that
decides how it is written again: a named color by its name, a color given by a function or by
hexadecimal digits as a legacy `rgb`, and every other color of the standard space by coordinates.

Main definitions:

* `TextDiagram.Color` — a color, with `TextDiagram.Color.withAlpha`;
* `TextDiagram.Color.css` — the text of a color in a style sheet;
* `TextDiagram.Color.idSafe` — a text made from it for use inside an id;
* `TextDiagram.Color.same` — whether two colors are drawn with one marker.
-/

import TextDiagram.Number.Decimal

set_option relaxedAutoImplicit false
set_option autoImplicit false

namespace TextDiagram

namespace Color

/-! ### Parts of a color -/

/-- The color spaces that a color can be given in. -/
inductive Space where
  | srgb
  | linearSrgb
  | displayP3
  | a98Rgb
  | prophotoRgb
  | rec2020
  | xyzD50
  | xyzD65
  | hsl
  | hwb
  | lab
  | lch
  | oklab
  | oklch
  deriving DecidableEq, Repr

/-- How a color was written. -/
inductive Spelling where
  | coordinates
  | function
  | name (name : String)
  deriving DecidableEq, Repr

/-- A component of a color.  One that was left out counts as zero. -/
structure Component where
  value : Float32
  missing : Bool := false
  deriving DecidableEq, Repr

/-- A component that was left out. -/
def Component.omitted : Component := ⟨0, true⟩

end Color

/-- A point of a color space with an opacity, and how it was written. -/
structure Color where
  space : Color.Space
  spelling : Color.Spelling
  first : Color.Component
  second : Color.Component
  third : Color.Component
  opacity : Color.Component
  deriving DecidableEq, Repr

namespace Color

/-- The number that the opacity of a color counts as. -/
def alpha (c : Color) : Float32 := c.opacity.value

/-- The color with another opacity, written by coordinates.  An opacity that was left out stays. -/
def withAlpha (c : Color) (alpha : Float32) : Color :=
  if c.opacity.missing then c
  else { c with spelling := .coordinates, opacity := ⟨alpha, false⟩ }

/-- The color of the standard space with the channels of three bytes. -/
def ofBytes (spelling : Spelling) (red green blue : Nat) (opacity : Float32) : Color :=
  let channel := fun (byte : Nat) => (⟨Float32.ofNat byte * (1 / 255), false⟩ : Component)
  ⟨.srgb, spelling, channel red, channel green, channel blue, ⟨opacity, false⟩⟩

/-! ### Hues in the standard space -/

/-- The channel of a hue, a saturation and a lightness that peaks `offset` twelfths of the circle
away from red. -/
def hueChannel (hue saturation lightness offset : Float32) : Float32 :=
  let reach := saturation * Number.smaller lightness (1 - lightness)
  let x := offset + hue * (1 / 30)
  let k := x - 12 * Number.floor (x * (1 / 12))
  lightness - reach * Number.clamp (-1) 1 (Number.smaller (k - 3) (9 - k))

/-- The standard channels of a hue with percentages of saturation and lightness. -/
def channelsOfHsl (hue saturation lightness : Float32) : Float32 × Float32 × Float32 :=
  let channel := hueChannel hue (saturation * 0.01) (lightness * 0.01)
  (channel 0, channel 8, channel 4)

/-- The standard channels of a hue with percentages of whiteness and blackness. -/
def channelsOfHwb (hue whiteness blackness : Float32) : Float32 × Float32 × Float32 :=
  let white := whiteness * 0.01
  let black := blackness * 0.01
  if 1 ≤ white + black then
    let gray := white / (white + black)
    (gray, gray, gray)
  else
    let (red, green, blue) := channelsOfHsl hue 100 50
    let mixed := fun (channel : Float32) => white + channel * (1 - white - black)
    (mixed red, mixed green, mixed blue)

/-- A color of the standard space with given channels and the opacity of another one. -/
def withChannels (c : Color) (channels : Float32 × Float32 × Float32) : Color where
  space := .srgb
  spelling := .coordinates
  first := ⟨channels.1, false⟩
  second := ⟨channels.2.1, false⟩
  third := ⟨channels.2.2, false⟩
  opacity := c.opacity

/-! ### Text -/

/-- The text of a component times a factor. -/
def Component.text (scale : Float32) (c : Component) : String :=
  if c.missing then "none" else Number.text (c.value * scale)

/-- The text of a color as a function with commas.  The opacity is written only below one, and then
the function gets another name. -/
def legacyText (function : String) (scale : Float32) (c : Color) : String :=
  let channels := [c.first.text scale, c.second.text scale, c.third.text scale]
  let full := ", ".intercalate channels
  let translucent := ", ".intercalate (channels ++ [c.opacity.text 1])
  if c.alpha < 1 then s!"{function}a({translucent})" else s!"{function}({full})"

/-- The text of a color as a function with blanks, after an opening that names the function. -/
def modernText (opening : String) (c : Color) : String :=
  let parts := " ".intercalate [c.first.text 1, c.second.text 1, c.third.text 1]
  if c.alpha < 1 then s!"{opening}{parts} / {c.opacity.text 1})" else s!"{opening}{parts})"

/-- The text of a color in a style sheet. -/
def css (c : Color) : String :=
  match c.spelling, c.space with
  | .name name, _ => name
  | .function, .srgb => c.legacyText "rgb" 255
  | .function, .hsl =>
      (c.withChannels (channelsOfHsl c.first.value c.second.value c.third.value)).legacyText
        "rgb" 255
  | .function, .hwb =>
      (c.withChannels (channelsOfHwb c.first.value c.second.value c.third.value)).legacyText
        "rgb" 255
  | _, .srgb => c.modernText "color(srgb "
  | _, .linearSrgb => c.modernText "color(srgb-linear "
  | _, .displayP3 => c.modernText "color(display-p3 "
  | _, .a98Rgb => c.modernText "color(a98-rgb "
  | _, .prophotoRgb => c.modernText "color(prophoto-rgb "
  | _, .rec2020 => c.modernText "color(rec2020 "
  | _, .xyzD50 => c.modernText "color(xyz-d50 "
  | _, .xyzD65 => c.modernText "color(xyz-d65 "
  | _, .hsl => c.legacyText "hsl" 1
  | _, .hwb => c.modernText "hwb("
  | _, .lab => c.modernText "lab("
  | _, .lch => c.modernText "lch("
  | _, .oklab => c.modernText "oklab("
  | _, .oklch => c.modernText "oklch("

/-! ### Ids -/

/-- The characters that may not stand in an id as they are. -/
def unsafeInIds : List Char := ['(', ')', ',', ' ', ';', '.', '%', '/']

/-- A character as it is written inside an id. -/
def idSafeChar (c : Char) : List Char :=
  if c = '#' then "hex".toList else if unsafeInIds.contains c then ['_'] else [c]

/-- The text of a color made fit for an id: it does not start with a digit either. -/
def idSafe (c : Color) : String :=
  let safe := c.css.toList.flatMap idSafeChar
  match safe with
  | first :: _ => String.ofList (if first.isDigit then 'c' :: '_' :: safe else safe)
  | [] => ""

/-! ### Sameness -/

/-- Whether two components are equal numbers and both given or both left out. -/
def Component.same (a b : Component) : Bool := a.missing == b.missing && a.value == b.value

/-- Whether two colors are drawn with one marker: they are written alike, and their parts are equal
as numbers. -/
def same (a b : Color) : Bool :=
  a.space == b.space && a.spelling == b.spelling && a.first.same b.first &&
    a.second.same b.second && a.third.same b.third && a.opacity.same b.opacity && a.css == b.css

/-- The different colors of a list, in order of their first appearance. -/
def distinct (colors : List Color) : List Color :=
  colors.foldl (fun seen c => if seen.any (same c) then seen else seen ++ [c]) []

end Color

end TextDiagram
