/-
**Reading colors.**

A color is written as a name, as hexadecimal digits after a number sign, or as a function of
components.  Components are separated by blanks and comments, in the older form by commas; upper and
lower case are the same.

Main definitions:

* `TextDiagram.Color.Flaw` — why a text is no color;
* `TextDiagram.Color.number?`, `TextDiagram.Color.identifier?` — the two kinds of words;
* `TextDiagram.Color.component`, `TextDiagram.Color.hue` — the two kinds of arguments;
* `TextDiagram.Color.read` — the color that a text stands for.
-/

import TextDiagram.Text.Blank
import TextDiagram.Text.Cut
import TextDiagram.Color.Names

set_option relaxedAutoImplicit false
set_option autoImplicit false

namespace TextDiagram.Color

/-! ### Flaws -/

/-- Why a text is no color. -/
inductive Flaw where
  | hexDigits
  | endExpected
  | syntaxUnknown
  | argumentsExpected
  | identifierUnknown
  | componentUnknown
  | angleUnitUnknown
  | angleUnknown
  | commaExpected
  | closingExpected
  | spaceExpected
  | spaceUnknown
  deriving DecidableEq, Repr

/-- What is said of a flaw. -/
def Flaw.message : Flaw → String
  | hexDigits => "wrong number of hex digits"
  | endExpected => "expected end of string"
  | syntaxUnknown => "unknown color syntax"
  | argumentsExpected => "expected arguments"
  | identifierUnknown => "unknown color identifier"
  | componentUnknown => "unknown color component"
  | angleUnitUnknown => "unknown angle dimension"
  | angleUnknown => "unknown angle"
  | commaExpected => "expected comma"
  | closingExpected => "expected closing parenthesis"
  | spaceExpected => "expected color space identifier"
  | spaceUnknown => "unknown color space"

/-- Reading takes a value off the start of a text, or finds a flaw. -/
abbrev Reading := StateT (List Char) (Except Flaw)

/-! ### Blanks and comments -/

/-- Whether a character separates components. -/
def isGap (c : Char) : Bool := c = ' ' || c = '\t' || c = '\r' || c = '\n'

/-- A text without its leading blanks and closed comments, dropping at most `steps` of them. -/
def skipGaps : Nat → List Char → List Char
  | 0, text => text
  | steps + 1, '/' :: '*' :: rest =>
      match Text.cutAround ['*', '/'] rest with
      | some (_, after) => skipGaps steps after
      | none => '/' :: '*' :: rest
  | steps + 1, c :: rest => if isGap c then skipGaps steps rest else c :: rest
  | _ + 1, [] => []

/-- A text without its leading blanks and closed comments. -/
def skipped (text : List Char) : List Char := skipGaps text.length text

/-- A text without its leading closed comments, dropping at most `steps` of them. -/
def skipComments : Nat → List Char → List Char
  | 0, text => text
  | steps + 1, '/' :: '*' :: rest =>
      match Text.cutAround ['*', '/'] rest with
      | some (_, after) => skipComments steps after
      | none => '/' :: '*' :: rest
  | _ + 1, text => text

/-- A text without its leading closed comments. -/
def uncommented (text : List Char) : List Char := skipComments text.length text

/-- The text after a sign that comes next.  A slash that opens a comment is no sign. -/
def afterSign? (sign : Char) : List Char → Option (List Char)
  | '/' :: '*' :: _ => none
  | c :: rest => if c = sign then some rest else none
  | [] => none

/-! ### Words -/

/-- The digits at the start of a text, and the text after them. -/
def spanDigits (text : List Char) : List Char × List Char :=
  (text.takeWhile Char.isDigit, text.dropWhile Char.isDigit)

/-- The value of decimal digits. -/
def digitsValue (digits : List Char) : Nat :=
  digits.foldl (fun n c => 10 * n + (c.toNat - '0'.toNat)) 0

/-- The sign at the start of a text: whether it is a minus, and the text after it. -/
def signed : List Char → Bool × List Char
  | '-' :: rest => (true, rest)
  | '+' :: rest => (false, rest)
  | text => (false, text)

/-- The fraction at the start of a text: a point with at least one digit. -/
def fraction (text : List Char) : List Char × List Char :=
  match text with
  | '.' :: rest =>
      match spanDigits rest with
      | ([], _) => ([], text)
      | (digits, after) => (digits, after)
  | _ => ([], text)

/-- The exponent at the start of a text: a mark, perhaps a sign, and at least one digit. -/
def exponent (text : List Char) : Int × List Char :=
  match text with
  | c :: rest =>
      if c = 'e' || c = 'E' then
        let (negative, unsigned) := signed rest
        match spanDigits unsigned with
        | ([], _) => (0, text)
        | (digits, after) =>
            let value : Int := digitsValue digits
            (if negative then -value else value, after)
      else (0, text)
  | [] => (0, text)

/-- The number at the start of a text. -/
def number? (text : List Char) : Option (Float × List Char) :=
  let (negative, unsigned) := signed text
  let (whole, afterWhole) := spanDigits unsigned
  let (part, afterPart) := fraction afterWhole
  if whole.isEmpty && part.isEmpty then none
  else
    let (power, after) := exponent afterPart
    let digits := digitsValue (whole ++ part)
    some (Number.doubleOfDecimal negative digits (power - part.length), after)

/-- Whether a character can stand in an identifier whatever is before it. -/
def isIdentifierStart (c : Char) : Bool := c.isAlpha || c = '_' || c = '-'

/-- Whether a character can stand in an identifier that has been started. -/
def isIdentifierRest (c : Char) : Bool := isIdentifierStart c || c.isDigit

/-- The longest run of characters of an identifier at the start of a text.  A digit needs a letter
or an underscore, or two characters, before it. -/
def identifierRun : List Char → List Char
  | c :: rest =>
      if !isIdentifierStart c then []
      else
        match rest with
        | d :: more =>
            if isIdentifierStart d || (d.isDigit && c ≠ '-') then
              c :: d :: more.takeWhile isIdentifierRest
            else [c]
        | [] => [c]
  | [] => []

/-- The identifier at the start of a text, in lower case.  A single or double hyphen starts none. -/
def identifier? (text : List Char) : Option (String × List Char) :=
  let run := identifierRun text
  if run = [] || run = ['-'] || ['-', '-'].isPrefixOf run then none
  else some (String.ofList (run.map Char.toLower), text.drop run.length)

/-! ### Arguments -/

/-- An argument of a color function. -/
inductive Argument where
  | number (value : Float)
  | percent (value : Float)
  | dimension (value : Float) (unit : String)
  | word (word : String)

/-- The argument that stands behind blanks and comments. -/
def argument? (text : List Char) : Option (Argument × List Char) :=
  let start := skipped text
  match number? start with
  | some (value, '%' :: rest) => some (.percent value, rest)
  | some (value, rest) =>
      match identifier? rest with
      | some (unit, after) => some (.dimension value unit, after)
      | none => some (.number value, rest)
  | none => (identifier? start).map fun (word, rest) => (.word word, rest)

/-- Whether a sign stands behind blanks and comments.  It is then taken with them. -/
def sign (c : Char) : Reading Bool := fun text =>
  match afterSign? c (skipped text) with
  | some rest => .ok (true, rest)
  | none => .ok (false, text)

/-- Whether a sign stands behind comments, without a blank.  It is then taken with them. -/
def closeSign (c : Char) : Reading Bool := fun text =>
  match afterSign? c (uncommented text) with
  | some rest => .ok (true, rest)
  | none => .ok (false, text)

/-- A component: a number or a percentage with its own scale, or nothing when it is left out. -/
def component (scale percent : Float) : Reading (Option Float) := fun text =>
  match argument? text with
  | some (.number value, rest) => .ok (some (value * scale), rest)
  | some (.percent value, rest) => .ok (some (value * percent), rest)
  | some (.word "none", rest) => .ok (none, rest)
  | _ => .error .componentUnknown

/-- Half a turn in radians. -/
def pi : Float := 3.141592653589793

/-- The degrees of one unit of an angle. -/
def degreesOf? (unit : String) : Option Float :=
  [("deg", 1), ("rad", 180 / pi), ("grad", 0.9), ("turn", 360)].lookup unit

/-- A hue in degrees, or nothing when it is left out. -/
def hue : Reading (Option Float) := fun text =>
  match argument? text with
  | some (.number value, rest) => .ok (some value, rest)
  | some (.word "none", rest) => .ok (none, rest)
  | some (.dimension value unit, rest) =>
      match degreesOf? unit with
      | some degrees => .ok (some (value * degrees), rest)
      | none => .error .angleUnitUnknown
  | _ => .error .angleUnknown

/-- A double moved into a closed range. -/
def clampDouble (low high x : Float) : Float :=
  if x < low then low else if high < x then high else x

/-- A double that is at least zero.  Zero itself loses its sign. -/
def atLeastZero (x : Float) : Float := if 0 < x then x else 0

/-- A comma, where the older form asks for one. -/
def comma (legacy : Bool) : Reading Unit := do
  if legacy then
    if !(← sign ',') then throw .commaExpected

/-- The opacity, after a comma in the older form and after a slash in the newer one.  It is full
when it is not given. -/
def opacityArgument (legacy : Bool) : Reading (Option Float) := do
  if ← sign (if legacy then ',' else '/') then
    let value ← component 1 0.01
    return value.map (clampDouble 0 1)
  else return some 1

/-- The closing parenthesis. -/
def closing : Reading Unit := do
  if !(← sign ')') then throw .closingExpected

/-- A component of a color from an argument. -/
def Component.ofArgument : Option Float → Component
  | some x => ⟨Number.narrow x, false⟩
  | none => .omitted

/-- The color of three arguments and an opacity. -/
def ofArguments (space : Space) (spelling : Spelling) (a b c opacity : Option Float) : Color :=
  ⟨space, spelling, .ofArgument a, .ofArgument b, .ofArgument c, .ofArgument opacity⟩

/-! ### Functions -/

/-- A channel of `rgb`. -/
def channel : Reading (Option Float) := do
  let value ← component (1 / 255) 0.01
  return value.map (clampDouble 0 1)

/-- The arguments of `rgb`, in the older or the newer form. -/
def rgbArguments : Reading Color := do
  let red ← channel
  let legacy ← sign ','
  let green ← channel
  comma legacy
  let blue ← channel
  let opacity ← opacityArgument legacy
  closing
  return ofArguments .srgb .function red green blue opacity

/-- The arguments of `hsl`, in the older or the newer form.  The first comma of the older form
stands close behind the hue. -/
def hslArguments : Reading Color := do
  let angle ← hue
  let legacy ← closeSign ','
  let saturation ← component 1 1
  comma legacy
  let lightness ← component 1 1
  let opacity ← opacityArgument legacy
  closing
  return ofArguments .hsl .function angle (saturation.map atLeastZero) lightness opacity

/-- The arguments of `hwb`. -/
def hwbArguments : Reading Color := do
  let angle ← hue
  let whiteness ← component 1 1
  let blackness ← component 1 1
  let opacity ← opacityArgument false
  closing
  return ofArguments .hwb .function angle whiteness blackness opacity

/-- The arguments of a space with a lightness and two axes. -/
def axesArguments (space : Space) (lightest percent : Float) : Reading Color := do
  let lightness ← component 1 (0.01 * lightest)
  let a ← component 1 percent
  let b ← component 1 percent
  let opacity ← opacityArgument false
  closing
  return ofArguments space .function (lightness.map (clampDouble 0 lightest)) a b opacity

/-- The arguments of a space with a lightness, a chroma and a hue. -/
def polarArguments (space : Space) (lightest percent : Float) : Reading Color := do
  let lightness ← component 1 (0.01 * lightest)
  let chroma ← component 1 percent
  let angle ← hue
  let opacity ← opacityArgument false
  closing
  return ofArguments space .function (lightness.map (clampDouble 0 lightest))
    (chroma.map atLeastZero) angle opacity

/-- The spaces of `color` by their names. -/
def spaceNames : List (String × Space) :=
  [("srgb", .srgb), ("srgb-linear", .linearSrgb), ("display-p3", .displayP3),
    ("a98-rgb", .a98Rgb), ("prophoto-rgb", .prophotoRgb), ("rec2020", .rec2020),
    ("xyz-d50", .xyzD50), ("xyz-d65", .xyzD65), ("xyz", .xyzD65)]

/-- The name of a space. -/
def spaceArgument : Reading Space := fun text =>
  match identifier? (skipped text) with
  | none => .error .spaceExpected
  | some (name, rest) =>
      match spaceNames.lookup name with
      | some space => .ok (space, rest)
      | none => .error .spaceUnknown

/-- The arguments of `color`: a space and three coordinates. -/
def coordinateArguments : Reading Color := do
  let space ← spaceArgument
  let a ← component 1 0.01
  let b ← component 1 0.01
  let c ← component 1 0.01
  let opacity ← opacityArgument false
  closing
  return ofArguments space .coordinates a b c opacity

/-- The readers of the arguments, by the names of the functions. -/
def functions : List (String × Reading Color) :=
  [("rgb", rgbArguments), ("rgba", rgbArguments), ("hsl", hslArguments), ("hsla", hslArguments),
    ("hwb", hwbArguments), ("lab", axesArguments .lab 100 1.25),
    ("lch", polarArguments .lch 100 1.25), ("oklab", axesArguments .oklab 1 0.004),
    ("oklch", polarArguments .oklch 1 0.004), ("color", coordinateArguments)]

/-! ### Hexadecimal digits -/

/-- The value of a hexadecimal digit. -/
def hexValue? (c : Char) : Option Nat :=
  let digits := "0123456789abcdef".toList
  if digits.contains c.toLower then some (digits.idxOf c.toLower) else none

/-- The color of hexadecimal digits: one or two for each channel, with or without an opacity.  At
most eight digits are taken. -/
def ofHex : Reading Color := fun text =>
  let digits := ((text.take 8).map hexValue?).takeWhile Option.isSome
  let rest := text.drop digits.length
  let color := fun (red green blue opacity : Nat) =>
    ofBytes .function red green blue (Float32.ofNat opacity * (1 / 255))
  match digits.filterMap id with
  | [r, g, b] => .ok (color (17 * r) (17 * g) (17 * b) 255, rest)
  | [r, g, b, a] => .ok (color (17 * r) (17 * g) (17 * b) (17 * a), rest)
  | [r, r', g, g', b, b'] => .ok (color (16 * r + r') (16 * g + g') (16 * b + b') 255, rest)
  | [r, r', g, g', b, b', a, a'] =>
      .ok (color (16 * r + r') (16 * g + g') (16 * b + b') (16 * a + a'), rest)
  | _ => .error .hexDigits

/-! ### Colors -/

/-- The color at the start of a text. -/
def start : Reading Color := fun text =>
  match text with
  | '#' :: digits => ofHex digits
  | _ =>
      match identifier? text with
      | none => .error .syntaxUnknown
      | some (name, rest) =>
          match functions.lookup name, rest with
          | some arguments, '(' :: inside => arguments inside
          | some _, _ => .error .argumentsExpected
          | none, _ =>
              match ofName? name with
              | some color => .ok (color, rest)
              | none => .error .identifierUnknown

/-- The color that a text stands for.  Blanks around it do not matter. -/
def read (text : String) : Except Flaw Color :=
  match start (Text.trim text.toList) with
  | .ok (color, []) => .ok color
  | .ok _ => .error .endExpected
  | .error flaw => .error flaw

/-- What is said of a text that is no color. -/
def complaint (given : String) (flaw : Flaw) : String :=
  s!"invalid color `{given}`: {flaw.message}"

/-- The color that a text stands for, and another one where it stands for none. -/
def resolve (value : Option String) (fallback : Color) : Color :=
  match value with
  | some text => ((read (Text.trimmed text)).toOption).getD fallback
  | none => fallback

end TextDiagram.Color
