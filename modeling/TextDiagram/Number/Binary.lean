/-
**Binary floating-point numbers as exact values.**

Coordinates are single-precision numbers, and a few of their operations have to be exact where the
machine gives no help: narrowing a double, rounding to an integer, and the length of a vector.  Each
is done here by decoding the bits into `± m · 2 ^ e`, computing with integers, and rounding once to
the nearest number of the format, ties to even.

Main definitions:

* `TextDiagram.Number.halfEven` — a quotient rounded to an integer;
* `TextDiagram.Number.Format` — a binary interchange format, with `single` and `double`;
* `TextDiagram.Number.Exact` — what a bit pattern stands for;
* `TextDiagram.Number.Format.decode`, `TextDiagram.Number.Format.encode` — between bits and values.
-/

set_option relaxedAutoImplicit false
set_option autoImplicit false

namespace TextDiagram.Number

/-! ### Rounding a quotient -/

/-- The quotient `n / d` rounded to the nearest integer, a tie going to the even one. -/
def halfEven (n d : Nat) : Nat :=
  let q := n / d
  let twice := 2 * (n % d)
  if twice < d then q
  else if d < twice then q + 1
  else if q % 2 = 0 then q else q + 1

/-! ### Powers -/

/-- A power of two. -/
def twoTo (n : Nat) : Nat := Nat.pow 2 n

/-- A power of ten. -/
def tenTo (n : Nat) : Nat := Nat.pow 10 n

/-! ### Formats -/

/-- A binary interchange format: the widths of its fraction and exponent fields. -/
structure Format where
  fractionBits : Nat
  exponentBits : Nat

/-- Single precision. -/
def Format.single : Format := ⟨23, 8⟩

/-- Double precision. -/
def Format.double : Format := ⟨52, 11⟩

/-- The exponent of the last place of a subnormal number, negated. -/
def Format.lowest (f : Format) : Nat := twoTo (f.exponentBits - 1) - 2 + f.fractionBits

/-- The exponent field of the infinities and of the values that are no numbers. -/
def Format.top (f : Format) : Nat := twoTo f.exponentBits - 1

/-- What a bit pattern stands for: a signed `magnitude · 2 ^ exponent`, a signed infinity, or no
number at all. -/
inductive Exact where
  | finite (negative : Bool) (magnitude : Nat) (exponent : Int)
  | infinite (negative : Bool)
  | notANumber
  deriving DecidableEq, Repr

/-- The value of a bit pattern. -/
def Format.decode (f : Format) (bits : Nat) : Exact :=
  let fraction := bits % twoTo f.fractionBits
  let field := bits / twoTo f.fractionBits % twoTo f.exponentBits
  let negative := bits / twoTo (f.fractionBits + f.exponentBits) % 2 = 1
  if field = f.top then
    if fraction = 0 then .infinite negative else .notANumber
  else if field = 0 then .finite negative fraction (-(f.lowest : Int))
  else .finite negative (twoTo f.fractionBits + fraction) ((field : Int) - 1 - f.lowest)

/-- The bit pattern of the number nearest to `± magnitude · 2 ^ exponent`, ties to even.  A
magnitude past the largest number gives an infinity. -/
def Format.encode (f : Format) (negative : Bool) (magnitude : Nat) (exponent : Int) : Nat :=
  let sign := if negative then twoTo (f.fractionBits + f.exponentBits) else 0
  if magnitude = 0 then sign
  else
    -- the exponent of the last place that the format keeps of this magnitude
    let place := max (exponent + magnitude.log2 - f.fractionBits) (-(f.lowest : Int))
    let rounded :=
      if place ≤ exponent then magnitude * twoTo (exponent - place).toNat
      else halfEven magnitude (twoTo (place - exponent).toNat)
    -- the leading bit of a normal number, and a carry, move into the exponent field by themselves
    sign + min ((place + f.lowest).toNat * twoTo f.fractionBits + rounded)
      (f.top * twoTo f.fractionBits)

/-- The bit pattern of an infinity. -/
def Format.infinity (f : Format) (negative : Bool) : Nat :=
  (if negative then twoTo (f.fractionBits + f.exponentBits) else 0) + f.top * twoTo f.fractionBits

/-- The bit pattern of a value that is no number. -/
def Format.quiet (f : Format) : Nat :=
  f.top * twoTo f.fractionBits + twoTo (f.fractionBits - 1)

end TextDiagram.Number
