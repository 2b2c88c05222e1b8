/-
**Single-precision numbers.**

Every coordinate and length of a diagram is a `Float32`.  Addition, subtraction, multiplication,
division, square root and comparison are core's.  This module adds what core leaves to the machine:
the smaller and the larger of two numbers when one of them is no number, rounding to integers, the
length of a vector, and the way from a double.

Main definitions:

* `TextDiagram.Number.smaller`, `TextDiagram.Number.larger` — a value that is no number yields to
  the other one;
* `TextDiagram.Number.floor`, `TextDiagram.Number.roundAway` — rounding to integers;
* `TextDiagram.Number.hypotenuse` — the correctly rounded length of a vector;
* `TextDiagram.Number.narrow`, `TextDiagram.Number.ofInt`, `TextDiagram.Number.ofDecimal` — the
  nearest single-precision number.
-/

import TextDiagram.Number.Binary

set_option relaxedAutoImplicit false
set_option autoImplicit false

namespace TextDiagram.Number

/-! ### Between numbers and exact values -/

/-- The exact value of a single-precision number. -/
def exact (x : Float32) : Exact := Format.single.decode x.toBits.toNat

/-- The single-precision number nearest to `± magnitude · 2 ^ exponent`. -/
def nearest (negative : Bool) (magnitude : Nat) (exponent : Int) : Float32 :=
  Float32.ofBits (Format.single.encode negative magnitude exponent).toUInt32

/-- The value that is no number. -/
def notANumber : Float32 := Float32.ofBits Format.single.quiet.toUInt32

/-- The infinity of a sign. -/
def infinity (negative : Bool) : Float32 :=
  Float32.ofBits (Format.single.infinity negative).toUInt32

/-- The single-precision number nearest to an exact value. -/
def ofExact : Exact → Float32
  | .finite negative magnitude exponent => nearest negative magnitude exponent
  | .infinite negative => infinity negative
  | .notANumber => notANumber

/-- The single-precision number nearest to a double. -/
def narrow (x : Float) : Float32 := ofExact (Format.double.decode x.toBits.toNat)

/-- The single-precision number nearest to an integer. -/
def ofInt (n : Int) : Float32 := nearest (n < 0) n.natAbs 0

/-- The double nearest to `± digits · 10 ^ exponent`.  Exponents far out of the range of doubles
are settled before any power of ten is formed. -/
def doubleOfDecimal (negative : Bool) (digits : Nat) (exponent : Int) : Float :=
  let size := (Nat.toDigits 10 digits).length
  let magnitude : Float :=
    if digits = 0 ∨ exponent + size < -400 then 0
    else if 400 < exponent + size then Float.ofBits (Format.double.infinity false).toUInt64
    else if exponent < 0 then Float.ofScientific digits true exponent.natAbs
    else Float.ofScientific digits false exponent.natAbs
  if negative then -magnitude else magnitude

/-- The single-precision number nearest to the double nearest to `± digits · 10 ^ exponent`. -/
def ofDecimal (negative : Bool) (digits : Nat) (exponent : Int) : Float32 :=
  narrow (doubleOfDecimal negative digits exponent)

/-! ### The smaller and the larger number -/

/-- The smaller of two numbers, the second where they are equal, and the other one where one is no
number. -/
def smaller (x y : Float32) : Float32 :=
  if x < y then x else if y.isNaN then x else y

/-- The larger of two numbers, the second where they are equal, and the other one where one is no
number. -/
def larger (x y : Float32) : Float32 :=
  if y < x then x else if y.isNaN then x else y

/-- A number moved into a closed range.  A value that is no number stays as it is. -/
def clamp (low high x : Float32) : Float32 :=
  if x < low then low else if high < x then high else x

/-! ### Rounding to integers -/

/-- The largest integer that is not above a number. -/
def floor (x : Float32) : Float32 :=
  match exact x with
  | .finite negative magnitude exponent =>
      if 0 ≤ exponent then x
      else
        let d := twoTo exponent.natAbs
        let down := magnitude / d
        nearest negative (if negative && down * d != magnitude then down + 1 else down) 0
  | _ => x

/-- The integer nearest to a number, a tie going away from zero. -/
def roundAway (x : Float32) : Float32 :=
  match exact x with
  | .finite negative magnitude exponent =>
      if 0 ≤ exponent then x
      else
        let d := twoTo exponent.natAbs
        nearest negative ((2 * magnitude + d) / (2 * d)) 0
  | _ => x

/-! ### The length of a vector -/

/-- The single-precision number nearest to the square root of `magnitude · 2 ^ (2 · exponent)`.
The root is taken of a magnitude widened until its integer part has more places than the format
keeps; a last odd place stands for all that follows. -/
def nearestRoot (magnitude : Nat) (exponent : Int) : Float32 :=
  let widened := magnitude * twoTo 64
  let root := widened.sqrt
  nearest false (2 * root + if root * root = widened then 0 else 1) (exponent - 33)

/-- The length of the vector `(x, y)`, correctly rounded.  It is infinite if a part is. -/
def hypotenuse (x y : Float32) : Float32 :=
  match exact x, exact y with
  | .infinite _, _ => infinity false
  | _, .infinite _ => infinity false
  | .finite _ m a, .finite _ n b =>
      let e := min a b
      let p := m * twoTo (a - e).toNat
      let q := n * twoTo (b - e).toNat
      nearestRoot (p * p + q * q) e
  | _, _ => notANumber

end TextDiagram.Number
