/-
**The decimal text of a number.**

A coordinate is written with the fewest digits that read back to the same single-precision number,
positionally and never with an exponent, and without a fraction where there is none.  The digits are
found on decimal grids: the coarsest power of ten with a multiple inside the interval of reals that
round to the number has the fewest digits, and of two multiples inside it the one nearer to the
number is taken, the larger one in a tie.

Main definitions:

* `TextDiagram.Number.Interval` — the reals that round to a number, as integers of one scale;
* `TextDiagram.Number.Interval.shortest?` — the multiple of the coarsest grid that lies inside;
* `TextDiagram.Number.text` — the decimal text of a number.
-/

import TextDiagram.Number.Single

set_option relaxedAutoImplicit false
set_option autoImplicit false

namespace TextDiagram.Number

/-! ### The interval of a number -/

/-- The reals that round to a positive number: those between `low` and `high`, where the number
itself is `value`, all three to be multiplied by `2 ^ exponent`.  The ends belong to the interval
when they round to the number too. -/
structure Interval where
  low : Nat
  value : Nat
  high : Nat
  exponent : Int
  closed : Bool

/-- The interval of the positive number `magnitude · 2 ^ exponent`.  Below a power of two the
numbers lie twice as dense as above it. -/
def Interval.of (f : Format) (magnitude : Nat) (exponent : Int) : Interval where
  low := 4 * magnitude -
    if magnitude = twoTo f.fractionBits ∧ -(f.lowest : Int) < exponent then 1 else 2
  value := 4 * magnitude
  high := 4 * magnitude + 2
  exponent := exponent - 2
  closed := magnitude % 2 = 0

/-- The fraction `2 ^ exponent / 10 ^ grid`. -/
def Interval.scale (i : Interval) (grid : Int) : Nat × Nat :=
  (twoTo i.exponent.toNat * tenTo (-grid).toNat, twoTo (-i.exponent).toNat * tenTo grid.toNat)

/-- Whether `n · 10 ^ grid` lies in the interval. -/
def Interval.holds (i : Interval) (grid : Int) (n : Nat) : Bool :=
  let (up, down) := i.scale grid
  if i.closed then i.low * up ≤ n * down && n * down ≤ i.high * up
  else i.low * up < n * down && n * down < i.high * up

/-- The multiple of `10 ^ grid` inside the interval that is nearest to the number, if there is one:
only the two neighbours of the number on the grid can be. -/
def Interval.onGrid? (i : Interval) (grid : Int) : Option Nat :=
  let (up, down) := i.scale grid
  let below := i.value * up / down
  let twice := 2 * (i.value * up % down)
  match i.holds grid below, i.holds grid (below + 1) with
  | true, true => some (if twice < down then below else below + 1)
  | true, false => some below
  | false, true => some (below + 1)
  | false, false => none

/-- The multiple of the coarsest grid inside the interval, with its grid, looking at `steps` grids
from `10 ^ grid` down. -/
def Interval.shortest? (i : Interval) : Nat → Int → Option (Nat × Int)
  | 0, _ => none
  | steps + 1, grid =>
      match i.onGrid? grid with
      | some n => some (n, grid)
      | none => i.shortest? steps (grid - 1)

/-! ### Positional text -/

/-- The positional text of `digits · 10 ^ grid`. -/
def positional (digits : Nat) (grid : Int) : List Char :=
  let shown := Nat.toDigits 10 digits
  let places := (-grid).toNat
  if places = 0 then shown ++ List.replicate grid.toNat '0'
  else
    let padded := List.replicate (places + 1 - shown.length) '0' ++ shown
    padded.take (padded.length - places) ++ '.' :: padded.drop (padded.length - places)

/-- The text of a positive number.  No grid coarser than its integer part can hold a multiple in the
interval, and the grid of the last place of the smallest number is fine enough for all. -/
def magnitudeText (magnitude : Nat) (exponent : Int) : List Char :=
  let whole := if 0 ≤ exponent then magnitude * twoTo exponent.toNat
    else magnitude / twoTo exponent.natAbs
  let top := (Nat.toDigits 10 whole).length
  match (Interval.of .single magnitude exponent).shortest? (top + 60) top with
  | some (digits, grid) => positional digits grid
  | none => ['0']

/-- The decimal text of a number. -/
def text (x : Float32) : String :=
  match exact x with
  | .notANumber => "NaN"
  | .infinite negative => if negative then "-inf" else "inf"
  | .finite negative magnitude exponent =>
      let digits := if magnitude = 0 then ['0'] else magnitudeText magnitude exponent
      String.ofList (if negative then '-' :: digits else digits)

end TextDiagram.Number
