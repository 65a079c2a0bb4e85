import Polyglot.Decimal.Double
import Polyglot.Decimal.Integer

/-! # Shortest decimals

The decimal with the fewest digits that reads back as a given double and, of those, the one
nearest to it. The search looks at the two neighbours of the double on ever finer decimal grids
and takes the first grid on which one of them reads back. All arithmetic is on natural numbers.
-/

namespace Polyglot.Decimal

/-- The reals that round to one positive double, as fractions over a common denominator. The ends
belong to the interval iff `closed`, since ties go to the even significand. -/
structure Interval where
  lower : Nat
  middle : Nat
  upper : Nat
  denominator : Nat
  closed : Bool

namespace Interval

/-- The interval of a positive finite double. Distances are counted in quarters of the last bit. -/
def ofDouble (bits : UInt64) : Interval :=
  let quarters := 4 * Double.significand bits
  let power := Double.exponent bits - 2
  let scale := Nat.pow 2 power.toNat
  { lower := (quarters - if Double.startsBinade bits then 1 else 2) * scale
    middle := quarters * scale
    upper := (quarters + 2) * scale
    denominator := Nat.pow 2 (-power).toNat
    closed := Double.significand bits % 2 = 0 }

/-- The step of the grid of multiples of `10 ^ place`, over the denominator that `shift` makes. -/
def step (interval : Interval) (place : Int) : Nat :=
  interval.denominator * Nat.pow 10 place.toNat

def shift (place : Int) : Nat :=
  Nat.pow 10 (-place).toNat

/-- Whether `coefficient * 10 ^ place` lies in the interval. -/
def contains (interval : Interval) (coefficient : Nat) (place : Int) : Bool :=
  let point := coefficient * interval.step place
  let lower := interval.lower * shift place
  let upper := interval.upper * shift place
  if interval.closed then lower ≤ point && point ≤ upper else lower < point && point < upper

/-- The last grid point that does not exceed the middle. -/
def floor (interval : Interval) (place : Int) : Nat :=
  interval.middle * shift place / interval.step place

/-- The grid point in the interval that is nearest to the middle; of two, the larger. -/
def nearest? (interval : Interval) (place : Int) : Option Nat :=
  let below := interval.floor place
  let above := below + 1
  if interval.contains above place then
    let midpoint := (2 * below + 1) * interval.step place
    if interval.contains below place && 2 * interval.middle * shift place < midpoint then
      some below
    else
      some above
  else if interval.contains below place then
    some below
  else
    none

/-- The place of the leading digit of the middle. -/
def leadingPlace (interval : Interval) : Int :=
  if interval.denominator ≤ interval.middle then
    (natDigits (interval.middle / interval.denominator)).length - 1
  else
    -(natDigits ((interval.denominator - 1) / interval.middle)).length

end Interval

/-- The number of significant digits that always suffices for a double. -/
def sufficientDigits : Nat := 17

/-- Coefficient and place of the shortest decimal in an interval. -/
def shortest (interval : Interval) : Nat × Int :=
  let leading := interval.leadingPlace
  let attempt (digits : Nat) : Option (Nat × Int) :=
    (interval.nearest? (leading - digits)).map (·, leading - digits)
  ((List.range sufficientDigits).findSome? attempt).getD
    (interval.floor (leading - sufficientDigits), leading - sufficientDigits)

/-- The characters of `coefficient * 10 ^ place` without an exponent. The fraction does not end
in zeros, and without a fraction there is no point. -/
def positional (coefficient : Nat) (place : Int) : List Char :=
  let digits := natDigits coefficient
  if 0 ≤ place then
    digits ++ List.replicate place.toNat '0'
  else
    let places := (-place).toNat
    let padded := List.replicate (places + 1 - digits.length) '0' ++ digits
    let whole := padded.take (padded.length - places)
    let fraction := ((padded.drop (padded.length - places)).reverse.dropWhile (· = '0')).reverse
    if fraction.isEmpty then whole else whole ++ '.' :: fraction

/-- The text of a finite double without its sign. -/
def magnitudeText (bits : UInt64) : String :=
  if Double.significand bits = 0 then
    "0"
  else
    let decimal := shortest (Interval.ofDouble bits)
    String.ofList (positional decimal.1 decimal.2)

/-- The shortest text that reads back as a finite double; its sign is written also for zero.
Infinities and NaNs have none. -/
def finiteText? (bits : UInt64) : Option String :=
  if Double.isFinite bits then
    some (if Double.isNegative bits then "-" ++ magnitudeText bits else magnitudeText bits)
  else
    none

end Polyglot.Decimal
