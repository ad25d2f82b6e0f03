import ContainerArgs.Number.Binary
import ContainerArgs.Number.Digits

/-!
# The shortest decimal text of a binary number

Of the decimal numbers that round to a binary number, one with the fewest digits
is written, and of those the nearest; of two equally near the greater.  The text
is positional, without an exponent.

The candidates with a given last decimal place are the two neighbours of the
number on the grid of that place.  The grids are tried from the coarsest on, so
the first one with a candidate has the fewest digits.
-/

namespace ContainerArgs.Number

/-- The numbers that round to a binary number, as fractions over one
denominator, and whether the ends belong to them. -/
structure Rounding where
  low : Nat
  value : Nat
  high : Nat
  den : Nat
  closed : Bool

namespace Rounding

/-- The numbers that round to `significand · 2 ^ exponent`.  Below the least
significand of a binade the next number is only half as far away. -/
def of (f : Format) (significand : Nat) (exponent : Int) : Rounding :=
  let closer :=
    significand = Nat.pow 2 f.fractionBits ∧ f.leastExponent < exponent
  let e := exponent - 2
  let up := Nat.pow 2 e.toNat
  { low := (4 * significand - if closer then 1 else 2) * up
    value := 4 * significand * up
    high := (4 * significand + 2) * up
    den := Nat.pow 2 (-e).toNat
    closed := significand % 2 = 0 }

/-- The same numbers in units of `10 ^ place`. -/
def onGrid (r : Rounding) (place : Int) : Rounding :=
  let up := Nat.pow 10 (-place).toNat
  { low := r.low * up
    value := r.value * up
    high := r.high * up
    den := r.den * Nat.pow 10 place.toNat
    closed := r.closed }

/-- Whether a whole number of units rounds to the binary number. -/
def contains (r : Rounding) (n : Nat) : Bool :=
  if r.closed then r.low ≤ n * r.den && n * r.den ≤ r.high
  else r.low < n * r.den && n * r.den < r.high

/-- The whole number of units nearest to the binary number among its two
neighbours that round to it. -/
def candidate? (r : Rounding) : Option Nat :=
  let below := r.value / r.den
  let above := below + 1
  match r.contains below, r.contains above with
  | true, true =>
    some (if 2 * (r.value - below * r.den) < r.den then below else above)
  | true, false => some below
  | false, true => some above
  | false, false => none

/-- The first candidate on the grids from `place` downwards, with its place. -/
def search (r : Rounding) : Nat → Int → Nat × Int
  | 0, place => (0, place)
  | fuel + 1, place =>
    match (r.onGrid place).candidate? with
    | some n => (n, place)
    | none => search r fuel (place - 1)

/-- A decimal place above the number. -/
def topPlace (r : Rounding) : Int :=
  ((Nat.log2 r.value : Int) - Nat.log2 r.den + 1) * 30103 / 100000 + 2

/-- The shortest decimal number that rounds to the binary number: digits and the
place of the last one. -/
def shortest (r : Rounding) : Nat × Int :=
  r.search 32 r.topPlace

end Rounding

/-- The positional text of `digits · 10 ^ place`. -/
def positional (digits : Nat) (place : Int) : List Char :=
  let ds := Nat.toDigits 10 digits
  if 0 ≤ place then ds ++ List.replicate place.toNat '0'
  else
    let after := (-place).toNat
    let padded := List.replicate (after + 1 - ds.length) '0' ++ ds
    padded.take (padded.length - after) ++ ['.'] ++
      padded.drop (padded.length - after)

namespace Binary

def text (x : Binary) : String :=
  let sign := if x.isNegative then "-" else ""
  match x.magnitude with
  | .notANumber => "NaN"
  | .infinite => sign ++ "inf"
  | .finite 0 _ => sign ++ "0"
  | .finite significand exponent =>
    let d := (Rounding.of x.format significand exponent).shortest
    sign ++ String.ofList (positional d.1 d.2)

/-- The text of a binary number, with `.0` after a finite one that would have no
decimal point. -/
def pointedText (x : Binary) : String :=
  let s := x.text
  if x.isFinite ∧ '.' ∉ s.toList then s ++ ".0" else s

end Binary

end ContainerArgs.Number
