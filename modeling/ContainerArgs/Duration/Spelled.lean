import ContainerArgs.Duration.Basic
import ContainerArgs.Number.Digits
import ContainerArgs.Text.Blank

/-!
# Spelled durations

The notation of durations in manifests: numbers, possibly with a decimal
fraction, each followed by a unit, such as `1h 30m` or `2.5 days`.  The items
add up, whatever their units and order.  White space may stand before and inside
numbers and between a number and its unit.  Writing uses one item for each unit
from years to nanoseconds.
-/

namespace ContainerArgs.Duration

/-- The units of the notation. -/
inductive TimeUnit where
  | nanosecond
  | microsecond
  | millisecond
  | second
  | minute
  | hour
  | day
  | week
  | month
  | year
deriving DecidableEq, Repr

namespace TimeUnit

def spellings : List (String × TimeUnit) :=
  [("nanos", nanosecond), ("nsec", nanosecond), ("ns", nanosecond),
    ("usec", microsecond), ("us", microsecond), ("µs", microsecond),
    ("millis", millisecond), ("msec", millisecond), ("ms", millisecond),
    ("seconds", second), ("second", second), ("secs", second),
    ("sec", second), ("s", second),
    ("minutes", minute), ("minute", minute), ("min", minute),
    ("mins", minute), ("m", minute),
    ("hours", hour), ("hour", hour), ("hr", hour), ("hrs", hour), ("h", hour),
    ("days", day), ("day", day), ("d", day),
    ("weeks", week), ("week", week), ("wk", week), ("wks", week), ("w", week),
    ("months", month), ("month", month), ("M", month),
    ("years", year), ("year", year), ("yr", year), ("yrs", year), ("y", year)]

def ofText? (s : String) : Option TimeUnit :=
  spellings.lookup s

/-- How many nanoseconds (for a unit below a second) or seconds (for the others)
the unit has. -/
def size : TimeUnit → Nat
  | nanosecond => 1
  | microsecond => 1000
  | millisecond => 1000000
  | second => 1
  | minute => 60
  | hour => 3600
  | day => 86400
  | week => 604800
  | month => 2630016
  | year => 31557600

def isSmall : TimeUnit → Bool
  | nanosecond => true
  | microsecond => true
  | millisecond => true
  | _ => false

/-- Whether a fraction of the unit is counted in nanoseconds; one of a greater
unit has to be whole seconds. -/
def hasFineFraction : TimeUnit → Bool
  | second => true
  | minute => true
  | u => u.isSmall

end TimeUnit

/-- The bound of the numbers in the notation and of their products with a
unit. -/
def numberBound : Nat := Nat.pow 2 64

/-- A number with its unit: the whole part, and the digits of the fraction as a
quotient. -/
structure Item where
  whole : Nat
  fraction : Option (Nat × Nat)
  unit : TimeUnit

namespace Item

/-- Seconds and nanoseconds of `n / d` times a unit, where `d` divides exactly
and nothing exceeds the bound. -/
def product? (n d size : Nat) (fine : Bool) : Option (Nat × Nat) :=
  if n * size < numberBound ∧ n * size % d = 0 then
    some (if fine then (0, n * size / d) else (n * size / d, 0))
  else none

def wholePart? (i : Item) : Option (Nat × Nat) :=
  product? i.whole 1 i.unit.size i.unit.isSmall

/-- Seconds and nanoseconds of the fraction.  A nanosecond has none. -/
def fractionPart? (i : Item) : Option (Nat × Nat) :=
  match i.fraction with
  | none => some (0, 0)
  | some (n, d) =>
    if i.unit = .nanosecond then none
    else if i.unit.isSmall then product? n d i.unit.size true
    else if i.unit.hasFineFraction then
      product? n d (i.unit.size * nanosPerSecond) true
    else product? n d i.unit.size false

/-- Adds seconds and nanoseconds to a number of nanoseconds, within the
bounds. -/
def add? (total : Nat) (part : Nat × Nat) : Option Nat :=
  let sum := total + part.1 * nanosPerSecond + part.2
  if total % nanosPerSecond + part.2 < numberBound ∧
      sum < secondsBound * nanosPerSecond then some sum
  else none

/-- Adds an item to a number of nanoseconds. -/
def addTo? (total : Nat) (i : Item) : Option Nat := do
  let total ← add? total (← i.wholePart?)
  add? total (← i.fractionPart?)

end Item

/-- Characters of numbers: digits, and white space between them. -/
def isNumberChar (c : Char) : Bool :=
  c.isDigit || Text.isBlank c

def isUnitChar (c : Char) : Bool :=
  c.isAlpha || c = 'µ'

/-- Reads the digits at the start of a text, with any white space among them. -/
def readDigits? (cs : List Char) : Option (List Char × List Char) :=
  let digits := (cs.takeWhile isNumberChar).filter Char.isDigit
  if digits = [] ∨ numberBound ≤ Number.digitsValue digits then none
  else some (digits, cs.dropWhile isNumberChar)

/-- Reads a decimal point and the digits of a fraction, if there is a point. -/
def readFraction? : List Char → Option (Option (Nat × Nat) × List Char)
  | '.' :: cs => do
    let (digits, rest) ← readDigits? cs
    if numberBound ≤ Nat.pow 10 digits.length then none
    else pure (some (Number.digitsValue digits, Nat.pow 10 digits.length), rest)
  | cs => some (none, cs)

/-- Reads a unit, which ends at the end of the text, at white space or at a
digit. -/
def readUnit? (cs : List Char) : Option (TimeUnit × List Char) := do
  let unit ← TimeUnit.ofText? (String.ofList (cs.takeWhile isUnitChar))
  let rest := cs.dropWhile isUnitChar
  if rest.head?.all isNumberChar then pure (unit, rest) else none

def readItem? (cs : List Char) : Option (Item × List Char) := do
  let (digits, rest) ← readDigits? cs
  let (fraction, rest) ← readFraction? rest
  let (unit, rest) ← readUnit? rest
  pure (⟨Number.digitsValue digits, fraction, unit⟩, rest)

/-- Reads items up to the end of a text, at most as many as `fuel`. -/
def readItems? : Nat → List Char → Option (List Item)
  | 0, _ => none
  | fuel + 1, cs =>
    if cs.all Text.isBlank then some []
    else do
      let (item, rest) ← readItem? cs
      let items ← readItems? fuel rest
      pure (item :: items)

/-- Reads a spelled duration: a lone `0`, or one item or more. -/
def ofSpelled? (s : String) : Option Duration :=
  if s = "0" then some zero
  else do
    let items ← readItems? (s.length + 1) s.toList
    if items.isEmpty then none
    else
      let total ← items.foldlM Item.addTo? 0
      ofNanos? total

def countText (n : Nat) (unit : String) : List String :=
  if n = 0 then [] else [Number.natText n ++ unit]

/-- A count with the singular or the plural of its unit, if it is positive. -/
def pluralText (n : Nat) (unit : String) : List String :=
  countText n (if n = 1 then unit else unit ++ "s")

def spelledItems (d : Duration) : List String :=
  let inYear := d.seconds % 31557600
  let inMonth := inYear % 2630016
  let inDay := inMonth % 86400
  pluralText (d.seconds / 31557600) "year" ++
    pluralText (inYear / 2630016) "month" ++
    pluralText (inMonth / 86400) "day" ++ countText (inDay / 3600) "h" ++
    countText (inDay % 3600 / 60) "m" ++
    countText (inDay % 60) "s" ++ countText (d.subsecond / 1000000) "ms" ++
    countText (d.subsecond / 1000 % 1000) "us" ++
    countText (d.subsecond % 1000) "ns"

def spelledText (d : Duration) : String :=
  if d.nanos = 0 then "0s" else String.intercalate " " d.spelledItems

end ContainerArgs.Duration
