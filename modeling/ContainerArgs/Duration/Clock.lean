import ContainerArgs.Duration.Basic
import ContainerArgs.Number.Digits

/-!
# Clock notation

Durations as hours, minutes and seconds, such as `1h0m0.5s`.  Seconds are always
written from one second on, minutes when there are hours, and leading zero items
are left out.  A duration below one second is a single number in the greatest of
the units `ms`, `µs` and `ns` that keeps its whole part positive.  Fractions
have no trailing zeros.
-/

namespace ContainerArgs.Duration

/-- Digits without the zeros at their end. -/
def stripZeros : List Char → List Char
  | [] => []
  | c :: cs =>
    match stripZeros cs with
    | [] => if c = '0' then [] else [c]
    | rest => c :: rest

/-- The quotient `value / 10 ^ places` in decimal, with no trailing zeros in its
fraction. -/
def decimalText (value places : Nat) : String :=
  let whole := value / Nat.pow 10 places
  let rest := value % Nat.pow 10 places
  if rest = 0 then Number.natText whole
  else
    let digits := Nat.toDigits 10 rest
    let padded := List.replicate (places - digits.length) '0' ++ digits
    Number.natText whole ++ "." ++ String.ofList (stripZeros padded)

/-- The unit for a duration below one second: the power of ten of its
nanoseconds, and its symbol. -/
def smallUnit (nanos : Nat) : Nat × String :=
  if nanos < 1000 then (0, "ns")
  else if nanos < 1000000 then (3, "µs")
  else (6, "ms")

def clockText (d : Duration) : String :=
  if d.nanos = 0 then "0s"
  else if d.nanos < nanosPerSecond then
    let unit := smallUnit d.nanos
    decimalText d.nanos unit.1 ++ unit.2
  else
    let hours := d.seconds / 3600
    let minutes := d.seconds % 3600 / 60
    let hoursText := if 0 < hours then Number.natText hours ++ "h" else ""
    let minutesText :=
      if 0 < hours ∨ 0 < minutes then Number.natText minutes ++ "m" else ""
    hoursText ++ minutesText ++
      decimalText (d.seconds % 60 * nanosPerSecond + d.subsecond) 9 ++ "s"

end ContainerArgs.Duration
