import ContainerArgs.Duration.Basic
import ContainerArgs.Number.Digits
import ContainerArgs.Text.Blank

/-!
# Retention windows

Long windows of time in whole milliseconds, written as counts of falling units,
such as `30d` or `1h30m`.  A year is 365 days.  Reading accepts each unit at
most once, in order; writing uses years and weeks only where they divide
exactly.
-/

namespace ContainerArgs

/-- A window of time.  Texts denote fewer than `2 ^ 64` milliseconds, whole
seconds may be more. -/
structure Retention where
  millis : Nat
  millis_lt : millis < secondsBound * 1000
deriving DecidableEq, Repr

namespace Retention

/-- No time at all. -/
def zero : Retention := ⟨0, by decide⟩

instance : Inhabited Retention := ⟨zero⟩

def ofSeconds (n : UInt64) : Retention :=
  ⟨n.toNat * 1000, Nat.mul_lt_mul_of_pos_right n.toNat_lt (by decide)⟩

/-- The window of a number of days, if its seconds fit in 64 bits. -/
def ofDays? (n : UInt64) : Option Retention :=
  if h : n.toNat * 86400 < secondsBound then
    some ⟨n.toNat * 86400 * 1000, Nat.mul_lt_mul_of_pos_right h (by decide)⟩
  else none

def seconds (r : Retention) : Nat :=
  r.millis / 1000

/-- The nanoseconds beyond the whole seconds. -/
def subsecond (r : Retention) : Nat :=
  r.millis % 1000 * 1000000

/-- Whether the window is no time at all. -/
def isZero (r : Retention) : Bool :=
  r.millis == 0

/-- The list without elements that repeat the one before them. -/
def dropRepeats : List Retention → List Retention
  | r :: s :: rest =>
    if r = s then dropRepeats (s :: rest) else r :: dropRepeats (s :: rest)
  | rs => rs

/-- Windows from the shortest to the longest, each once. -/
def sortDistinct (rs : List Retention) : List Retention :=
  dropRepeats (rs.mergeSort fun r s => r.millis ≤ s.millis)

/-- A unit of the notation: its symbol, its milliseconds, and whether it is
written only where it divides exactly. -/
structure TimeUnit where
  symbol : String
  millis : Nat
  exact : Bool

/-- The units, from the greatest to the least. -/
def units : List TimeUnit :=
  [⟨"y", 31536000000, true⟩, ⟨"w", 604800000, true⟩,
    ⟨"d", 86400000, false⟩, ⟨"h", 3600000, false⟩,
    ⟨"m", 60000, false⟩, ⟨"s", 1000, false⟩, ⟨"ms", 1, false⟩]

/-- The counts of the units that make up a number of milliseconds, with their
symbols. -/
def items : List TimeUnit → Nat → List (Nat × String)
  | [], _ => []
  | u :: us, millis =>
    let count := millis / u.millis
    if (u.exact ∧ millis % u.millis ≠ 0) ∨ count = 0 then items us millis
    else (count, u.symbol) :: items us (millis - count * u.millis)

def text (r : Retention) : String :=
  if r.millis = 0 then "0s"
  else
    String.join ((items units r.millis).map fun i => Number.natText i.1 ++ i.2)

/-- Why a text denotes no window. -/
inductive ReadError where
  | empty
  | invalidFormat (text : String)
  | outOfRange (text : String)
deriving DecidableEq, Repr

def ReadError.message : ReadError → String
  | .empty => "Empty duration string"
  | .invalidFormat t => "Invalid duration format: " ++ t
  | .outOfRange t => "Duration out of range: " ++ t

/-- The bound of the milliseconds that a text can denote. -/
def readBound : Nat := Nat.pow 2 64

/-- The bound of the numbers that counts are added up with. -/
def sumBound : Nat := Nat.pow 2 128

/-- A number, if it is below the bound. -/
def inBound? (n : Nat) : Option Nat :=
  if n < sumBound then some n else none

/-- The digits of a count with the unit that it counts. -/
abbrev Count := List Char × TimeUnit

/-- Reads a count of a unit at the start of a text: digits, as many as there
are, and the symbol of the unit. -/
def readCount? (u : TimeUnit) (cs : List Char) : Option (Count × List Char) :=
  let digits := cs.takeWhile Char.isDigit
  let rest := cs.dropWhile Char.isDigit
  if digits ≠ [] ∧ u.symbol.toList <+: rest then
    some ((digits, u), rest.drop u.symbol.length)
  else none

/-- Reads a sequence of counts of some of the given units, in their order, up to
the end of a text.  A unit that can be counted at the start of the text is
passed over only where the text after its count cannot be read. -/
def readCounts? : List TimeUnit → List Char → Option (List Count)
  | [], cs => if cs = [] then some [] else none
  | u :: us, cs =>
    let counted := do
      let (count, rest) ← readCount? u cs
      let counts ← readCounts? us rest
      pure (count :: counts)
    counted <|> readCounts? us cs

/-- Adds the milliseconds of a count to a total, with no number on the way
beyond the bound. -/
def addCount? (total : Nat) (count : Count) : Option Nat := do
  let n ← inBound? (Number.digitsValue count.1)
  let millis ← inBound? (n * count.2.millis)
  inBound? (total + millis)

/-- Reads the text of a window, without regard to white space around it. -/
def ofText (s : String) : Except ReadError Retention :=
  let t := Text.trim s.toList
  if t = [] then .error .empty
  else if t = ['0'] then .ok zero
  else
    match readCounts? units t with
    | none => .error (.invalidFormat (String.ofList t))
    | some counts =>
      match counts.foldlM addCount? 0 with
      | none => .error (.outOfRange (String.ofList t))
      | some millis =>
        if counts.isEmpty then .error (.invalidFormat (String.ofList t))
        else if h : millis < readBound then
          .ok ⟨millis,
            Nat.lt_of_lt_of_le h (Nat.le_mul_of_pos_right _ (by decide))⟩
        else .error (.outOfRange (String.ofList t))

end Retention

end ContainerArgs
