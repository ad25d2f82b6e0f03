import ContainerArgs.Yaml.Error
import ContainerArgs.Yaml.Value

/-!
# Plain scalars

What a scalar without quotes denotes: null, a boolean, an integer, a
floating-point number or, failing these, its text. Digits after a leading zero
are a text.
-/

namespace ContainerArgs.Yaml.Plain

def isNull (s : String) : Bool :=
  s == "null" || s == "Null" || s == "NULL" || s == "~"

def bool? (s : String) : Option Bool :=
  if s == "true" || s == "True" || s == "TRUE" then some true
  else if s == "false" || s == "False" || s == "FALSE" then some false
  else none

def hasSign (cs : List Char) : Bool :=
  cs.head? == some '+' || cs.head? == some '-'

/-- The text without a sign at its start. -/
def dropSign (cs : List Char) : List Char :=
  if hasSign cs then cs.drop 1 else cs

/-- Whether a text, apart from its sign, is digits with a needless zero in
front. -/
def isPaddedNumber (cs : List Char) : Bool :=
  match dropSign cs with
  | '0' :: d :: ds => (d :: ds).all Char.isDigit
  | _ => false

/-- Reads the digits of a number that may begin with the mark of its base. -/
def natural? (cs : List Char) : Option Nat :=
  match cs with
  | '0' :: 'x' :: ds => Number.readBase? 16 ds
  | '0' :: 'o' :: ds => Number.readBase? 8 ds
  | '0' :: 'b' :: ds => Number.readBase? 2 ds
  | ds => Number.readNat? ds

def int? (s : String) : Option Int :=
  let cs := s.toList
  if isPaddedNumber cs then none
  else match cs with
    | '-' :: ds => (natural? ds).map fun n => -(n : Int)
    | '+' :: ds => (natural? ds).map Int.ofNat
    | ds => (natural? ds).map Int.ofNat

/-- Reads the exponent of a floating-point number, which may be missing. -/
def exponent? : List Char → Option Int
  | [] => some 0
  | e :: cs => if e == 'e' || e == 'E' then Number.readInt? cs else none

/-- Reads a decimal number with an optional sign, point and exponent, as far as
it is finite. -/
def decimal? (cs : List Char) : Option Number.Binary := do
  let negative := cs.head? == some '-'
  let body := dropSign cs
  let whole := body.takeWhile Char.isDigit
  let rest := body.dropWhile Char.isDigit
  let pointed := rest.head? == some '.'
  let fraction := if pointed then (rest.drop 1).takeWhile Char.isDigit else []
  let rest := if pointed then (rest.drop 1).dropWhile Char.isDigit else rest
  let exponent ← exponent? rest
  let digits ← Number.readNat? (whole ++ fraction)
  let x :=
    Number.Binary.ofDecimal .double negative digits (exponent - fraction.length)
  if x.isFinite then some x else none

def infinity (negative : Bool) : Number.Binary :=
  let f := Number.Format.double
  ⟨f, if negative then f.signWeight + f.infinityBits else f.infinityBits⟩

/-- The quiet value that is not a number. -/
def notANumber : Number.Binary :=
  ⟨.double, Number.Format.double.infinityBits + Nat.pow 2 51⟩

def float? (s : String) : Option Number.Binary :=
  let cs := s.toList
  let unsigned := if cs.head? == some '+' then cs.drop 1 else cs
  if cs.head? == some '+' && hasSign unsigned then none
  else
    let t := String.ofList unsigned
    if t == ".inf" || t == ".Inf" || t == ".INF" then some (infinity false)
    else if s == "-.inf" || s == "-.Inf" || s == "-.INF" then
      some (infinity true)
    else if s == ".nan" || s == ".NaN" || s == ".NAN" then some notANumber
    else decimal? unsigned

/-- What an integer denotes, by its range: integers of 64 bits are values, those
of 128 bits are refused, and greater ones are not read as integers at all. -/
def ofInt (n : Int) : Option (Except Error Value) :=
  if -(Nat.pow 2 63 : Nat) ≤ n ∧ n < (Nat.pow 2 64 : Nat) then
    some (.ok (.int n))
  else if -(Nat.pow 2 127 : Nat) ≤ n ∧ n < (Nat.pow 2 128 : Nat) then
    some (.error .integerOutOfRange)
  else none

/-- What a number denotes, if the text is one. -/
def number? (s : String) : Option (Except Error Value) :=
  match (int? s).bind ofInt with
  | some r => some r
  | none =>
    if isPaddedNumber s.toList then none
    else (float? s).map fun x => .ok (.float x)

/-- What a plain scalar denotes. -/
def resolve (s : String) : Except Error Value :=
  if s.isEmpty || isNull s then .ok .null
  else match bool? s with
    | some b => .ok (.bool b)
    | none => (number? s).getD (.ok (.text s))

end ContainerArgs.Yaml.Plain
