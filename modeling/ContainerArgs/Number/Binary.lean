/-!
# Binary floating-point numbers

Numbers in the binary interchange formats, given by their bits, and the number
of a format that is nearest to a decimal one.  All computation is exact, in
natural numbers.
-/

namespace ContainerArgs.Number

/-- A binary interchange format: how many bits of the fraction and of the
exponent it stores. -/
structure Format where
  fractionBits : Nat
  exponentBits : Nat
deriving DecidableEq, Repr

namespace Format

def single : Format := ⟨23, 8⟩

def double : Format := ⟨52, 11⟩

/-- The stored exponent of infinities and of what is not a number. -/
def specialExponent (f : Format) : Nat :=
  Nat.pow 2 f.exponentBits - 1

/-- The exponent of the unit in the last place of the least numbers. -/
def leastExponent (f : Format) : Int :=
  2 - (Nat.pow 2 (f.exponentBits - 1) : Nat) - f.fractionBits

def infinityBits (f : Format) : Nat :=
  f.specialExponent * Nat.pow 2 f.fractionBits

def signWeight (f : Format) : Nat :=
  Nat.pow 2 (f.fractionBits + f.exponentBits)

end Format

/-- A number of a binary format, as its bits. -/
structure Binary where
  format : Format
  bits : Nat
deriving DecidableEq, Repr

/-- What a number is apart from its sign: a finite one is `significand · 2 ^
exponent`. -/
inductive Magnitude where
  | notANumber
  | infinite
  | finite (significand : Nat) (exponent : Int)
deriving DecidableEq, Repr

namespace Binary

/-- Whether the sign bit is set. -/
def isNegative (x : Binary) : Bool :=
  x.bits / x.format.signWeight % 2 == 1

def magnitude (x : Binary) : Magnitude :=
  let fraction := x.bits % Nat.pow 2 x.format.fractionBits
  let stored :=
    x.bits / Nat.pow 2 x.format.fractionBits % Nat.pow 2 x.format.exponentBits
  if stored = x.format.specialExponent then
    if fraction = 0 then .infinite else .notANumber
  else if stored = 0 then .finite fraction x.format.leastExponent
  else
    .finite (Nat.pow 2 x.format.fractionBits + fraction)
      (x.format.leastExponent + stored - 1)

/-- Whether the number is a zero of either sign. -/
def isZero (x : Binary) : Bool :=
  match x.magnitude with
  | .finite 0 _ => true
  | _ => false

/-- Whether the bits are not those of a number. -/
def isNaN (x : Binary) : Bool :=
  x.magnitude == .notANumber

/-- Whether two numbers of one format are the same value; the zeros are, and so
are all that are not numbers. -/
def same (x y : Binary) : Bool :=
  x == y || (x.isZero && y.isZero) || (x.isNaN && y.isNaN)

/-- The quotient rounded to the nearest natural number, a half to the even
one. -/
def roundHalfEven (num den : Nat) : Nat :=
  let q := num / den
  let r := 2 * (num % den)
  if r < den ∨ (r = den ∧ q % 2 = 0) then q else q + 1

/-- The fraction `num / den` divided by `2 ^ e`. -/
def scale (num den : Nat) (e : Int) : Nat × Nat :=
  if 0 ≤ e then (num, den * Nat.pow 2 e.toNat)
  else (num * Nat.pow 2 (-e).toNat, den)

/-- The bits of the number of a format that is nearest to the positive fraction
`num / den`. -/
def nearestBits (f : Format) (num den : Nat) : Nat :=
  let size : Int := (Nat.log2 num : Int) - Nat.log2 den
  let fine := scale num den (size - f.fractionBits - 1)
  let e :=
    if fine.1 / fine.2 < Nat.pow 2 (f.fractionBits + 1) then
      size - f.fractionBits - 1
    else size - f.fractionBits
  let e := max e f.leastExponent
  let scaled := scale num den e
  let bits :=
    (e - f.leastExponent).toNat * Nat.pow 2 f.fractionBits +
      roundHalfEven scaled.1 scaled.2
  min bits f.infinityBits

/-- The number nearest to `digits · 10 ^ exponent`, with a sign.  Far beyond the
range of the format the answer is an infinity or a zero without any
computation. -/
def ofDecimal (f : Format) (negative : Bool) (digits : Nat) (exponent : Int) :
    Binary :=
  let order := (Nat.toDigits 10 digits).length + exponent
  let bits :=
    if digits = 0 ∨ order < -400 then 0
    else if 400 < order then f.infinityBits
    else if 0 ≤ exponent then
      nearestBits f (digits * Nat.pow 10 exponent.toNat) 1
    else nearestBits f digits (Nat.pow 10 (-exponent).toNat)
  ⟨f, if negative then f.signWeight + bits else bits⟩

/-- Whether the number is neither infinite nor lacking a value. -/
def isFinite (x : Binary) : Bool :=
  match x.magnitude with
  | .finite _ _ => true
  | _ => false

end Binary

end ContainerArgs.Number
