import ContainerArgs.Number.Digits

/-!
# IPv4 addresses

Four octets in decimal, separated by points.  An octet has at most three digits
and no leading zero.
-/

namespace ContainerArgs.Net

/-- Reads a decimal number of at most `limit` from the digits at the start of a
text. -/
def readDecimal? (limit : Nat) (cs : List Char) : Option (Nat × List Char) :=
  match Number.readNat? (cs.takeWhile Char.isDigit) with
  | some n => if n ≤ limit then some (n, cs.dropWhile Char.isDigit) else none
  | none => none

def readChar? (c : Char) : List Char → Option (List Char)
  | [] => none
  | d :: cs => if d = c then some cs else none

/-- An IPv4 address. -/
structure Ipv4 where
  a : UInt8
  b : UInt8
  c : UInt8
  d : UInt8
deriving DecidableEq, Repr

namespace Ipv4

def readOctet? (cs : List Char) : Option (UInt8 × List Char) :=
  let digits := cs.takeWhile Char.isDigit
  if 3 < digits.length ∨ (1 < digits.length ∧ digits.head? = some '0') then none
  else (readDecimal? 255 cs).map fun r => (r.1.toUInt8, r.2)

/-- Reads an address at the start of a text. -/
def read? (cs : List Char) : Option (Ipv4 × List Char) := do
  let (a, cs) ← readOctet? cs
  let cs ← readChar? '.' cs
  let (b, cs) ← readOctet? cs
  let cs ← readChar? '.' cs
  let (c, cs) ← readOctet? cs
  let cs ← readChar? '.' cs
  let (d, cs) ← readOctet? cs
  pure (⟨a, b, c, d⟩, cs)

def text (ip : Ipv4) : String :=
  Number.natText ip.a.toNat ++ "." ++ Number.natText ip.b.toNat ++ "." ++
    Number.natText ip.c.toNat ++ "." ++
    Number.natText ip.d.toNat

end Ipv4

end ContainerArgs.Net
