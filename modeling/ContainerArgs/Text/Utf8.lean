/-!
# UTF-8

Texts as sequences of bytes.  A byte sequence that is not the form of any text
can still be shown: every maximal part that could have begun a character, and
every byte that could not, becomes one replacement character.
-/

namespace ContainerArgs.Text.Utf8

def encodeChar (c : Char) : List UInt8 :=
  let n := c.toNat
  if n < 0x80 then [n.toUInt8]
  else if n < 0x800 then [(0xC0 + n / 0x40).toUInt8, (0x80 + n % 0x40).toUInt8]
  else if n < 0x10000 then
    [(0xE0 + n / 0x1000).toUInt8, (0x80 + n / 0x40 % 0x40).toUInt8,
      (0x80 + n % 0x40).toUInt8]
  else
    [(0xF0 + n / 0x40000).toUInt8, (0x80 + n / 0x1000 % 0x40).toUInt8,
      (0x80 + n / 0x40 % 0x40).toUInt8, (0x80 + n % 0x40).toUInt8]

def encode (cs : List Char) : List UInt8 :=
  cs.flatMap encodeChar

/-- What the first byte of a character announces: the number of bytes after it,
the part of the code point that it carries, and the range of the byte that may
follow it. -/
structure Lead where
  tails : Nat
  part : Nat
  low : Nat
  high : Nat

/-- What a byte announces, if a character can begin with it.  The narrower
ranges after `E0`, `ED`, `F0` and `F4` rule out longer forms than needed,
surrogates, and numbers beyond the last code point. -/
def lead? (b : UInt8) : Option Lead :=
  let n := b.toNat
  if n < 0x80 then some ⟨0, n, 0, 0⟩
  else if n < 0xC2 then none
  else if n < 0xE0 then some ⟨1, n - 0xC0, 0x80, 0xBF⟩
  else if n < 0xF0 then
    some ⟨2, n - 0xE0, if n = 0xE0 then 0xA0 else 0x80,
      if n = 0xED then 0x9F else 0xBF⟩
  else if n < 0xF5 then
    some ⟨3, n - 0xF0, if n = 0xF0 then 0x90 else 0x80,
      if n = 0xF4 then 0x8F else 0xBF⟩
  else none

/-- Reads `tails` further bytes of a character whose code point so far is
`part`, the first of them between `low` and `high`.  Gives the code point if all
are there, and the bytes left over in any case. -/
def readTails : Nat → Nat → Nat → Nat → List UInt8 → Option Nat × List UInt8
  | 0, part, _, _, bs => (some part, bs)
  | _ + 1, _, _, _, [] => (none, [])
  | tails + 1, part, low, high, b :: bs =>
    if low ≤ b.toNat ∧ b.toNat ≤ high then
      readTails tails (part * 0x40 + (b.toNat - 0x80)) 0x80 0xBF bs
    else (none, b :: bs)

theorem readTails_length_le (tails part low high : Nat) (bs : List UInt8) :
    (readTails tails part low high bs).2.length ≤ bs.length := by
  induction tails generalizing part low high bs with
  | zero => simp [readTails]
  | succ tails ih =>
    cases bs with
    | nil => simp [readTails]
    | cons b bs =>
      unfold readTails
      split
      · exact Nat.le_succ_of_le (ih _ _ _ _)
      · simp

/-- The first character of a byte sequence, absent where the bytes are
malformed, and the bytes after it. -/
def decodeStep (b : UInt8) (bs : List UInt8) : Option Char × List UInt8 :=
  match lead? b with
  | none => (none, bs)
  | some lead =>
    let read := readTails lead.tails lead.part lead.low lead.high bs
    (read.1.map Char.ofNat, read.2)

theorem decodeStep_length_le (b : UInt8) (bs : List UInt8) :
    (decodeStep b bs).2.length ≤ bs.length := by
  unfold decodeStep
  split
  · simp
  · exact readTails_length_le _ _ _ _ _

/-- The characters of a byte sequence, absent for every malformed part. -/
def decodeParts : List UInt8 → List (Option Char)
  | [] => []
  | b :: bs =>
    let step := decodeStep b bs
    step.1 :: decodeParts step.2
termination_by bs => bs.length
decreasing_by exact Nat.lt_succ_of_le (decodeStep_length_le b bs)

/-- The replacement character. -/
def replacement : Char :=
  '\ufffd'

/-- The characters of a byte sequence, with the replacement character for every
malformed part. -/
def decodeLossy (bs : List UInt8) : List Char :=
  (decodeParts bs).map (·.getD replacement)

/-- The characters of a byte sequence, if no part of it is malformed. -/
def decode? (bs : List UInt8) : Option (List Char) :=
  (decodeParts bs).mapM id

end ContainerArgs.Text.Utf8
