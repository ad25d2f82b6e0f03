import ContainerArgs.Net.Ipv4

/-!
# IPv6 addresses

Eight groups of up to four hexadecimal digits, separated by colons.  One double
colon may stand for one or more groups of zeros, and an IPv4 address for the
last two groups.  Written, the first of the longest runs of two or more zero
groups is a double colon, and an address that maps an IPv4 address shows it as
such.
-/

namespace ContainerArgs.Net

/-- An IPv6 address. -/
structure Ipv6 where
  groups : List UInt16
  length_groups : groups.length = 8
deriving DecidableEq, Repr

namespace Ipv6

/-- Reads a group of one to four hexadecimal digits at the start of a text. -/
def readGroup? (cs : List Char) : Option (UInt16 × List Char) :=
  let digits := cs.takeWhile fun c => (Number.hexValue? c).isSome
  if 4 < digits.length then none
  else
    (Number.readBase? 16 digits).map fun n =>
      (n.toUInt16, cs.drop digits.length)

/-- Reads up to `limit` groups, with a colon before each but the first of the
sequence.  The last two may be an IPv4 address, and the answer says whether they
were. -/
def readGroups : Nat → Bool → List Char → List UInt16 × Bool × List Char
  | 0, _, cs => ([], false, cs)
  | limit + 1, first, cs =>
    match if first then some cs else readChar? ':' cs with
    | none => ([], false, cs)
    | some inner =>
      match if 1 ≤ limit then Ipv4.read? inner else none with
      | some (ip, rest) =>
        ([(ip.a.toNat * 256 + ip.b.toNat).toUInt16,
          (ip.c.toNat * 256 + ip.d.toNat).toUInt16], true, rest)
      | none =>
        match readGroup? inner with
        | none => ([], false, cs)
        | some (g, rest) =>
          let more := readGroups limit false rest
          (g :: more.1, more.2)

/-- The address with the given groups, if there are eight of them. -/
def ofGroups? (gs : List UInt16) : Option Ipv6 :=
  if h : gs.length = 8 then some ⟨gs, h⟩ else none

/-- Reads an address at the start of a text. -/
def read? (cs : List Char) : Option (Ipv6 × List Char) := do
  let (head, embedded, rest) := readGroups 8 true cs
  if head.length = 8 then (ofGroups? head).map (·, rest)
  else if embedded then none
  else
    let rest ← readChar? ':' rest
    let rest ← readChar? ':' rest
    let (tail, _, rest) := readGroups (8 - (head.length + 1)) true rest
    (ofGroups?
      (head ++ List.replicate (8 - head.length - tail.length) 0 ++ tail)).map
        (·, rest)

/-- The length of the run of zero groups at the start. -/
def zeroRun (gs : List UInt16) : Nat :=
  (gs.takeWhile (· == 0)).length

/-- The start and the length of the first of the longest runs of zero groups. -/
def longestRun : List UInt16 → Nat × Nat
  | [] => (0, 0)
  | g :: gs =>
    let here := zeroRun (g :: gs)
    let later := longestRun gs
    if later.2 ≤ here then (0, here) else (later.1 + 1, later.2)

/-- Groups in hexadecimal, separated by colons. -/
def groupsText (gs : List UInt16) : String :=
  String.intercalate ":"
    (gs.map fun g => String.ofList (Nat.toDigits 16 g.toNat))

/-- The IPv4 address that an address maps. -/
def mapped? (ip : Ipv6) : Option Ipv4 :=
  match ip.groups with
  | [0, 0, 0, 0, 0, 0xFFFF, g, h] =>
    some ⟨(g.toNat / 256).toUInt8, (g.toNat % 256).toUInt8,
      (h.toNat / 256).toUInt8, (h.toNat % 256).toUInt8⟩
  | _ => none

def text (ip : Ipv6) : String :=
  match ip.mapped? with
  | some v4 => "::ffff:" ++ v4.text
  | none =>
    let run := longestRun ip.groups
    if 2 ≤ run.2 then
      groupsText (ip.groups.take run.1) ++ "::" ++
        groupsText (ip.groups.drop (run.1 + run.2))
    else groupsText ip.groups

end Ipv6

end ContainerArgs.Net
