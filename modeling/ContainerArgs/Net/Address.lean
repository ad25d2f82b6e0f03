import ContainerArgs.Net.Ipv6

/-!
# Network addresses

Addresses of hosts and of sockets.  A socket address is a host address and a
port, with an IPv6 address in brackets and after it a scope, if it is not zero.
-/

namespace ContainerArgs.Net

/-- The value read when it is followed by nothing. -/
def whole? {α : Type} : Option (α × List Char) → Option α
  | some (a, []) => some a
  | _ => none

def Ipv4.ofText? (s : String) : Option Ipv4 :=
  whole? (Ipv4.read? s.toList)

def Ipv6.ofText? (s : String) : Option Ipv6 :=
  whole? (Ipv6.read? s.toList)

/-- The address of a host. -/
inductive Host where
  | v4 (ip : Ipv4)
  | v6 (ip : Ipv6)
deriving DecidableEq, Repr

namespace Host

def ofText? (s : String) : Option Host :=
  match Ipv4.ofText? s with
  | some ip => some (.v4 ip)
  | none => (Ipv6.ofText? s).map .v6

def text : Host → String
  | .v4 ip => ip.text
  | .v6 ip => ip.text

end Host

/-- The address of a socket. -/
inductive Socket where
  | v4 (ip : Ipv4) (port : UInt16)
  | v6 (ip : Ipv6) (zone : UInt32) (port : UInt16)
deriving DecidableEq, Repr

namespace Socket

def readPort? (cs : List Char) : Option (UInt16 × List Char) := do
  let cs ← readChar? ':' cs
  let (port, cs) ← readDecimal? 65535 cs
  pure (port.toUInt16, cs)

def readV4? (cs : List Char) : Option (Socket × List Char) := do
  let (ip, cs) ← Ipv4.read? cs
  let (port, cs) ← readPort? cs
  pure (.v4 ip port, cs)

/-- Reads a percent sign and the number of a zone; where they are missing the
zone is zero. -/
def readZone (cs : List Char) : UInt32 × List Char :=
  match (readChar? '%' cs).bind (readDecimal? 4294967295) with
  | some (zone, rest) => (zone.toUInt32, rest)
  | none => (0, cs)

def readV6? (cs : List Char) : Option (Socket × List Char) := do
  let cs ← readChar? '[' cs
  let (ip, cs) ← Ipv6.read? cs
  let (zone, cs) := readZone cs
  let cs ← readChar? ']' cs
  let (port, cs) ← readPort? cs
  pure (.v6 ip zone port, cs)

def ofText? (s : String) : Option Socket :=
  match whole? (readV4? s.toList) with
  | some a => some a
  | none => whole? (readV6? s.toList)

def text : Socket → String
  | .v4 ip port => ip.text ++ ":" ++ Number.natText port.toNat
  | .v6 ip zone port =>
    let inner :=
      if zone = 0 then ip.text else ip.text ++ "%" ++ Number.natText zone.toNat
    "[" ++ inner ++ "]:" ++ Number.natText port.toNat

end Socket

end ContainerArgs.Net
