import ContainerArgs.Net.Address
import ContainerArgs.Proofs.Net.Ipv6

/-!
# Socket addresses read back

The text of a socket address is read as the address.  An opening bracket tells
the two kinds apart, and a scope of zero, which is not written, is what a
missing scope is read as.
-/

namespace ContainerArgs.Net.Socket

open Number

theorem readPort?_toDigits (port : UInt16) :
    readPort? (':' :: Nat.toDigits 10 port.toNat) = some (port, []) := by
  have hport : port.toNat ≤ 65535 := Nat.le_of_lt_succ port.toNat_lt
  have hread : readDecimal? 65535 (Nat.toDigits 10 port.toNat ++ []) =
      some (port.toNat, []) :=
    readDecimal?_toDigits_append hport (by simp)
  rw [List.append_nil] at hread
  simp [readPort?, hread]

theorem readV4?_text (ip : Ipv4) (port : UInt16) :
    readV4? (Socket.v4 ip port).text.toList = some (.v4 ip port, []) := by
  have hchars : (Socket.v4 ip port).text.toList =
      ip.text.toList ++ ':' :: Nat.toDigits 10 port.toNat := by
    simp [text]
  have hcolon : ∀ c ∈ (':' :: Nat.toDigits 10 port.toNat).head?,
      c.isDigit = false := by
    simp
  rw [hchars]
  simp [readV4?, Ipv4.read?_text_append ip hcolon, readPort?_toDigits]

/-- What is written between an IPv6 address and its closing bracket. -/
def zoneChars (zone : UInt32) : List Char :=
  if zone = 0 then [] else '%' :: Nat.toDigits 10 zone.toNat

theorem toList_text_v6 (ip : Ipv6) (zone : UInt32) (port : UInt16) :
    (Socket.v6 ip zone port).text.toList =
      '[' :: (ip.text.toList ++ (zoneChars zone ++
        ']' :: ':' :: Nat.toDigits 10 port.toNat)) := by
  by_cases hzone : zone = 0 <;> simp [text, zoneChars, hzone]

theorem readZone_zoneChars_append (zone : UInt32) (rest : List Char) :
    readZone (zoneChars zone ++ ']' :: rest) = (zone, ']' :: rest) := by
  by_cases hzone : zone = 0
  · simp [zoneChars, hzone, readZone, readChar?]
  · have hbound : zone.toNat ≤ 4294967295 := Nat.le_of_lt_succ zone.toNat_lt
    have hclosing : ∀ c ∈ (']' :: rest).head?, c.isDigit = false := by
      simp
    have hread := readDecimal?_toDigits_append hbound hclosing
    simp [zoneChars, hzone, readZone, hread]

theorem head_zoneChars_append (zone : UInt32) (rest : List Char) :
    ∀ c ∈ (zoneChars zone ++ ']' :: rest).head?,
      Ipv6.isHex c = false ∧ c ≠ '.' ∧ c ≠ ':' := by
  by_cases hzone : zone = 0 <;> simp [zoneChars, hzone] <;> decide

theorem readV6?_text (ip : Ipv6) (zone : UInt32) (port : UInt16) :
    readV6? (Socket.v6 ip zone port).text.toList =
      some (.v6 ip zone port, []) := by
  have hip := Ipv6.read?_text_append ip
    (head_zoneChars_append zone (':' :: Nat.toDigits 10 port.toNat))
  rw [toList_text_v6]
  simp [readV6?, hip, readZone_zoneChars_append, readPort?_toDigits]

theorem readV4?_bracket (cs : List Char) :
    readV4? ('[' :: cs) = none := by
  have hip : Ipv4.read? ('[' :: cs) = none := Ipv4.read?_eq_none (by simp)
  simp [readV4?, hip]

/-- The text of a socket address is read as that address. -/
theorem ofText?_text (a : Socket) :
    ofText? a.text = some a := by
  cases a with
  | v4 ip port => rw [ofText?, readV4?_text, whole?]
  | v6 ip zone port =>
      have hv4 : readV4? (Socket.v6 ip zone port).text.toList = none := by
        rw [toList_text_v6, readV4?_bracket]
      rw [ofText?, hv4, readV6?_text]
      rfl

/-- No two socket addresses share a text. -/
theorem text_injective {a b : Socket} (h : a.text = b.text) :
    a = b := by
  have ha := ofText?_text a
  rw [h, ofText?_text b] at ha
  exact (Option.some.inj ha).symm

end ContainerArgs.Net.Socket
