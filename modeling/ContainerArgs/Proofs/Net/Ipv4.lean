import ContainerArgs.Net.Ipv4
import ContainerArgs.Proofs.Number.Decimal
import ContainerArgs.Proofs.Number.Hexadecimal

/-!
# IPv4 addresses read back

A reader of numbers takes all the digits there are, so a written number is read
back when what follows it does not begin with a digit.  A text is no IPv4
address when its digits are not followed by a point.
-/

namespace ContainerArgs.Net

open Number

theorem takeWhile_toDigits_append
    {n : ℕ} {rest : List Char} (hrest : ∀ c ∈ rest.head?, c.isDigit = false) :
    (Nat.toDigits 10 n ++ rest).takeWhile Char.isDigit = Nat.toDigits 10 n :=
  Text.takeWhile_append_of_stop (fun _ => isDigit_of_mem_toDigits) hrest

theorem readDecimal?_toDigits_append
    {limit n : ℕ} {rest : List Char} (hn : n ≤ limit)
    (hrest : ∀ c ∈ rest.head?, c.isDigit = false) :
    readDecimal? limit (Nat.toDigits 10 n ++ rest) = some (n, rest) := by
  rw [readDecimal?, takeWhile_toDigits_append hrest, ← toList_natText,
    readNat?_natText, toList_natText,
    Text.dropWhile_append_of_stop (fun _ => isDigit_of_mem_toDigits) hrest]
  exact if_pos hn

@[simp] theorem readChar?_cons (c : Char) (cs : List Char) :
    readChar? c (c :: cs) = some cs :=
  if_pos rfl

theorem readChar?_eq_none
    {c : Char} {cs : List Char} (h : cs.head? ≠ some c) :
    readChar? c cs = none := by
  cases cs with
  | nil => rfl
  | cons d cs => simpa [readChar?] using h

namespace Ipv4

/-- A written octet is short and has no leading zero, so it is read back. -/
theorem readOctet?_toDigits_append
    (a : UInt8) {rest : List Char} (hrest : ∀ c ∈ rest.head?, c.isDigit = false) :
    readOctet? (Nat.toDigits 10 a.toNat ++ rest) = some (a, rest) := by
  have hlt : a.toNat < 256 := a.toNat_lt
  have hlength : (Nat.toDigits 10 a.toNat).length ≤ 3 :=
    (Nat.length_toDigits_le_iff (by decide) (by decide)).mpr (by omega)
  have hlead : ¬ (1 < (Nat.toDigits 10 a.toNat).length ∧
      (Nat.toDigits 10 a.toNat).head? = some '0') := by
    rintro ⟨hlong, hzero⟩
    refine head?_toDigits_ne_zero (by decide) (fun h => ?_) hzero
    simp [h] at hlong
  have hshort := Nat.not_lt.mpr hlength
  rw [readOctet?, takeWhile_toDigits_append hrest,
    if_neg (not_or.mpr ⟨hshort, hlead⟩),
    readDecimal?_toDigits_append (by omega) hrest]
  simp

theorem toList_text (ip : Ipv4) :
    ip.text.toList =
      Nat.toDigits 10 ip.a.toNat ++ '.' :: (Nat.toDigits 10 ip.b.toNat ++
        '.' :: (Nat.toDigits 10 ip.c.toNat ++
          '.' :: Nat.toDigits 10 ip.d.toNat)) := by
  simp [text]

/-- The text of an address is read as the address, up to what follows it. -/
theorem read?_text_append
    (ip : Ipv4) {rest : List Char} (hrest : ∀ c ∈ rest.head?, c.isDigit = false) :
    read? (ip.text.toList ++ rest) = some (ip, rest) := by
  have hpoint : ∀ cs : List Char, ∀ c ∈ ('.' :: cs).head?, c.isDigit = false := by
    simp
  rw [toList_text]
  simp only [List.append_assoc, List.cons_append]
  simp [read?, readOctet?_toDigits_append _ (hpoint _),
    readOctet?_toDigits_append _ hrest]

/-- A point has to follow the first octet. -/
theorem read?_eq_none
    {cs : List Char} (h : (cs.dropWhile Char.isDigit).head? ≠ some '.') :
    read? cs = none := by
  have hoctet : ∀ r ∈ readOctet? cs, readChar? '.' r.2 = none := by
    intro r hr
    simp only [readOctet?] at hr
    split at hr
    next => simp at hr
    next =>
      simp only [readDecimal?] at hr
      split at hr
      next =>
        split at hr
        next =>
          obtain rfl := Option.some.inj hr
          exact readChar?_eq_none h
        next => simp at hr
      next => simp at hr
  rw [read?]
  cases hread : readOctet? cs with
  | none => rfl
  | some r => simp [hoctet r hread]

end Ipv4

end ContainerArgs.Net
