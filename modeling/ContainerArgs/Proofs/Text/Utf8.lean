import ContainerArgs.Text.Path
import Mathlib.Tactic.Common

/-!
# Texts survive their bytes

The bytes of a text are decoded to the text.  The first byte of a character
announces how many follow and narrows the second one exactly as far as the
characters of that length need.
-/

namespace ContainerArgs.Text

namespace Utf8

theorem toNat_toUInt8_of_lt {n : ℕ} (h : n < 256) :
    n.toUInt8.toNat = n :=
  UInt8.toNat_ofNat_of_lt' h

/-! ## The first byte -/

theorem lead?_one {n : ℕ} (h : n < 0x80) :
    lead? n.toUInt8 = some ⟨0, n, 0, 0⟩ := by
  rw [lead?, toNat_toUInt8_of_lt (by omega), if_pos h]

theorem lead?_two {part : ℕ} (hlow : 2 ≤ part) (hhigh : part < 0x20) :
    lead? (0xC0 + part).toUInt8 = some ⟨1, part, 0x80, 0xBF⟩ := by
  rw [lead?, toNat_toUInt8_of_lt (by omega), if_neg (by omega),
    if_neg (by omega), if_pos (by omega), Nat.add_sub_cancel_left]

theorem lead?_three {part : ℕ} (h : part < 0x10) :
    lead? (0xE0 + part).toUInt8 =
      some ⟨2, part, if part = 0 then 0xA0 else 0x80,
        if part = 0xD then 0x9F else 0xBF⟩ := by
  have hzero : 0xE0 + part = 0xE0 ↔ part = 0 := by omega
  have hlast : 0xE0 + part = 0xED ↔ part = 0xD := by omega
  rw [lead?, toNat_toUInt8_of_lt (by omega), if_neg (by omega),
    if_neg (by omega), if_neg (by omega), if_pos (by omega),
    Nat.add_sub_cancel_left]
  simp only [hzero, hlast]

theorem lead?_four {part : ℕ} (h : part < 5) :
    lead? (0xF0 + part).toUInt8 =
      some ⟨3, part, if part = 0 then 0x90 else 0x80,
        if part = 4 then 0x8F else 0xBF⟩ := by
  have hzero : 0xF0 + part = 0xF0 ↔ part = 0 := by omega
  have hlast : 0xF0 + part = 0xF4 ↔ part = 4 := by omega
  rw [lead?, toNat_toUInt8_of_lt (by omega), if_neg (by omega),
    if_neg (by omega), if_neg (by omega), if_neg (by omega),
    if_pos (by omega), Nat.add_sub_cancel_left]
  simp only [hzero, hlast]

/-! ## The bytes after it -/

/-- A byte in the range that is asked for adds six bits to the code point. -/
theorem readTails_succ
    {tails part low high bits : ℕ} (hbits : bits < 0x40)
    (hlow : low ≤ 0x80 + bits) (hhigh : 0x80 + bits ≤ high) (rest : List UInt8) :
    readTails (tails + 1) part low high ((0x80 + bits).toUInt8 :: rest) =
      readTails tails (part * 0x40 + bits) 0x80 0xBF rest := by
  rw [readTails, toNat_toUInt8_of_lt (by omega), if_pos ⟨hlow, hhigh⟩,
    Nat.add_sub_cancel_left]

@[simp] theorem readTails_zero (part low high : ℕ) (rest : List UInt8) :
    readTails 0 part low high rest = (some part, rest) := by
  cases rest <;> rfl

/-- The code points of characters leave out the surrogates. -/
theorem toNat_cases (c : Char) :
    c.toNat < 0xD800 ∨ (0xDFFF < c.toNat ∧ c.toNat < 0x110000) :=
  c.valid

/-- The bytes of a character are decoded to it, whatever follows. -/
theorem decodeParts_encodeChar_append (c : Char) (rest : List UInt8) :
    decodeParts (encodeChar c ++ rest) = some c :: decodeParts rest := by
  have hvalid := toNat_cases c
  have hstep : ∀ (b : UInt8) (bs : List UInt8),
      decodeStep b bs = (some (Char.ofNat c.toNat), rest) →
      decodeParts (b :: bs) = some c :: decodeParts rest := by
    intro b bs hdecode
    rw [decodeParts, hdecode, Char.ofNat_toNat]
  -- One case for each length.  Of three bytes and of four, the range of the
  -- second leaves out what shorter forms, surrogates or too large code points
  -- would need, which is where the validity of the character comes in.
  rw [encodeChar]
  split
  next hone =>
    refine hstep _ _ ?_
    rw [decodeStep, lead?_one hone]
    simp
  next hone =>
    split
    next htwo =>
      simp only [List.cons_append, List.nil_append]
      refine hstep _ _ ?_
      rw [decodeStep, lead?_two (by omega) (by omega)]
      simp only
      rw [readTails_succ (Nat.mod_lt _ (by omega)) (by omega) (by omega),
        readTails_zero]
      have hcode : c.toNat / 0x40 * 0x40 + c.toNat % 0x40 = c.toNat := by
        omega
      rw [hcode]
      rfl
    next htwo =>
      split
      next hthree =>
        simp only [List.cons_append, List.nil_append]
        refine hstep _ _ ?_
        have hlow : (if c.toNat / 0x1000 = 0 then 0xA0 else 0x80) ≤
            0x80 + c.toNat / 0x40 % 0x40 := by
          split <;> omega
        have hhigh : 0x80 + c.toNat / 0x40 % 0x40 ≤
            if c.toNat / 0x1000 = 0xD then 0x9F else 0xBF := by
          split <;> omega
        rw [decodeStep, lead?_three (by omega)]
        simp only
        rw [readTails_succ (by omega) hlow hhigh,
          readTails_succ (by omega) (by omega) (by omega), readTails_zero]
        have hcode : (c.toNat / 0x1000 * 0x40 + c.toNat / 0x40 % 0x40) * 0x40 +
            c.toNat % 0x40 = c.toNat := by
          omega
        rw [hcode]
        rfl
      next hthree =>
        simp only [List.cons_append, List.nil_append]
        refine hstep _ _ ?_
        have hlow : (if c.toNat / 0x40000 = 0 then 0x90 else 0x80) ≤
            0x80 + c.toNat / 0x1000 % 0x40 := by
          split <;> omega
        have hhigh : 0x80 + c.toNat / 0x1000 % 0x40 ≤
            if c.toNat / 0x40000 = 4 then 0x8F else 0xBF := by
          split <;> omega
        rw [decodeStep, lead?_four (by omega)]
        simp only
        rw [readTails_succ (by omega) hlow hhigh,
          readTails_succ (by omega) (by omega) (by omega),
          readTails_succ (by omega) (by omega) (by omega), readTails_zero]
        have hcode : ((c.toNat / 0x40000 * 0x40 + c.toNat / 0x1000 % 0x40) * 0x40 +
            c.toNat / 0x40 % 0x40) * 0x40 + c.toNat % 0x40 = c.toNat := by
          omega
        rw [hcode]
        rfl

theorem decodeParts_encode (cs : List Char) :
    decodeParts (encode cs) = cs.map some := by
  induction cs with
  | nil => simp [encode, decodeParts]
  | cons c cs ih =>
      rw [encode, List.flatMap_cons, decodeParts_encodeChar_append, ← encode, ih,
        List.map_cons]

theorem decodeLossy_encode (cs : List Char) :
    decodeLossy (encode cs) = cs := by
  rw [decodeLossy, decodeParts_encode, List.map_map]
  exact List.map_id cs

end Utf8

namespace FilePath

/-- The text of a path that was made from a text is that text. -/
theorem text_ofText (s : String) :
    (ofText s).text = s := by
  rw [ofText, text, Utf8.decodeLossy_encode, String.ofList_toList]

end FilePath

end ContainerArgs.Text
