import ContainerArgs.Duration.Clock
import ContainerArgs.Proofs.Text.Runs
import Mathlib.Data.List.Induction
import Mathlib.Data.List.TakeWhile
import Mathlib.Data.Rat.Defs
import Mathlib.Tactic.FieldSimp
import Mathlib.Tactic.IntervalCases
import Mathlib.Tactic.Positivity
import Mathlib.Tactic.Ring

/-!
# What decimal texts denote

Natural numbers are determined by their texts, and digits without leading zeros
are the text of a number. A quotient by a power of ten is the value of its text,
whose fraction keeps its leading zeros and loses the trailing ones.
-/

namespace ContainerArgs.Number

@[simp] theorem toList_natText (n : ℕ) :
    (natText n).toList = Nat.toDigits 10 n :=
  String.toList_ofList

theorem natText_injective {m n : ℕ} (h : natText m = natText n) :
    m = n := by
  have hm := readNat?_natText m
  rw [h, readNat?_natText n] at hm
  exact (Option.some.inj hm).symm

theorem isDigit_of_mem_toDigits
    {n : ℕ} {c : Char} (hc : c ∈ Nat.toDigits 10 n) :
    c.isDigit = true :=
  Nat.isDigit_of_mem_toDigits (by decide) (by decide) hc

@[simp] theorem digitsValue_toDigits (n : ℕ) :
    digitsValue (Nat.toDigits 10 n) = n :=
  Nat.ofDigitChars_ten_toDigits

theorem digitsValue_append_replicate (ds : List Char) (k : ℕ) :
    digitsValue (ds ++ List.replicate k '0') = 10 ^ k * digitsValue ds := by
  simp [digitsValue, Nat.ofDigitChars_append]

theorem digitsValue_replicate_append (k : ℕ) (ds : List Char) :
    digitsValue (List.replicate k '0' ++ ds) = digitsValue ds := by
  simp [digitsValue, Nat.ofDigitChars_append]

/-! ## Digits without leading zeros -/

theorem digitsValue_concat (ds : List Char) (c : Char) :
    digitsValue (ds ++ [c]) = 10 * digitsValue ds + (c.toNat - '0'.toNat) := by
  simp [digitsValue, Nat.ofDigitChars_append, Nat.ofDigitChars_cons]

theorem digitChar_of_isDigit {c : Char} (hc : c.isDigit = true) :
    c.toNat - '0'.toNat < 10 ∧ (c.toNat - '0'.toNat).digitChar = c := by
  have hrange : 48 ≤ c.toNat ∧ c.toNat ≤ 57 := by
    simpa [Char.isDigit, UInt32.le_iff_toNat_le] using hc
  obtain ⟨k, hk, hkc⟩ : ∃ k < 10, c.toNat = 48 + k :=
    ⟨c.toNat - 48, by omega, by omega⟩
  have hsub : c.toNat - '0'.toNat = k := by
    rw [hkc]
    exact Nat.add_sub_cancel_left 48 k
  have hof : c = Char.ofNat (48 + k) := by
    rw [← hkc, Char.ofNat_toNat]
  rw [hsub, hof]
  refine ⟨hk, ?_⟩
  interval_cases k <;> rfl

theorem digitsValue_pos
    {ds : List Char} (hdigits : ∀ c ∈ ds, c.isDigit = true) (hne : ds ≠ [])
    (hlead : ds.head? ≠ some '0') :
    0 < digitsValue ds := by
  induction ds using List.reverseRecOn with
  | nil => exact absurd rfl hne
  | append_singleton ds c ih =>
      have hdigit := digitChar_of_isDigit (hdigits c (by simp))
      rw [digitsValue_concat]
      by_cases hds : ds = []
      · have hlast : c.toNat - '0'.toNat ≠ 0 := by
          intro hzero
          rw [hzero] at hdigit
          apply hlead
          rw [hds, ← hdigit.2]
          rfl
        omega
      · rw [List.head?_append_of_ne_nil _ hds] at hlead
        have hpos := ih (fun d hd => hdigits d (by simp [hd])) hds hlead
        omega

/-- Digits without leading zeros are the text of the number that they denote. -/
theorem toDigits_digitsValue
    {ds : List Char} (hdigits : ∀ c ∈ ds, c.isDigit = true) (hne : ds ≠ [])
    (hlead : ds.head? ≠ some '0') :
    Nat.toDigits 10 (digitsValue ds) = ds := by
  induction ds using List.reverseRecOn with
  | nil => exact absurd rfl hne
  | append_singleton ds c ih =>
      obtain ⟨hlt, hc⟩ := digitChar_of_isDigit (hdigits c (by simp))
      rw [digitsValue_concat, Nat.toDigits_eq_if (by decide)]
      by_cases hds : ds = []
      · subst hds
        rw [if_pos (by simpa [digitsValue] using hlt)]
        simpa [digitsValue] using hc
      · rw [List.head?_append_of_ne_nil _ hds] at hlead
        have hinit : ∀ d ∈ ds, d.isDigit = true := fun d hd =>
          hdigits d (by simp [hd])
        have hpos := digitsValue_pos hinit hds hlead
        have hquotient :
            (10 * digitsValue ds + (c.toNat - '0'.toNat)) / 10 =
              digitsValue ds := by omega
        have hrest :
            (10 * digitsValue ds + (c.toNat - '0'.toNat)) % 10 =
              c.toNat - '0'.toNat := by omega
        rw [if_neg (by omega), hquotient, hrest, hc, ih hinit hds hlead]

end ContainerArgs.Number

namespace ContainerArgs.Duration

open Number

theorem exists_stripZeros_append (ds : List Char) :
    ∃ k, ds = stripZeros ds ++ List.replicate k '0' := by
  induction ds with
  | nil => exact ⟨0, rfl⟩
  | cons c ds ih =>
      obtain ⟨k, hk⟩ := ih
      cases hrest : stripZeros ds with
      | nil =>
          rw [hrest, List.nil_append] at hk
          by_cases hc : c = '0'
          · refine ⟨k + 1, ?_⟩
            simp [stripZeros, hrest, hc, List.replicate_succ, ← hk]
          · refine ⟨k, ?_⟩
            simp [stripZeros, hrest, hc, ← hk]
      | cons d rest =>
          refine ⟨k, ?_⟩
          rw [hrest] at hk
          simpa [stripZeros, hrest] using hk

theorem stripZeros_append_zero (ds : List Char) :
    stripZeros (ds ++ ['0']) = stripZeros ds := by
  induction ds with
  | nil => rfl
  | cons c ds ih => simp [stripZeros, ih]

theorem stripZeros_append_of_ne {c : Char} (hc : c ≠ '0') (ds : List Char) :
    stripZeros (ds ++ [c]) = ds ++ [c] := by
  induction ds with
  | nil => simp [stripZeros, hc]
  | cons d ds ih =>
      rw [List.cons_append, stripZeros, ih]
      cases ds <;> rfl

theorem getLast?_stripZeros_ne (ds : List Char) :
    (stripZeros ds).getLast? ≠ some '0' := by
  induction ds with
  | nil => simp [stripZeros]
  | cons c ds ih =>
      rw [stripZeros]
      cases hrest : stripZeros ds with
      | nil => by_cases hc : c = '0' <;> simp [hc]
      | cons d rest => simpa [hrest] using ih

/-- The number that a decimal text denotes: its whole part, and behind a point
its fraction. -/
def decimalValue (cs : List Char) : ℚ :=
  let fraction := (cs.dropWhile Char.isDigit).drop 1
  digitsValue (cs.takeWhile Char.isDigit) +
    digitsValue fraction / 10 ^ fraction.length

theorem fraction_stripZeros (ds : List Char) :
    (digitsValue (stripZeros ds) : ℚ) / 10 ^ (stripZeros ds).length =
      digitsValue ds / 10 ^ ds.length := by
  obtain ⟨k, hk⟩ := exists_stripZeros_append ds
  have hvalue : digitsValue ds = 10 ^ k * digitsValue (stripZeros ds) := by
    rw [← digitsValue_append_replicate, ← hk]
  have hlength : ds.length = (stripZeros ds).length + k := by
    simpa using congrArg List.length hk
  rw [hvalue, hlength]
  push_cast
  rw [pow_add]
  field_simp

/-- The digits of a remainder, with zeros before them up to a number of
places. -/
def paddedDigits (rest places : ℕ) : List Char :=
  List.replicate (places - (Nat.toDigits 10 rest).length) '0' ++
    Nat.toDigits 10 rest

theorem length_paddedDigits
    {rest places : ℕ} (hplaces : 0 < places) (hrest : rest < 10 ^ places) :
    (paddedDigits rest places).length = places := by
  have hlength : (Nat.toDigits 10 rest).length ≤ places :=
    (Nat.length_toDigits_le_iff (by decide) hplaces).mpr hrest
  simp only [paddedDigits, List.length_append, List.length_replicate]
  omega

theorem toList_decimalText (value places : ℕ) :
    (decimalText value places).toList =
      Nat.toDigits 10 (value / 10 ^ places) ++
        if value % 10 ^ places = 0 then []
        else '.' :: stripZeros (paddedDigits (value % 10 ^ places) places) := by
  rw [decimalText]
  simp only [Nat.pow_eq]
  split
  · simp
  · simp [paddedDigits]

theorem decimalValue_append
    {whole : List Char} (hwhole : ∀ c ∈ whole, c.isDigit = true)
    (fraction : List Char) :
    decimalValue (whole ++ '.' :: fraction) =
      digitsValue whole + digitsValue fraction / 10 ^ fraction.length := by
  have hstop : ∀ c ∈ ('.' :: fraction).head?, c.isDigit = false := by
    simp
  rw [decimalValue, Text.takeWhile_append_of_stop hwhole hstop,
    Text.dropWhile_append_of_stop hwhole hstop]
  rfl

theorem decimalValue_of_digits
    {whole : List Char} (hwhole : ∀ c ∈ whole, c.isDigit = true) :
    decimalValue whole = digitsValue whole := by
  have hnil : ∀ c ∈ ([] : List Char).head?, c.isDigit = false := by
    simp
  have htake := Text.takeWhile_append_of_stop hwhole hnil
  have hdrop := Text.dropWhile_append_of_stop hwhole hnil
  rw [List.append_nil] at htake hdrop
  simp [decimalValue, htake, hdrop, digitsValue]

/-- The text of a quotient by a power of ten denotes the quotient. -/
theorem decimalValue_decimalText (value places : ℕ) :
    decimalValue (decimalText value places).toList = value / 10 ^ places := by
  have hpow : (10 : ℚ) ^ places ≠ 0 := by positivity
  have hdivision : (value : ℚ) =
      10 ^ places * (value / 10 ^ places : ℕ) + (value % 10 ^ places : ℕ) := by
    exact_mod_cast (Nat.div_add_mod value (10 ^ places)).symm
  rw [toList_decimalText]
  split
  next hexact =>
    rw [List.append_nil, decimalValue_of_digits fun c => isDigit_of_mem_toDigits,
      digitsValue_toDigits, eq_div_iff hpow, hdivision, hexact]
    simp [mul_comm]
  next hexact =>
    have hplaces : 0 < places := by
      rcases Nat.eq_zero_or_pos places with rfl | hpos
      · simp [Nat.mod_one] at hexact
      · exact hpos
    have hrest : value % 10 ^ places < 10 ^ places :=
      Nat.mod_lt _ (by positivity)
    rw [decimalValue_append fun c => isDigit_of_mem_toDigits,
      digitsValue_toDigits, fraction_stripZeros,
      length_paddedDigits hplaces hrest, paddedDigits,
      digitsValue_replicate_append, digitsValue_toDigits, eq_div_iff hpow]
    conv_rhs => rw [hdivision]
    field_simp

end ContainerArgs.Duration
