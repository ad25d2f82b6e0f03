import ContainerArgs.Number.Digits
import Mathlib.Data.List.Basic
import Mathlib.Tactic.IntervalCases

/-!
# Hexadecimal digits read back

The digits that a number is written with in base sixteen are read as that
number, and a number is written without leading zeros in any base.
-/

namespace ContainerArgs.Number

theorem hexValue?_digitChar {d : ℕ} (h : d < 16) :
    hexValue? d.digitChar = some d := by
  interval_cases d <;> rfl

theorem hexValue?_of_mem_toDigits
    {n : ℕ} {c : Char} (hc : c ∈ Nat.toDigits 16 n) :
    (hexValue? c).isSome = true := by
  induction n using Nat.strong_induction_on with
  | _ n ih =>
      rw [Nat.toDigits_eq_if (by decide)] at hc
      split at hc
      next hlt =>
        rw [List.mem_singleton.mp hc, hexValue?_digitChar hlt]
        rfl
      next hge =>
        rcases List.mem_append.mp hc with hinit | hlast
        · exact ih (n / 16) (by omega) hinit
        · rw [List.mem_singleton.mp hlast,
            hexValue?_digitChar (Nat.mod_lt n (by decide))]
          rfl

theorem readBase?_append_digitChar
    {cs : List Char} {n d : ℕ} (hcs : readBase? 16 cs = some n) (hd : d < 16) :
    readBase? 16 (cs ++ [d.digitChar]) = some (n * 16 + d) := by
  rw [readBase?] at hcs
  split at hcs
  next => simp at hcs
  next =>
    rw [readBase?, if_neg (by simp), List.foldl_append, hcs]
    simp [hexValue?_digitChar hd, hd]

/-- The hexadecimal digits of a number are read as the number. -/
theorem readBase?_toDigits (n : ℕ) :
    readBase? 16 (Nat.toDigits 16 n) = some n := by
  induction n using Nat.strong_induction_on with
  | _ n ih =>
      rw [Nat.toDigits_eq_if (by decide)]
      split
      next hlt => simp [readBase?, hexValue?_digitChar hlt, hlt]
      next hge =>
        rw [readBase?_append_digitChar (ih (n / 16) (by omega))
          (Nat.mod_lt n (by decide))]
        congr 1
        omega

/-- A number that is not zero is written without a leading zero. -/
theorem head?_toDigits_ne_zero
    {b n : ℕ} (hb : 1 < b) (hn : n ≠ 0) :
    (Nat.toDigits b n).head? ≠ some '0' := by
  induction n using Nat.strong_induction_on with
  | _ n ih =>
      rw [Nat.toDigits_eq_if hb]
      split
      next hlt => simp [hn]
      next hge =>
        have hquotient : n / b ≠ 0 := by
          have := Nat.div_pos (Nat.le_of_not_lt hge) (by omega)
          omega
        rw [List.head?_append_of_ne_nil _ Nat.toDigits_ne_nil]
        exact ih (n / b) (Nat.div_lt_self (by omega) hb) hquotient

end ContainerArgs.Number
