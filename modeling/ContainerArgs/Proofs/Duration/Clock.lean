import ContainerArgs.Proofs.Number.Decimal
import Mathlib.Algebra.BigOperators.Group.List.Basic

/-!
# Clock notation denotes the duration

A text in clock notation is a sum of decimal numbers with units.  The sum is the
duration exactly, so no two durations share a text.
-/

namespace ContainerArgs.Duration

open Number

/-- The units of clock notation with their nanoseconds. -/
def clockScale : List (String × ℕ) :=
  [("h", 3600 * nanosPerSecond), ("m", 60 * nanosPerSecond),
    ("s", nanosPerSecond), ("ms", 1000000), ("µs", 1000), ("ns", 1)]

/-- The numbers of a text in clock notation, with their units. -/
def clockItems (d : Duration) : List (String × String) :=
  if d.nanos = 0 then [(natText 0, "s")]
  else if d.nanos < nanosPerSecond then
    [(decimalText d.nanos (smallUnit d.nanos).1, (smallUnit d.nanos).2)]
  else
    let hours := d.seconds / 3600
    let minutes := d.seconds % 3600 / 60
    (if 0 < hours then [(natText hours, "h")] else []) ++
      (if 0 < hours ∨ 0 < minutes then [(natText minutes, "m")] else []) ++
      [(decimalText (d.seconds % 60 * nanosPerSecond + d.subsecond) 9, "s")]

/-- The nanoseconds of a number with a unit. -/
def itemNanos (i : String × String) : ℚ :=
  decimalValue i.1.toList * ((clockScale.lookup i.2).getD 0 : ℕ)

theorem clockText_eq_join (d : Duration) :
    d.clockText = String.join (d.clockItems.map fun i => i.1 ++ i.2) := by
  rw [clockText, clockItems]
  split
  · simp [natText]
  · split
    · simp
    · by_cases hhours : 0 < d.seconds / 3600
      · simp [hhours, String.append_assoc]
      · by_cases hminutes : 0 < d.seconds % 3600 / 60
        · simp [hhours, hminutes, String.append_assoc]
        · simp [hhours, hminutes]

/-! ## The sum of the items -/

theorem itemNanos_natText (n : ℕ) (unit : String) :
    itemNanos (natText n, unit) = n * ((clockScale.lookup unit).getD 0 : ℕ) := by
  have hdigits : ∀ c ∈ (natText n).toList, c.isDigit = true := by
    intro c hc
    rw [toList_natText] at hc
    exact isDigit_of_mem_toDigits hc
  rw [itemNanos, decimalValue_of_digits hdigits, toList_natText,
    digitsValue_toDigits]

theorem sum_optional_item
    {p : Prop} [Decidable p] {n : ℕ} (h : ¬p → n = 0) (unit : String) :
    ((if p then [(natText n, unit)] else []).map itemNanos).sum =
      n * ((clockScale.lookup unit).getD 0 : ℕ) := by
  split
  next => simp [itemNanos_natText]
  next hp => simp [h hp]

theorem itemNanos_decimalText
    {value places : ℕ} {unit : String}
    (hunit : (clockScale.lookup unit).getD 0 = 10 ^ places) :
    itemNanos (decimalText value places, unit) = value := by
  have hpow : (10 : ℚ) ^ places ≠ 0 := by positivity
  rw [itemNanos, decimalValue_decimalText, hunit]
  push_cast
  field_simp

theorem lookup_smallUnit (nanos : ℕ) :
    (clockScale.lookup (smallUnit nanos).2).getD 0 =
      10 ^ (smallUnit nanos).1 := by
  rw [smallUnit]
  split
  · decide
  · split <;> decide

theorem nanos_eq_parts (d : Duration) :
    d.nanos = d.seconds / 3600 * (3600 * nanosPerSecond) +
      d.seconds % 3600 / 60 * (60 * nanosPerSecond) +
      (d.seconds % 60 * nanosPerSecond + d.subsecond) := by
  simp only [seconds, subsecond, nanosPerSecond]
  omega

/-- The items of a text in clock notation add up to the duration. -/
theorem sum_itemNanos (d : Duration) :
    (d.clockItems.map itemNanos).sum = d.nanos := by
  rw [clockItems]
  split
  next hzero =>
    simp [itemNanos_natText, hzero]
  next hzero =>
    split
    next hsmall =>
      simp [itemNanos_decimalText (lookup_smallUnit d.nanos)]
    next hsmall =>
      have hseconds : itemNanos
          (decimalText (d.seconds % 60 * nanosPerSecond + d.subsecond) 9, "s") =
            (d.seconds % 60 * nanosPerSecond + d.subsecond : ℕ) :=
        itemNanos_decimalText (by decide)
      have hhours : ¬0 < d.seconds / 3600 → d.seconds / 3600 = 0 := by
        omega
      have hminutes :
          ¬(0 < d.seconds / 3600 ∨ 0 < d.seconds % 3600 / 60) →
            d.seconds % 3600 / 60 = 0 := by
        omega
      have hh : (clockScale.lookup "h").getD 0 = 3600 * nanosPerSecond := by
        decide
      have hm : (clockScale.lookup "m").getD 0 = 60 * nanosPerSecond := by
        decide
      have hparts : (d.nanos : ℚ) = _ := congrArg Nat.cast d.nanos_eq_parts
      simp only [List.map_append, List.sum_append, List.map_cons, List.map_nil,
        List.sum_singleton, sum_optional_item hhours,
        sum_optional_item hminutes, hseconds, hh, hm]
      rw [hparts]
      push_cast
      ring

/-! ## No two durations share a text -/

/-- The characters of decimal numbers. -/
def isDecimalChar (c : Char) : Bool :=
  c.isDigit || c == '.'

def itemRuns (i : String × String) : List Char × List Char :=
  (i.1.toList, i.2.toList)

theorem isDecimalChar_of_isDigit {c : Char} (h : c.isDigit = true) :
    isDecimalChar c = true := by
  simp [isDecimalChar, h]

theorem mem_stripZeros {ds : List Char} {c : Char} (hc : c ∈ stripZeros ds) :
    c ∈ ds := by
  obtain ⟨k, hk⟩ := exists_stripZeros_append ds
  rw [hk]
  exact List.mem_append_left _ hc

/-- A text that is a decimal number. -/
def IsDecimal (s : String) : Prop :=
  s.toList ≠ [] ∧ ∀ c ∈ s.toList, isDecimalChar c = true

theorem isDecimal_natText (n : ℕ) :
    IsDecimal (natText n) := by
  rw [IsDecimal, toList_natText]
  exact ⟨Nat.toDigits_ne_nil,
    fun c hc => isDecimalChar_of_isDigit (isDigit_of_mem_toDigits hc)⟩

theorem isDecimal_decimalText (value places : ℕ) :
    IsDecimal (decimalText value places) := by
  rw [IsDecimal, toList_decimalText]
  constructor
  · simp [Nat.toDigits_ne_nil]
  · intro c hc
    rcases List.mem_append.mp hc with hc | hc
    · exact isDecimalChar_of_isDigit (isDigit_of_mem_toDigits hc)
    · split at hc
      · simp at hc
      · rcases List.mem_cons.mp hc with rfl | hc
        · decide
        · rcases List.mem_append.mp (mem_stripZeros hc) with hc | hc
          · obtain rfl := (List.mem_replicate.mp hc).2
            decide
          · exact isDecimalChar_of_isDigit (isDigit_of_mem_toDigits hc)

theorem isDecimal_of_mem_clockItems
    {d : Duration} {i : String × String} (hi : i ∈ d.clockItems) :
    IsDecimal i.1 ∧ i.2 ∈ clockScale.map Prod.fst := by
  rw [clockItems] at hi
  split at hi
  · obtain rfl := List.mem_singleton.mp hi
    exact ⟨isDecimal_natText 0, by decide⟩
  · split at hi
    · obtain rfl := List.mem_singleton.mp hi
      refine ⟨isDecimal_decimalText _ _, ?_⟩
      simp only [smallUnit]
      split
      · decide
      · split <;> decide
    · simp only [List.mem_append, List.mem_singleton] at hi
      rcases hi with (hi | hi) | rfl
      · split at hi
        · obtain rfl := List.mem_singleton.mp hi
          exact ⟨isDecimal_natText _, by simp [clockScale]⟩
        · simp at hi
      · split at hi
        · obtain rfl := List.mem_singleton.mp hi
          exact ⟨isDecimal_natText _, by simp [clockScale]⟩
        · simp at hi
      · exact ⟨isDecimal_decimalText _ _, by simp [clockScale]⟩

theorem outside_clockScale :
    ∀ unit ∈ clockScale.map Prod.fst,
      unit.toList ≠ [] ∧ ∀ c ∈ unit.toList, isDecimalChar c = false := by
  have hall : ∀ unit ∈ clockScale.map Prod.fst,
      unit.toList ≠ [] ∧ unit.toList.all (!isDecimalChar ·) = true := by
    decide
  intro unit hunit
  simpa using hall unit hunit

theorem isRun_of_mem_itemRuns (d : Duration) :
    ∀ x ∈ d.clockItems.map itemRuns, Text.IsRun isDecimalChar x := by
  intro x hx
  obtain ⟨i, hi, rfl⟩ := List.mem_map.mp hx
  obtain ⟨hnumber, hunit⟩ := isDecimal_of_mem_clockItems hi
  have houtside := outside_clockScale i.2 hunit
  exact ⟨hnumber.1, hnumber.2, houtside.1, houtside.2⟩

theorem toList_clockText (d : Duration) :
    d.clockText.toList = Text.ofRuns (d.clockItems.map itemRuns) := by
  rw [clockText_eq_join, String.toList_join, Text.ofRuns, List.flatMap_map,
    List.flatMap_map]
  simp [itemRuns]

theorem itemRuns_injective :
    Function.Injective itemRuns := by
  rintro ⟨number, unit⟩ ⟨number', unit'⟩ h
  have hnumber := String.toList_inj.mp (congrArg Prod.fst h)
  have hunit := String.toList_inj.mp (congrArg Prod.snd h)
  exact Prod.ext hnumber hunit

/-- Durations with the same text in clock notation are equal. -/
theorem clockText_inj {d e : Duration} :
    d.clockText = e.clockText ↔ d = e := by
  constructor
  · intro h
    have hruns : d.clockItems.map itemRuns = e.clockItems.map itemRuns := by
      apply Text.ofRuns_injective (isRun_of_mem_itemRuns d)
        (isRun_of_mem_itemRuns e)
      rw [← toList_clockText, ← toList_clockText, h]
    have hitems : d.clockItems = e.clockItems :=
      List.map_injective_iff.mpr itemRuns_injective hruns
    have hsum : (d.nanos : ℚ) = e.nanos := by
      rw [← sum_itemNanos, ← sum_itemNanos, hitems]
    have hnanos : d.nanos = e.nanos := by exact_mod_cast hsum
    cases d
    cases e
    simp_all
  · rintro rfl
    rfl

end ContainerArgs.Duration
