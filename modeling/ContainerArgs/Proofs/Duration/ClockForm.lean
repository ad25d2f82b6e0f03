import ContainerArgs.Proofs.Duration.Clock
import ContainerArgs.Proofs.Duration.FromEnd

/-!
# The form of clock notation

A text in clock notation is read back without regard to how it was written: it
is cut into decimal numbers and units, which is possible in one way only.  The
numbers have no zeros that could be left out, and which units there are follows
from the duration.
-/

namespace ContainerArgs.Duration

open Number

/-! ## Reading -/

/-- The digits of a decimal number before its point. -/
def wholeDigits (number : String) : List Char :=
  number.toList.takeWhile Char.isDigit

/-- The digits of a decimal number behind its point. -/
def fractionDigits (number : String) : List Char :=
  (number.toList.dropWhile Char.isDigit).drop 1

/-- The whole part of a decimal number. -/
def wholeValue (number : String) : ℕ :=
  digitsValue (wholeDigits number)

/-- A decimal number: one digit or more, and possibly a point and further
digits. -/
structure IsNumber (number : String) : Prop where
  whole_ne_nil : wholeDigits number ≠ []
  fraction : ∀ c ∈ fractionDigits number, c.isDigit = true
  text : number.toList = wholeDigits number ++ pointed (fractionDigits number)

/-- A text is the sequence of some decimal numbers, each with a unit. -/
structure ReadsAs (text : String) (items : List (String × String)) : Prop where
  text : text = String.join (items.map fun i => i.1 ++ i.2)
  number : ∀ i ∈ items, IsNumber i.1
  unit : ∀ i ∈ items, i.2 ∈ clockScale.map Prod.fst

theorem IsNumber.isDecimal {number : String} (h : IsNumber number) :
    IsDecimal number := by
  rw [IsDecimal, h.text]
  constructor
  · simp [h.whole_ne_nil]
  · intro c hc
    rcases List.mem_append.mp hc with hc | hc
    · exact isDecimalChar_of_isDigit (List.mem_takeWhile_imp hc)
    · rw [pointed] at hc
      split at hc
      next => simp at hc
      next =>
        rcases List.mem_cons.mp hc with rfl | hc
        · decide
        · exact isDecimalChar_of_isDigit (h.fraction c hc)

theorem ReadsAs.isRun
    {text : String} {items : List (String × String)}
    (h : ReadsAs text items) :
    ∀ x ∈ items.map itemRuns, Text.IsRun isDecimalChar x := by
  intro x hx
  obtain ⟨i, hi, rfl⟩ := List.mem_map.mp hx
  have hnumber := (h.number i hi).isDecimal
  have houtside := outside_clockScale i.2 (h.unit i hi)
  exact ⟨hnumber.1, hnumber.2, houtside.1, houtside.2⟩

theorem ReadsAs.toList_eq_ofRuns
    {text : String} {items : List (String × String)}
    (h : ReadsAs text items) :
    text.toList = Text.ofRuns (items.map itemRuns) := by
  rw [h.text, String.toList_join, Text.ofRuns, List.flatMap_map,
    List.flatMap_map]
  simp [itemRuns]

/-- A text is a sequence of numbers with units in one way only. -/
theorem ReadsAs.unique
    {text : String} {items others : List (String × String)}
    (h : ReadsAs text items) (h' : ReadsAs text others) :
    others = items := by
  refine List.map_injective_iff.mpr itemRuns_injective ?_
  refine Text.ofRuns_injective h'.isRun h.isRun ?_
  rw [← h'.toList_eq_ofRuns, ← h.toList_eq_ofRuns]

/-! ## The numbers that are written -/

theorem isDigit_of_mem_lowDigits {places value : ℕ} {c : Char} :
    c ∈ lowDigits places value → c.isDigit = true := by
  induction places generalizing value with
  | zero => simp [lowDigits]
  | succ places ih =>
      intro hc
      rw [lowDigits, List.mem_append, List.mem_singleton] at hc
      rcases hc with hc | rfl
      · exact ih hc
      · have hlt : value % 10 < 10 := Nat.mod_lt _ (by decide)
        rw [Nat.isDigit_digitChar]
        exact decide_eq_true hlt

theorem stop_of_mem_head?_pointed (ds : List Char) :
    ∀ c ∈ (pointed ds).head?, c.isDigit = false := by
  intro c hc
  rw [pointed] at hc
  split at hc
  next => simp at hc
  next =>
    obtain rfl : '.' = c := by simpa using hc
    decide

theorem wholeDigits_decimalText (value places : ℕ) :
    wholeDigits (decimalText value places) =
      Nat.toDigits 10 (value / 10 ^ places) := by
  rw [wholeDigits, toList_decimalText_eq_pointed]
  exact Text.takeWhile_append_of_stop (fun c => isDigit_of_mem_toDigits)
    (stop_of_mem_head?_pointed _)

theorem fractionDigits_decimalText (value places : ℕ) :
    fractionDigits (decimalText value places) =
      stripZeros (lowDigits places value) := by
  rw [fractionDigits, toList_decimalText_eq_pointed,
    Text.dropWhile_append_of_stop (fun c => isDigit_of_mem_toDigits)
      (stop_of_mem_head?_pointed _), pointed]
  split
  next hnil => rw [hnil]; rfl
  next => rfl

@[simp] theorem wholeValue_decimalText (value places : ℕ) :
    wholeValue (decimalText value places) = value / 10 ^ places := by
  rw [wholeValue, wholeDigits_decimalText, digitsValue_toDigits]

theorem fractionDigits_decimalText_eq_nil_iff {value places : ℕ} :
    fractionDigits (decimalText value places) = [] ↔
      value % 10 ^ places = 0 := by
  rw [fractionDigits_decimalText, stripZeros_lowDigits_eq_nil_iff]

theorem decimalText_zero (n : ℕ) :
    decimalText n 0 = natText n := by
  simp [decimalText, Nat.mod_one]

/-- A number without zeros that could be left out. -/
structure IsShort (number : String) : Prop extends IsNumber number where
  no_leading : wholeDigits number = Nat.toDigits 10 (wholeValue number)
  no_trailing : (fractionDigits number).getLast? ≠ some '0'
  fraction_iff : fractionDigits number ≠ [] ↔
    digitsValue (fractionDigits number) ≠ 0

theorem isShort_decimalText (value places : ℕ) :
    IsShort (decimalText value places) where
  whole_ne_nil := by
    rw [wholeDigits_decimalText]
    exact Nat.toDigits_ne_nil
  fraction c hc := by
    rw [fractionDigits_decimalText] at hc
    exact isDigit_of_mem_lowDigits (mem_stripZeros hc)
  text := by
    rw [wholeDigits_decimalText, fractionDigits_decimalText,
      toList_decimalText_eq_pointed]
  no_leading := by
    rw [wholeDigits_decimalText, wholeValue_decimalText]
  no_trailing := by
    rw [fractionDigits_decimalText]
    exact getLast?_stripZeros_ne _
  fraction_iff := by
    rw [Ne, fractionDigits_decimalText_eq_nil_iff, fractionDigits_decimalText,
      not_iff_not]
    obtain ⟨k, hk⟩ := exists_stripZeros_append (lowDigits places value)
    have hvalue : digitsValue (lowDigits places value) =
        10 ^ k * digitsValue (stripZeros (lowDigits places value)) := by
      rw [← digitsValue_append_replicate, ← hk]
    rw [digitsValue_lowDigits] at hvalue
    rw [hvalue]
    simp

/-! ## The items of a duration -/

/-- A number of a unit, without a fraction. -/
structure IsCount (n : ℕ) (unit : String) (i : String × String) : Prop where
  unit : i.2 = unit
  whole : wholeValue i.1 = n
  fraction : fractionDigits i.1 = []

/-- The items of a duration of a second or more: hours if there are any, minutes
if there are any or hours, and seconds always. -/
structure IsLongForm
    (d : Duration) (hours minutes : Option (String × String))
    (seconds : String × String) : Prop where
  hours_iff : hours.isSome ↔ 1 ≤ d.seconds / 3600
  hours_count : ∀ i ∈ hours, IsCount (d.seconds / 3600) "h" i
  minutes_iff : minutes.isSome ↔ hours.isSome ∨ 0 < d.seconds % 3600 / 60
  minutes_count : ∀ i ∈ minutes, IsCount (d.seconds % 3600 / 60) "m" i
  minutes_le : ∀ i ∈ minutes, wholeValue i.1 ≤ 59
  seconds_unit : seconds.2 = "s"
  seconds_whole : wholeValue seconds.1 = d.seconds % 60
  seconds_le : wholeValue seconds.1 ≤ 59
  seconds_fraction : fractionDigits seconds.1 ≠ [] ↔ d.subsecond ≠ 0

/-- The items of a duration: short numbers, of the units that its magnitude
asks for. -/
structure IsClockForm (d : Duration) (items : List (String × String)) :
    Prop where
  short : ∀ i ∈ items, IsShort i.1
  zero : d.nanos = 0 → items = [("0", "s")]
  small : 0 < d.nanos → d.nanos < nanosPerSecond →
    ∃ i, items = [i] ∧ i.2 ∈ ["ns", "µs", "ms"] ∧
      1 ≤ wholeValue i.1 ∧ wholeValue i.1 ≤ 999
  long : nanosPerSecond ≤ d.nanos →
    ∃ hours minutes seconds, IsLongForm d hours minutes seconds ∧
      items = hours.toList ++ minutes.toList ++ [seconds]

theorem isCount_natText (n : ℕ) (unit : String) :
    IsCount n unit (natText n, unit) := by
  rw [← decimalText_zero]
  refine ⟨rfl, by simp, ?_⟩
  rw [fractionDigits_decimalText_eq_nil_iff]
  exact Nat.mod_one n

theorem isShort_of_mem_clockItems
    {d : Duration} {i : String × String} (hi : i ∈ d.clockItems) :
    IsShort i.1 := by
  have hnat : ∀ n, IsShort (natText n) := fun n =>
    decimalText_zero n ▸ isShort_decimalText n 0
  rw [clockItems] at hi
  split at hi
  · obtain rfl := List.mem_singleton.mp hi
    exact hnat 0
  · split at hi
    · obtain rfl := List.mem_singleton.mp hi
      exact isShort_decimalText _ _
    · simp only [List.mem_append, List.mem_singleton] at hi
      rcases hi with (hi | hi) | rfl
      · split at hi
        · obtain rfl := List.mem_singleton.mp hi
          exact hnat _
        · simp at hi
      · split at hi
        · obtain rfl := List.mem_singleton.mp hi
          exact hnat _
        · simp at hi
      · exact isShort_decimalText _ _

theorem readsAs_clockItems (d : Duration) :
    ReadsAs d.clockText d.clockItems where
  text := d.clockText_eq_join
  number _ hi := (isShort_of_mem_clockItems hi).toIsNumber
  unit _ hi := (isDecimal_of_mem_clockItems hi).2

/-- The unit of a duration below a second leaves it a whole part of up to three
digits. -/
theorem wholeValue_smallUnit
    {nanos : ℕ} (hpos : 0 < nanos) (hsmall : nanos < nanosPerSecond) :
    (smallUnit nanos).2 ∈ ["ns", "µs", "ms"] ∧
      1 ≤ wholeValue (decimalText nanos (smallUnit nanos).1) ∧
      wholeValue (decimalText nanos (smallUnit nanos).1) ≤ 999 := by
  simp only [nanosPerSecond] at hsmall
  rw [wholeValue_decimalText, smallUnit]
  split
  next => simp; omega
  next =>
    split
    next => simp; omega
    next => simp; omega

theorem exists_isLongForm_clockItems
    {d : Duration} (hlong : nanosPerSecond ≤ d.nanos) :
    ∃ hours minutes seconds, IsLongForm d hours minutes seconds ∧
      d.clockItems = hours.toList ++ minutes.toList ++ [seconds] := by
  have hzero : d.nanos ≠ 0 := by
    simp only [nanosPerSecond] at hlong
    omega
  have hfraction : d.subsecond < 10 ^ 9 := Nat.mod_lt _ (by decide)
  have hseconds :
      wholeValue (decimalText (d.seconds % 60 * nanosPerSecond + d.subsecond) 9) =
        d.seconds % 60 := by
    rw [wholeValue_decimalText]
    simp only [nanosPerSecond]
    omega
  have hseconds_le :
      wholeValue (decimalText (d.seconds % 60 * nanosPerSecond + d.subsecond) 9) ≤
        59 := by
    rw [hseconds]
    omega
  refine ⟨if 0 < d.seconds / 3600 then some (natText (d.seconds / 3600), "h")
      else none,
    if 0 < d.seconds / 3600 ∨ 0 < d.seconds % 3600 / 60 then
      some (natText (d.seconds % 3600 / 60), "m") else none,
    (decimalText (d.seconds % 60 * nanosPerSecond + d.subsecond) 9, "s"),
    ?_, ?_⟩
  · refine ⟨by simp [Nat.succ_le_iff], ?_, by simp, ?_, ?_, rfl, hseconds,
      hseconds_le, ?_⟩
    · intro i hi
      obtain ⟨-, rfl⟩ : _ ∧ (natText (d.seconds / 3600), "h") = i := by
        simpa using hi
      exact isCount_natText _ _
    · intro i hi
      obtain ⟨-, rfl⟩ : _ ∧ (natText (d.seconds % 3600 / 60), "m") = i := by
        simpa using hi
      exact isCount_natText _ _
    · intro i hi
      obtain ⟨-, rfl⟩ : _ ∧ (natText (d.seconds % 3600 / 60), "m") = i := by
        simpa using hi
      rw [(isCount_natText _ "m").whole]
      omega
    · rw [Ne, fractionDigits_decimalText_eq_nil_iff, not_iff_not]
      simp only [nanosPerSecond]
      omega
  · rw [clockItems, if_neg hzero, if_neg (Nat.not_lt.mpr hlong)]
    simp only [apply_ite Option.toList, Option.toList_some, Option.toList_none]

theorem isClockForm_clockItems (d : Duration) :
    IsClockForm d d.clockItems where
  short _ := isShort_of_mem_clockItems
  zero hzero := by
    rw [clockItems, if_pos hzero]
    rfl
  small hpos hsmall := by
    refine ⟨(decimalText d.nanos (smallUnit d.nanos).1, (smallUnit d.nanos).2),
      ?_, wholeValue_smallUnit hpos hsmall⟩
    rw [clockItems, if_neg (Nat.ne_of_gt hpos), if_pos hsmall]
  long := exists_isLongForm_clockItems

/-- Clock notation is exact, canonical and injective.  A text in it is a
sequence of decimal numbers with units in one way only, and these add up to the
nanoseconds of the duration.  The numbers have no zeros that could be left out,
and the units are those of the form: `0s` for no time, one number with a whole
part from 1 to 999 below a second, and from there on hours, minutes and seconds.
Durations have the same text only if they are equal, and writing the text from
its end, digit by digit, gives the same. -/
theorem clockText_is_canonical :
    (∀ d : Duration, ∃ items, ReadsAs d.clockText items ∧
      (∀ others, ReadsAs d.clockText others → others = items) ∧
      (items.map itemNanos).sum = d.nanos ∧
      IsClockForm d items) ∧
    (∀ d e : Duration, d.clockText = e.clockText ↔ d = e) ∧
    ∀ d : Duration, d.clockText.toList = textFromEnd d.nanos := by
  refine ⟨fun d => ?_, fun d e => clockText_inj, toList_clockText_eq_textFromEnd⟩
  have hreads := d.readsAs_clockItems
  exact ⟨d.clockItems, hreads, fun others => hreads.unique, d.sum_itemNanos,
    d.isClockForm_clockItems⟩

end ContainerArgs.Duration
