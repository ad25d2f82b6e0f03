import ContainerArgs.Proofs.Number.Decimal

/-!
# Clock notation from its end

Another way to write a duration in clock notation: the text grows from its last
character to its first, by repeated division, and every digit is decided on when
it is met.  Zeros of a fraction are left out until the first other digit is
found, and the division goes on through seconds and minutes only as long as
something is left.  Both ways give the same text.
-/

namespace ContainerArgs.Duration

open Number

/-! ## Writing from the end -/

/-- Puts the digits of a positive number before a text, the last one first. -/
def pushDigits (n : ℕ) (text : List Char) : List Char :=
  if n = 0 then text
  else pushDigits (n / 10) (Nat.digitChar (n % 10) :: text)
termination_by n
decreasing_by omega

def pushNumber (n : ℕ) (text : List Char) : List Char :=
  if n = 0 then '0' :: text else pushDigits n text

/-- Puts the last digits of a number before a text as a fraction, without the
zeros at its end, and gives what is left of the number.  The flag says whether a
digit has been put there. -/
def pushFraction : ℕ → Bool → ℕ → List Char → List Char × ℕ
  | 0, shown, value, text => (if shown then '.' :: text else text, value)
  | places + 1, shown, value, text =>
    let digit := value % 10
    let shown := shown || digit != 0
    pushFraction places shown (value / 10)
      (if shown then Nat.digitChar digit :: text else text)

/-- The text of a number of nanoseconds in clock notation, from its end. -/
def textFromEnd (nanos : ℕ) : List Char :=
  if nanos < nanosPerSecond then
    if nanos = 0 then ['0', 's']
    else
      let unit : ℕ × List Char :=
        if nanos < 1000 then (0, ['n', 's'])
        else if nanos < 1000000 then (3, ['µ', 's'])
        else (6, ['m', 's'])
      let rest := pushFraction unit.1 false nanos unit.2
      pushNumber rest.2 rest.1
  else
    let rest := pushFraction 9 false nanos ['s']
    let seconds := pushNumber (rest.2 % 60) rest.1
    let inMinutes := rest.2 / 60
    if inMinutes = 0 then seconds
    else
      let minutes := pushNumber (inMinutes % 60) ('m' :: seconds)
      let inHours := inMinutes / 60
      if inHours = 0 then minutes else pushNumber inHours ('h' :: minutes)

/-! ## The last digits of a number -/

/-- The last digits of a number, as many as there are places. -/
def lowDigits : ℕ → ℕ → List Char
  | 0, _ => []
  | places + 1, value =>
    lowDigits places (value / 10) ++ [Nat.digitChar (value % 10)]

theorem mod_ten_pow_succ (value places : ℕ) :
    value % 10 ^ (places + 1) =
      value % 10 + 10 * (value / 10 % 10 ^ places) := by
  rw [Nat.pow_succ', Nat.mod_mul]

theorem paddedDigits_succ
    {rest places : ℕ} (hplaces : 0 < places) :
    paddedDigits rest (places + 1) =
      paddedDigits (rest / 10) places ++ [Nat.digitChar (rest % 10)] := by
  by_cases hrest : rest < 10
  · obtain ⟨k, rfl⟩ : ∃ k, places = k + 1 := ⟨places - 1, by omega⟩
    simp [paddedDigits, Nat.toDigits_of_lt_base hrest, Nat.div_eq_of_lt hrest,
      Nat.mod_eq_of_lt hrest, List.replicate_succ']
  · rw [paddedDigits, paddedDigits,
      Nat.toDigits_of_base_le (by decide) (Nat.le_of_not_lt hrest)]
    simp

theorem paddedDigits_eq_lowDigits
    {places : ℕ} (hplaces : 0 < places) (value : ℕ) :
    paddedDigits (value % 10 ^ places) places = lowDigits places value := by
  induction places generalizing value with
  | zero => omega
  | succ places ih =>
      rcases Nat.eq_zero_or_pos places with rfl | hpos
      · have hlt : value % 10 < 10 := Nat.mod_lt _ (by decide)
        simp [paddedDigits, lowDigits, Nat.toDigits_of_lt_base hlt]
      · have hhigh : value % 10 ^ (places + 1) / 10 = value / 10 % 10 ^ places := by
          rw [mod_ten_pow_succ]
          omega
        have hlow : value % 10 ^ (places + 1) % 10 = value % 10 := by
          rw [mod_ten_pow_succ]
          omega
        rw [paddedDigits_succ hpos, hhigh, hlow, ih hpos, lowDigits]

theorem digitsValue_lowDigits (places value : ℕ) :
    digitsValue (lowDigits places value) = value % 10 ^ places := by
  rcases Nat.eq_zero_or_pos places with rfl | hpos
  · simp [lowDigits, digitsValue, Nat.mod_one]
  · rw [← paddedDigits_eq_lowDigits hpos, paddedDigits,
      digitsValue_replicate_append, digitsValue_toDigits]

theorem digitChar_eq_zero_iff {value : ℕ} :
    Nat.digitChar (value % 10) = '0' ↔ value % 10 = 0 :=
  Nat.digitChar_eq_zero

/-- The last digits are all zeros when they denote nothing. -/
theorem stripZeros_lowDigits_eq_nil_iff {places value : ℕ} :
    stripZeros (lowDigits places value) = [] ↔ value % 10 ^ places = 0 := by
  induction places generalizing value with
  | zero => simp [lowDigits, stripZeros, Nat.mod_one]
  | succ places ih =>
      rw [lowDigits, mod_ten_pow_succ]
      by_cases hdigit : value % 10 = 0
      · rw [digitChar_eq_zero_iff.mpr hdigit, stripZeros_append_zero, ih]
        omega
      · rw [stripZeros_append_of_ne (digitChar_eq_zero_iff.not.mpr hdigit)]
        simp [hdigit]

/-- Digits behind a point, if there are any. -/
def pointed (ds : List Char) : List Char :=
  if ds = [] then [] else '.' :: ds

theorem toList_decimalText_eq_pointed (value places : ℕ) :
    (decimalText value places).toList =
      Nat.toDigits 10 (value / 10 ^ places) ++
        pointed (stripZeros (lowDigits places value)) := by
  rw [toList_decimalText, pointed]
  by_cases hexact : value % 10 ^ places = 0
  · rw [if_pos hexact, if_pos (stripZeros_lowDigits_eq_nil_iff.mpr hexact)]
  · have hplaces : 0 < places := by
      rcases Nat.eq_zero_or_pos places with rfl | hpos
      · simp [Nat.mod_one] at hexact
      · exact hpos
    rw [if_neg hexact, if_neg (stripZeros_lowDigits_eq_nil_iff.not.mpr hexact),
      paddedDigits_eq_lowDigits hplaces]

/-! ## What the steps put down -/

theorem pushDigits_of_pos {n : ℕ} (hn : 0 < n) (text : List Char) :
    pushDigits n text = Nat.toDigits 10 n ++ text := by
  induction n using Nat.strong_induction_on generalizing text with
  | _ n ih =>
      rw [pushDigits, if_neg (by omega)]
      by_cases hsmall : n < 10
      · rw [Nat.div_eq_of_lt hsmall, Nat.mod_eq_of_lt hsmall, pushDigits,
          if_pos rfl, Nat.toDigits_of_lt_base hsmall]
        rfl
      · rw [ih (n / 10) (by omega) (by omega),
          Nat.toDigits_of_base_le (by decide) (Nat.le_of_not_lt hsmall)]
        simp

theorem pushNumber_eq_append (n : ℕ) (text : List Char) :
    pushNumber n text = Nat.toDigits 10 n ++ text := by
  rw [pushNumber]
  split
  next hzero => simp [hzero]
  next hzero => exact pushDigits_of_pos (Nat.pos_of_ne_zero hzero) text

/-- Once a digit has been put down, all further places are. -/
theorem pushFraction_true (places value : ℕ) (text : List Char) :
    pushFraction places true value text =
      ('.' :: (lowDigits places value ++ text), value / 10 ^ places) := by
  induction places generalizing value text with
  | zero => simp [pushFraction, lowDigits]
  | succ places ih =>
      rw [pushFraction]
      simp [ih, lowDigits, Nat.div_div_eq_div_mul, Nat.pow_succ']

/-- A fraction is put down without the zeros at its end, and with its point if
anything is left of it. -/
theorem pushFraction_false (places value : ℕ) (text : List Char) :
    pushFraction places false value text =
      (pointed (stripZeros (lowDigits places value)) ++ text,
        value / 10 ^ places) := by
  induction places generalizing value text with
  | zero => simp [pushFraction, lowDigits, stripZeros, pointed]
  | succ places ih =>
      have hdiv : value / 10 / 10 ^ places = value / 10 ^ (places + 1) := by
        rw [Nat.div_div_eq_div_mul, Nat.pow_succ']
      rw [pushFraction, lowDigits]
      by_cases hdigit : value % 10 = 0
      · rw [digitChar_eq_zero_iff.mpr hdigit, stripZeros_append_zero]
        simp [hdigit, ih, hdiv]
      · have hshown : (false || value % 10 != 0) = true := by
          simpa using hdigit
        rw [stripZeros_append_of_ne (digitChar_eq_zero_iff.not.mpr hdigit)]
        simp only [hshown, if_true, pushFraction_true, hdiv]
        simp [pointed]

/-- A whole part with its fraction before a text is the text of a quotient. -/
theorem pushNumber_pushFraction (places value : ℕ) (text : List Char) :
    pushNumber (pushFraction places false value text).2
        (pushFraction places false value text).1 =
      (decimalText value places).toList ++ text := by
  rw [pushFraction_false, pushNumber_eq_append, toList_decimalText_eq_pointed,
    List.append_assoc]

/-! ## Both ways give the same text -/

theorem toList_clockText_of_small
    {d : Duration} (hpos : d.nanos ≠ 0) (hsmall : d.nanos < nanosPerSecond) :
    d.clockText.toList = textFromEnd d.nanos := by
  rw [clockText, if_neg hpos, if_pos hsmall, textFromEnd, if_pos hsmall,
    if_neg hpos]
  simp only [pushNumber_pushFraction, smallUnit]
  split
  · simp
  · split <;> simp

theorem toList_clockText_of_long
    {d : Duration} (hlong : ¬d.nanos < nanosPerSecond) :
    d.clockText.toList = textFromEnd d.nanos := by
  have hzero : d.nanos ≠ 0 := by
    simp only [nanosPerSecond] at hlong
    omega
  have hpow : 10 ^ 9 = nanosPerSecond := rfl
  have hwhole : d.nanos / 10 ^ 9 = d.seconds := rfl
  have hseconds :
      (d.seconds % 60 * nanosPerSecond + d.subsecond) / 10 ^ 9 =
        d.seconds % 60 := by
    simp only [hpow, subsecond, nanosPerSecond]
    omega
  have hfraction :
      lowDigits 9 (d.seconds % 60 * nanosPerSecond + d.subsecond) =
        lowDigits 9 d.nanos := by
    rw [← paddedDigits_eq_lowDigits (by decide),
      ← paddedDigits_eq_lowDigits (by decide), hpow]
    congr 1
    simp only [subsecond, nanosPerSecond]
    omega
  have hhours : d.seconds / 60 / 60 = d.seconds / 3600 := by
    omega
  have hminutes : d.seconds / 60 % 60 = d.seconds % 3600 / 60 := by
    omega
  rw [clockText, if_neg hzero, if_neg hlong, textFromEnd, if_neg hlong]
  simp only [pushFraction_false, pushNumber_eq_append, hwhole, hhours, hminutes,
    String.toList_append, toList_decimalText_eq_pointed, hseconds, hfraction]
  by_cases hhour : 0 < d.seconds / 3600
  · have hinMinutes : d.seconds / 60 ≠ 0 := by omega
    simp [hhour, hinMinutes, Nat.ne_of_gt hhour]
  · have hnone : d.seconds / 3600 = 0 := by omega
    by_cases hminute : 0 < d.seconds % 3600 / 60
    · have hinMinutes : d.seconds / 60 ≠ 0 := by omega
      simp [hnone, hminute, hinMinutes]
    · have hinMinutes : d.seconds / 60 = 0 := by omega
      simp [hnone, hminute, hinMinutes]

/-- Clock notation is the same when it is written from its end. -/
theorem toList_clockText_eq_textFromEnd (d : Duration) :
    d.clockText.toList = textFromEnd d.nanos := by
  by_cases hsmall : d.nanos < nanosPerSecond
  · by_cases hzero : d.nanos = 0
    · rw [clockText, if_pos hzero, textFromEnd, if_pos hsmall, if_pos hzero]
      rfl
    · exact toList_clockText_of_small hzero hsmall
  · exact toList_clockText_of_long hsmall

end ContainerArgs.Duration
