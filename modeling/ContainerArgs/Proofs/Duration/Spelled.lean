import ContainerArgs.Duration.Spelled
import ContainerArgs.Proofs.Number.Decimal
import ContainerArgs.Proofs.Text.Runs
import ContainerArgs.Proofs.Text.Trim

/-!
# Spelled durations read back

A spelled duration is a list of counts, each a number with a spelling of its
unit, and a space between any two.  The reader takes them one by one and adds
them up, so what it returns is the duration that they were taken from.
-/

namespace ContainerArgs.Duration

open Number

/-- A number with a unit, and how the unit is spelled. -/
structure Count where
  number : ℕ
  spelling : String × TimeUnit

namespace Count

/-- The nanoseconds that a unit stands for. -/
def unitNanos (u : TimeUnit) : ℕ :=
  if u.isSmall then u.size else u.size * nanosPerSecond

def nanos (c : Count) : ℕ :=
  c.number * unitNanos c.spelling.2

theorem nanos_of_small {c : Count} (h : c.spelling.2.isSmall = true) :
    c.nanos = c.number * c.spelling.2.size := by
  rw [nanos, unitNanos, if_pos h]

theorem nanos_of_large {c : Count} (h : c.spelling.2.isSmall = false) :
    c.nanos = c.number * c.spelling.2.size * nanosPerSecond := by
  rw [nanos, unitNanos, h, Nat.mul_assoc]
  rfl

def text (c : Count) : String :=
  natText c.number ++ c.spelling.1

/-- What reading a count gives. -/
def item (c : Count) : Item :=
  ⟨c.number, none, c.spelling.2⟩

/-- The count is spelled in the notation and within its bounds. -/
structure Fits (c : Count) : Prop where
  spelling_mem : c.spelling ∈ TimeUnit.spellings
  product_lt : c.number * c.spelling.2.size < numberBound
  small : c.spelling.2.isSmall = true → c.nanos < nanosPerSecond

theorem toList_text (c : Count) :
    c.text.toList = Nat.toDigits 10 c.number ++ c.spelling.1.toList := by
  simp [text]

theorem size_pos (u : TimeUnit) :
    0 < u.size := by
  cases u <;> decide

theorem Fits.number_lt {c : Count} (h : c.Fits) :
    c.number < numberBound :=
  Nat.lt_of_le_of_lt (Nat.le_mul_of_pos_right _ (size_pos _)) h.product_lt

end Count

/-! ## One count -/

theorem lookup_of_mem_spellings :
    ∀ p ∈ TimeUnit.spellings, TimeUnit.ofText? p.1 = some p.2 := by
  decide

/-- Spellings are made of letters alone. -/
theorem letter_of_mem_spellings :
    ∀ p ∈ TimeUnit.spellings, p.1.toList ≠ [] ∧ ∀ c ∈ p.1.toList,
      isUnitChar c = true ∧ isNumberChar c = false ∧ c ≠ '.' := by
  have hall : ∀ p ∈ TimeUnit.spellings, p.1.toList ≠ [] ∧ p.1.toList.all
      (fun c => isUnitChar c && !isNumberChar c && c != '.') = true := by
    decide
  intro p hp
  simpa [and_assoc] using hall p hp

/-- What may stand behind a count: nothing, or a space and more. -/
def IsEnd (rest : List Char) : Prop :=
  ∀ c ∈ rest.head?, c = ' '

theorem head_spelling_append
    {p : String × TimeUnit} (hp : p ∈ TimeUnit.spellings) (rest : List Char) :
    ∀ c ∈ (p.1.toList ++ rest).head?, isNumberChar c = false ∧ c ≠ '.' := by
  obtain ⟨hne, hletters⟩ := letter_of_mem_spellings p hp
  intro c hc
  rw [List.head?_append_of_ne_nil _ hne] at hc
  exact (hletters c (List.mem_of_mem_head? hc)).2

/-- White space before the digits is passed over. -/
theorem readDigits?_append
    {blanks : List Char} (hblanks : ∀ c ∈ blanks, Text.isBlank c = true)
    {n : ℕ} (hn : n < numberBound)
    {rest : List Char} (hrest : ∀ c ∈ rest.head?, isNumberChar c = false) :
    readDigits? (blanks ++ Nat.toDigits 10 n ++ rest) =
      some (Nat.toDigits 10 n, rest) := by
  have hinside : ∀ c ∈ blanks ++ Nat.toDigits 10 n, isNumberChar c = true := by
    intro c hc
    rcases List.mem_append.mp hc with hblank | hdigit
    · simp [isNumberChar, hblanks c hblank]
    · simp [isNumberChar, isDigit_of_mem_toDigits hdigit]
  have hblank : blanks.filter Char.isDigit = [] := by
    refine List.filter_eq_nil_iff.mpr fun c hc hdigit => ?_
    have hclear := Text.isBlank_of_isDigit hdigit
    rw [hblanks c hc] at hclear
    exact absurd hclear (by decide)
  have hdigits : (Nat.toDigits 10 n).filter Char.isDigit = Nat.toDigits 10 n :=
    List.filter_eq_self.mpr fun c hc => isDigit_of_mem_toDigits hc
  rw [readDigits?, Text.takeWhile_append_of_stop hinside hrest,
    Text.dropWhile_append_of_stop hinside hrest, List.filter_append, hblank,
    hdigits, List.nil_append, digitsValue_toDigits]
  exact if_neg (by simp [Nat.toDigits_ne_nil, hn])

theorem readFraction?_eq_none
    {cs : List Char} (h : ∀ c ∈ cs.head?, c ≠ '.') :
    readFraction? cs = some (none, cs) := by
  cases cs with
  | nil => rfl
  | cons c cs => simp [readFraction?, h c rfl]

theorem readUnit?_append
    {p : String × TimeUnit} (hp : p ∈ TimeUnit.spellings)
    {rest : List Char} (hrest : IsEnd rest) :
    readUnit? (p.1.toList ++ rest) = some (p.2, rest) := by
  have hletters : ∀ c ∈ p.1.toList, isUnitChar c = true :=
    fun c hc => ((letter_of_mem_spellings p hp).2 c hc).1
  have hstop : ∀ c ∈ rest.head?, isUnitChar c = false := by
    intro c hc
    rw [hrest c hc]
    decide
  have hend : rest.head?.all isNumberChar = true := by
    cases rest with
    | nil => rfl
    | cons c rest =>
        rw [hrest c rfl]
        exact (by decide : isNumberChar ' ' = true)
  rw [readUnit?, Text.takeWhile_append_of_stop hletters hstop,
    Text.dropWhile_append_of_stop hletters hstop, String.ofList_toList,
    lookup_of_mem_spellings p hp]
  exact if_pos hend

theorem readItem?_append
    {blanks : List Char} (hblanks : ∀ c ∈ blanks, Text.isBlank c = true)
    {c : Count} (hc : c.Fits) {rest : List Char} (hrest : IsEnd rest) :
    readItem? (blanks ++ c.text.toList ++ rest) = some (c.item, rest) := by
  have hhead := head_spelling_append hc.spelling_mem rest
  have hdigits := readDigits?_append hblanks hc.number_lt fun d hd =>
    (hhead d hd).1
  have hfraction := readFraction?_eq_none fun d hd => (hhead d hd).2
  have hshape : blanks ++ c.text.toList ++ rest =
      blanks ++ Nat.toDigits 10 c.number ++ (c.spelling.1.toList ++ rest) := by
    rw [c.toList_text]
    simp only [List.append_assoc]
  rw [hshape, readItem?, hdigits]
  simp [hfraction, readUnit?_append hc.spelling_mem hrest, Count.item]

/-! ## Lists of counts -/

/-- Counts with a space before each. -/
def spacedChars (cs : List Count) : List Char :=
  cs.flatMap fun c => ' ' :: c.text.toList

theorem isEnd_spacedChars (cs : List Count) :
    IsEnd (spacedChars cs) := by
  cases cs with
  | nil => simp [IsEnd, spacedChars]
  | cons c cs => simp [IsEnd, spacedChars]

theorem all_isBlank_append_count (blanks : List Char) (c : Count) (rest : List Char) :
    (blanks ++ c.text.toList ++ rest).all Text.isBlank = false := by
  obtain ⟨d, ds, hds⟩ := List.exists_cons_of_ne_nil
    (Nat.toDigits_ne_nil (n := c.number) (b := 10))
  have hd : d.isDigit = true :=
    isDigit_of_mem_toDigits (hds ▸ List.mem_cons_self)
  rw [c.toList_text, hds]
  simp [Text.isBlank_of_isDigit hd]

/-- The first count is read, and the reader goes on behind it. -/
theorem readItems?_append
    (blanks : List Char) (hblanks : ∀ c ∈ blanks, Text.isBlank c = true)
    {c : Count} (hc : c.Fits) {fuel : ℕ} {cs : List Count}
    (hcs : readItems? fuel (spacedChars cs) = some (cs.map Count.item)) :
    readItems? (fuel + 1) (blanks ++ c.text.toList ++ spacedChars cs) =
      some ((c :: cs).map Count.item) := by
  rw [readItems?, all_isBlank_append_count,
    readItem?_append hblanks hc (isEnd_spacedChars cs)]
  simp [hcs]

theorem readItems?_spacedChars
    {cs : List Count} (hcs : ∀ c ∈ cs, c.Fits) {fuel : ℕ}
    (hfuel : cs.length < fuel) :
    readItems? fuel (spacedChars cs) = some (cs.map Count.item) := by
  induction cs generalizing fuel with
  | nil =>
      obtain ⟨fuel, rfl⟩ := Nat.exists_eq_succ_of_ne_zero (Nat.ne_of_gt hfuel)
      rfl
  | cons c cs ih =>
      obtain ⟨fuel, rfl⟩ :=
        Nat.exists_eq_succ_of_ne_zero (Nat.ne_of_gt (Nat.zero_lt_of_lt hfuel))
      have hrest := ih (fun d hd => hcs d (List.mem_cons_of_mem c hd))
        (Nat.lt_of_succ_lt_succ hfuel)
      have hblank : ∀ d ∈ [' '], Text.isBlank d = true := by
        intro d hd
        rw [List.mem_singleton.mp hd]
        rfl
      simpa [spacedChars] using
        readItems?_append [' '] hblank (hcs c List.mem_cons_self) hrest

/-! ## Adding up -/

theorem product?_one {n size : ℕ} (h : n * size < numberBound) (fine : Bool) :
    Item.product? n 1 size fine =
      some (if fine then (0, n * size) else (n * size, 0)) := by
  rw [Item.product?, if_pos ⟨h, Nat.mod_one _⟩, Nat.div_one]

theorem add?_eq
    {total seconds rest : ℕ} (hrest : rest ≤ nanosPerSecond)
    (hsum : total + seconds * nanosPerSecond + rest <
      secondsBound * nanosPerSecond) :
    Item.add? total (seconds, rest) =
      some (total + seconds * nanosPerSecond + rest) := by
  have hcarry : total % nanosPerSecond + rest < numberBound := by
    have hmod : total % nanosPerSecond < nanosPerSecond :=
      Nat.mod_lt _ (by decide)
    have hbound : nanosPerSecond + nanosPerSecond < numberBound := by
      decide
    omega
  exact if_pos ⟨hcarry, hsum⟩

/-- A count adds its nanoseconds, as long as the total stays in range. -/
theorem addTo?_item
    {c : Count} (hc : c.Fits) {total : ℕ}
    (hsum : total + c.nanos < secondsBound * nanosPerSecond) :
    c.item.addTo? total = some (total + c.nanos) := by
  have hwhole : c.item.wholePart? = some
      (if c.spelling.2.isSmall then (0, c.number * c.spelling.2.size)
        else (c.number * c.spelling.2.size, 0)) :=
    product?_one hc.product_lt _
  have hpart : Item.add? total
      (if c.spelling.2.isSmall then (0, c.number * c.spelling.2.size)
        else (c.number * c.spelling.2.size, 0)) = some (total + c.nanos) := by
    cases hsmall : c.spelling.2.isSmall with
    | true =>
        have hlt := hc.small hsmall
        rw [if_pos rfl, ← Count.nanos_of_small hsmall,
          add?_eq (by omega) (by omega)]
        simp
    | false =>
        have hnanos := Count.nanos_of_large hsmall
        rw [if_neg (by decide), add?_eq (by omega) (by omega), hnanos]
        simp
  have hfraction : c.item.fractionPart? = some (0, 0) := rfl
  have hnothing : Item.add? (total + c.nanos) (0, 0) = some (total + c.nanos) :=
    add?_eq (by omega) (by omega)
  simp [Item.addTo?, hwhole, hpart, hfraction, hnothing]

def totalNanos : List Count → ℕ
  | [] => 0
  | c :: cs => c.nanos + totalNanos cs

theorem foldlM_addTo?
    {cs : List Count} (hcs : ∀ c ∈ cs, c.Fits) {total : ℕ}
    (hsum : total + totalNanos cs < secondsBound * nanosPerSecond) :
    (cs.map Count.item).foldlM (fun n i => Item.addTo? n i) total =
      some (total + totalNanos cs) := by
  induction cs generalizing total with
  | nil => rfl
  | cons c cs ih =>
      rw [totalNanos, ← Nat.add_assoc] at hsum ⊢
      rw [List.map_cons, List.foldlM_cons,
        addTo?_item (hcs c List.mem_cons_self) (by omega)]
      exact ih (fun d hd => hcs d (List.mem_cons_of_mem c hd)) hsum

/-! ## The counts of a duration -/

/-- The number of each unit in a duration, from years to nanoseconds. -/
def counts (d : Duration) : List Count :=
  let inYear := d.seconds % 31557600
  let inMonth := inYear % 2630016
  let inDay := inMonth % 86400
  let plural (n : ℕ) (singular : String) : String :=
    if n = 1 then singular else singular ++ "s"
  [⟨d.seconds / 31557600, plural (d.seconds / 31557600) "year", .year⟩,
    ⟨inYear / 2630016, plural (inYear / 2630016) "month", .month⟩,
    ⟨inMonth / 86400, plural (inMonth / 86400) "day", .day⟩,
    ⟨inDay / 3600, "h", .hour⟩, ⟨inDay % 3600 / 60, "m", .minute⟩,
    ⟨inDay % 60, "s", .second⟩, ⟨d.subsecond / 1000000, "ms", .millisecond⟩,
    ⟨d.subsecond / 1000 % 1000, "us", .microsecond⟩,
    ⟨d.subsecond % 1000, "ns", .nanosecond⟩]

/-- The counts that are written: those that are not zero, or else no seconds. -/
def written (d : Duration) : List Count :=
  if d.nanos = 0 then [⟨0, "s", .second⟩]
  else d.counts.filter (·.number ≠ 0)

theorem seconds_lt (d : Duration) :
    d.seconds < secondsBound :=
  (Nat.div_lt_iff_lt_mul (by decide)).mpr d.nanos_lt

theorem fits_of_le_seconds
    {d : Duration} {n : ℕ} {p : String × TimeUnit}
    (hp : p ∈ TimeUnit.spellings) (hsmall : p.2.isSmall = false)
    (hle : n * p.2.size ≤ d.seconds) :
    Count.Fits ⟨n, p⟩ where
  spelling_mem := hp
  product_lt := Nat.lt_of_le_of_lt hle d.seconds_lt
  small h := by
    rw [hsmall] at h
    exact absurd h (by decide)

theorem fits_of_le_subsecond
    {d : Duration} {n : ℕ} {p : String × TimeUnit}
    (hp : p ∈ TimeUnit.spellings) (hsmall : p.2.isSmall = true)
    (hle : n * p.2.size ≤ d.subsecond) :
    Count.Fits ⟨n, p⟩ := by
  have hlt : n * p.2.size < nanosPerSecond :=
    Nat.lt_of_le_of_lt hle (Nat.mod_lt _ (by decide))
  refine ⟨hp, Nat.lt_trans hlt (by decide), fun _ => ?_⟩
  rwa [Count.nanos_of_small hsmall]

theorem fits_of_mem_counts (d : Duration) :
    ∀ c ∈ d.counts, c.Fits := by
  have hplural : ∀ (n : ℕ) (s : String) (u : TimeUnit),
      (s, u) ∈ TimeUnit.spellings → (s ++ "s", u) ∈ TimeUnit.spellings →
      (if n = 1 then s else s ++ "s", u) ∈ TimeUnit.spellings := by
    intro n s u hone hmany
    split
    · exact hone
    · exact hmany
  intro c hc
  simp only [counts, List.mem_cons, List.not_mem_nil, or_false] at hc
  rcases hc with rfl | rfl | rfl | rfl | rfl | rfl | rfl | rfl | rfl
  · exact fits_of_le_seconds (hplural _ _ _ (by decide) (by decide)) rfl
      (show _ * 31557600 ≤ d.seconds by omega)
  · exact fits_of_le_seconds (hplural _ _ _ (by decide) (by decide)) rfl
      (show _ * 2630016 ≤ d.seconds by omega)
  · exact fits_of_le_seconds (hplural _ _ _ (by decide) (by decide)) rfl
      (show _ * 86400 ≤ d.seconds by omega)
  · exact fits_of_le_seconds (by decide) rfl (show _ * 3600 ≤ d.seconds by omega)
  · exact fits_of_le_seconds (by decide) rfl (show _ * 60 ≤ d.seconds by omega)
  · exact fits_of_le_seconds (by decide) rfl (show _ * 1 ≤ d.seconds by omega)
  · exact fits_of_le_subsecond (by decide) rfl
      (show _ * 1000000 ≤ d.subsecond by omega)
  · exact fits_of_le_subsecond (by decide) rfl (show _ * 1000 ≤ d.subsecond by omega)
  · exact fits_of_le_subsecond (by decide) rfl (show _ * 1 ≤ d.subsecond by omega)

theorem totalNanos_counts (d : Duration) :
    totalNanos d.counts = d.nanos := by
  -- The seconds and what is beyond them are put together from their units apart,
  -- so that each sum is one that `omega` settles.
  have hseconds : ∀ s : ℕ,
      s / 31557600 * 31557600 + s % 31557600 / 2630016 * 2630016 +
        s % 31557600 % 2630016 / 86400 * 86400 +
        s % 31557600 % 2630016 % 86400 / 3600 * 3600 +
        s % 31557600 % 2630016 % 86400 % 3600 / 60 * 60 +
        s % 31557600 % 2630016 % 86400 % 60 = s := by
    intro s
    omega
  have hsubsecond : ∀ n : ℕ,
      n / 1000000 * 1000000 + n / 1000 % 1000 * 1000 + n % 1000 = n := by
    intro n
    omega
  have hlarge : ∀ (n : ℕ) (s : String) (u : TimeUnit), u.isSmall = false →
      Count.nanos ⟨n, s, u⟩ = n * u.size * nanosPerSecond :=
    fun n s u => Count.nanos_of_large (c := ⟨n, s, u⟩)
  have hsmall : ∀ (n : ℕ) (s : String) (u : TimeUnit), u.isSmall = true →
      Count.nanos ⟨n, s, u⟩ = n * u.size :=
    fun n s u => Count.nanos_of_small (c := ⟨n, s, u⟩)
  calc totalNanos d.counts
      = (d.seconds / 31557600 * 31557600 +
          d.seconds % 31557600 / 2630016 * 2630016 +
          d.seconds % 31557600 % 2630016 / 86400 * 86400 +
          d.seconds % 31557600 % 2630016 % 86400 / 3600 * 3600 +
          d.seconds % 31557600 % 2630016 % 86400 % 3600 / 60 * 60 +
          d.seconds % 31557600 % 2630016 % 86400 % 60) * nanosPerSecond +
        (d.subsecond / 1000000 * 1000000 + d.subsecond / 1000 % 1000 * 1000 +
          d.subsecond % 1000) := by
        simp only [counts, totalNanos]
        rw [hlarge _ _ .year rfl, hlarge _ _ .month rfl, hlarge _ _ .day rfl,
          hlarge _ _ .hour rfl, hlarge _ _ .minute rfl, hlarge _ _ .second rfl,
          hsmall _ _ .millisecond rfl, hsmall _ _ .microsecond rfl,
          hsmall _ _ .nanosecond rfl]
        simp only [TimeUnit.size, Nat.add_mul, Nat.add_assoc, Nat.add_zero,
          Nat.mul_one]
    _ = d.seconds * nanosPerSecond + d.subsecond := by
        rw [hseconds, hsubsecond]
    _ = d.nanos := Nat.div_add_mod' d.nanos nanosPerSecond

theorem totalNanos_filter (cs : List Count) :
    totalNanos (cs.filter (·.number ≠ 0)) = totalNanos cs := by
  induction cs with
  | nil => rfl
  | cons c cs ih =>
      by_cases hc : c.number = 0
      · have hnanos : c.nanos = 0 := by
          rw [Count.nanos, hc, Nat.zero_mul]
        rw [List.filter_cons_of_neg (by simpa using hc), ih, totalNanos, hnanos,
          Nat.zero_add]
      · rw [List.filter_cons_of_pos (by simpa using hc), totalNanos, totalNanos,
          ih]

theorem totalNanos_written (d : Duration) :
    totalNanos d.written = d.nanos := by
  rw [written]
  split
  next hzero => rw [hzero]; rfl
  next => rw [totalNanos_filter, totalNanos_counts]

theorem fits_of_mem_written (d : Duration) :
    ∀ c ∈ d.written, c.Fits := by
  intro c hc
  rw [written] at hc
  split at hc
  next =>
    obtain rfl := List.mem_singleton.mp hc
    exact ⟨by decide, by decide, fun h => absurd h (by decide)⟩
  next => exact d.fits_of_mem_counts c (List.mem_of_mem_filter hc)

theorem written_ne_nil (d : Duration) :
    d.written ≠ [] := by
  intro hnil
  have htotal := d.totalNanos_written
  rw [hnil] at htotal
  have hzero : d.nanos = 0 := htotal.symm
  rw [written, if_pos hzero] at hnil
  exact absurd hnil (by simp)

theorem countText_eq (n : ℕ) (s : String) (u : TimeUnit) :
    countText n s =
      (([⟨n, s, u⟩] : List Count).filter (·.number ≠ 0)).map Count.text := by
  by_cases hn : n = 0
  · simp [countText, hn]
  · simp [countText, hn, Count.text]

theorem spelledItems_eq (d : Duration) :
    d.spelledItems = (d.counts.filter (·.number ≠ 0)).map Count.text := by
  simp only [spelledItems, pluralText]
  rw [countText_eq _ _ .year, countText_eq _ _ .month, countText_eq _ _ .day,
    countText_eq _ _ .hour, countText_eq _ _ .minute, countText_eq _ _ .second,
    countText_eq _ _ .millisecond, countText_eq _ _ .microsecond,
    countText_eq _ _ .nanosecond]
  simp only [← List.map_append, ← List.filter_append]
  rfl

/-- The text of a duration is its counts, separated by spaces. -/
theorem spelledText_eq (d : Duration) :
    d.spelledText = String.intercalate " " (d.written.map Count.text) := by
  rw [spelledText, written]
  split
  next => rfl
  next => rw [spelledItems_eq]

theorem length_le_spacedChars (cs : List Count) :
    cs.length ≤ (spacedChars cs).length := by
  induction cs with
  | nil => exact Nat.le_refl 0
  | cons c cs ih =>
      simp only [spacedChars, List.flatMap_cons, List.length_append,
        List.length_cons] at ih ⊢
      omega

theorem one_lt_length_text
    {c : Count} (hc : c.Fits) :
    1 < c.text.toList.length := by
  have hdigits : 0 < (Nat.toDigits 10 c.number).length :=
    List.length_pos_iff.mpr Nat.toDigits_ne_nil
  have hletters : 0 < c.spelling.1.toList.length :=
    List.length_pos_iff.mpr (letter_of_mem_spellings _ hc.spelling_mem).1
  rw [c.toList_text, List.length_append]
  omega

/-- The text of a duration is read as the duration. -/
theorem ofSpelled?_spelledText (d : Duration) :
    ofSpelled? d.spelledText = some d := by
  obtain ⟨c, cs, hwritten⟩ := List.exists_cons_of_ne_nil d.written_ne_nil
  have hfits := d.fits_of_mem_written
  have htotal := d.totalNanos_written
  rw [hwritten] at hfits htotal
  have hc := hfits c List.mem_cons_self
  have htext : d.spelledText.toList = c.text.toList ++ spacedChars cs := by
    rw [spelledText_eq, hwritten, List.map_cons, Text.toList_intercalate_cons,
      List.flatMap_map]
    rfl
  have hlength : cs.length + 1 < d.spelledText.length := by
    have hfirst := one_lt_length_text hc
    have hlater := length_le_spacedChars cs
    rw [← String.length_toList, htext, List.length_append]
    omega
  have hlone : d.spelledText ≠ "0" := by
    intro h
    have hone : "0".length = 1 := by
      decide
    rw [h, hone] at hlength
    omega
  have hitems : readItems? (d.spelledText.length + 1) d.spelledText.toList =
      some ((c :: cs).map Count.item) := by
    have hlater := readItems?_spacedChars
      (fun e he => hfits e (List.mem_cons_of_mem c he))
      (Nat.lt_of_succ_lt hlength)
    rw [htext]
    exact readItems?_append [] (by simp) hc hlater
  have hsum : ((c :: cs).map Count.item).foldlM (fun n i => Item.addTo? n i) 0 =
      some d.nanos := by
    rw [foldlM_addTo? hfits (by rw [htotal, Nat.zero_add]; exact d.nanos_lt),
      htotal, Nat.zero_add]
  rw [ofSpelled?, if_neg hlone, hitems]
  simp only [Option.bind_eq_bind, Option.bind_some]
  rw [if_neg (by simp), hsum]
  exact dif_pos d.nanos_lt

end ContainerArgs.Duration
