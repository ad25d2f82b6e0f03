import ContainerArgs.Duration.Retention
import ContainerArgs.Proofs.Text.Runs
import ContainerArgs.Proofs.Text.Trim
import Mathlib.Algebra.BigOperators.Group.List.Basic
import Mathlib.Algebra.GroupWithZero.Nat
import Mathlib.Tactic.Set

/-!
# The grammar of retention windows

The notation of retention windows as a grammar, without the reader: a text
spells terms when it is their concatenation, each term being digits and the
symbol of a unit, with the units in falling order.  Reading a text decides this
grammar, and its bounded arithmetic finds the exact sum of the terms whenever
that sum is in range.
-/

namespace ContainerArgs.Retention

/-- One term of the notation: the digits of a count, and the symbol and the
milliseconds of its unit. -/
structure Term where
  digits : List Char
  symbol : String
  millis : ℕ
deriving DecidableEq

namespace Term

def unit (x : Term) : String × ℕ :=
  (x.symbol, x.millis)

def chars (x : Term) : List Char :=
  x.digits ++ x.symbol.toList

/-- The milliseconds that a term denotes. -/
def value (x : Term) : ℕ :=
  Number.digitsValue x.digits * x.millis

/-- The term of a count that has been read. -/
def ofCount (count : Count) : Term :=
  ⟨count.1, count.2.symbol, count.2.millis⟩

end Term

/-- The units of the notation in their order, with their milliseconds. -/
def scale : List (String × ℕ) :=
  let day := 24 * 60 * 60 * 1000
  [("y", 365 * day), ("w", 7 * day), ("d", day), ("h", 60 * 60 * 1000),
    ("m", 60 * 1000), ("s", 1000), ("ms", 1)]

/-- A text is the concatenation of terms with some of the given units, each at
most once and in their order. -/
structure SpellsIn
    (scale : List (String × ℕ)) (t : List Char) (terms : List Term) : Prop where
  digits : ∀ x ∈ terms, x.digits ≠ [] ∧ ∀ c ∈ x.digits, c.isDigit = true
  ordered : (terms.map Term.unit).Sublist scale
  text : t = terms.flatMap Term.chars

/-- A text is the concatenation of one or more terms of the notation. -/
structure Spells (t : List Char) (terms : List Term) : Prop
    extends SpellsIn scale t terms where
  ne_nil : terms ≠ []

/-- The sum of terms in milliseconds. -/
def total (terms : List Term) : ℕ :=
  (terms.map Term.value).sum

/-! ## Every text has at most one decomposition -/

/-- A symbol that ends the digits before it. -/
def IsSymbol (s : String) : Prop :=
  s.toList ≠ [] ∧ ∀ c ∈ s.toList, c.isDigit = false

theorem isSymbol_of_mem_scale :
    ∀ u ∈ scale, IsSymbol u.1 := by
  have hall : ∀ u ∈ scale,
      u.1.toList ≠ [] ∧ u.1.toList.all (!Char.isDigit ·) = true := by
    decide
  intro u hu
  simpa [IsSymbol] using hall u hu

theorem symbol_injective_on_scale :
    ∀ u ∈ scale, ∀ v ∈ scale, u.1 = v.1 → u = v := by
  decide

/-- The digits and the symbol of a term as runs of digits and of other
characters. -/
def Term.runs (x : Term) : List Char × List Char :=
  (x.digits, x.symbol.toList)

theorem SpellsIn.nil_iff
    {us : List (String × ℕ)} {t : List Char} (h : SpellsIn us t []) :
    t = [] := by
  simpa using h.text

theorem SpellsIn.unit_mem
    {us : List (String × ℕ)} {t : List Char} {terms : List Term}
    (h : SpellsIn us t terms) {x : Term} (hx : x ∈ terms) :
    x.unit ∈ us :=
  h.ordered.subset (List.mem_map_of_mem hx)

theorem SpellsIn.isRun
    {t : List Char} {terms : List Term} (h : SpellsIn scale t terms) :
    ∀ x ∈ terms.map Term.runs, Text.IsRun Char.isDigit x := by
  intro x hx
  obtain ⟨term, hterm, rfl⟩ := List.mem_map.mp hx
  have hdigits := h.digits term hterm
  have hsymbol := isSymbol_of_mem_scale _ (h.unit_mem hterm)
  exact ⟨hdigits.1, hdigits.2, hsymbol.1, hsymbol.2⟩

theorem SpellsIn.text_eq_ofRuns
    {us : List (String × ℕ)} {t : List Char} {terms : List Term}
    (h : SpellsIn us t terms) :
    t = Text.ofRuns (terms.map Term.runs) := by
  rw [h.text, Text.ofRuns, List.flatMap_map]
  rfl

theorem Term.runs_injective_on_scale
    {x y : Term} (hx : x.unit ∈ scale) (hy : y.unit ∈ scale)
    (h : x.runs = y.runs) :
    x = y := by
  have hdigits : x.digits = y.digits := congrArg Prod.fst h
  have hsymbol : x.symbol = y.symbol :=
    String.toList_inj.mp (congrArg Prod.snd h)
  have hunit : x.unit = y.unit := symbol_injective_on_scale _ hx _ hy hsymbol
  have hmillis : x.millis = y.millis := congrArg Prod.snd hunit
  cases x
  cases y
  simp_all

/-- A text spells terms of the notation in one way only. -/
theorem SpellsIn.unique
    {t : List Char} {xs ys : List Term}
    (hx : SpellsIn scale t xs) (hy : SpellsIn scale t ys) :
    xs = ys := by
  have hruns : xs.map Term.runs = ys.map Term.runs :=
    Text.ofRuns_injective hx.isRun hy.isRun
      (hx.text_eq_ofRuns.symm.trans hy.text_eq_ofRuns)
  have hlength : xs.length = ys.length := by
    simpa using congrArg List.length hruns
  refine List.ext_getElem hlength fun i hi hj => ?_
  refine Term.runs_injective_on_scale (hx.unit_mem (List.getElem_mem hi))
    (hy.unit_mem (List.getElem_mem hj)) ?_
  have hi' : i < (xs.map Term.runs).length := by simpa using hi
  simpa using List.getElem_of_eq hruns hi'

/-! ## Reading decides the grammar -/

theorem scale_eq_map_units :
    units.map (fun u => (u.symbol, u.millis)) = scale := by
  decide

theorem readCount?_eq_some
    {u : TimeUnit} {cs rest : List Char} {count : Count}
    (h : readCount? u cs = some (count, rest)) :
    count.2 = u ∧ count.1 ≠ [] ∧ (∀ c ∈ count.1, c.isDigit = true) ∧
      cs = (Term.ofCount count).chars ++ rest := by
  simp only [readCount?, Option.ite_none_right_eq_some, Option.some.injEq,
    Prod.mk.injEq] at h
  obtain ⟨⟨hne, htail, htail_eq⟩, rfl, rfl⟩ := h
  refine ⟨rfl, hne, fun c hc => List.mem_takeWhile_imp hc, ?_⟩
  rw [← String.length_toList, ← htail_eq, List.drop_left]
  simp only [Term.chars, Term.ofCount]
  rw [List.append_assoc, htail_eq, List.takeWhile_append_dropWhile]

theorem readCount?_append
    {u : TimeUnit} (hu : IsSymbol u.symbol) {digits : List Char}
    (hne : digits ≠ []) (hdigits : ∀ c ∈ digits, c.isDigit = true)
    (rest : List Char) :
    readCount? u (digits ++ (u.symbol.toList ++ rest)) =
      some ((digits, u), rest) := by
  have hstop : ∀ c ∈ (u.symbol.toList ++ rest).head?, c.isDigit = false := by
    intro c hc
    rw [List.head?_append_of_ne_nil _ hu.1] at hc
    exact hu.2 c (List.mem_of_mem_head? hc)
  simp only [readCount?, Text.takeWhile_append_of_stop hdigits hstop,
    Text.dropWhile_append_of_stop hdigits hstop]
  rw [if_pos ⟨hne, List.prefix_append _ _⟩, ← String.length_toList,
    List.drop_left]

/-- The symbol and the milliseconds of a unit. -/
def TimeUnit.entry (u : TimeUnit) : String × ℕ :=
  (u.symbol, u.millis)

theorem readCounts?_cons (u : TimeUnit) (us : List TimeUnit) (cs : List Char) :
    readCounts? (u :: us) cs =
      ((readCount? u cs).bind fun read =>
        (readCounts? us read.2).map (read.1 :: ·)).or
      (readCounts? us cs) := by
  rw [readCounts?]
  cases readCount? u cs with
  | none => rfl
  | some read => cases h : readCounts? us read.2 <;> simp [h]

theorem spellsIn_of_readCounts?
    {us : List TimeUnit} {cs : List Char} {counts : List Count}
    (h : readCounts? us cs = some counts) :
    SpellsIn (us.map TimeUnit.entry) cs (counts.map Term.ofCount) := by
  induction us generalizing cs counts with
  | nil =>
      simp only [readCounts?, Option.ite_none_right_eq_some,
        Option.some.injEq] at h
      obtain ⟨rfl, rfl⟩ := h
      exact ⟨by simp, by simp, by simp⟩
  | cons u us ih =>
      rw [readCounts?_cons, Option.or_eq_some_iff] at h
      rcases h with h | ⟨-, h⟩
      · obtain ⟨⟨count, rest⟩, hcount, h⟩ := Option.bind_eq_some_iff.mp h
        obtain ⟨tail, htail, rfl⟩ := Option.map_eq_some_iff.mp h
        obtain ⟨rfl, hne, hdigits, htext⟩ := readCount?_eq_some hcount
        have hspell := ih htail
        refine ⟨?_, ?_, ?_⟩
        · intro x hx
          rcases List.mem_cons.mp hx with rfl | hx
          · exact ⟨hne, hdigits⟩
          · exact hspell.digits x hx
        · exact hspell.ordered.cons_cons _
        · rw [htext, List.map_cons, List.flatMap_cons, ← hspell.text]
      · have hspell := ih h
        exact ⟨hspell.digits, hspell.ordered.cons _, hspell.text⟩

theorem exists_readCounts?_of_spellsIn
    {us : List TimeUnit} (hus : ∀ u ∈ us, IsSymbol u.symbol)
    {cs : List Char} {terms : List Term}
    (h : SpellsIn (us.map TimeUnit.entry) cs terms) :
    ∃ counts, readCounts? us cs = some counts := by
  induction us generalizing cs terms with
  | nil =>
      have hterms : terms = [] := by simpa using h.ordered
      subst hterms
      exact ⟨[], by simp [readCounts?, h.nil_iff]⟩
  | cons u us ih =>
      have hu := hus u List.mem_cons_self
      have hus' : ∀ v ∈ us, IsSymbol v.symbol :=
        fun v hv => hus v (List.mem_cons_of_mem _ hv)
      rw [readCounts?_cons]
      rcases List.sublist_cons_iff.mp h.ordered with hskip | ⟨tail, htail, hsub⟩
      · obtain ⟨counts, hcounts⟩ := ih hus' ⟨h.digits, hskip, h.text⟩
        rw [hcounts]
        cases (readCount? u cs).bind _ <;> simp
      · obtain ⟨x, xs, rfl, hx, rfl⟩ := List.map_eq_cons_iff.mp htail
        have hxs : SpellsIn (us.map TimeUnit.entry)
            (xs.flatMap Term.chars) xs :=
          ⟨fun y hy => h.digits y (List.mem_cons_of_mem _ hy), hsub, rfl⟩
        obtain ⟨counts, hcounts⟩ := ih hus' hxs
        have hdigits := h.digits x List.mem_cons_self
        have hsymbol : x.symbol = u.symbol := congrArg Prod.fst hx
        have hread := readCount?_append hu hdigits.1 hdigits.2
          (xs.flatMap Term.chars)
        rw [← hsymbol, ← List.append_assoc] at hread
        have htext : cs = x.chars ++ xs.flatMap Term.chars := by
          rw [h.text, List.flatMap_cons]
        rw [htext, Term.chars, hread]
        simp [hcounts]

/-- Reading finds the terms that a text spells. -/
theorem readCounts?_units_of_spells
    {t : List Char} {terms : List Term} (h : Spells t terms) :
    ∃ counts, readCounts? units t = some counts ∧
      counts.map Term.ofCount = terms := by
  have hspell : SpellsIn (units.map TimeUnit.entry) t terms := by
    rw [show units.map TimeUnit.entry = scale from scale_eq_map_units]
    exact h.toSpellsIn
  have hsymbols : ∀ u ∈ units, IsSymbol u.symbol := by
    intro u hu
    have hmem : u.entry ∈ scale :=
      scale_eq_map_units ▸ List.mem_map_of_mem hu
    exact isSymbol_of_mem_scale _ hmem
  obtain ⟨counts, hcounts⟩ := exists_readCounts?_of_spellsIn hsymbols hspell
  have hread := spellsIn_of_readCounts? hcounts
  rw [show units.map TimeUnit.entry = scale from scale_eq_map_units] at hread
  exact ⟨counts, hcounts, hread.unique h.toSpellsIn⟩

/-- What reading finds in a text that is not empty, the text spells. -/
theorem spells_of_readCounts?_units
    {t : List Char} {counts : List Count} (ht : t ≠ [])
    (h : readCounts? units t = some counts) :
    Spells t (counts.map Term.ofCount) := by
  have hread := spellsIn_of_readCounts? h
  rw [show units.map TimeUnit.entry = scale from scale_eq_map_units] at hread
  refine ⟨hread, ?_⟩
  intro hnil
  rw [hnil] at hread
  exact ht hread.nil_iff

theorem Spells.text_ne_nil
    {t : List Char} {terms : List Term} (h : Spells t terms) :
    t ≠ [] := by
  obtain ⟨x, xs, rfl⟩ := List.exists_cons_of_ne_nil h.ne_nil
  have hx := h.digits x List.mem_cons_self
  rw [h.text, List.flatMap_cons, Term.chars]
  simp [hx.1]

/-! ## Bounded sums -/

theorem pos_of_mem_scale :
    ∀ u ∈ scale, 0 < u.2 := by
  decide

theorem inBound?_eq_none {n : ℕ} (h : ¬n < sumBound) :
    inBound? n = none := by
  rw [inBound?, if_neg h]

/-- No bound on the way is met before the bound of the sum: a count that is too
great by itself, or its product with the unit, makes the sum too great. -/
theorem addCount?_eq
    {sum : ℕ} {count : Count} (hpos : 0 < count.2.millis) :
    addCount? sum count = inBound? (sum + (Term.ofCount count).value) := by
  obtain ⟨digits, unit⟩ := count
  set n := Number.digitsValue digits
  have hvalue : (Term.ofCount (digits, unit)).value = n * unit.millis := rfl
  have hle : n ≤ n * unit.millis := Nat.le_mul_of_pos_right _ hpos
  have hadd : addCount? sum (digits, unit) =
      (inBound? n).bind fun n => (inBound? (n * unit.millis)).bind fun millis =>
        inBound? (sum + millis) := rfl
  rw [hadd, hvalue]
  by_cases hproduct : n * unit.millis < sumBound
  · have hdigits : n < sumBound := by omega
    rw [inBound?, if_pos hdigits, Option.bind_some, inBound?, if_pos hproduct,
      Option.bind_some]
  · have hsum : ¬sum + n * unit.millis < sumBound := by omega
    rw [inBound?_eq_none hsum]
    by_cases hdigits : n < sumBound
    · rw [inBound?, if_pos hdigits, Option.bind_some, inBound?_eq_none hproduct]
      rfl
    · rw [inBound?_eq_none hdigits]
      rfl

theorem foldlM_addCount?
    {counts : List Count} (hpos : ∀ count ∈ counts, 0 < count.2.millis)
    {sum : ℕ} (hsum : sum < sumBound) :
    counts.foldlM addCount? sum =
      inBound? (sum + total (counts.map Term.ofCount)) := by
  induction counts generalizing sum with
  | nil => simp [total, inBound?, hsum]
  | cons count counts ih =>
      have hrest : ∀ c ∈ counts, 0 < c.2.millis :=
        fun c hc => hpos c (List.mem_cons_of_mem _ hc)
      have htotal : total ((count :: counts).map Term.ofCount) =
          (Term.ofCount count).value + total (counts.map Term.ofCount) := by
        simp [total]
      rw [List.foldlM_cons, addCount?_eq (hpos count List.mem_cons_self),
        htotal, ← Nat.add_assoc]
      by_cases hnext : sum + (Term.ofCount count).value < sumBound
      · rw [inBound?, if_pos hnext]
        exact ih hrest hnext
      · have hall : ¬sum + (Term.ofCount count).value +
            total (counts.map Term.ofCount) < sumBound := by omega
        rw [inBound?, if_neg hnext, inBound?, if_neg hall]
        rfl

/-- The sum of the counts of a text, if no number on the way is too great. -/
theorem foldlM_addCount?_of_spells
    {t : List Char} {counts : List Count}
    (h : Spells t (counts.map Term.ofCount)) :
    counts.foldlM addCount? 0 = inBound? (total (counts.map Term.ofCount)) := by
  have hpos : ∀ count ∈ counts, 0 < count.2.millis := by
    intro count hcount
    exact pos_of_mem_scale _ (h.unit_mem (List.mem_map_of_mem hcount))
  rw [foldlM_addCount? hpos (by decide), Nat.zero_add]

/-! ## The verdict on a text -/

section Verdict

variable {s : String} {t : List Char} (ht : Text.trim s.toList = t)

include ht

theorem ofText_eq_empty_iff :
    ofText s = .error .empty ↔ t = [] := by
  subst ht
  constructor
  · intro h
    by_contra hne
    simp only [ofText, hne, if_false] at h
    repeat' split at h
    all_goals simp at h
  · intro hnil
    simp [ofText, hnil]

/-- A text that spells terms is read as their sum when that is in range, and
refused as out of range when it is not. -/
theorem ofText_of_spells
    {terms : List Term} (hzero : t ≠ ['0']) (h : Spells t terms) :
    (total terms < readBound ∧
        ∃ r, ofText s = .ok r ∧ r.millis = total terms) ∨
      (readBound ≤ total terms ∧
        ofText s = .error (.outOfRange (String.ofList t))) := by
  subst ht
  obtain ⟨counts, hcounts, rfl⟩ := readCounts?_units_of_spells h
  have hcounts_ne : counts ≠ [] := fun hnil => h.ne_nil (by simp [hnil])
  have hne : Text.trim s.toList ≠ [] := h.text_ne_nil
  have hsum := foldlM_addCount?_of_spells h
  have hbounds : readBound ≤ sumBound := by decide
  by_cases hrange : total (counts.map Term.ofCount) < readBound
  · left
    rw [inBound?, if_pos (by omega)] at hsum
    refine ⟨hrange, ?_⟩
    simp [ofText, hne, hzero, hcounts, hsum, hcounts_ne, hrange]
  · right
    refine ⟨by omega, ?_⟩
    by_cases hbound : total (counts.map Term.ofCount) < sumBound
    · rw [inBound?, if_pos hbound] at hsum
      simp [ofText, hne, hzero, hcounts, hsum, hcounts_ne, hrange]
    · rw [inBound?_eq_none hbound] at hsum
      simp [ofText, hne, hzero, hcounts, hsum]

/-- A text that spells no terms is refused as malformed. -/
theorem ofText_of_not_spells
    (hne : t ≠ []) (hzero : t ≠ ['0']) (h : ¬∃ terms, Spells t terms) :
    ofText s = .error (.invalidFormat (String.ofList t)) := by
  subst ht
  have hcounts : readCounts? units (Text.trim s.toList) = none := by
    cases hread : readCounts? units (Text.trim s.toList) with
    | none => rfl
    | some counts =>
        exact (h ⟨_, spells_of_readCounts?_units hne hread⟩).elim
  simp [ofText, hne, hzero, hcounts]

end Verdict

/-- Reading a text decides the grammar with exact sums.  Let `t` be the text
without the white space at its ends.  It is refused as empty when nothing is
left, and a lone `0` is no time at all.  Any other text that spells terms does
so in one way, and is read as their exact sum or refused as out of range,
according to whether the sum is below the bound; a text that spells none is
refused as malformed. -/
theorem ofText_decides_grammar (s : String) :
    ∃ t, t = Text.trim s.toList ∧ Text.IsTrimOf t s.toList ∧
      (ofText s = .error .empty ↔ t = []) ∧
      (t = ['0'] → ofText s = .ok zero) ∧
      (t ≠ [] → t ≠ ['0'] →
        (∀ terms, Spells t terms →
          (∀ others, Spells t others → others = terms) ∧
          ((∃ r, ofText s = .ok r ∧ r.millis = total terms) ↔
            total terms < 2 ^ 64) ∧
          (ofText s = .error (.outOfRange (String.ofList t)) ↔
            2 ^ 64 ≤ total terms)) ∧
        (ofText s = .error (.invalidFormat (String.ofList t)) ↔
          ¬∃ terms, Spells t terms)) := by
  refine ⟨_, rfl, Text.isTrimOf_trim _, ofText_eq_empty_iff rfl, ?_, ?_⟩
  · intro hzero
    simp [ofText, hzero]
  · intro hne hzero
    refine ⟨?_, ?_, ofText_of_not_spells rfl hne hzero⟩
    · intro terms h
      refine ⟨fun others hothers => hothers.unique h.toSpellsIn, ?_⟩
      rw [show (2 : ℕ) ^ 64 = readBound from rfl]
      rcases ofText_of_spells rfl hzero h with
        ⟨hrange, r, hr, hmillis⟩ | ⟨hrange, hr⟩
      · constructor
        · exact ⟨fun _ => hrange, fun _ => ⟨r, hr, hmillis⟩⟩
        · simp [hr, hrange]
      · constructor
        · simp [hr, hrange]
        · exact ⟨fun _ => hrange, fun _ => hr⟩
    · rintro hinvalid ⟨terms, h⟩
      rcases ofText_of_spells rfl hzero h with ⟨-, r, hr, -⟩ | ⟨-, hr⟩
      · simp [hr] at hinvalid
      · simp [hr] at hinvalid

end ContainerArgs.Retention
