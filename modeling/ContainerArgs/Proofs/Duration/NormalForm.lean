import ContainerArgs.Proofs.Duration.Written
import ContainerArgs.Proofs.Number.Hexadecimal

/-!
# The normal form of retention windows

The notation has many texts for one window, of which writing picks one. Years
and weeks stand alone, and only where they divide the window exactly; else days
and smaller units are counted, each as far as it fits. Such counts represent a
number of milliseconds in one way only, so the form determines the text.
-/

namespace ContainerArgs.Retention

open Number

def dayMillis : ℕ := 24 * 60 * 60 * 1000

def Term.count (x : Term) : ℕ :=
  digitsValue x.digits

/-- A term counts at least one, in digits without leading zeros. -/
structure Term.IsPlain (x : Term) : Prop where
  pos : 0 < x.count
  digits : ∀ c ∈ x.digits, c.isDigit = true
  no_leading : x.digits.head? ≠ some '0'

/-- How many of a unit make up one of the next greater unit, for the units below
the day. -/
def limits : List (String × ℕ) :=
  [("h", 24), ("m", 60), ("s", 60), ("ms", 1000)]

/-- Terms with some of the given units in their order, each with a count below
the limit of its unit. -/
structure IsMixed (us : List (String × ℕ)) (terms : List Term) : Prop where
  ordered : (terms.map Term.unit).Sublist us
  bounded : ∀ x ∈ terms, ∀ b ∈ limits.lookup x.symbol, x.count < b

/-- A text of terms that stand for a number of milliseconds in normal form. -/
structure IsNormalForm (millis : ℕ) (t : List Char) (terms : List Term) : Prop
    extends Spells t terms where
  sum : total terms = millis
  zero : millis = 0 → terms = [⟨['0'], "s", 1000⟩]
  plain : 0 < millis → ∀ x ∈ terms, x.IsPlain
  years : 0 < millis → 365 * dayMillis ∣ millis →
    terms.map Term.symbol = ["y"]
  weeks : ¬365 * dayMillis ∣ millis → 7 * dayMillis ∣ millis →
    terms.map Term.symbol = ["w"]
  finer : ¬365 * dayMillis ∣ millis → ¬7 * dayMillis ∣ millis →
    IsMixed (scale.drop 2) terms

/-! ## Counts represent a number in one way -/

/-- A unit is made up of so many of another as the limit of that says. -/
def Splits (u v : String × ℕ) : Prop :=
  ∃ b ∈ limits.lookup v.1, u.2 = b * v.2

theorem splits_finer :
    (scale.drop 2).IsChain Splits := by
  have hsplits : ∀ {u v : String × ℕ} (b : ℕ), limits.lookup v.1 = some b →
      u.2 = b * v.2 → Splits u v := fun b hb hu => ⟨b, hb, hu⟩
  exact .cons_cons (hsplits 24 rfl rfl) <| .cons_cons (hsplits 60 rfl rfl) <|
    .cons_cons (hsplits 60 rfl rfl) <| .cons_cons (hsplits 1000 rfl rfl) <|
    .singleton _

theorem total_cons (x : Term) (xs : List Term) :
    total (x :: xs) = x.count * x.millis + total xs :=
  List.sum_cons

theorem IsMixed.cons_cases
    {u : String × ℕ} {us : List (String × ℕ)} {terms : List Term}
    (h : IsMixed (u :: us) terms) :
    IsMixed us terms ∨
      ∃ x rest, terms = x :: rest ∧ x.unit = u ∧ IsMixed us rest := by
  rcases List.sublist_cons_iff.mp h.ordered with hskip | ⟨rest, heq, hrest⟩
  · exact Or.inl ⟨hskip, h.bounded⟩
  · obtain ⟨x, xs, rfl, hx, rfl⟩ := List.map_eq_cons_iff.mp heq
    refine Or.inr ⟨x, xs, rfl, hx, hrest, ?_⟩
    intro y hy
    exact h.bounded y (List.mem_cons_of_mem _ hy)

/-- Counts of the units below a unit never make up one of it. -/
theorem IsMixed.total_lt
    {u : String × ℕ} {us : List (String × ℕ)} {terms : List Term}
    (h : IsMixed us terms) (hchain : (u :: us).IsChain Splits)
    (hpos : 0 < u.2) :
    total terms < u.2 := by
  induction us generalizing u terms with
  | nil =>
      obtain rfl : terms = [] := by simpa using h.ordered
      exact hpos
  | cons v us ih =>
      obtain ⟨⟨b, hb, hub⟩, hchain⟩ := List.isChain_cons_cons.mp hchain
      obtain ⟨hbpos, hv⟩ : 0 < b ∧ 0 < v.2 :=
        CanonicallyOrderedAdd.mul_pos.mp (hub ▸ hpos)
      rcases h.cons_cases with hskip | ⟨x, rest, rfl, rfl, hrest⟩
      · calc total terms < v.2 := ih hskip hchain hv
          _ ≤ b * v.2 := Nat.le_mul_of_pos_left _ hbpos
          _ = u.2 := hub.symm
      · have hcount : x.count < b := h.bounded x List.mem_cons_self b hb
        calc total (x :: rest) = x.count * x.millis + total rest :=
              total_cons x rest
          _ < x.count * x.millis + x.millis :=
              Nat.add_lt_add_left (ih hrest hchain hv) _
          _ = (x.count + 1) * x.millis := (Nat.succ_mul _ _).symm
          _ ≤ b * x.millis := Nat.mul_le_mul_right _ hcount
          _ = u.2 := hub.symm

theorem Term.IsPlain.toDigits_count {x : Term} (h : x.IsPlain) :
    Nat.toDigits 10 x.count = x.digits := by
  apply toDigits_digitsValue h.digits
  · intro hnil
    have hpos := h.pos
    rw [count, hnil] at hpos
    exact Nat.lt_irrefl 0 hpos
  · exact h.no_leading

/-- Plain terms are determined by their counts and units. -/
theorem Term.IsPlain.eq_of_count_eq
    {x y : Term} (hx : x.IsPlain) (hy : y.IsPlain) (hunit : x.unit = y.unit)
    (hcount : x.count = y.count) :
    x = y := by
  have hdigits : x.digits = y.digits := by
    rw [← hx.toDigits_count, ← hy.toDigits_count, hcount]
  obtain ⟨hsymbol, hmillis⟩ := Prod.ext_iff.mp hunit
  cases x
  cases y
  simp_all [unit]

/-- A number is the sum of mixed terms in one way only. -/
theorem IsMixed.unique
    {us : List (String × ℕ)} {xs ys : List Term} (hxs : IsMixed us xs)
    (hys : IsMixed us ys) (hchain : us.IsChain Splits)
    (hpos : ∀ u ∈ us, 0 < u.2) (hxplain : ∀ x ∈ xs, x.IsPlain)
    (hyplain : ∀ y ∈ ys, y.IsPlain) (htotal : total xs = total ys) :
    xs = ys := by
  induction us generalizing xs ys with
  | nil =>
      obtain rfl : xs = [] := by simpa using hxs.ordered
      obtain rfl : ys = [] := by simpa using hys.ordered
      rfl
  | cons u us ih =>
      have hu : 0 < u.2 := hpos u List.mem_cons_self
      have hpos' : ∀ v ∈ us, 0 < v.2 := fun v hv =>
        hpos v (List.mem_cons_of_mem _ hv)
      -- A sum with a count of the unit is too large for one without it.
      have hlarge : ∀ {x : Term} {rest zs : List Term}, x.unit = u →
          x.IsPlain → IsMixed us zs → total (x :: rest) ≠ total zs := by
        intro x rest zs hxu hx hzs heq
        have hlt := hzs.total_lt hchain hu
        rw [← heq, total_cons, ← hxu] at hlt
        have hle : x.millis ≤ x.count * x.millis :=
          Nat.le_mul_of_pos_left _ hx.pos
        exact absurd hlt (Nat.not_lt.mpr (Nat.le_add_right_of_le hle))
      rcases hxs.cons_cases with hxskip | ⟨x, xs, rfl, hxu, hxrest⟩
      · rcases hys.cons_cases with hyskip | ⟨y, ys, rfl, hyu, hyrest⟩
        · exact ih hxskip hyskip hchain.tail hpos' hxplain hyplain htotal
        · have hy := hyplain y List.mem_cons_self
          exact absurd htotal.symm (hlarge hyu hy hxskip)
      · have hx := hxplain x List.mem_cons_self
        rcases hys.cons_cases with hyskip | ⟨y, ys, rfl, hyu, hyrest⟩
        · exact absurd htotal (hlarge hxu hx hyskip)
        · have hy := hyplain y List.mem_cons_self
          have hunit : x.unit = y.unit := hxu.trans hyu.symm
          have hxmillis : x.millis = u.2 := congrArg Prod.snd hxu
          have hymillis : y.millis = u.2 := congrArg Prod.snd hyu
          have hxlt := hxrest.total_lt hchain hu
          have hylt := hyrest.total_lt hchain hu
          rw [total_cons, total_cons, hxmillis, hymillis] at htotal
          have hcount : x.count = y.count := by
            have hdiv := congrArg (· / u.2) htotal
            simpa [Nat.mul_comm _ u.2, Nat.mul_add_div hu,
              Nat.div_eq_of_lt hxlt, Nat.div_eq_of_lt hylt] using hdiv
          obtain rfl := hx.eq_of_count_eq hy hunit hcount
          rw [ih hxrest hyrest hchain.tail hpos'
            (fun z hz => hxplain z (List.mem_cons_of_mem _ hz))
            (fun z hz => hyplain z (List.mem_cons_of_mem _ hz))
            (Nat.add_left_cancel htotal)]

/-! ## What is counted -/

theorem items_cons_skip
    {u : TimeUnit} {millis : ℕ}
    (h : (u.exact = true ∧ millis % u.millis ≠ 0) ∨ millis / u.millis = 0)
    (us : List TimeUnit) :
    items (u :: us) millis = items us millis := by
  rw [items, if_pos h]

theorem items_cons_count
    {u : TimeUnit} {millis : ℕ}
    (h : ¬((u.exact = true ∧ millis % u.millis ≠ 0) ∨ millis / u.millis = 0))
    (us : List TimeUnit) :
    items (u :: us) millis =
      (millis / u.millis, u.symbol) ::
        items us (millis - millis / u.millis * u.millis) := by
  rw [items, if_neg h]

theorem items_zero (us : List TimeUnit) :
    items us 0 = [] := by
  induction us with
  | nil => rfl
  | cons u us ih => rw [items_cons_skip (Or.inr (Nat.zero_div _)), ih]

/-- A unit that divides a number exactly takes all of it. -/
theorem items_cons_of_dvd
    {u : TimeUnit} {millis : ℕ} (hpos : 0 < millis) (hdvd : u.millis ∣ millis)
    (us : List TimeUnit) :
    items (u :: us) millis = [(millis / u.millis, u.symbol)] := by
  have hcount : millis / u.millis ≠ 0 := by
    intro hzero
    have hmul := Nat.div_mul_cancel hdvd
    rw [hzero, Nat.zero_mul] at hmul
    exact Nat.ne_of_gt hpos hmul.symm
  rw [items_cons_count, Nat.div_mul_cancel hdvd, Nat.sub_self, items_zero]
  rintro (⟨-, hmod⟩ | hzero)
  · exact hmod (Nat.mod_eq_zero_of_dvd hdvd)
  · exact hcount hzero

theorem items_cons_of_not_dvd
    {u : TimeUnit} {millis : ℕ} (hexact : u.exact = true)
    (hdvd : ¬u.millis ∣ millis) (us : List TimeUnit) :
    items (u :: us) millis = items us millis := by
  apply items_cons_skip
  refine Or.inl ⟨hexact, ?_⟩
  intro hmod
  exact hdvd (Nat.dvd_of_mod_eq_zero hmod)

theorem items_units_of_years
    {millis : ℕ} (hpos : 0 < millis) (h : 365 * dayMillis ∣ millis) :
    items units millis = [(millis / (365 * dayMillis), "y")] :=
  items_cons_of_dvd hpos h _

theorem items_units_of_weeks
    {millis : ℕ} (hyear : ¬365 * dayMillis ∣ millis)
    (h : 7 * dayMillis ∣ millis) :
    items units millis = [(millis / (7 * dayMillis), "w")] := by
  have hpos : 0 < millis := by
    apply Nat.pos_of_ne_zero
    rintro rfl
    exact hyear (dvd_zero _)
  calc items units millis = items (units.drop 1) millis :=
        items_cons_of_not_dvd rfl hyear _
    _ = [(millis / (7 * dayMillis), "w")] := items_cons_of_dvd hpos h _

theorem items_units_of_finer
    {millis : ℕ} (hyear : ¬365 * dayMillis ∣ millis)
    (hweek : ¬7 * dayMillis ∣ millis) :
    items units millis = items (units.drop 2) millis :=
  calc items units millis = items (units.drop 1) millis :=
        items_cons_of_not_dvd rfl hyear _
    _ = items (units.drop 2) millis := items_cons_of_not_dvd rfl hweek _

/-- Every item is a positive count of one of the units. -/
theorem exists_unit_of_mem_items
    {us : List TimeUnit} {millis : ℕ} {i : ℕ × String}
    (hi : i ∈ items us millis) :
    0 < i.1 ∧ ∃ u ∈ us, u.symbol = i.2 := by
  induction us generalizing millis with
  | nil => simp [items] at hi
  | cons u us ih =>
      have hlater : ∀ {rest : ℕ}, i ∈ items us rest →
          0 < i.1 ∧ ∃ v ∈ u :: us, v.symbol = i.2 := by
        intro rest hi
        obtain ⟨hpos, v, hv, hsymbol⟩ := ih hi
        exact ⟨hpos, v, List.mem_cons_of_mem _ hv, hsymbol⟩
      by_cases hskip : (u.exact = true ∧ millis % u.millis ≠ 0) ∨
          millis / u.millis = 0
      · rw [items_cons_skip hskip] at hi
        exact hlater hi
      · rw [items_cons_count hskip] at hi
        rcases List.mem_cons.mp hi with rfl | hi
        · refine ⟨?_, u, List.mem_cons_self, rfl⟩
          exact Nat.pos_of_ne_zero fun hzero => hskip (Or.inr hzero)
        · exact hlater hi

/-- What a unit leaves is below the unit, so that no count after it reaches the
limit that it sets. -/
theorem count_lt_of_mem_items
    {u : TimeUnit} {us : List TimeUnit}
    (hchain : ((u :: us).map TimeUnit.entry).IsChain Splits)
    (hexact : ∀ v ∈ us, v.exact = false) {millis : ℕ}
    (hlt : millis < u.millis) {i : ℕ × String} (hi : i ∈ items us millis) :
    ∀ b ∈ limits.lookup i.2, i.1 < b := by
  induction us generalizing u millis with
  | nil => simp [items] at hi
  | cons v us ih =>
      obtain ⟨⟨b, hb, hub⟩, hchain⟩ := List.isChain_cons_cons.mp hchain
      have hub : u.millis = b * v.millis := hub
      have hv : 0 < v.millis := by
        apply Nat.pos_of_ne_zero
        intro hzero
        rw [hub, hzero, Nat.mul_zero] at hlt
        exact Nat.not_lt_zero _ hlt
      have hexact' : ∀ w ∈ us, w.exact = false := fun w hw =>
        hexact w (List.mem_cons_of_mem _ hw)
      by_cases hskip : (v.exact = true ∧ millis % v.millis ≠ 0) ∨
          millis / v.millis = 0
      · rw [items_cons_skip hskip] at hi
        rcases hskip with ⟨htrue, -⟩ | hzero
        · rw [hexact v List.mem_cons_self] at htrue
          exact absurd htrue Bool.false_ne_true
        · have hrest : millis < v.millis :=
            (Nat.div_eq_zero_iff_lt hv).mp hzero
          exact ih hchain hexact' hrest hi
      · rw [items_cons_count hskip, ← Nat.mod_eq_sub_div_mul] at hi
        rcases List.mem_cons.mp hi with rfl | hi
        · intro b' hb'
          obtain rfl : b = b' := Option.some.inj (hb.symm.trans hb')
          exact (Nat.div_lt_iff_lt_mul hv).mpr (hub ▸ hlt)
        · exact ih hchain hexact' (Nat.mod_lt _ hv) hi

/-- Days have no limit, and leave less than a day. -/
theorem count_lt_of_mem_finer
    {millis : ℕ} {i : ℕ × String} (hi : i ∈ items (units.drop 2) millis) :
    ∀ b ∈ limits.lookup i.2, i.1 < b := by
  have hchain : ((units.drop 2).map TimeUnit.entry).IsChain Splits :=
    splits_finer
  have hexact : ∀ v ∈ units.drop 3, v.exact = false := by decide
  have hfiner : units.drop 2 = ⟨"d", 86400000, false⟩ :: units.drop 3 := rfl
  by_cases hday : millis / 86400000 = 0
  · have hlt : millis < 86400000 := (Nat.div_eq_zero_iff_lt (by decide)).mp hday
    rw [hfiner, items_cons_skip (Or.inr hday)] at hi
    exact count_lt_of_mem_items hchain hexact hlt hi
  · have hlt : millis % 86400000 < 86400000 := Nat.mod_lt _ (by decide)
    rw [hfiner, items_cons_count (by simp [hday]), ← Nat.mod_eq_sub_div_mul]
      at hi
    rcases List.mem_cons.mp hi with rfl | hi
    · intro b hb
      have hnone : limits.lookup "d" = none := rfl
      rw [hnone] at hb
      cases hb
    · exact count_lt_of_mem_items hchain hexact hlt hi

/-- Counting with a subtraction that fails where more is taken than there is
left. -/
def items? : List TimeUnit → ℕ → Option (List (ℕ × String))
  | [], _ => some []
  | u :: us, millis =>
    let count := millis / u.millis
    if (u.exact ∧ millis % u.millis ≠ 0) ∨ count = 0 then items? us millis
    else if millis < count * u.millis then none
    else (items? us (millis - count * u.millis)).map ((count, u.symbol) :: ·)

theorem items?_eq_some (us : List TimeUnit) (millis : ℕ) :
    items? us millis = some (items us millis) := by
  induction us generalizing millis with
  | nil => rfl
  | cons u us ih =>
      have hle : ¬millis < millis / u.millis * u.millis :=
        Nat.not_lt.mpr (Nat.div_mul_le_self _ _)
      rw [items?, items]
      split
      next => exact ih millis
      next => simp only [ih, Option.map_some]

/-! ## The text is in normal form -/

section Items

variable {us : List TimeUnit} {millis : ℕ} {terms : List Term}

/-- The terms that a text of items spells are the items. -/
theorem SpellsIn.map_eq_of_items
    (h : SpellsIn scale (itemChars (items us millis)) terms)
    (hus : us ⊆ units) :
    terms.map (fun x => (x.digits, x.symbol)) =
      (items us millis).map fun i => (Nat.toDigits 10 i.1, i.2) := by
  have hruns : ∀ x ∈ (items us millis).map fun i =>
      (Nat.toDigits 10 i.1, i.2.toList), Text.IsRun Char.isDigit x := by
    intro x hx
    obtain ⟨i, hi, rfl⟩ := List.mem_map.mp hx
    obtain ⟨-, u, hu, hsymbol⟩ := exists_unit_of_mem_items hi
    have hentry : (u.symbol, u.millis) ∈ scale :=
      scale_eq_map_units ▸ List.mem_map_of_mem (hus hu)
    have hletters : IsSymbol i.2 := hsymbol ▸ isSymbol_of_mem_scale _ hentry
    exact ⟨Nat.toDigits_ne_nil, fun c hc => isDigit_of_mem_toDigits hc,
      hletters.1, hletters.2⟩
  have htext : Text.ofRuns (terms.map Term.runs) =
      Text.ofRuns ((items us millis).map fun i =>
        (Nat.toDigits 10 i.1, i.2.toList)) := by
    rw [← h.text_eq_ofRuns, itemChars, Text.ofRuns, List.flatMap_map]
    simp
  have hinj : Function.Injective
      fun x : List Char × String => (x.1, x.2.toList) := by
    intro x y hxy
    obtain ⟨hdigits, hsymbol⟩ := Prod.ext_iff.mp hxy
    exact Prod.ext hdigits (String.toList_inj.mp hsymbol)
  apply List.map_injective_iff.mpr hinj
  rw [List.map_map, List.map_map]
  exact Text.ofRuns_injective h.isRun hruns htext

theorem SpellsIn.map_symbol_of_items
    (h : SpellsIn scale (itemChars (items us millis)) terms)
    (hus : us ⊆ units) :
    terms.map Term.symbol = (items us millis).map Prod.snd := by
  have hmap := congrArg (List.map Prod.snd) (h.map_eq_of_items hus)
  rw [List.map_map, List.map_map] at hmap
  exact hmap

theorem SpellsIn.exists_item
    (h : SpellsIn scale (itemChars (items us millis)) terms)
    (hus : us ⊆ units) {x : Term} (hx : x ∈ terms) :
    ∃ i ∈ items us millis,
      x.digits = Nat.toDigits 10 i.1 ∧ x.symbol = i.2 ∧ x.count = i.1 := by
  have hmem : (x.digits, x.symbol) ∈
      terms.map fun y => (y.digits, y.symbol) := List.mem_map_of_mem hx
  rw [h.map_eq_of_items hus] at hmem
  obtain ⟨i, hi, heq⟩ := List.mem_map.mp hmem
  obtain ⟨hdigits, hsymbol⟩ := Prod.mk.inj heq
  refine ⟨i, hi, hdigits.symm, hsymbol.symm, ?_⟩
  rw [Term.count, ← hdigits, digitsValue_toDigits]

theorem SpellsIn.isPlain_of_items
    (h : SpellsIn scale (itemChars (items us millis)) terms)
    (hus : us ⊆ units) {x : Term} (hx : x ∈ terms) :
    x.IsPlain := by
  obtain ⟨i, hi, hdigits, -, hcount⟩ := h.exists_item hus hx
  have hpos : 0 < i.1 := (exists_unit_of_mem_items hi).1
  refine ⟨hcount ▸ hpos, ?_, ?_⟩
  · rw [hdigits]
    intro c hc
    exact isDigit_of_mem_toDigits hc
  · rw [hdigits]
    exact head?_toDigits_ne_zero (by decide) (Nat.ne_of_gt hpos)

theorem SpellsIn.isMixed_of_items
    (h : SpellsIn scale (itemChars (items (units.drop 2) millis)) terms) :
    IsMixed (scale.drop 2) terms := by
  have hfiner : (units.drop 2).map TimeUnit.entry = scale.drop 2 := by decide
  have hlast : (units.drop 2).getLast? = some ⟨"ms", 1, false⟩ := rfl
  obtain ⟨terms', hspells, -⟩ := isSpelled_of_getLast? hlast rfl millis
  rw [hfiner] at hspells
  have hscale : SpellsIn scale (itemChars (items (units.drop 2) millis)) terms' :=
    ⟨hspells.digits, hspells.ordered.trans (List.drop_sublist 2 scale),
      hspells.text⟩
  obtain rfl := h.unique hscale
  refine ⟨hspells.ordered, ?_⟩
  intro x hx b hb
  obtain ⟨i, hi, -, hsymbol, hcount⟩ :=
    h.exists_item (List.drop_subset 2 units) hx
  rw [hcount]
  exact count_lt_of_mem_finer hi b (hsymbol ▸ hb)

end Items

theorem spells_zero :
    Spells ['0', 's'] [⟨['0'], "s", 1000⟩] := by
  refine ⟨⟨?_, ?_, rfl⟩, List.cons_ne_nil _ _⟩
  · simp
  · decide

theorem exists_isNormalForm_text (r : Retention) :
    ∃ terms, IsNormalForm r.millis r.text.toList terms := by
  obtain ⟨terms, hspells, htotal⟩ := r.exists_spells_text
  refine ⟨terms, ?_⟩
  by_cases hzero : r.millis = 0
  · have htext : r.text.toList = ['0', 's'] := by
      rw [text, if_pos hzero]
      rfl
    have hterms : terms = [⟨['0'], "s", 1000⟩] :=
      hspells.toSpellsIn.unique (htext ▸ spells_zero.toSpellsIn)
    have hnotpos : ¬0 < r.millis := hzero ▸ Nat.lt_irrefl 0
    have hyear : 365 * dayMillis ∣ r.millis := hzero ▸ dvd_zero _
    exact ⟨hspells, htotal, fun _ => hterms, fun h => absurd h hnotpos,
      fun h => absurd h hnotpos, fun h => absurd hyear h,
      fun h => absurd hyear h⟩
  · have hpos : 0 < r.millis := Nat.pos_of_ne_zero hzero
    have htext : r.text.toList = itemChars (items units r.millis) := by
      rw [text, if_neg hzero, String.toList_join, List.flatMap_map]
      rfl
    have hitems : SpellsIn scale (itemChars (items units r.millis)) terms :=
      htext ▸ hspells.toSpellsIn
    have hus : units ⊆ units := List.Subset.refl units
    refine ⟨hspells, htotal, fun h => absurd h hzero, ?_, ?_, ?_, ?_⟩
    · intro _ x hx
      exact hitems.isPlain_of_items hus hx
    · intro _ hyear
      rw [hitems.map_symbol_of_items hus, items_units_of_years hpos hyear]
      rfl
    · intro hyear hweek
      rw [hitems.map_symbol_of_items hus, items_units_of_weeks hyear hweek]
      rfl
    · intro hyear hweek
      rw [items_units_of_finer hyear hweek] at hitems
      exact hitems.isMixed_of_items

/-! ## No other text is in normal form -/

/-- A term that stands alone is determined by its unit and its milliseconds. -/
theorem eq_of_map_symbol_singleton
    {xs ys : List Term} {symbol : String} (hxs : xs.map Term.symbol = [symbol])
    (hys : ys.map Term.symbol = [symbol])
    (hxunits : ∀ x ∈ xs, x.unit ∈ scale) (hyunits : ∀ y ∈ ys, y.unit ∈ scale)
    (hxplain : ∀ x ∈ xs, x.IsPlain) (hyplain : ∀ y ∈ ys, y.IsPlain)
    (htotal : total xs = total ys) :
    xs = ys := by
  obtain ⟨x, rfl, hx⟩ := List.map_eq_singleton_iff.mp hxs
  obtain ⟨y, rfl, hy⟩ := List.map_eq_singleton_iff.mp hys
  have hunit : x.unit = y.unit := by
    apply symbol_injective_on_scale
    · exact hxunits x List.mem_cons_self
    · exact hyunits y List.mem_cons_self
    · exact hx.trans hy.symm
  have hmillis : x.millis = y.millis := congrArg Prod.snd hunit
  have hpos : 0 < x.millis :=
    pos_of_mem_scale _ (hxunits x List.mem_cons_self)
  have hcount : x.count = y.count := by
    rw [total_cons, total_cons, hmillis] at htotal
    exact Nat.eq_of_mul_eq_mul_right (hmillis ▸ hpos)
      (Nat.add_right_cancel htotal)
  rw [(hxplain x List.mem_cons_self).eq_of_count_eq
    (hyplain y List.mem_cons_self) hunit hcount]

theorem IsNormalForm.unique
    {millis : ℕ} {t u : List Char} {xs ys : List Term}
    (hx : IsNormalForm millis t xs) (hy : IsNormalForm millis u ys) :
    xs = ys := by
  have htotal : total xs = total ys := hx.sum.trans hy.sum.symm
  have hxunits : ∀ x ∈ xs, x.unit ∈ scale := fun x h => hx.unit_mem h
  have hyunits : ∀ y ∈ ys, y.unit ∈ scale := fun y h => hy.unit_mem h
  rcases Nat.eq_zero_or_pos millis with hzero | hpos
  · rw [hx.zero hzero, hy.zero hzero]
  · have hxplain := hx.plain hpos
    have hyplain := hy.plain hpos
    by_cases hyear : 365 * dayMillis ∣ millis
    · exact eq_of_map_symbol_singleton (hx.years hpos hyear)
        (hy.years hpos hyear) hxunits hyunits hxplain hyplain htotal
    · by_cases hweek : 7 * dayMillis ∣ millis
      · exact eq_of_map_symbol_singleton (hx.weeks hyear hweek)
          (hy.weeks hyear hweek) hxunits hyunits hxplain hyplain htotal
      · have hpositive : ∀ v ∈ scale.drop 2, 0 < v.2 := fun v hv =>
          pos_of_mem_scale v (List.mem_of_mem_drop hv)
        exact (hx.finer hyear hweek).unique (hy.finer hyear hweek)
          splits_finer hpositive hxplain hyplain htotal

/-- Writing picks the one text that stands for a window in normal form, for
windows of any length: `0s` for no time, else years alone if they divide the
window, else weeks alone if these do, and else counts of days, hours, minutes,
seconds and milliseconds, in this order, each positive, without leading zeros
and below what makes up one of the next greater unit; and the counts add up to
the window. No subtraction on the way takes more than there is left. So no two
windows share a text, and to be zero, to equal no time and to be written `0s`
are the same. -/
theorem text_is_only_normal_form :
    (∀ (r : Retention) (t : String),
      t = r.text ↔ ∃ terms, IsNormalForm r.millis t.toList terms) ∧
    (∀ r : Retention, items? units r.millis = some (items units r.millis)) ∧
    (∀ r s : Retention, r.text = s.text ↔ r = s) ∧
    (∀ r : Retention,
      (r.isZero = true ↔ r = zero) ∧ (r = zero ↔ r.text = "0s")) := by
  refine ⟨?_, fun r => items?_eq_some units r.millis, fun r s => text_inj, ?_⟩
  · intro r t
    obtain ⟨terms, hnormal⟩ := r.exists_isNormalForm_text
    constructor
    · rintro rfl
      exact ⟨terms, hnormal⟩
    · rintro ⟨terms', hnormal'⟩
      apply String.toList_inj.mp
      rw [hnormal'.text, hnormal.text, hnormal'.unique hnormal]
  · intro r
    constructor
    · rw [isZero, beq_iff_eq]
      constructor
      · intro hmillis
        cases r
        cases hmillis
        rfl
      · rintro rfl
        rfl
    · exact text_inj.symm

example :
    text ⟨31536000000 + 1, by decide⟩ = "365d1ms" := by
  decide +kernel

end ContainerArgs.Retention
