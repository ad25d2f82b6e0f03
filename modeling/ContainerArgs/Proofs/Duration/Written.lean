import ContainerArgs.Proofs.Duration.Grammar
import ContainerArgs.Proofs.Number.Decimal

/-!
# The written form of a retention window

The text of a window spells terms of the notation whose sum is the window, so no
two windows share a text.
-/

namespace ContainerArgs.Retention

open Number

/-- The term with the text of a count as its digits. -/
def Term.ofNat (n : ℕ) (u : TimeUnit) : Term :=
  ⟨Nat.toDigits 10 n, u.symbol, u.millis⟩

@[simp] theorem Term.value_ofNat (n : ℕ) (u : TimeUnit) :
    (Term.ofNat n u).value = n * u.millis := by
  simp [Term.ofNat, Term.value]

theorem SpellsIn.cons_ofNat
    {us : List TimeUnit} {t : List Char} {terms : List Term}
    (h : SpellsIn (us.map TimeUnit.entry) t terms) (n : ℕ) (u : TimeUnit) :
    SpellsIn ((u :: us).map TimeUnit.entry)
      ((natText n ++ u.symbol).toList ++ t) (Term.ofNat n u :: terms) := by
  refine ⟨?_, h.ordered.cons_cons _, ?_⟩
  · intro x hx
    rcases List.mem_cons.mp hx with rfl | hx
    · exact ⟨Nat.toDigits_ne_nil, fun c hc => isDigit_of_mem_toDigits hc⟩
    · exact h.digits x hx
  · rw [List.flatMap_cons, ← h.text]
    simp [Term.ofNat, Term.chars]

/-- The characters of counts with their symbols. -/
def itemChars (is : List (ℕ × String)) : List Char :=
  is.flatMap fun i => (natText i.1 ++ i.2).toList

/-- A number of milliseconds is spelled when its counts spell terms with that
sum. -/
def IsSpelled (us : List TimeUnit) (millis : ℕ) : Prop :=
  ∃ terms, SpellsIn (us.map TimeUnit.entry) (itemChars (items us millis)) terms ∧
    total terms = millis

theorem isSpelled_nil :
    IsSpelled [] 0 :=
  ⟨[], ⟨by simp, by simp, rfl⟩, rfl⟩

theorem IsSpelled.skip
    {u : TimeUnit} {us : List TimeUnit} {millis : ℕ}
    (hskip : (u.exact = true ∧ millis % u.millis ≠ 0) ∨ millis / u.millis = 0)
    (h : IsSpelled us millis) :
    IsSpelled (u :: us) millis := by
  obtain ⟨terms, hspells, htotal⟩ := h
  refine ⟨terms, ?_, htotal⟩
  rw [items, if_pos hskip]
  exact ⟨hspells.digits, hspells.ordered.cons _, hspells.text⟩

theorem IsSpelled.count
    {u : TimeUnit} {us : List TimeUnit} {millis : ℕ}
    (hcount : ¬((u.exact = true ∧ millis % u.millis ≠ 0) ∨
      millis / u.millis = 0))
    (h : IsSpelled us (millis - millis / u.millis * u.millis)) :
    IsSpelled (u :: us) millis := by
  obtain ⟨terms, hspells, htotal⟩ := h
  refine ⟨Term.ofNat (millis / u.millis) u :: terms, ?_, ?_⟩
  · rw [items, if_neg hcount, itemChars, List.flatMap_cons]
    exact hspells.cons_ofNat _ u
  · have hle : millis / u.millis * u.millis ≤ millis :=
      Nat.div_mul_le_self millis u.millis
    rw [total, List.map_cons, List.sum_cons, Term.value_ofNat]
    rw [total] at htotal
    omega

/-- Units down to a millisecond spell every number of milliseconds. -/
theorem isSpelled_of_getLast?
    {us : List TimeUnit} {last : TimeUnit} (hlast : us.getLast? = some last)
    (hone : last.millis = 1) (millis : ℕ) :
    IsSpelled us millis := by
  induction us generalizing millis with
  | nil => simp at hlast
  | cons u us ih =>
      cases us with
      | nil =>
          obtain rfl : u = last := by simpa using hlast
          by_cases hzero : millis = 0
          · subst hzero
            exact isSpelled_nil.skip (Or.inr (Nat.zero_div _))
          · refine IsSpelled.count ?_ ?_
            · simp [hone, hzero, Nat.mod_one]
            · simpa [hone] using isSpelled_nil
      | cons v us =>
          rw [List.getLast?_cons_cons] at hlast
          by_cases hskip : (u.exact = true ∧ millis % u.millis ≠ 0) ∨
              millis / u.millis = 0
          · exact (ih hlast millis).skip hskip
          · exact (ih hlast _).count hskip

/-- The text of a window spells terms whose sum is the window. -/
theorem exists_spells_text (r : Retention) :
    ∃ terms, Spells r.text.toList terms ∧ total terms = r.millis := by
  rw [text]
  split
  next hzero =>
    refine ⟨[⟨['0'], "s", 1000⟩], ⟨⟨?_, ?_, ?_⟩, by simp⟩, ?_⟩
    · simp
    · decide
    · decide
    · rw [hzero]
      rfl
  next hzero =>
    have hlast : units.getLast? = some ⟨"ms", 1, false⟩ := rfl
    obtain ⟨terms, hspells, htotal⟩ :=
      isSpelled_of_getLast? hlast rfl r.millis
    rw [show units.map TimeUnit.entry = scale from scale_eq_map_units] at hspells
    refine ⟨terms, ⟨?_, ?_⟩, htotal⟩
    · rw [String.toList_join, List.flatMap_map]
      exact hspells
    · rintro rfl
      exact hzero htotal.symm

/-- Windows with the same text are equal. -/
theorem text_inj {r s : Retention} :
    r.text = s.text ↔ r = s := by
  constructor
  · intro h
    obtain ⟨terms, hspells, htotal⟩ := r.exists_spells_text
    obtain ⟨terms', hspells', htotal'⟩ := s.exists_spells_text
    rw [← h] at hspells'
    have hterms : terms = terms' := hspells.toSpellsIn.unique hspells'.toSpellsIn
    have hmillis : r.millis = s.millis := by
      rw [← htotal, ← htotal', hterms]
    cases r
    cases s
    simp_all
  · rintro rfl
    rfl

end ContainerArgs.Retention
