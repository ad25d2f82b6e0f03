import ContainerArgs.Text.Blank
import Mathlib.Data.List.TakeWhile

/-!
# What trimming removes

Trimming a text takes white space, and nothing else, off its two ends, and
leaves no white space at either.
-/

namespace ContainerArgs.Text

theorem isBlank_of_isDigit {c : Char} (h : c.isDigit = true) :
    isBlank c = false := by
  have hcode : 48 ≤ c.toNat ∧ c.toNat ≤ 57 := by
    simpa [Char.isDigit, UInt32.le_iff_toNat_le] using h
  simp only [isBlank, isBlankCode]
  grind

/-- Trimming the end of a text splits off white space that follows a text
without any at its end. -/
theorem exists_trimEnd_append (cs : List Char) :
    ∃ after, cs = trimEnd cs ++ after ∧ (∀ c ∈ after, isBlank c = true) ∧
      ∀ c ∈ (trimEnd cs).getLast?, isBlank c = false := by
  induction cs with
  | nil => exact ⟨[], by simp [trimEnd]⟩
  | cons c cs ih =>
      obtain ⟨after, hsplit, hafter, hlast⟩ := ih
      cases hrest : trimEnd cs with
      | nil =>
          rw [hrest, List.nil_append] at hsplit
          by_cases hc : isBlank c = true
          · refine ⟨c :: after, ?_, ?_, ?_⟩
            · simp [trimEnd, hrest, hc, ← hsplit]
            · simpa [hc] using hafter
            · simp [trimEnd, hrest, hc]
          · refine ⟨after, ?_, hafter, ?_⟩
            · simp [trimEnd, hrest, hc, ← hsplit]
            · simp [trimEnd, hrest, hc]
      | cons d ds =>
          rw [hrest] at hsplit hlast
          refine ⟨after, ?_, hafter, ?_⟩
          · simpa [trimEnd, hrest] using hsplit
          · simpa [trimEnd, hrest] using hlast

/-- A text is what trimming leaves, between white space. -/
structure IsTrimOf (t cs : List Char) : Prop where
  between : ∃ before after, cs = before ++ t ++ after ∧
    (∀ c ∈ before, isBlank c = true) ∧ ∀ c ∈ after, isBlank c = true
  head : ∀ c ∈ t.head?, isBlank c = false
  last : ∀ c ∈ t.getLast?, isBlank c = false

theorem isTrimOf_trim (cs : List Char) :
    IsTrimOf (trim cs) cs := by
  obtain ⟨after, hsplit, hafter, hlast⟩ :=
    exists_trimEnd_append (cs.dropWhile isBlank)
  have hcs : cs = cs.takeWhile isBlank ++ trim cs ++ after := by
    rw [trim, List.append_assoc, ← hsplit, List.takeWhile_append_dropWhile]
  refine ⟨⟨_, _, hcs, ?_, hafter⟩, ?_, hlast⟩
  · intro c hc
    exact List.mem_takeWhile_imp hc
  · intro c hc
    have hhead : c ∈ (cs.dropWhile isBlank).head? := by
      rw [hsplit, List.head?_append]
      exact Option.or_eq_some_iff.mpr (Or.inl hc)
    have hstop := List.head?_dropWhile_not isBlank cs
    rw [Option.mem_def.mp hhead] at hstop
    simpa using hstop

theorem trimEnd_eq_self
    {cs : List Char} (hlast : ∀ c ∈ cs.getLast?, isBlank c = false) :
    trimEnd cs = cs := by
  obtain ⟨after, hsplit, hafter, -⟩ := exists_trimEnd_append cs
  rcases List.eq_nil_or_concat after with rfl | ⟨init, c, rfl⟩
  · simpa using hsplit.symm
  · have hblank : isBlank c = true := hafter c (by simp)
    have hstop : isBlank c = false := hlast c (by rw [hsplit]; simp)
    simp [hblank] at hstop

/-- A text with no white space at either end is left as it is. -/
theorem trim_eq_self
    {cs : List Char} (hhead : ∀ c ∈ cs.head?, isBlank c = false)
    (hlast : ∀ c ∈ cs.getLast?, isBlank c = false) :
    trim cs = cs := by
  have hdrop : cs.dropWhile isBlank = cs := by
    cases cs with
    | nil => rfl
    | cons c cs => simp [hhead c rfl]
  rw [trim, hdrop, trimEnd_eq_self hlast]

end ContainerArgs.Text
