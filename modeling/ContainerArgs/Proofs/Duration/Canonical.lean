import ContainerArgs.Proofs.Duration.Written

/-!
# Texts of windows are canonical

Reading the text of a window gives the window back, up to the bound of what
texts can denote, and refuses it as out of range beyond.  So the text of a
window that was read stands for every text that denotes the same window.
-/

namespace ContainerArgs.Retention

theorem isBlank_of_mem_symbol :
    ∀ u ∈ scale, ∀ c ∈ u.1.toList, Text.isBlank c = false := by
  have hall : ∀ u ∈ scale, u.1.toList.all (!Text.isBlank ·) = true := by
    decide
  intro u hu
  simpa using hall u hu

/-! ## Texts of terms stand between no white space -/

theorem Spells.head_isDigit
    {t : List Char} {terms : List Term} (h : Spells t terms) :
    ∀ c ∈ t.head?, c.isDigit = true := by
  obtain ⟨x, xs, rfl⟩ := List.exists_cons_of_ne_nil h.ne_nil
  obtain ⟨hne, hdigits⟩ := h.digits x List.mem_cons_self
  intro c hc
  rw [h.text, List.flatMap_cons, Term.chars, List.append_assoc,
    List.head?_append_of_ne_nil _ hne] at hc
  exact hdigits c (List.mem_of_mem_head? hc)

/-- A text of terms ends in the symbol of a unit. -/
theorem Spells.last_mem_symbol
    {t : List Char} {terms : List Term} (h : Spells t terms) :
    ∀ c ∈ t.getLast?, ∃ u ∈ scale, c ∈ u.1.toList := by
  rcases List.eq_nil_or_concat terms with rfl | ⟨init, x, rfl⟩
  · exact (h.ne_nil rfl).elim
  · have hunit : x.unit ∈ scale := h.unit_mem (by simp)
    have hsymbol : x.symbol.toList ≠ [] := (isSymbol_of_mem_scale _ hunit).1
    intro c hc
    rw [h.text, List.concat_eq_append, List.flatMap_append,
      List.flatMap_singleton, Term.chars, ← List.append_assoc,
      List.getLast?_append_of_ne_nil _ hsymbol] at hc
    exact ⟨x.unit, hunit, List.mem_of_mem_getLast? hc⟩

theorem Spells.trim_eq
    {t : List Char} {terms : List Term} (h : Spells t terms) :
    Text.trim t = t := by
  refine Text.trim_eq_self (fun c hc => ?_) (fun c hc => ?_)
  · exact Text.isBlank_of_isDigit (h.head_isDigit c hc)
  · obtain ⟨u, hu, hmem⟩ := h.last_mem_symbol c hc
    exact isBlank_of_mem_symbol u hu c hmem

/-- A lone zero has no unit, so it is no text of terms. -/
theorem Spells.ne_lone_zero
    {t : List Char} {terms : List Term} (h : Spells t terms) :
    t ≠ ['0'] := by
  rintro rfl
  obtain ⟨u, hu, hmem⟩ := h.last_mem_symbol '0' rfl
  have houtside := (isSymbol_of_mem_scale u hu).2 '0' hmem
  exact absurd houtside (by decide)

/-! ## Reading what was written -/

/-- The text of a window is read as the window, if that is in range. -/
theorem ofText_text (r : Retention) :
    ofText r.text =
      if r.millis < readBound then .ok r
      else .error (.outOfRange r.text) := by
  obtain ⟨terms, hspells, htotal⟩ := r.exists_spells_text
  rcases ofText_of_spells hspells.trim_eq hspells.ne_lone_zero hspells with
    ⟨hrange, q, hq, hmillis⟩ | ⟨hrange, hq⟩
  · have heq : q = r := by
      cases q
      cases r
      simp_all
    rw [htotal] at hrange
    rw [hq, heq, if_pos hrange]
  · rw [htotal] at hrange
    rw [hq, if_neg (by omega), String.ofList_toList]

/-- Whatever text a window was read from, it is in range. -/
theorem millis_lt_of_ofText
    {s : String} {r : Retention} (h : ofText s = .ok r) :
    r.millis < readBound := by
  simp only [ofText] at h
  split at h
  next => simp at h
  next =>
    split at h
    next =>
      obtain rfl : zero = r := by simpa using h
      decide
    next =>
      split at h
      next => simp at h
      next counts =>
        split at h
        next => simp at h
        next millis =>
          split at h
          next => simp at h
          next =>
            split at h
            next hrange =>
              obtain rfl := Except.ok.inj h
              exact hrange
            next => simp at h

/-- A window that was read is read again from its text. -/
theorem ofText_text_of_ofText
    {s : String} {r : Retention} (h : ofText s = .ok r) :
    ofText r.text = .ok r := by
  rw [ofText_text, if_pos (millis_lt_of_ofText h)]

/-- Writing and reading are inverse exactly up to the bound of what texts can
denote: the text of any window, however it was made, is read as that window when
its milliseconds are below the bound, and is refused as out of range, with the
text, when they are not.  Hence the text of a window that was read from some
text is a canonical form of that text: it is read as the same window, which has
that text again, and two texts denote the same window exactly when their
canonical forms are the same. -/
theorem text_is_canonical_form :
    (∀ r : Retention,
      (ofText r.text = .ok r ↔ r.millis < 2 ^ 64) ∧
      (ofText r.text = .error (.outOfRange r.text) ↔ 2 ^ 64 ≤ r.millis)) ∧
    (∀ (s : String) (r : Retention), ofText s = .ok r →
      (∃ q, ofText r.text = .ok q ∧ q = r ∧ q.text = r.text) ∧
      ∀ (u : String) (q : Retention), ofText u = .ok q →
        (r = q ↔ r.text = q.text)) := by
  have hbound : readBound = 2 ^ 64 := rfl
  constructor
  · intro r
    rw [ofText_text, hbound]
    simp
  · intro s r hr
    exact ⟨⟨r, ofText_text_of_ofText hr, rfl, rfl⟩,
      fun u q _ => text_inj.symm⟩

end ContainerArgs.Retention
