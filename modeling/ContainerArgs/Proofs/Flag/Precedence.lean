import ContainerArgs.Flag.Encode
import Mathlib.Data.List.Forall2
import Mathlib.Data.Nat.Find

/-!
# Which field speaks for an option

Encoding threads the names claimed so far through the fields.  This module
describes the outcome without that state: a field is effective when it would
render something on its own, and the first effective field of each name, and no
other, contributes its tokens.
-/

namespace ContainerArgs.Flag

namespace Field

/-- The name of the option that the tag of a field gives. -/
def optionName? (f : Field) : Option String :=
  f.tag.map fun raw => (Tag.parse raw).name

/-- The arguments of a field's value under the field's own tag, whatever the
other fields are. -/
def ownArguments (f : Field) : List Argument :=
  match f.tag with
  | none => []
  | some raw => (f.value.render (Tag.parse raw) .plain).arguments

/-- These arguments as tokens, with the hyphens and the name of the tag. -/
def ownTokens (f : Field) : List String :=
  match f.tag with
  | none => []
  | some raw =>
    f.ownArguments.map
      (Argument.token (Tag.parse raw).hyphens (Tag.parse raw).name)

/-- A field is named when it is exported and its tag gives a name. -/
def IsNamed (f : Field) : Prop :=
  f.exported = true ∧ ∃ name ∈ f.optionName?, name ≠ ""

instance (f : Field) : Decidable f.IsNamed :=
  inferInstanceAs (Decidable (_ ∧ _))

/-- A field is effective when it is named and its value renders at least one
argument under its own tag. -/
def IsEffective (f : Field) : Prop :=
  f.IsNamed ∧ f.ownArguments ≠ []

instance (f : Field) : Decidable f.IsEffective :=
  inferInstanceAs (Decidable (_ ∧ _))

theorem ownTokens_eq_nil_iff (f : Field) :
    f.ownTokens = [] ↔ f.ownArguments = [] := by
  cases h : f.tag with
  | none => simp [ownTokens, ownArguments, h]
  | some raw => simp [ownTokens, h]

/-- A field whose value is zero shows nothing, and so claims no name. -/
theorem not_isEffective_of_isZero {f : Field} (h : f.value.isZero = true) :
    ¬f.IsEffective := by
  rintro ⟨-, hshown⟩
  apply hshown
  rw [ownArguments]
  split
  next => rfl
  next => rw [Value.render_plain, if_pos h, Rendering.empty]

/-- What can become of a field: it is skipped because it is not named, it is
skipped because its name is claimed, or it is rendered under its name. -/
theorem outcome_cases (claimed : List String) (f : Field) :
    (¬f.IsNamed ∧ ∃ reason, f.outcome claimed = .skipped reason) ∨
      (f.IsNamed ∧ ∃ name ∈ claimed, f.optionName? = some name ∧
        f.outcome claimed = .skipped (.alreadyEmitted f.ident name)) ∨
      (f.IsNamed ∧ ∃ name, name ∉ claimed ∧ f.optionName? = some name ∧
        ∃ notes, f.outcome claimed = .rendered name f.ownTokens notes) := by
  by_cases hexp : f.exported = true
  · cases htag : f.tag with
    | none =>
        left
        simp [IsNamed, optionName?, outcome, hexp, htag]
    | some raw =>
        have hopt : f.optionName? = some (Tag.parse raw).name := by
          simp [optionName?, htag]
        by_cases hname : (Tag.parse raw).name = ""
        · left
          simp [IsNamed, hopt, outcome, hexp, htag, hname]
        · have hnamed : f.IsNamed := ⟨hexp, _, hopt, hname⟩
          by_cases hclaimed : (Tag.parse raw).name ∈ claimed
          · refine Or.inr (Or.inl ⟨hnamed, _, hclaimed, hopt, ?_⟩)
            simp [outcome, hexp, htag, hname, hclaimed]
          · refine Or.inr (Or.inr ⟨hnamed, _, hclaimed, hopt, ?_⟩)
            simp [outcome, hexp, htag, hname, hclaimed, renderUnder,
              ownTokens, ownArguments]
  · left
    simp [IsNamed, outcome, hexp]

/-- A field whose name is still free contributes its own tokens when it is
effective; every other field contributes nothing. -/
theorem outcome_tokens (claimed : List String) (f : Field) :
    (f.outcome claimed).tokens =
      if f.IsEffective ∧ ∀ name ∈ claimed, f.optionName? ≠ some name
      then f.ownTokens else [] := by
  rcases f.outcome_cases claimed with
    ⟨hnamed, reason, hout⟩ | ⟨-, name, hmem, hopt, hout⟩ |
      ⟨hnamed, name, hfree, hopt, notes, hout⟩
  · have heff : ¬f.IsEffective := fun h => hnamed h.1
    rw [hout, if_neg (fun h => heff h.1)]
    rfl
  · rw [hout, if_neg (fun h => h.2 name hmem hopt)]
    rfl
  · have hfree' : ∀ n ∈ claimed, f.optionName? ≠ some n := by
      intro n hn heq
      have hsame : name = n := Option.some.inj (hopt.symm.trans heq)
      exact hfree (hsame ▸ hn)
    rw [hout]
    by_cases hargs : f.ownArguments = []
    · rw [if_neg (fun h => h.1.2 hargs)]
      exact (f.ownTokens_eq_nil_iff).mpr hargs
    · rw [if_pos ⟨⟨hnamed, hargs⟩, hfree'⟩]
      rfl

/-- Passing a field claims its name when the field is effective, and keeps the
names claimed before. -/
theorem mem_claim_outcome (claimed : List String) (f : Field) (name : String) :
    name ∈ (f.outcome claimed).claim claimed ↔
      name ∈ claimed ∨ (f.IsEffective ∧ f.optionName? = some name) := by
  rcases f.outcome_cases claimed with
    ⟨hnamed, reason, hout⟩ | ⟨-, other, hmem, hopt, hout⟩ |
      ⟨hnamed, other, hfree, hopt, notes, hout⟩
  · have heff : ¬f.IsEffective := fun h => hnamed h.1
    simp [hout, Outcome.claim, heff]
  · have hknown : f.optionName? = some name → name ∈ claimed := by
      intro h
      have hsame : other = name := Option.some.inj (hopt.symm.trans h)
      exact hsame ▸ hmem
    simp only [hout, Outcome.claim]
    exact ⟨Or.inl, fun h => h.elim id fun h => hknown h.2⟩
  · by_cases hargs : f.ownArguments = []
    · have htokens : f.ownTokens = [] := (f.ownTokens_eq_nil_iff).mpr hargs
      simp [hout, Outcome.claim, htokens, IsEffective, hargs]
    · have htokens : f.ownTokens ≠ [] :=
        mt (f.ownTokens_eq_nil_iff).mp hargs
      have heff : f.IsEffective := ⟨hnamed, hargs⟩
      have hclaim :
          (f.outcome claimed).claim claimed = other :: claimed := by
        simp [hout, Outcome.claim, htokens]
      rw [hclaim, List.mem_cons, hopt, Option.some.injEq]
      constructor
      · rintro (rfl | hname)
        · exact Or.inr ⟨heff, rfl⟩
        · exact Or.inl hname
      · rintro (hname | ⟨-, rfl⟩)
        · exact Or.inr hname
        · exact Or.inl rfl

end Field

/-- Fields whose outcomes are the same whatever is claimed can stand for each
other in a record. -/
theorem outcomes_of_forall₂
    {R : Field → Field → Prop}
    (hR : ∀ {f g : Field}, R f g → ∀ claimed, f.outcome claimed = g.outcome claimed)
    {fs gs : List Field} (h : List.Forall₂ R fs gs) (claimed : List String) :
    outcomes claimed fs = outcomes claimed gs := by
  induction h generalizing claimed with
  | nil => rfl
  | cons hfg _ ih => rw [outcomes, outcomes, hR hfg, ih]

/-- Field `i` speaks for its option: it is effective, and no effective field
before it has the same name. -/
def Speaks (fs : List Field) (i : ℕ) : Prop :=
  ∃ f ∈ fs[i]?, f.IsEffective ∧
    ∀ j < i, ∀ g ∈ fs[j]?, g.IsEffective → g.optionName? ≠ f.optionName?

instance (fs : List Field) (i : ℕ) : Decidable (Speaks fs i) :=
  inferInstanceAs (Decidable (∃ f ∈ fs[i]?, _))

/-- The tokens that one field contributes to a record: its own when it speaks
for its option, and otherwise none. -/
def spokenTokens (fs : List Field) (fi : Field × ℕ) : List String :=
  if Speaks fs fi.2 then fi.1.ownTokens else []

/-- The names claimed when encoding has passed some fields are those of the
effective ones among them. -/
def ClaimedBy (claimed : List String) (earlier : List Field) : Prop :=
  ∀ name, name ∈ claimed ↔
    ∃ g ∈ earlier, g.IsEffective ∧ g.optionName? = some name

theorem claimedBy_nil :
    ClaimedBy [] [] := by
  intro name
  simp

theorem ClaimedBy.step
    {claimed : List String} {earlier : List Field}
    (h : ClaimedBy claimed earlier) (f : Field) :
    ClaimedBy ((f.outcome claimed).claim claimed) (earlier ++ [f]) := by
  intro name
  rw [Field.mem_claim_outcome, h name]
  constructor
  · rintro (⟨g, hg, hgeff, hgname⟩ | ⟨heff, hname⟩)
    · exact ⟨g, List.mem_append_left _ hg, hgeff, hgname⟩
    · exact ⟨f, by simp, heff, hname⟩
  · rintro ⟨g, hg, hgeff, hgname⟩
    rcases List.mem_append.mp hg with hg | hg
    · exact Or.inl ⟨g, hg, hgeff, hgname⟩
    · obtain rfl := List.mem_singleton.mp hg
      exact Or.inr ⟨hgeff, hgname⟩

/-- With the right names claimed, a field contributes its own tokens exactly
when it speaks for its option. -/
theorem outcome_tokens_eq_spokenTokens
    {claimed : List String} {earlier : List Field}
    (h : ClaimedBy claimed earlier) (f : Field) (rest : List Field) :
    (f.outcome claimed).tokens =
      spokenTokens (earlier ++ f :: rest) (f, earlier.length) := by
  have hiff :
      (f.IsEffective ∧ ∀ name ∈ claimed, f.optionName? ≠ some name) ↔
        Speaks (earlier ++ f :: rest) earlier.length := by
    have hat : (earlier ++ f :: rest)[earlier.length]? = some f := by
      simp
    constructor
    · rintro ⟨heff, hfree⟩
      refine ⟨f, hat, heff, ?_⟩
      intro j hj g hg hgeff heq
      rw [Option.mem_def, List.getElem?_append_left hj] at hg
      have hg := List.mem_of_getElem? hg
      obtain ⟨name, hname, -⟩ := hgeff.1.2
      have hclaimed : name ∈ claimed := (h name).mpr ⟨g, hg, hgeff, hname⟩
      exact hfree name hclaimed (heq ▸ hname)
    · rintro ⟨f', hf', heff, hfirst⟩
      obtain rfl : f = f' := Option.some.inj (hat.symm.trans hf')
      refine ⟨heff, ?_⟩
      intro name hmem heq
      obtain ⟨g, hg, hgeff, hgname⟩ := (h name).mp hmem
      obtain ⟨j, hj, rfl⟩ := List.mem_iff_getElem.mp hg
      refine hfirst j hj _ ?_ hgeff (hgname.trans heq.symm)
      rw [Option.mem_def, List.getElem?_append_left hj]
      exact List.getElem?_eq_getElem hj
  rw [Field.outcome_tokens]
  simp only [spokenTokens, hiff]

/-- The names claimed when encoding has passed some fields. -/
def claimedAfter (claimed : List String) (fs : List Field) : List String :=
  fs.foldl (fun claimed f => (f.outcome claimed).claim claimed) claimed

theorem outcomes_append (claimed : List String) (before rest : List Field) :
    outcomes claimed (before ++ rest) =
      outcomes claimed before ++ outcomes (claimedAfter claimed before) rest := by
  induction before generalizing claimed with
  | nil => rfl
  | cons f before ih =>
      rw [List.cons_append, outcomes, ih, outcomes, List.cons_append]
      rfl

theorem getElem?_outcomes (claimed : List String) (fs : List Field) (i : ℕ) :
    (outcomes claimed fs)[i]? =
      fs[i]?.map fun f => f.outcome (claimedAfter claimed (fs.take i)) := by
  induction fs generalizing claimed i with
  | nil => rfl
  | cons f fs ih =>
      cases i with
      | zero => rfl
      | succ i => exact ih _ i

theorem claimedBy_claimedAfter
    {claimed : List String} {earlier : List Field}
    (h : ClaimedBy claimed earlier) (fs : List Field) :
    ClaimedBy (claimedAfter claimed fs) (earlier ++ fs) := by
  induction fs generalizing claimed earlier with
  | nil =>
      rw [List.append_nil]
      exact h
  | cons f fs ih =>
      have hrest := ih (h.step f)
      rw [List.append_assoc] at hrest
      exact hrest

theorem map_tokens_outcomes
    {claimed : List String} {earlier : List Field}
    (h : ClaimedBy claimed earlier) (fs : List Field) :
    (outcomes claimed fs).map Outcome.tokens =
      (fs.zipIdx earlier.length).map (spokenTokens (earlier ++ fs)) := by
  induction fs generalizing claimed earlier with
  | nil => rfl
  | cons f fs ih =>
      have hrest := ih (h.step f)
      simp only [List.length_append, List.length_singleton,
        List.append_assoc, List.singleton_append] at hrest
      simp only [outcomes, List.map_cons, List.zipIdx_cons]
      rw [outcome_tokens_eq_spokenTokens h f fs, hrest]

/-- The name of an effective field has exactly one field that speaks for it, at
or before the field itself. -/
theorem exists_speaks_of_isEffective
    {fs : List Field} {i : ℕ} {f : Field}
    (hi : fs[i]? = some f) (heff : f.IsEffective) :
    ∃ j ≤ i, Speaks fs j ∧ fs[j]?.bind Field.optionName? = f.optionName? ∧
      ∀ k, Speaks fs k → fs[k]?.bind Field.optionName? = f.optionName? →
        k = j := by
  let Rival : ℕ → Prop := fun j =>
    ∃ g ∈ fs[j]?, g.IsEffective ∧ g.optionName? = f.optionName?
  have hex : ∃ j, Rival j := ⟨i, f, hi, heff, rfl⟩
  obtain ⟨g, hg, hgeff, hgname⟩ := Nat.find_spec hex
  refine ⟨Nat.find hex, Nat.find_min' hex ⟨f, hi, heff, rfl⟩, ?_, ?_, ?_⟩
  · refine ⟨g, hg, hgeff, ?_⟩
    intro k hk g' hg' hgeff' heq
    exact Nat.find_min hex hk ⟨g', hg', hgeff', heq.trans hgname⟩
  · rw [hg]
    exact hgname
  · rintro k ⟨g', hg', hgeff', hfirst⟩ hname
    rw [hg', Option.bind_some] at hname
    rcases lt_trichotomy k (Nat.find hex) with hlt | heq | hgt
    · exact (Nat.find_min hex hlt ⟨g', hg', hgeff', hname⟩).elim
    · exact heq
    · exact (hfirst _ hgt g hg hgeff (hgname.trans hname.symm)).elim

theorem Record.encode_arguments (r : Record) :
    r.encode.arguments = r.fieldTokens ++ r.extra := rfl

/-- The tokens that come from the fields are those of the fields that speak for
their options. -/
theorem Record.fieldTokens_eq_spokenTokens (r : Record) :
    r.fieldTokens = r.fields.zipIdx.flatMap (spokenTokens r.fields) := by
  have hmap := map_tokens_outcomes claimedBy_nil r.fields
  rw [List.nil_append, List.length_nil] at hmap
  rw [fieldTokens, List.flatMap_def, hmap, ← List.flatMap_def]

/-- Encoding a record gives, in the order of declaration, the tokens of the
fields that speak for their options, and then the extra tokens as they are.
Every field alone contributes its own tokens or nothing, and among the fields
that would render something under one name exactly one speaks, the first. -/
theorem encode_arguments_eq_spoken (r : Record) :
    (outcomes [] r.fields).map Outcome.tokens =
        r.fields.zipIdx.map (spokenTokens r.fields) ∧
      r.encode.arguments =
        r.fields.zipIdx.flatMap (spokenTokens r.fields) ++ r.extra ∧
      ∀ (i : ℕ) (f : Field), r.fields[i]? = some f → f.IsEffective →
        ∃ j ≤ i, Speaks r.fields j ∧
          r.fields[j]?.bind Field.optionName? = f.optionName? ∧
          ∀ k, Speaks r.fields k →
            r.fields[k]?.bind Field.optionName? = f.optionName? → k = j := by
  have hmap := map_tokens_outcomes claimedBy_nil r.fields
  simp only [List.nil_append, List.length_nil] at hmap
  refine ⟨hmap, ?_, fun i f hi heff => exists_speaks_of_isEffective hi heff⟩
  simp only [Record.encode, List.flatMap_def, hmap]

end ContainerArgs.Flag
