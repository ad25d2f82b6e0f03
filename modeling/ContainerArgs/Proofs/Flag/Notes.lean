import ContainerArgs.Proofs.Flag.Modifiers
import ContainerArgs.Proofs.Flag.Precedence

/-!
# Every field is accounted for

Encoding notes why a field is skipped and what of a rendered value it leaves
out. This module says for every field, without the names that encoding carries
along, which of these notes it causes: a skipped field causes one trace and
nothing else, and a field that is rendered causes the notes of its value, none
of which is a trace.
-/

namespace ContainerArgs.Flag

/-! ## Traces -/

namespace Note

/-- A note is a trace by its wording. -/
def IsTrace (n : Note) : Prop :=
  "TRACE ".toList <+: n.message.toList

/-- Whether a note says that a field is skipped. -/
def isSkip : Note → Bool
  | .nestedOptional _ => false
  | .unsupported _ _ => false
  | _ => true

theorem prefix_toList_append
    {start : List Char} {s : String} (h : start <+: s.toList) (t : String) :
    start <+: (s ++ t).toList := by
  rw [String.toList_append]
  exact h.trans (List.prefix_append _ _)

theorem not_prefix_of_debug
    {cs : List Char} (h : "DEBUG ".toList <+: cs) :
    ¬"TRACE ".toList <+: cs := by
  intro htrace
  have hsame := List.prefix_of_prefix_length_le h htrace (by decide +kernel)
  exact absurd hsame (by decide +kernel)

/-- The traces are the notes about skipped fields. -/
theorem isTrace_iff_isSkip (n : Note) :
    n.IsTrace ↔ n.isSkip = true := by
  cases n with
  | nestedOptional option =>
      refine iff_of_false (not_prefix_of_debug ?_) Bool.false_ne_true
      exact prefix_toList_append (by decide +kernel) _
  | unsupported option kind =>
      refine iff_of_false (not_prefix_of_debug ?_) Bool.false_ne_true
      iterate 4 apply prefix_toList_append
      decide +kernel
  | notExported field =>
      refine iff_of_true ?_ rfl
      exact prefix_toList_append (by decide +kernel) _
  | untagged field =>
      refine iff_of_true ?_ rfl
      exact prefix_toList_append (by decide +kernel) _
  | emptyName field =>
      refine iff_of_true ?_ rfl
      iterate 2 apply prefix_toList_append
      decide +kernel
  | alreadyEmitted field option =>
      refine iff_of_true ?_ rfl
      iterate 4 apply prefix_toList_append
      decide +kernel

end Note

theorem Rendering.isCompatible_no_skip :
    IsCompatible fun r _ => ∀ n ∈ r.notes, n.isSkip = false where
  empty := List.forall_mem_nil _
  nested _ := List.forall_mem_singleton.mpr rfl
  append hr hs := List.forall_mem_append.mpr ⟨hr, hs⟩

theorem Value.isSkip_of_mem_notes_render
    (tag : Tag) (v : Value) (position : Position) :
    ∀ n ∈ (v.render tag position).notes, n.isSkip = false := by
  apply render_related Rendering.isCompatible_no_skip (rfl : tag.name = tag.name)
  intro l _
  cases l with
  | unsupported kind => exact List.forall_mem_singleton.mpr rfl
  | _ => exact List.forall_mem_nil _

/-! ## The notes that a field causes -/

/-- Some field before position `i` has contributed tokens under a name. -/
def IsEmittedBefore (fs : List Field) (i : ℕ) (name : String) : Prop :=
  ∃ j < i, ∃ g ∈ fs[j]?, g.optionName? = some name ∧ spokenTokens fs (g, j) ≠ []

instance (fs : List Field) (i : ℕ) (name : String) :
    Decidable (IsEmittedBefore fs i name) :=
  inferInstanceAs (Decidable (∃ j < i, ∃ g ∈ fs[j]?, _))

/-- The notes that one field of a record causes: one about the first reason for
which it is skipped, and without such a reason those of its value. -/
def causedNotes (fs : List Field) (fi : Field × ℕ) : List Note :=
  if fi.1.exported = false then [.notExported fi.1.ident]
  else match fi.1.tag with
    | none => [.untagged fi.1.ident]
    | some raw =>
      let tag := Tag.parse raw
      if tag.name = "" then [.emptyName fi.1.ident]
      else if IsEmittedBefore fs fi.2 tag.name then
        [.alreadyEmitted fi.1.ident tag.name]
      else (fi.1.value.render tag .plain).notes

theorem Speaks.ownTokens_ne_nil
    {fs : List Field} {i : ℕ} {f : Field} (h : Speaks fs i) (hi : fs[i]? = some f) :
    f.IsEffective ∧ f.ownTokens ≠ [] := by
  obtain ⟨g, hg, heff, -⟩ := h
  obtain rfl := Option.some.inj (hi.symm.trans hg)
  exact ⟨heff, mt f.ownTokens_eq_nil_iff.mp heff.2⟩

/-- Tokens have been contributed under a name when an effective field with that
name has been passed. -/
theorem isEmittedBefore_iff {fs : List Field} {i : ℕ} {name : String} :
    IsEmittedBefore fs i name ↔
      ∃ g ∈ fs.take i, g.IsEffective ∧ g.optionName? = some name := by
  constructor
  · rintro ⟨j, hj, g, hg, hname, htokens⟩
    have hspeaks : Speaks fs j := by
      by_contra hnot
      exact htokens (if_neg hnot)
    refine ⟨g, ?_, (hspeaks.ownTokens_ne_nil hg).1, hname⟩
    rw [Option.mem_def, ← List.getElem?_take_of_lt hj] at hg
    exact List.mem_of_getElem? hg
  · rintro ⟨g, hg, heff, hname⟩
    obtain ⟨j, hj⟩ := List.mem_iff_getElem?.mp hg
    obtain ⟨hji, hjg⟩ : j < i ∧ fs[j]? = some g := by
      rw [List.getElem?_take] at hj
      split at hj
      next hji => exact ⟨hji, hj⟩
      next => cases hj
    -- The field itself may be shadowed; then the first one of its name speaks.
    obtain ⟨k, hk, hspeaks, hsame, -⟩ := exists_speaks_of_isEffective hjg heff
    obtain ⟨e, he, -⟩ := id hspeaks
    rw [he, Option.bind_some] at hsame
    refine ⟨k, lt_of_le_of_lt hk hji, e, he, hsame.trans hname, ?_⟩
    rw [spokenTokens, if_pos hspeaks]
    exact (hspeaks.ownTokens_ne_nil he).2

theorem mem_claimedAfter_iff {fs : List Field} {i : ℕ} {name : String} :
    name ∈ claimedAfter [] (fs.take i) ↔ IsEmittedBefore fs i name := by
  rw [isEmittedBefore_iff]
  exact claimedBy_claimedAfter claimedBy_nil (fs.take i) name

theorem notes_outcome_claimedAfter (fs : List Field) (fi : Field × ℕ) :
    (fi.1.outcome (claimedAfter [] (fs.take fi.2))).notes = causedNotes fs fi := by
  obtain ⟨f, i⟩ := fi
  rw [Field.outcome, causedNotes]
  cases hexp : f.exported with
  | false => rfl
  | true =>
      cases htag : f.tag with
      | none => rfl
      | some raw =>
          simp only [Bool.not_true, Bool.false_eq_true, if_false,
            Bool.true_eq_false, String.isEmpty_iff, List.contains_iff_mem,
            mem_claimedAfter_iff]
          split
          · rfl
          · split <;> rfl

theorem map_notes_outcomes (fs : List Field) :
    (outcomes [] fs).map Outcome.notes = fs.zipIdx.map (causedNotes fs) := by
  apply List.ext_getElem?
  intro i
  rw [List.getElem?_map, getElem?_outcomes, List.getElem?_map,
    List.getElem?_zipIdx, Option.map_map, Option.map_map]
  congr 1
  funext f
  rw [Nat.zero_add]
  exact notes_outcome_claimedAfter fs (f, i)

/-! ## Skipped fields -/

namespace Field

/-- A field is skipped, whatever its value, or its value is rendered. -/
theorem outcome_skipped_or_rendered (claimed : List String) (f : Field) :
    (∃ reason, reason.isSkip = true ∧
        ∀ v, ({ f with value := v } : Field).outcome claimed = .skipped reason) ∨
      ∃ tag, f.outcome claimed = f.renderUnder tag := by
  cases hexp : f.exported with
  | false =>
      left
      exact ⟨.notExported f.ident, rfl, fun v => by simp [outcome]⟩
  | true =>
      cases htag : f.tag with
      | none =>
          left
          exact ⟨.untagged f.ident, rfl, fun v => by simp [outcome]⟩
      | some raw =>
          by_cases hname : (Tag.parse raw).name = ""
          · left
            exact ⟨.emptyName f.ident, rfl,
              fun v => by simp [outcome, hname]⟩
          · by_cases hclaimed : (Tag.parse raw).name ∈ claimed
            · left
              exact ⟨.alreadyEmitted f.ident (Tag.parse raw).name, rfl,
                fun v => by simp [outcome, hname, hclaimed]⟩
            · right
              exact ⟨Tag.parse raw,
                by simp [outcome, hexp, htag, hname, hclaimed]⟩

theorem outcome_of_skipped
    {claimed : List String} {f : Field} {reason : Note}
    (h : f.outcome claimed = .skipped reason) :
    reason.isSkip = true ∧
      ∀ v, ({ f with value := v } : Field).outcome claimed = .skipped reason := by
  rcases f.outcome_skipped_or_rendered claimed with
    ⟨why, hskip, hany⟩ | ⟨tag, hrendered⟩
  · obtain rfl := Outcome.skipped.inj ((hany f.value).symm.trans h)
    exact ⟨hskip, hany⟩
  · cases hrendered.symm.trans h

/-- The notes of a field that contributes tokens are those of its value. -/
theorem isSkip_of_mem_notes_outcome
    {claimed : List String} {f : Field} (h : (f.outcome claimed).tokens ≠ []) :
    ∀ n ∈ (f.outcome claimed).notes, n.isSkip = false := by
  rcases f.outcome_skipped_or_rendered claimed with
    ⟨why, -, hany⟩ | ⟨tag, hrendered⟩
  · rw [show f.outcome claimed = .skipped why from hany f.value] at h
    exact absurd rfl h
  · rw [hrendered]
    exact f.value.isSkip_of_mem_notes_render tag .plain

end Field

/-- Nothing about the value of a skipped field shows in the encoding. -/
theorem encode_set_of_skipped
    {r : Record} {i : ℕ} {f : Field} {reason : Note} (hi : r.fields[i]? = some f)
    (hskip : (outcomes [] r.fields)[i]? = some (.skipped reason)) (v : Value) :
    Record.encode ⟨r.fields.set i { f with value := v }, r.extra⟩ = r.encode := by
  obtain ⟨hlt, hat⟩ := List.getElem?_eq_some_iff.mp hi
  obtain ⟨before, after, hfields, hlength, hset⟩ :=
    @List.exists_of_set _ i { f with value := v } r.fields hlt
  rw [hat] at hfields
  rw [getElem?_outcomes, hi, Option.map_some, hfields, ← hlength,
    List.take_left] at hskip
  have hout : f.outcome (claimedAfter [] before) = .skipped reason :=
    Option.some.inj hskip
  have hsame := (Field.outcome_of_skipped hout).2 v
  have houtcomes : outcomes [] (r.fields.set i { f with value := v }) =
      outcomes [] r.fields := by
    rw [hset, hfields, outcomes_append, outcomes_append, outcomes, outcomes,
      hout, hsame]
  rw [Record.encode, Record.encode, houtcomes]

/-- Every field is accounted for. The notes about a record are, in the order of
declaration, those that its fields cause: a field that is not exported, has no
tag, has an empty name or comes after one that has contributed tokens under its
name causes a note that says so, and any other field causes the notes of its
value. So a field that contributes tokens causes no trace; and a skipped field
causes one trace, contributes nothing and is not rendered, for with any other
value in its place the encoding is the same. -/
theorem every_field_is_accounted_for (r : Record) :
    r.encode.notes = r.fields.zipIdx.flatMap (causedNotes r.fields) ∧
      (outcomes [] r.fields).map Outcome.notes =
        r.fields.zipIdx.map (causedNotes r.fields) ∧
      (outcomes [] r.fields).map Outcome.tokens =
        r.fields.zipIdx.map (spokenTokens r.fields) ∧
      (∀ (i : ℕ) (f : Field), r.fields[i]? = some f →
        spokenTokens r.fields (f, i) ≠ [] →
          ∀ n ∈ causedNotes r.fields (f, i), ¬n.IsTrace) ∧
      (∀ (i : ℕ) (f : Field) (reason : Note), r.fields[i]? = some f →
        (outcomes [] r.fields)[i]? = some (.skipped reason) →
          causedNotes r.fields (f, i) = [reason] ∧ reason.IsTrace ∧
            spokenTokens r.fields (f, i) = [] ∧
            ∀ v, Record.encode ⟨r.fields.set i { f with value := v }, r.extra⟩ =
              r.encode) := by
  have hnotes := map_notes_outcomes r.fields
  have htokens := map_tokens_outcomes claimedBy_nil r.fields
  rw [List.nil_append, List.length_nil] at htokens
  have hspoken : ∀ {i : ℕ} {f : Field}, r.fields[i]? = some f →
      (f.outcome (claimedAfter [] (r.fields.take i))).tokens =
        spokenTokens r.fields (f, i) := by
    intro i f hi
    have hat := congrArg (·[i]?) htokens
    simpa [getElem?_outcomes, hi] using hat
  refine ⟨?_, hnotes, htokens, ?_, ?_⟩
  · show (outcomes [] r.fields).flatMap Outcome.notes = _
    rw [List.flatMap_def, hnotes, ← List.flatMap_def]
  · intro i f hi hcontributes n hn htrace
    rw [← hspoken hi] at hcontributes
    rw [← notes_outcome_claimedAfter] at hn
    have hskip := Field.isSkip_of_mem_notes_outcome hcontributes n hn
    rw [n.isTrace_iff_isSkip, hskip] at htrace
    cases htrace
  · intro i f reason hi hskip
    have hout : f.outcome (claimedAfter [] (r.fields.take i)) =
        .skipped reason := by
      simpa [getElem?_outcomes, hi] using hskip
    refine ⟨?_, ?_, ?_, encode_set_of_skipped hi hskip⟩
    · rw [← notes_outcome_claimedAfter, hout]
      rfl
    · exact reason.isTrace_iff_isSkip.mpr (Field.outcome_of_skipped hout).1
    · rw [← hspoken hi, hout]
      rfl

/-- A field under the name of an earlier one that has shown something is
skipped, and its value, of an unsupported kind, is not noted. -/
theorem every_field_is_accounted_for_limit :
    let chosen : Field :=
      .tagged "chosen" "limit" (.list [.leaf (.int 2), .leaf (.unsupported .map)])
    let shadowed : Field :=
      .tagged "shadowed" "limit" (.leaf (.unsupported .channel))
    let fields : List Field :=
      [⟨"secret", some "limit", false, .leaf (.int 1)⟩,
        .tagged "unset" "limit" (.leaf (.int 0)), chosen, shadowed]
    spokenTokens fields (chosen, 2) ≠ [] ∧
      (∀ n ∈ causedNotes fields (chosen, 2), ¬n.IsTrace) ∧
      (outcomes [] fields)[3]? =
        some (.skipped (.alreadyEmitted "shadowed" "limit")) ∧
      causedNotes fields (shadowed, 3) = [.alreadyEmitted "shadowed" "limit"] ∧
      (Record.encode ⟨fields, []⟩).notes =
        [.notExported "secret", .unsupported "limit" .map,
          .alreadyEmitted "shadowed" "limit"] := by
  intro chosen shadowed fields
  have hspoken : spokenTokens fields (chosen, 2) ≠ [] := by decide +kernel
  have hskip : (outcomes [] fields)[3]? =
      some (.skipped (.alreadyEmitted "shadowed" "limit")) := by decide +kernel
  have haccount := every_field_is_accounted_for ⟨fields, []⟩
  have hchosen := haccount.2.2.2.1 2 chosen rfl hspoken
  have hshadowed := haccount.2.2.2.2 3 shadowed _ rfl hskip
  exact ⟨hspoken, hchosen, hskip, hshadowed.1, by decide +kernel⟩

end ContainerArgs.Flag
