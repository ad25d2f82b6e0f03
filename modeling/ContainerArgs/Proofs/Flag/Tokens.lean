import ContainerArgs.Proofs.Flag.Precedence
import ContainerArgs.Proofs.Text.Runs
import Mathlib.Data.List.Nodup
import Mathlib.Tactic.MkIffOfInductiveProp

/-!
# Tokens that tell their options apart

A token shows its option up to the first equals sign.  Where the tags of a
record begin their tokens in different ways, the tokens of the record give back
the arguments of every field.
-/

namespace ContainerArgs.Flag

/-- How the tokens of an option begin. -/
def Tag.start (t : Tag) : List Char :=
  t.hyphens.toList ++ t.name.toList

/-- A token up to its first equals sign. -/
def tokenStart (token : String) : List Char :=
  token.toList.takeWhile (· != '=')

theorem Tag.equals_not_mem_hyphens (t : Tag) :
    '=' ∉ t.hyphens.toList := by
  rw [hyphens]
  split <;> decide

theorem tokenStart_token
    {t : Tag} (hname : '=' ∉ t.name.toList) (a : Argument) :
    tokenStart (a.token t.hyphens t.name) = t.start := by
  have hstart : ∀ c ∈ t.start, (c != '=') = true := by
    intro c hc
    rw [bne_iff_ne]
    rintro rfl
    rcases List.mem_append.mp hc with hc | hc
    · exact t.equals_not_mem_hyphens hc
    · exact hname hc
  cases a with
  | bare =>
      have hchars : (Argument.bare.token t.hyphens t.name).toList =
          t.start ++ [] := by
        simp [Argument.token, Tag.start]
      rw [tokenStart, hchars]
      exact Text.takeWhile_append_of_stop hstart (by simp)
  | valued text =>
      have hchars : ((Argument.valued text).token t.hyphens t.name).toList =
          t.start ++ '=' :: text.toList := by
        simp [Argument.token, Tag.start]
      rw [tokenStart, hchars]
      exact Text.takeWhile_append_of_stop hstart (by simp)

theorem Argument.token_injective (hyphens name : String) :
    Function.Injective (Argument.token hyphens name) := by
  intro a b h
  have hchars := congrArg String.toList h
  cases a with
  | bare =>
      cases b with
      | bare => rfl
      | valued text => simp [Argument.token] at hchars
  | valued text =>
      cases b with
      | bare => simp [Argument.token] at hchars
      | valued text' =>
          have htext : text.toList = text'.toList := by
            simpa [Argument.token] using hchars
          rw [String.toList_inj.mp htext]

namespace Field

/-- The tag under which a field takes part in encoding. -/
def walkedTag? (f : Field) : Option Tag :=
  if f.exported then f.tag.map Tag.parse else none

theorem of_walkedTag?_eq_some
    {f : Field} {t : Tag} (h : f.walkedTag? = some t) :
    f.exported = true ∧ ∃ raw, f.tag = some raw ∧ Tag.parse raw = t := by
  rw [walkedTag?] at h
  split at h
  next hexp => exact ⟨hexp, Option.map_eq_some_iff.mp h⟩
  next => cases h

theorem ownTokens_of_walkedTag?
    {f : Field} {t : Tag} (h : f.walkedTag? = some t) :
    f.ownTokens = f.ownArguments.map (Argument.token t.hyphens t.name) := by
  obtain ⟨-, raw, htag, rfl⟩ := of_walkedTag?_eq_some h
  simp [ownTokens, htag]

theorem optionName?_of_walkedTag?
    {f : Field} {t : Tag} (h : f.walkedTag? = some t) :
    f.optionName? = some t.name := by
  obtain ⟨-, raw, htag, rfl⟩ := of_walkedTag?_eq_some h
  simp [optionName?, htag]

theorem isNamed_of_walkedTag?
    {f : Field} {t : Tag} (h : f.walkedTag? = some t) (hname : t.name ≠ "") :
    f.IsNamed :=
  ⟨(of_walkedTag?_eq_some h).1, t.name, optionName?_of_walkedTag? h, hname⟩

theorem tokenStart_of_mem_ownTokens
    {f : Field} {t : Tag} (h : f.walkedTag? = some t)
    (hplain : '=' ∉ t.name.toList) {token : String}
    (htoken : token ∈ f.ownTokens) :
    tokenStart token = t.start := by
  rw [ownTokens_of_walkedTag? h] at htoken
  obtain ⟨a, -, rfl⟩ := List.mem_map.mp htoken
  exact tokenStart_token hplain a

theorem ownTokens_eq_iff
    {f g : Field} {t : Tag} (hf : f.walkedTag? = some t)
    (hg : g.walkedTag? = some t) :
    f.ownTokens = g.ownTokens ↔ f.ownArguments = g.ownArguments := by
  rw [ownTokens_of_walkedTag? hf, ownTokens_of_walkedTag? hg]
  exact (List.map_injective_iff.mpr (Argument.token_injective _ _)).eq_iff

end Field

/-- Tags that give names without equals signs, no two of them the same name and
no two the same start of their tokens. -/
@[mk_iff]
structure IsApart (tags : List Tag) : Prop where
  named : ∀ t ∈ tags, t.name ≠ ""
  plain : ∀ t ∈ tags, '=' ∉ t.name.toList
  names : (tags.map Tag.name).Nodup
  starts : (tags.map Tag.start).Nodup

instance (tags : List Tag) : Decidable (IsApart tags) :=
  decidable_of_iff' _ (isApart_iff tags)

theorem IsApart.tail
    {t : Tag} {tags : List Tag} (h : IsApart (t :: tags)) :
    IsApart tags where
  named := fun u hu => h.named u (List.mem_cons_of_mem _ hu)
  plain := fun u hu => h.plain u (List.mem_cons_of_mem _ hu)
  names := (List.nodup_cons.mp h.names).2
  starts := (List.nodup_cons.mp h.starts).2

/-- Fields that take part in encoding under the given tags. -/
def Carry (tags : List Tag) (fs : List Field) : Prop :=
  fs.map Field.walkedTag? = tags.map some

theorem Carry.cons_inv
    {t : Tag} {tags : List Tag} {fs : List Field}
    (h : Carry (t :: tags) fs) :
    ∃ f gs, fs = f :: gs ∧ f.walkedTag? = some t ∧ Carry tags gs := by
  cases fs with
  | nil => simp [Carry] at h
  | cons f gs => exact ⟨f, gs, rfl, List.cons.inj h⟩

theorem Carry.exists_tag
    {tags : List Tag} {fs : List Field} (h : Carry tags fs) {f : Field}
    (hf : f ∈ fs) :
    ∃ t ∈ tags, f.walkedTag? = some t := by
  have hmem : f.walkedTag? ∈ tags.map some := h ▸ List.mem_map_of_mem hf
  obtain ⟨t, ht, heq⟩ := List.mem_map.mp hmem
  exact ⟨t, ht, heq.symm⟩

theorem Carry.eq_of_walkedTag?_eq
    {tags : List Tag} {fs : List Field} (hfs : Carry tags fs) (h : IsApart tags)
    {f g : Field} (hf : f ∈ fs) (hg : g ∈ fs)
    (heq : f.walkedTag? = g.walkedTag?) :
    f = g := by
  have hnodup : (fs.map Field.walkedTag?).Nodup := by
    rw [hfs]
    exact h.starts.of_map.map fun _ _ => Option.some.inj
  exact List.inj_on_of_nodup_map hnodup hf hg heq

/-- The way a token begins shows which field it comes from. -/
theorem IsApart.mem_ownTokens_of_start
    {tags : List Tag} (h : IsApart tags) {fs : List Field} (hfs : Carry tags fs)
    {f : Field} {t : Tag} (hf : f ∈ fs) (hft : f.walkedTag? = some t)
    {token : String} (htoken : token ∈ fs.flatMap Field.ownTokens)
    (hstart : tokenStart token = t.start) :
    token ∈ f.ownTokens := by
  obtain ⟨g, hg, hmem⟩ := List.mem_flatMap.mp htoken
  obtain ⟨u, hu, hgu⟩ := hfs.exists_tag hg
  obtain ⟨v, hv, hfv⟩ := hfs.exists_tag hf
  obtain rfl : t = v := Option.some.inj (hft.symm.trans hfv)
  have hstarts : u.start = t.start := by
    rw [← Field.tokenStart_of_mem_ownTokens hgu (h.plain u hu) hmem, hstart]
  obtain rfl : u = t := List.inj_on_of_nodup_map h.starts hu hv hstarts
  obtain rfl : g = f := hfs.eq_of_walkedTag?_eq h hg hf (hgu.trans hft.symm)
  exact hmem

/-- A field contributes nothing exactly when no token begins as its tag says. -/
theorem IsApart.forall_tokenStart_ne_iff
    {tags : List Tag} (h : IsApart tags) {fs : List Field} (hfs : Carry tags fs)
    {f : Field} {t : Tag} (hf : f ∈ fs) (hft : f.walkedTag? = some t) :
    (∀ token ∈ fs.flatMap Field.ownTokens, tokenStart token ≠ t.start) ↔
      f.ownArguments = [] := by
  obtain ⟨u, hu, hfu⟩ := hfs.exists_tag hf
  obtain rfl : t = u := Option.some.inj (hft.symm.trans hfu)
  rw [← Field.ownTokens_eq_nil_iff, List.eq_nil_iff_forall_not_mem]
  constructor
  · intro hnone token hmem
    apply hnone token
    · exact List.mem_flatMap.mpr ⟨f, hf, hmem⟩
    · exact Field.tokenStart_of_mem_ownTokens hft (h.plain t hu) hmem
  · intro hempty token hmem hstart
    exact hempty token (h.mem_ownTokens_of_start hfs hf hft hmem hstart)

/-- An argument of an option is among the tokens exactly when the field of the
option gives it. -/
theorem IsApart.token_mem_iff
    {tags : List Tag} (h : IsApart tags) {fs : List Field} (hfs : Carry tags fs)
    {f : Field} {t : Tag} (hf : f ∈ fs) (hft : f.walkedTag? = some t)
    (a : Argument) :
    a.token t.hyphens t.name ∈ fs.flatMap Field.ownTokens ↔
      a ∈ f.ownArguments := by
  obtain ⟨u, hu, hfu⟩ := hfs.exists_tag hf
  obtain rfl : t = u := Option.some.inj (hft.symm.trans hfu)
  have hown : a.token t.hyphens t.name ∈ f.ownTokens ↔ a ∈ f.ownArguments := by
    rw [Field.ownTokens_of_walkedTag? hft]
    exact List.mem_map_of_injective (Argument.token_injective _ _)
  rw [← hown]
  constructor
  · intro hmem
    exact h.mem_ownTokens_of_start hfs hf hft hmem
      (tokenStart_token (h.plain t hu) a)
  · intro hmem
    exact List.mem_flatMap.mpr ⟨f, hf, hmem⟩

/-- No token of the other fields begins as the tag of the first says. -/
theorem IsApart.tokenStart_ne_of_mem
    {t : Tag} {tags : List Tag} (h : IsApart (t :: tags)) {fs : List Field}
    (hfs : Carry tags fs) {token : String}
    (htoken : token ∈ fs.flatMap Field.ownTokens) :
    tokenStart token ≠ t.start := by
  intro heq
  obtain ⟨g, hg, htoken⟩ := List.mem_flatMap.mp htoken
  obtain ⟨u, hu, hgu⟩ := hfs.exists_tag hg
  have hplain := h.plain u (List.mem_cons_of_mem _ hu)
  have hstart := Field.tokenStart_of_mem_ownTokens hgu hplain htoken
  have hnot : t.start ∉ tags.map Tag.start := (List.nodup_cons.mp h.starts).1
  exact hnot (heq ▸ hstart ▸ List.mem_map_of_mem hu)

/-- The tokens of the first field are those, among all, that begin as its tag
says. -/
theorem IsApart.filter_tokens
    {t : Tag} {tags : List Tag} (h : IsApart (t :: tags)) {f : Field}
    {fs : List Field} (hf : f.walkedTag? = some t) (hfs : Carry tags fs) :
    ((f :: fs).flatMap Field.ownTokens).filter (tokenStart · = t.start) =
      f.ownTokens := by
  rw [List.flatMap_cons, List.filter_append]
  have hown : f.ownTokens.filter (tokenStart · = t.start) = f.ownTokens := by
    rw [List.filter_eq_self]
    intro token htoken
    have hplain := h.plain t List.mem_cons_self
    simp [Field.tokenStart_of_mem_ownTokens hf hplain htoken]
  have hothers :
      (fs.flatMap Field.ownTokens).filter (tokenStart · = t.start) = [] := by
    rw [List.filter_eq_nil_iff]
    intro token htoken
    simpa using h.tokenStart_ne_of_mem hfs htoken
  rw [hown, hothers, List.append_nil]

theorem flatMap_ownTokens_eq_iff
    {tags : List Tag} (h : IsApart tags) {fs gs : List Field}
    (hfs : Carry tags fs) (hgs : Carry tags gs) :
    fs.flatMap Field.ownTokens = gs.flatMap Field.ownTokens ↔
      fs.map Field.ownArguments = gs.map Field.ownArguments := by
  induction tags generalizing fs gs with
  | nil =>
      obtain rfl : fs = [] := by simpa [Carry] using hfs
      obtain rfl : gs = [] := by simpa [Carry] using hgs
      simp
  | cons t tags ih =>
      obtain ⟨f, fs, rfl, hf, hfs⟩ := hfs.cons_inv
      obtain ⟨g, gs, rfl, hg, hgs⟩ := hgs.cons_inv
      simp only [List.map_cons, List.cons.injEq]
      rw [← ih h.tail hfs hgs, ← Field.ownTokens_eq_iff hf hg]
      constructor
      · intro heq
        have hhead : f.ownTokens = g.ownTokens := by
          rw [← h.filter_tokens hf hfs, heq, h.filter_tokens hg hgs]
        refine ⟨hhead, ?_⟩
        rw [List.flatMap_cons, List.flatMap_cons, hhead] at heq
        exact List.append_cancel_left heq
      · rintro ⟨hhead, htail⟩
        rw [List.flatMap_cons, List.flatMap_cons, hhead, htail]

/-! ## Which fields a record leaves out -/

/-- A field whose name is still free contributes all of its own tokens. -/
theorem Field.outcome_tokens_of_free
    {claimed : List String} {f : Field} (hnamed : f.IsNamed)
    (hfree : ∀ name ∈ claimed, f.optionName? ≠ some name) :
    (f.outcome claimed).tokens = f.ownTokens := by
  rw [outcome_tokens]
  split
  next => rfl
  next heff =>
    have hargs : f.ownArguments = [] :=
      by_contra fun hargs => heff ⟨⟨hnamed, hargs⟩, hfree⟩
    exact ((ownTokens_eq_nil_iff f).mpr hargs).symm

/-- Where every field names an option of its own, no field is left out. -/
theorem flatMap_tokens_outcomes
    {tags : List Tag} (h : IsApart tags) {fs : List Field}
    (hfs : Carry tags fs) {claimed : List String}
    (hfree : ∀ t ∈ tags, t.name ∉ claimed) :
    (outcomes claimed fs).flatMap Outcome.tokens =
      fs.flatMap Field.ownTokens := by
  induction tags generalizing fs claimed with
  | nil =>
      obtain rfl : fs = [] := by simpa [Carry] using hfs
      rfl
  | cons t tags ih =>
      obtain ⟨f, fs, rfl, hf, hfs⟩ := hfs.cons_inv
      have hname := Field.optionName?_of_walkedTag? hf
      have hown : (f.outcome claimed).tokens = f.ownTokens := by
        apply Field.outcome_tokens_of_free
        · exact Field.isNamed_of_walkedTag? hf (h.named t List.mem_cons_self)
        · rintro name hmem heq
          rw [hname, Option.some.injEq] at heq
          exact hfree t List.mem_cons_self (heq ▸ hmem)
      rw [outcomes, List.flatMap_cons, List.flatMap_cons, hown]
      congr 1
      apply ih h.tail hfs
      intro u hu hmem
      rcases (Field.mem_claim_outcome claimed f u.name).mp hmem with
        hmem | ⟨-, heq⟩
      · exact hfree u (List.mem_cons_of_mem _ hu) hmem
      · rw [hname, Option.some.injEq] at heq
        exact (List.nodup_cons.mp h.names).1
          (heq ▸ List.mem_map_of_mem hu)

/-- Two records with the same tags, which tell their options apart, have the
same tokens exactly when their fields have the same arguments one by one. -/
theorem flatMap_tokens_outcomes_eq_iff
    {tags : List Tag} (h : IsApart tags) {fs gs : List Field}
    (hfs : Carry tags fs) (hgs : Carry tags gs) :
    (outcomes [] fs).flatMap Outcome.tokens =
        (outcomes [] gs).flatMap Outcome.tokens ↔
      fs.map Field.ownArguments = gs.map Field.ownArguments := by
  have hfree : ∀ t ∈ tags, t.name ∉ ([] : List String) := by simp
  rw [flatMap_tokens_outcomes h hfs hfree, flatMap_tokens_outcomes h hgs hfree]
  exact flatMap_ownTokens_eq_iff h hfs hgs

/-! ## Two fields with one option -/

/-- The one of two fields that speaks for an option that both name: the first,
unless it would render nothing. -/
def Field.orElse (f g : Field) : Field :=
  if f.ownArguments = [] then g else f

theorem Field.walkedTag?_orElse
    {f g : Field} {t : Option Tag} (hf : f.walkedTag? = t)
    (hg : g.walkedTag? = t) :
    (f.orElse g).walkedTag? = t := by
  rw [orElse]
  split <;> assumption

/-- A field that renders nothing, or whose name is claimed, is passed over. -/
theorem Field.outcome_passes
    (f : Field) (claimed : List String)
    (h : f.ownArguments = [] ∨ ∃ name ∈ claimed, f.optionName? = some name) :
    (f.outcome claimed).tokens = [] ∧
      (f.outcome claimed).claim claimed = claimed := by
  rcases f.outcome_cases claimed with
    ⟨-, reason, hout⟩ | ⟨-, name, -, -, hout⟩ |
      ⟨-, name, hfree, hopt, notes, hout⟩
  · rw [hout]
    exact ⟨rfl, rfl⟩
  · rw [hout]
    exact ⟨rfl, rfl⟩
  · rcases h with hargs | ⟨other, hmem, hother⟩
    · have htokens : f.ownTokens = [] := (ownTokens_eq_nil_iff f).mpr hargs
      simp [hout, Outcome.tokens, Outcome.claim, htokens]
    · have hsame : name = other := Option.some.inj (hopt.symm.trans hother)
      exact absurd (hsame ▸ hmem) hfree

/-- Of two neighbours with the same tag only one matters. -/
theorem flatMap_tokens_outcomes_orElse
    {f g : Field} {t : Tag} (hf : f.walkedTag? = some t)
    (hg : g.walkedTag? = some t) (hname : t.name ≠ "") (pre post : List Field)
    (claimed : List String) :
    (outcomes claimed (pre ++ f :: g :: post)).flatMap Outcome.tokens =
      (outcomes claimed (pre ++ f.orElse g :: post)).flatMap
        Outcome.tokens := by
  induction pre generalizing claimed with
  | cons e pre ih =>
      simp only [List.cons_append, outcomes, List.flatMap_cons]
      rw [ih]
  | nil =>
      simp only [List.nil_append, outcomes, List.flatMap_cons, Field.orElse]
      split
      next hargs =>
        obtain ⟨htokens, hclaim⟩ := f.outcome_passes claimed (Or.inl hargs)
        rw [htokens, hclaim, List.nil_append]
      next hargs =>
        -- whether `f` is rendered or finds its name claimed, the name that it
        -- shares with `g` is claimed afterwards
        have heff : f.IsEffective :=
          ⟨Field.isNamed_of_walkedTag? hf hname, hargs⟩
        have hmem : t.name ∈ (f.outcome claimed).claim claimed :=
          (Field.mem_claim_outcome claimed f t.name).mpr
            (Or.inr ⟨heff, Field.optionName?_of_walkedTag? hf⟩)
        obtain ⟨htokens, hclaim⟩ := g.outcome_passes _
          (Or.inr ⟨t.name, hmem, Field.optionName?_of_walkedTag? hg⟩)
        rw [htokens, hclaim, List.nil_append]

end ContainerArgs.Flag
