import ContainerArgs.Proofs.Flag.Precedence
import Mathlib.Logic.Relation

/-!
# Options do not interfere

Encoding threads one list of claimed names through all fields, but what it puts
on the command line under a name depends on nothing except the exported fields
with that name, and among these on none after the first that renders something.
This module cuts the tokens of a record into blocks, one for every field that is
rendered, and says what each block depends on.
-/

namespace ContainerArgs.Flag

/-- The tokens of a field that is rendered, with the name of its option. -/
def Outcome.block : Outcome → List (String × List String)
  | .skipped _ => []
  | .rendered name tokens _ => [(name, tokens)]

namespace Record

/-- The blocks of tokens that come from the fields, in the order of
declaration. -/
def blocks (r : Record) : List (String × List String) :=
  (outcomes [] r.fields).flatMap Outcome.block

/-- The tokens that the fields contribute under a name. -/
def tokensUnder (r : Record) (name : String) : List String :=
  (r.blocks.filter (·.1 = name)).flatMap Prod.snd

theorem encode_arguments_eq_blocks (r : Record) :
    r.encode.arguments = r.blocks.flatMap Prod.snd ++ r.extra := by
  have htokens : ∀ o : Outcome, o.tokens = o.block.flatMap Prod.snd := by
    intro o
    cases o with
    | skipped reason => rfl
    | rendered name tokens notes => exact (List.append_nil tokens).symm
  rw [encode_arguments, fieldTokens, blocks, List.flatMap_assoc,
    List.flatMap_congr fun o _ => htokens o]

end Record

/-! ## What the outcome of a field depends on -/

namespace Field

/-- A field renders something under a name: it is effective and has that
name. -/
def RendersUnder (f : Field) (name : String) : Prop :=
  f.IsEffective ∧ f.optionName? = some name

instance (f : Field) (name : String) : Decidable (f.RendersUnder name) :=
  inferInstanceAs (Decidable (_ ∧ _))

/-- Of the names claimed before it, a field only asks whether its own is among
them. -/
theorem outcome_congr
    {claimed claimed' : List String} {f : Field}
    (h : ∀ name, f.optionName? = some name →
      (name ∈ claimed ↔ name ∈ claimed')) :
    f.outcome claimed = f.outcome claimed' := by
  rw [outcome, outcome]
  cases htag : f.tag with
  | none => rfl
  | some raw =>
      have hname : f.optionName? = some (Tag.parse raw).name := by
        rw [optionName?, htag]
        rfl
      simp only [List.contains_iff_mem, h _ hname]

theorem mem_claim_outcome_iff
    (claimed : List String) (f : Field) (name : String) :
    name ∈ (f.outcome claimed).claim claimed ↔
      name ∈ claimed ∨ f.RendersUnder name :=
  f.mem_claim_outcome claimed name

/-- Under a name, a field contributes its own tokens when it renders something
under it and the name is free, and else nothing. -/
theorem filter_block_outcome
    (claimed : List String) (f : Field) (name : String) :
    ((f.outcome claimed).block.filter (·.1 = name)).flatMap Prod.snd =
      if f.RendersUnder name ∧ name ∉ claimed then f.ownTokens else [] := by
  rcases f.outcome_cases claimed with
    ⟨hnamed, reason, hout⟩ | ⟨-, other, hmem, hopt, hout⟩ |
      ⟨hnamed, other, hfree, hopt, notes, hout⟩
  · rw [hout, if_neg fun h => hnamed h.1.1.1]
    rfl
  · rw [hout, if_neg]
    · rfl
    · rintro ⟨⟨-, hname⟩, hnot⟩
      obtain rfl := Option.some.inj (hopt.symm.trans hname)
      exact hnot hmem
  · rw [hout]
    by_cases hother : other = name
    · subst hother
      by_cases hargs : f.ownArguments = []
      · have htokens : f.ownTokens = [] := (f.ownTokens_eq_nil_iff).mpr hargs
        rw [if_neg fun h => h.1.1.2 hargs]
        simp [Outcome.block, htokens]
      · rw [if_pos ⟨⟨⟨hnamed, hargs⟩, hopt⟩, hfree⟩]
        simp [Outcome.block]
    · rw [if_neg]
      · simp [Outcome.block, hother]
      · rintro ⟨⟨-, hname⟩, -⟩
        exact hother (Option.some.inj (hopt.symm.trans hname))

end Field

/-- The outcomes of fields depend on the names claimed before only as a set. -/
theorem outcomes_congr
    {claimed claimed' : List String}
    (h : ∀ name, name ∈ claimed ↔ name ∈ claimed') (fs : List Field) :
    outcomes claimed fs = outcomes claimed' fs := by
  induction fs generalizing claimed claimed' with
  | nil => rfl
  | cons f fs ih =>
      have hout : f.outcome claimed = f.outcome claimed' :=
        Field.outcome_congr fun name _ => h name
      rw [outcomes, outcomes, hout]
      congr 1
      apply ih
      intro name
      rw [← hout, Field.mem_claim_outcome_iff, hout,
        Field.mem_claim_outcome_iff, h name]

/-! ## The tokens under one name -/

/-- Under a name that is free, the first field that renders something under it
contributes its own tokens, and nothing else is contributed. -/
theorem filter_blocks_outcomes
    (claimed : List String) (fs : List Field) (name : String) :
    (((outcomes claimed fs).flatMap Outcome.block).filter
        (·.1 = name)).flatMap Prod.snd =
      if name ∈ claimed then []
      else ((fs.find? (·.RendersUnder name)).map Field.ownTokens).getD [] := by
  induction fs generalizing claimed with
  | nil => simp [outcomes]
  | cons f fs ih =>
      have hhead := f.filter_block_outcome claimed name
      have htail := ih ((f.outcome claimed).claim claimed)
      rw [outcomes, List.flatMap_cons, List.filter_append, List.flatMap_append,
        hhead, htail]
      simp only [Field.mem_claim_outcome_iff, List.find?_cons]
      by_cases hmem : name ∈ claimed
      · simp [hmem]
      · by_cases hrenders : f.RendersUnder name
        · simp [hmem, hrenders]
        · simp [hmem, hrenders]

theorem Record.tokensUnder_eq (r : Record) (name : String) :
    r.tokensUnder name =
      ((r.fields.find? (·.RendersUnder name)).map Field.ownTokens).getD [] :=
  filter_blocks_outcomes [] r.fields name

/-! ## The fields that decide -/

/-- A list up to and including its first element with a property, or the whole
list where there is none. -/
def throughFirst {α : Type} (p : α → Bool) : List α → List α
  | [] => []
  | a :: as => if p a then [a] else a :: throughFirst p as

theorem find?_throughFirst {α : Type} (p : α → Bool) (as : List α) :
    (throughFirst p as).find? p = as.find? p := by
  induction as with
  | nil => rfl
  | cons a as ih =>
      rw [throughFirst]
      cases ha : p a with
      | true => simp [ha]
      | false => simp [ha, ih]

/-- The exported fields with a name, up to and including the first that renders
something. -/
def deciding (name : String) (fs : List Field) : List Field :=
  throughFirst (·.ownArguments ≠ [])
    (fs.filter fun f => f.exported ∧ f.optionName? = some name)

namespace Field

/-- What two fields must share to be the same for encoding, apart from being
exported. -/
def content (f : Field) : Option String × Value :=
  (f.tag, f.value)

theorem of_content_eq {f g : Field} (h : f.content = g.content) :
    f.optionName? = g.optionName? ∧ f.ownArguments = g.ownArguments ∧
      f.ownTokens = g.ownTokens := by
  obtain ⟨htag, hvalue⟩ := Prod.ext_iff.mp h
  have htag : f.tag = g.tag := htag
  have hvalue : f.value = g.value := hvalue
  have hargs : f.ownArguments = g.ownArguments := by
    rw [ownArguments, ownArguments, htag, hvalue]
  refine ⟨?_, hargs, ?_⟩
  · rw [optionName?, optionName?, htag]
  · rw [ownTokens, ownTokens, htag, hargs]

theorem rendersUnder_iff {f : Field} {name : String} (hname : name ≠ "") :
    f.RendersUnder name ↔
      (f.exported = true ∧ f.optionName? = some name) ∧
        f.ownArguments ≠ [] := by
  constructor
  · rintro ⟨⟨⟨hexp, -⟩, hargs⟩, hopt⟩
    exact ⟨⟨hexp, hopt⟩, hargs⟩
  · rintro ⟨⟨hexp, hopt⟩, hargs⟩
    exact ⟨⟨⟨hexp, name, hopt, hname⟩, hargs⟩, hopt⟩

theorem not_rendersUnder_empty (f : Field) :
    ¬f.RendersUnder "" := by
  rintro ⟨⟨⟨-, name, hmem, hname⟩, -⟩, hopt⟩
  exact hname (Option.some.inj (hmem.symm.trans hopt))

end Field

theorem find?_rendersUnder_eq_deciding
    {name : String} (hname : name ≠ "") (fs : List Field) :
    fs.find? (·.RendersUnder name) =
      (deciding name fs).find? (·.ownArguments ≠ []) := by
  rw [deciding, find?_throughFirst, List.find?_filter]
  congr 1
  funext f
  simp [Field.rendersUnder_iff hname]

theorem getD_find?_of_map_content
    {fs gs : List Field} (h : fs.map Field.content = gs.map Field.content) :
    ((fs.find? (·.ownArguments ≠ [])).map Field.ownTokens).getD [] =
      ((gs.find? (·.ownArguments ≠ [])).map Field.ownTokens).getD [] := by
  induction fs generalizing gs with
  | nil =>
      obtain rfl : gs = [] := by simpa using h.symm
      rfl
  | cons f fs ih =>
      cases gs with
      | nil => simp at h
      | cons g gs =>
          obtain ⟨hhead, htail⟩ := List.cons.inj h
          obtain ⟨-, hargs, htokens⟩ := Field.of_content_eq hhead
          rw [List.find?_cons, List.find?_cons, hargs]
          cases decide (g.ownArguments ≠ []) with
          | true => simp [htokens]
          | false => exact ih htail

/-- The fields that decide about a name settle what is contributed under it. -/
theorem Record.tokensUnder_congr
    {r s : Record} {name : String}
    (h : (deciding name r.fields).map Field.content =
      (deciding name s.fields).map Field.content) :
    r.tokensUnder name = s.tokensUnder name := by
  rw [tokensUnder_eq, tokensUnder_eq]
  by_cases hname : name = ""
  · subst hname
    have hnone : ∀ fs : List Field, fs.find? (·.RendersUnder "") = none := by
      intro fs
      simp [Field.not_rendersUnder_empty]
    rw [hnone, hnone]
  · rw [find?_rendersUnder_eq_deciding hname,
      find?_rendersUnder_eq_deciding hname]
    exact getD_find?_of_map_content h

/-! ## Edits that do not matter -/

/-- A field behind other fields is idle under a name when it renders nothing
under it, be it that the field is not exported, has no tag, no name or another
name, or when one of the fields before renders something under the name. -/
def Field.IsIdle (name : String) (before : List Field) (f : Field) : Prop :=
  ¬f.RendersUnder name ∨ ∃ g ∈ before, g.RendersUnder name

/-- An edit that is none of a name's business: a field that is idle there is put
in, or the extra tokens are replaced. -/
inductive IdleEdit (name : String) : Record → Record → Prop where
  | field (before : List Field) {f : Field} (after : List Field)
      (extra : List String) (h : f.IsIdle name before) :
      IdleEdit name ⟨before ++ after, extra⟩ ⟨before ++ f :: after, extra⟩
  | extra (fields : List Field) (extra extra' : List String) :
      IdleEdit name ⟨fields, extra⟩ ⟨fields, extra'⟩

theorem find?_of_isIdle
    {name : String} {before : List Field} {f : Field}
    (h : f.IsIdle name before) (after : List Field) :
    (before ++ f :: after).find? (·.RendersUnder name) =
      (before ++ after).find? (·.RendersUnder name) := by
  rw [List.find?_append, List.find?_append, List.find?_cons]
  rcases h with hnot | ⟨g, hg, hrenders⟩
  · rw [decide_eq_false hnot]
  · cases hfind : before.find? (·.RendersUnder name) with
    | some e => rfl
    | none =>
        have hnone := List.find?_eq_none.mp hfind g hg
        exact absurd (decide_eq_true hrenders) hnone

theorem IdleEdit.tokensUnder_eq
    {name : String} {r s : Record} (h : IdleEdit name r s) :
    r.tokensUnder name = s.tokensUnder name := by
  rw [Record.tokensUnder_eq, Record.tokensUnder_eq]
  cases h with
  | field before after extra hidle => rw [find?_of_isIdle hidle]
  | extra fields extra extra' => rfl

/-- Idle edits, done or undone in any number, leave what is contributed under
the name alone. -/
theorem tokensUnder_of_eqvGen_idleEdit
    {name : String} {r s : Record} (h : Relation.EqvGen (IdleEdit name) r s) :
    r.tokensUnder name = s.tokensUnder name := by
  induction h with
  | rel r s hstep => exact hstep.tokensUnder_eq
  | refl r => rfl
  | symm r s _ ih => exact ih.symm
  | trans r s t _ _ ihrs ihst => exact ihrs.trans ihst

/-! ## Fields that are not exported -/

theorem Field.outcome_of_not_exported
    {f : Field} (h : f.exported = false) (claimed : List String) :
    f.outcome claimed = .skipped (.notExported f.ident) := by
  rw [outcome, h]
  rfl

/-- Two fields look the same from outside when they are the same or neither is
exported; then only their identifiers, which show in notes, are the same. -/
def Field.LooksLike (f g : Field) : Prop :=
  f = g ∨ (f.exported = false ∧ g.exported = false ∧ f.ident = g.ident)

theorem Field.outcome_of_looksLike
    {f g : Field} (h : f.LooksLike g) (claimed : List String) :
    f.outcome claimed = g.outcome claimed := by
  rcases h with rfl | ⟨hf, hg, hident⟩
  · rfl
  · rw [outcome_of_not_exported hf, outcome_of_not_exported hg, hident]

theorem outcomes_of_looksLike
    {fs gs : List Field} (h : List.Forall₂ Field.LooksLike fs gs)
    (claimed : List String) :
    outcomes claimed fs = outcomes claimed gs :=
  outcomes_of_forall₂ Field.outcome_of_looksLike h claimed

theorem flatMap_tokens_outcomes_exported
    (claimed : List String) (fs : List Field) :
    (outcomes claimed (fs.filter (·.exported))).flatMap Outcome.tokens =
      (outcomes claimed fs).flatMap Outcome.tokens := by
  induction fs generalizing claimed with
  | nil => rfl
  | cons f fs ih =>
      cases hexp : f.exported with
      | true =>
          rw [List.filter_cons_of_pos hexp, outcomes, outcomes,
            List.flatMap_cons, List.flatMap_cons, ih]
      | false =>
          have hout := Field.outcome_of_not_exported hexp claimed
          rw [List.filter_cons_of_neg (by simp [hexp]), outcomes, hout, ih]
          rfl

/-! ## Neighbours -/

/-- Passing a field that does not have a name leaves it as free as it was. -/
theorem Field.outcome_claim_outcome
    {f g : Field} (h : f.optionName? ≠ g.optionName?) (claimed : List String) :
    g.outcome ((f.outcome claimed).claim claimed) = g.outcome claimed := by
  refine outcome_congr fun name hname => ?_
  rw [mem_claim_outcome_iff]
  constructor
  · rintro (hmem | ⟨-, hopt⟩)
    · exact hmem
    · exact absurd (hopt.trans hname.symm) h
  · exact Or.inl

/-- Two neighbours with different names have outcomes that do not depend on
their order, and neither does what becomes of the fields after them. -/
theorem outcomes_swap
    {f g : Field} (h : f.optionName? ≠ g.optionName?) (claimed : List String)
    (after : List Field) :
    ∃ os,
      outcomes claimed (f :: g :: after) =
          f.outcome claimed :: g.outcome claimed :: os ∧
        outcomes claimed (g :: f :: after) =
          g.outcome claimed :: f.outcome claimed :: os := by
  have hg := Field.outcome_claim_outcome h claimed
  have hf := Field.outcome_claim_outcome h.symm claimed
  have hafter :
      outcomes ((f.outcome claimed).claim ((g.outcome claimed).claim claimed))
          after =
        outcomes ((g.outcome claimed).claim ((f.outcome claimed).claim claimed))
          after := by
    -- Either order claims what was claimed before and what the two render.
    refine outcomes_congr (fun name => ?_) after
    nth_rewrite 1 [← hf]
    nth_rewrite 3 [← hg]
    simp only [Field.mem_claim_outcome_iff]
    exact or_right_comm
  refine ⟨outcomes
    ((g.outcome claimed).claim ((f.outcome claimed).claim claimed)) after,
    ?_, ?_⟩
  · rw [outcomes, outcomes, hg]
  · rw [outcomes, outcomes, hf, hafter]

/-- Two neighbours with different names each contribute the block that they
contribute without the other, in the order in which they stand. -/
theorem Record.blocks_swap
    {f g : Field} (h : f.optionName? ≠ g.optionName?) (before after : List Field)
    (extra : List String) :
    ∃ x y blocksAfter,
      blocks ⟨before ++ [f], extra⟩ = blocks ⟨before, extra⟩ ++ x ∧
        blocks ⟨before ++ [g], extra⟩ = blocks ⟨before, extra⟩ ++ y ∧
        blocks ⟨before ++ f :: g :: after, extra⟩ =
          blocks ⟨before, extra⟩ ++ x ++ y ++ blocksAfter ∧
        blocks ⟨before ++ g :: f :: after, extra⟩ =
          blocks ⟨before, extra⟩ ++ y ++ x ++ blocksAfter := by
  have hlast : ∀ e : Field, blocks ⟨before ++ [e], extra⟩ =
      blocks ⟨before, extra⟩ ++ (e.outcome (claimedAfter [] before)).block := by
    intro e
    rw [blocks, blocks, outcomes_append, outcomes, outcomes,
      List.flatMap_append, List.flatMap_singleton]
  obtain ⟨osAfter, hfg, hgf⟩ := outcomes_swap h (claimedAfter [] before) after
  refine ⟨_, _, osAfter.flatMap Outcome.block, hlast f, hlast g, ?_, ?_⟩
  · rw [blocks, blocks, outcomes_append, hfg]
    simp only [List.flatMap_append, List.flatMap_cons, List.append_assoc]
  · rw [blocks, blocks, outcomes_append, hgf]
    simp only [List.flatMap_append, List.flatMap_cons, List.append_assoc]

/-- Options do not interfere. The tokens of the fields come in blocks, one for
each field that is rendered, and extra tokens follow. What is contributed under
a name depends on nothing but the tags and values of the exported fields with
that name, up to and including the first that renders something; so no edit of a
field that is idle under the name, and no edit of the extra tokens, ever shows
there. Fields that are not exported show nowhere: neither the tokens nor the
notes depend on their tags and values, and without them the tokens are the same.
Swapping two neighbours with different names swaps their blocks. -/
theorem options_do_not_interfere :
    (∀ r : Record, r.encode.arguments = r.blocks.flatMap Prod.snd ++ r.extra) ∧
      (∀ (name : String) (r s : Record),
        (deciding name r.fields).map Field.content =
            (deciding name s.fields).map Field.content →
          r.tokensUnder name = s.tokensUnder name) ∧
      (∀ (name : String) (r s : Record),
        Relation.EqvGen (IdleEdit name) r s →
          r.tokensUnder name = s.tokensUnder name) ∧
      (∀ (fs gs : List Field) (extra : List String),
        List.Forall₂ Field.LooksLike fs gs →
          Record.encode ⟨fs, extra⟩ = Record.encode ⟨gs, extra⟩) ∧
      (∀ (fs : List Field) (extra : List String),
        (Record.encode ⟨fs.filter (·.exported), extra⟩).arguments =
          (Record.encode ⟨fs, extra⟩).arguments) ∧
      (∀ (before after : List Field) (f g : Field) (extra : List String),
        f.optionName? ≠ g.optionName? →
          ∃ x y blocksAfter,
            Record.blocks ⟨before ++ [f], extra⟩ =
                Record.blocks ⟨before, extra⟩ ++ x ∧
              Record.blocks ⟨before ++ [g], extra⟩ =
                Record.blocks ⟨before, extra⟩ ++ y ∧
              Record.blocks ⟨before ++ f :: g :: after, extra⟩ =
                Record.blocks ⟨before, extra⟩ ++ x ++ y ++ blocksAfter ∧
              Record.blocks ⟨before ++ g :: f :: after, extra⟩ =
                Record.blocks ⟨before, extra⟩ ++ y ++ x ++ blocksAfter) := by
  refine ⟨Record.encode_arguments_eq_blocks, ?_, ?_, ?_, ?_, ?_⟩
  · intro name r s h
    exact Record.tokensUnder_congr h
  · intro name r s h
    exact tokensUnder_of_eqvGen_idleEdit h
  · intro fs gs extra h
    rw [Record.encode, Record.encode, outcomes_of_looksLike h]
  · intro fs extra
    rw [Record.encode, Record.encode]
    exact congrArg (· ++ extra) (flatMap_tokens_outcomes_exported [] fs)
  · intro before after f g extra h
    exact Record.blocks_swap h before after extra

/-- A field that is not exported, a field that is shadowed and an extra token do
not show in what is contributed under the name. -/
theorem options_do_not_interfere_level :
    (deciding "level"
          [⟨"secret", some "level", false, .leaf (.text "debug")⟩,
            .tagged "level" "level" (.leaf (.text "info")),
            .tagged "again" "level" (.leaf (.text "warn"))]).map Field.content =
        (deciding "level"
          [.tagged "chosen" "level" (.leaf (.text "info"))]).map Field.content ∧
      Record.tokensUnder
          ⟨[⟨"secret", some "level", false, .leaf (.text "debug")⟩,
            .tagged "level" "level" (.leaf (.text "info")),
            .tagged "again" "level" (.leaf (.text "warn"))], ["--level=error"]⟩
          "level" =
        Record.tokensUnder
          ⟨[.tagged "chosen" "level" (.leaf (.text "info"))], []⟩ "level" :=
  have h := by rfl
  ⟨h, options_do_not_interfere.2.1 "level" ⟨_, _⟩ ⟨_, _⟩ h⟩

end ContainerArgs.Flag
