import ContainerArgs.Proofs.Settings.Stable
import ContainerArgs.Yaml.Compose
import Mathlib.Data.List.Basic

/-!
# Composing step by step

A step of composing a value gives a result and counts the aliases that it
follows.  A step that succeeds also does so when fewer aliases were followed
before it: the count only ever refuses.  A node that is composed to a text is a
scalar with that text, and one that is composed to a mapping is a mapping whose
entries are composed one after another.
-/

namespace ContainerArgs.Yaml.Compose

variable {α β : Type} {aliases : Aliases} {i j k : ℕ}

/-- The step gives a result, with so many aliases followed before it and so many
after it. -/
def Yields (step : Compose α) (aliases : Aliases) (i : ℕ) (a : α) (j : ℕ) :
    Prop :=
  (step.run aliases).run i = .ok (a, j)

theorem Yields.unique
    {step : Compose α} {a b : α} (ha : step.Yields aliases i a j)
    (hb : step.Yields aliases i b k) :
    a = b ∧ j = k :=
  Prod.mk.inj (Except.ok.inj (ha.symm.trans hb))

theorem yields_pure_iff {a b : α} :
    (pure a : Compose α).Yields aliases i b j ↔ a = b ∧ i = j := by
  constructor
  · intro h
    exact Prod.mk.inj (Except.ok.inj h)
  · rintro ⟨rfl, rfl⟩
    rfl

theorem yields_bind_iff {step : Compose α} {next : α → Compose β} {b : β} :
    (step >>= next).Yields aliases i b k ↔
      ∃ a j, step.Yields aliases i a j ∧ (next a).Yields aliases j b k := by
  have hrun : ((step >>= next).run aliases).run i =
      (step.run aliases).run i >>= fun p => ((next p.1).run aliases).run p.2 := rfl
  rw [Yields, hrun, Settings.bind_eq_ok_iff]
  constructor
  · rintro ⟨⟨a, j⟩, ha, hb⟩
    exact ⟨a, j, ha, hb⟩
  · rintro ⟨a, j, ha, hb⟩
    exact ⟨(a, j), ha, hb⟩

theorem not_yields_throw {fault : Error} {a : α} :
    ¬(throw fault : Compose α).Yields aliases i a j :=
  nofun

theorem yields_guard_iff
    {c : Prop} [Decidable c] {fault : Error} {next : PUnit → Compose α} {a : α} :
    (if c then throw fault >>= next else next ⟨⟩).Yields aliases i a j ↔
      ¬c ∧ (next ⟨⟩).Yields aliases i a j := by
  split
  next hc =>
    refine ⟨?_, fun h => absurd hc h.1⟩
    intro h
    obtain ⟨_, _, hthrow, -⟩ := yields_bind_iff.mp h
    exact absurd hthrow not_yields_throw
  next hc => exact ⟨fun h => ⟨hc, h⟩, And.right⟩

theorem yields_lift_iff {r : Except Error α} {a : α} :
    (liftM r : Compose α).Yields aliases i a j ↔ r = .ok a ∧ i = j := by
  cases r with
  | error fault => exact ⟨nofun, nofun⟩
  | ok b =>
      constructor
      · intro h
        obtain ⟨rfl, rfl⟩ := Prod.mk.inj (Except.ok.inj h)
        exact ⟨rfl, rfl⟩
      · rintro ⟨h, rfl⟩
        obtain rfl := Except.ok.inj h
        rfl

theorem yields_read_iff {a : Aliases} :
    (read : Compose Aliases).Yields aliases i a j ↔ aliases = a ∧ i = j := by
  constructor
  · intro h
    exact Prod.mk.inj (Except.ok.inj h)
  · rintro ⟨rfl, rfl⟩
    rfl

theorem yields_get_iff {n : ℕ} :
    (get : Compose ℕ).Yields aliases i n j ↔ i = n ∧ i = j := by
  constructor
  · intro h
    exact Prod.mk.inj (Except.ok.inj h)
  · rintro ⟨rfl, rfl⟩
    rfl

theorem yields_set_iff {n : ℕ} {u : PUnit} :
    (set n : Compose PUnit).Yields aliases i u j ↔ n = j := by
  constructor
  · intro h
    exact (Prod.mk.inj (Except.ok.inj h)).2
  · rintro rfl
    rfl

theorem yields_follow_alias_iff {target : ℕ} {n : Node} :
    (follow (.alias target)).Yields aliases i n j ↔
      i + 1 ≤ aliases.limit ∧ aliases.targets.lookup target = some n ∧
        i + 1 = j := by
  rw [follow]
  simp only [yields_bind_iff, yields_read_iff, yields_get_iff, yields_set_iff]
  constructor
  · rintro ⟨_, _, ⟨rfl, rfl⟩, _, _, ⟨rfl, rfl⟩, _, _, rfl, h⟩
    obtain ⟨hlimit, h⟩ := yields_guard_iff.mp h
    split at h
    next m hlookup =>
      obtain ⟨rfl, rfl⟩ := yields_pure_iff.mp h
      exact ⟨by omega, hlookup, rfl⟩
    next => exact absurd h not_yields_throw
  · rintro ⟨hlimit, hlookup, rfl⟩
    refine ⟨aliases, i, ⟨rfl, rfl⟩, i, i, ⟨rfl, rfl⟩, ⟨⟩, i + 1, rfl, ?_⟩
    rw [if_neg (by omega), hlookup]
    exact yields_pure_iff.mpr ⟨rfl, rfl⟩

theorem follow_of_not_alias {n : Node} (h : ∀ target, n ≠ .alias target) :
    follow n = pure n := by
  match n with
  | .alias target => exact absurd rfl (h target)
  | .scalar _ _ _ => rfl
  | .sequence _ _ => rfl
  | .mapping _ _ => rfl

/-! ## Fewer aliases before a step -/

/-- The step gives the result with at most so many aliases followed after it,
however many were followed before it up to a number. -/
def YieldsWithin (step : Compose α) (aliases : Aliases) (i : ℕ) (a : α) (j : ℕ) :
    Prop :=
  ∀ i' ≤ i, ∃ j' ≤ j, step.Yields aliases i' a j'

theorem YieldsWithin.of_le
    {step : Compose α} {a : α} {i' : ℕ} (h : step.YieldsWithin aliases i a j)
    (hi : i' ≤ i) :
    step.YieldsWithin aliases i' a j := by
  intro i'' hi'
  exact h i'' (hi'.trans hi)

theorem yieldsWithin_pure (a : α) :
    (pure a : Compose α).YieldsWithin aliases i a i := by
  intro i' hi
  exact ⟨i', hi, yields_pure_iff.mpr ⟨rfl, rfl⟩⟩

theorem YieldsWithin.bind
    {step : Compose α} {next : α → Compose β} {a : α} {b : β}
    (hstep : step.YieldsWithin aliases i a j)
    (hnext : (next a).YieldsWithin aliases j b k) :
    (step >>= next).YieldsWithin aliases i b k := by
  intro i' hi
  obtain ⟨j', hj, ha⟩ := hstep i' hi
  obtain ⟨k', hk, hb⟩ := hnext j' hj
  exact ⟨k', hk, yields_bind_iff.mpr ⟨a, j', ha, hb⟩⟩

theorem YieldsWithin.guard
    {c : Prop} [Decidable c] {fault : Error} {next : PUnit → Compose α} {a : α}
    (hc : ¬c) (h : (next ⟨⟩).YieldsWithin aliases i a j) :
    (if c then throw fault >>= next else next ⟨⟩).YieldsWithin aliases i a j := by
  rw [if_neg hc]
  exact h

/-- The step does no more with the number of aliases than count on and refuse
when there are too many: what it gives is also given after fewer. -/
structure Counts (step : Compose α) : Prop where
  le {aliases : Aliases} {i j : ℕ} {a : α} : step.Yields aliases i a j → i ≤ j
  within {aliases : Aliases} {i j : ℕ} {a : α} :
    step.Yields aliases i a j → step.YieldsWithin aliases i a j

theorem counts_pure (a : α) : (pure a : Compose α).Counts where
  le h := (yields_pure_iff.mp h).2.le
  within h := by
    obtain ⟨rfl, rfl⟩ := yields_pure_iff.mp h
    exact yieldsWithin_pure a

theorem counts_throw (fault : Error) : (throw fault : Compose α).Counts where
  le h := absurd h not_yields_throw
  within h := absurd h not_yields_throw

theorem counts_lift (r : Except Error α) : (liftM r : Compose α).Counts where
  le h := (yields_lift_iff.mp h).2.le
  within h i' hi := by
    obtain ⟨hr, rfl⟩ := yields_lift_iff.mp h
    exact ⟨i', hi, yields_lift_iff.mpr ⟨hr, rfl⟩⟩

theorem Counts.bind
    {step : Compose α} {next : α → Compose β} (hstep : step.Counts)
    (hnext : ∀ a, (next a).Counts) :
    (step >>= next).Counts where
  le h := by
    obtain ⟨a, j, ha, hb⟩ := yields_bind_iff.mp h
    exact (hstep.le ha).trans ((hnext a).le hb)
  within h := by
    obtain ⟨a, j, ha, hb⟩ := yields_bind_iff.mp h
    exact (hstep.within ha).bind ((hnext a).within hb)

theorem counts_follow (n : Node) : (follow n).Counts := by
  by_cases halias : ∃ target, n = .alias target
  · obtain ⟨target, rfl⟩ := halias
    constructor
    · intro aliases i j m h
      obtain ⟨-, -, rfl⟩ := yields_follow_alias_iff.mp h
      exact Nat.le_succ i
    · intro aliases i j m h i' hi
      obtain ⟨hlimit, hlookup, rfl⟩ := yields_follow_alias_iff.mp h
      refine ⟨i' + 1, by omega, ?_⟩
      exact yields_follow_alias_iff.mpr ⟨by omega, hlookup, rfl⟩
  · rw [follow_of_not_alias fun target htarget => halias ⟨target, htarget⟩]
    exact counts_pure n

theorem counts_mapM
    {read : Node → Compose α} (h : ∀ n, (read n).Counts) (ns : List Node) :
    (ns.mapM read).Counts := by
  induction ns with
  | nil => exact counts_pure []
  | cons n ns ih =>
      rw [List.mapM_cons]
      exact (h n).bind fun a => ih.bind fun as => counts_pure (a :: as)

theorem counts_entries
    {read : Node → Compose Value} (h : ∀ n, (read n).Counts)
    (before : List (Value × Value)) (es : List (Node × Node)) :
    (entries read before es).Counts := by
  induction es generalizing before with
  | nil => exact counts_pure _
  | cons e es ih =>
      obtain ⟨k, v⟩ := e
      rw [entries]
      refine (h k).bind fun key => ?_
      have hrest := (h v).bind fun value => ih ((key, value) :: before)
      split
      next => exact (counts_throw _).bind fun _ => hrest
      next => exact hrest

theorem counts_value (depth : ℕ) (n : Node) : (value depth n).Counts := by
  induction depth generalizing n with
  | zero =>
      rw [value]
      refine (counts_follow n).bind fun m => ?_
      match m with
      | .scalar p plain text => exact counts_lift _
      | .sequence p elements => exact counts_throw _
      | .mapping p es => exact counts_throw _
      | .alias target => exact counts_throw _
  | succ depth ih =>
      rw [value]
      refine (counts_follow n).bind fun m => ?_
      match m with
      | .scalar p plain text => exact counts_lift _
      | .sequence p elements =>
          exact (counts_mapM ih elements).bind fun _ => counts_pure _
      | .mapping p es =>
          exact (counts_entries ih [] es).bind fun _ => counts_pure _
      | .alias target => exact counts_throw _

/-! ## What a node is composed to -/

theorem untag_withTag (tag : Option Tag) (v : Value) :
    (withTag tag v).untag = v.untag := by
  rw [withTag]
  split
  next => rw [Value.untag]
  next => rfl

/-- A value of the core types is not a text, a sequence or a mapping. -/
def IsCore : Value → Prop
  | .null => True
  | .bool _ => True
  | .int _ => True
  | .float _ => True
  | _ => False

theorem eq_int_of_ofInt
    {n : Int} {v : Value} (h : Plain.ofInt n = some (.ok v)) :
    v = .int n := by
  rw [Plain.ofInt] at h
  split at h
  next => exact (Except.ok.inj (Option.some.inj h)).symm
  next =>
    split at h
    next => cases h
    next => cases h

theorem number?_cases {s : String} {v : Value}
    (h : Plain.number? s = some (.ok v)) :
    (∃ n, v = .int n) ∨ ∃ x, v = .float x := by
  rw [Plain.number?] at h
  split at h
  next r hint =>
    obtain ⟨n, -, hn⟩ := Option.bind_eq_some_iff.mp hint
    rw [h] at hn
    exact .inl ⟨n, eq_int_of_ofInt hn⟩
  next =>
    split at h
    next => cases h
    next =>
      obtain ⟨x, -, hx⟩ := Option.map_eq_some_iff.mp h
      exact .inr ⟨x, (Except.ok.inj hx).symm⟩

theorem isCore_of_number? {s : String} {v : Value}
    (h : Plain.number? s = some (.ok v)) :
    IsCore v := by
  rcases number?_cases h with ⟨n, rfl⟩ | ⟨x, rfl⟩
  · trivial
  · trivial

/-- A plain scalar denotes its own text or a value of the core types, and null
only when it is nothing or spells null. -/
theorem resolve_cases {s : String} {v : Value} (h : Plain.resolve s = .ok v) :
    (s.isEmpty || Plain.isNull s) = true ∧ v = .null ∨
      v ≠ .null ∧ (v = .text s ∨ IsCore v) := by
  rw [Plain.resolve] at h
  split at h
  next hnull =>
    exact .inl ⟨hnull, (Except.ok.inj h).symm⟩
  next =>
    split at h
    next b hb =>
      obtain rfl := Except.ok.inj h
      exact .inr ⟨nofun, .inr trivial⟩
    next =>
      cases hnumber : Plain.number? s with
      | none =>
          rw [hnumber] at h
          obtain rfl := Except.ok.inj h
          exact .inr ⟨nofun, .inl rfl⟩
      | some r =>
          rw [hnumber] at h
          obtain rfl : r = .ok v := h
          refine .inr ⟨?_, .inr (isCore_of_number? hnumber)⟩
          rcases number?_cases hnumber with ⟨n, rfl⟩ | ⟨x, rfl⟩
          · nofun
          · nofun

/-- Without a tag a scalar denotes null only when it is plain. -/
theorem plain_of_untaggedScalar {plain : Bool} {s : String}
    (h : untaggedScalar plain s = .ok .null) :
    plain = true ∧ (s.isEmpty || Plain.isNull s) = true := by
  rw [untaggedScalar] at h
  split at h
  next hplain =>
    rcases resolve_cases h with ⟨hnull, -⟩ | ⟨hnot, -⟩
    · exact ⟨hplain, hnull⟩
    · exact absurd rfl hnot
  next => cases h

theorem untaggedScalar_cases {plain : Bool} {s : String} {v : Value}
    (h : untaggedScalar plain s = .ok v) :
    v = .text s ∨ IsCore v := by
  rw [untaggedScalar] at h
  split at h
  next =>
    rcases resolve_cases h with ⟨-, rfl⟩ | ⟨-, hcases⟩
    · exact .inr trivial
    · exact hcases
  next => exact .inl (Except.ok.inj h).symm

theorem isCore_of_coreScalar {type : CoreType} {s : String} {v : Value}
    (h : coreScalar type s = .ok v) :
    IsCore v := by
  cases type with
  | null =>
      rw [coreScalar] at h
      split at h
      next =>
        obtain rfl := Except.ok.inj h
        trivial
      next => cases h
  | bool =>
      rw [coreScalar] at h
      split at h
      next =>
        obtain rfl := Except.ok.inj h
        trivial
      next => cases h
  | int =>
      rw [coreScalar] at h
      cases hint : (Plain.int? s).bind Plain.ofInt with
      | none =>
          rw [hint] at h
          cases h
      | some r =>
          rw [hint] at h
          obtain rfl : r = .ok v := h
          obtain ⟨n, -, hn⟩ := Option.bind_eq_some_iff.mp hint
          obtain rfl := eq_int_of_ofInt hn
          trivial
  | float =>
      rw [coreScalar] at h
      split at h
      next =>
        obtain rfl := Except.ok.inj h
        trivial
      next => cases h

/-- A scalar with a name in its tag denotes what it would without the tag, with
that name; any other denotes its own text or a value of the core types. -/
theorem scalar_cases {tag : Option Tag} {plain : Bool} {s : String} {v : Value}
    (h : scalar tag plain s = .ok v) :
    (tag.bind Tag.localName? = none ∧ (v = .text s ∨ IsCore v)) ∨
      ∃ name w, tag.bind Tag.localName? = some name ∧
        untaggedScalar plain s = .ok w ∧ v = .tagged name w := by
  cases tag with
  | none => exact .inl ⟨rfl, untaggedScalar_cases h⟩
  | some t =>
      simp only [scalar] at h
      split at h
      next =>
        obtain ⟨w, hw, rfl⟩ := Settings.map_eq_ok_iff.mp h
        cases hname : (some t).bind Tag.localName? with
        | none =>
            rw [withTag, hname]
            exact .inl ⟨rfl, untaggedScalar_cases hw⟩
        | some name =>
            rw [withTag, hname]
            exact .inr ⟨name, w, rfl, hw, rfl⟩
      next hglobal =>
        have hnone : (some t).bind Tag.localName? = none := by
          rw [Option.bind_some, Tag.localName?, if_neg hglobal]
        refine .inl ⟨hnone, ?_⟩
        split at h
        next type => exact .inr (isCore_of_coreScalar h)
        next => exact .inl (Except.ok.inj h).symm

theorem untag_of_isCore {v : Value} (h : IsCore v) : v.untag = v := by
  cases v with
  | tagged tag v => exact h.elim
  | _ => rfl

/-- Tags apart, a scalar denotes its own text or a value of the core types. -/
theorem untag_scalar_cases
    {tag : Option Tag} {plain : Bool} {s : String} {v : Value}
    (h : scalar tag plain s = .ok v) :
    v.untag = .text s ∨ IsCore v.untag := by
  have huntag : ∀ w : Value, w = .text s ∨ IsCore w →
      w.untag = .text s ∨ IsCore w.untag := by
    rintro w (rfl | hcore)
    · exact .inl rfl
    · rw [untag_of_isCore hcore]
      exact .inr hcore
  rcases scalar_cases h with ⟨-, hv⟩ | ⟨name, w, -, hw, rfl⟩
  · exact huntag v hv
  · rw [Value.untag]
    exact huntag w (untaggedScalar_cases hw)

/-- What a node is composed to, by what it leads to. -/
theorem value_cases {depth : ℕ} {n : Node} {v : Value}
    (h : (value depth n).Yields aliases i v j) :
    (∃ p plain s, (follow n).Yields aliases i (.scalar p plain s) j ∧
        scalar p.tag plain s = .ok v) ∨
      (∃ p elements k depth' vs,
        (follow n).Yields aliases i (.sequence p elements) k ∧
        depth = depth' + 1 ∧
        (elements.mapM (value depth')).Yields aliases k vs j ∧
        v = withTag p.tag (.sequence vs)) ∨
      ∃ p es k depth' fs, (follow n).Yields aliases i (.mapping p es) k ∧
        depth = depth' + 1 ∧
        (entries (value depth') [] es).Yields aliases k fs j ∧
        v = withTag p.tag (.mapping fs) := by
  rw [value] at h
  obtain ⟨m, k, hfollow, h⟩ := yields_bind_iff.mp h
  match m with
  | .scalar p plain s =>
      obtain ⟨hscalar, rfl⟩ := yields_lift_iff.mp h
      exact .inl ⟨p, plain, s, hfollow, hscalar⟩
  | .sequence p elements =>
      cases depth with
      | zero => exact absurd h not_yields_throw
      | succ depth =>
          obtain ⟨vs, _, hvs, hpure⟩ := yields_bind_iff.mp h
          obtain ⟨rfl, rfl⟩ := yields_pure_iff.mp hpure
          exact .inr (.inl ⟨p, elements, k, depth, vs, hfollow, rfl, hvs, rfl⟩)
  | .mapping p es =>
      cases depth with
      | zero => exact absurd h not_yields_throw
      | succ depth =>
          obtain ⟨fs, _, hfs, hpure⟩ := yields_bind_iff.mp h
          obtain ⟨rfl, rfl⟩ := yields_pure_iff.mp hpure
          exact .inr (.inr ⟨p, es, k, depth, fs, hfollow, rfl, hfs, rfl⟩)
  | .alias target => exact absurd h not_yields_throw

/-- A node whose value is no collection leads to a scalar. -/
theorem exists_scalar_of_untag_ne {depth : ℕ} {n : Node} {v : Value}
    (h : (value depth n).Yields aliases i v j)
    (hsequence : ∀ vs, v.untag ≠ .sequence vs)
    (hmapping : ∀ es, v.untag ≠ .mapping es) :
    ∃ p plain s, (follow n).Yields aliases i (.scalar p plain s) j ∧
      scalar p.tag plain s = .ok v := by
  rcases value_cases h with hscalar |
    ⟨p, elements, k, depth', vs, -, -, -, rfl⟩ |
    ⟨p, es, k, depth', fs, -, -, -, rfl⟩
  · exact hscalar
  · exact absurd (untag_withTag p.tag (.sequence vs)) (hsequence vs)
  · exact absurd (untag_withTag p.tag (.mapping fs)) (hmapping fs)

/-- A node that is composed to a text leads to a scalar with that text. -/
theorem exists_scalar_of_untag_eq_text {depth : ℕ} {n : Node} {v : Value}
    {s : String} (h : (value depth n).Yields aliases i v j)
    (hv : v.untag = .text s) :
    ∃ p plain, (follow n).Yields aliases i (.scalar p plain s) j := by
  obtain ⟨p, plain, t, hfollow, hscalar⟩ :=
    exists_scalar_of_untag_ne h (by rw [hv]; nofun) (by rw [hv]; nofun)
  rcases untag_scalar_cases hscalar with ht | hcore
  · obtain rfl : t = s := Value.text.inj (ht.symm.trans hv)
    exact ⟨p, plain, hfollow⟩
  · rw [hv] at hcore
    exact hcore.elim

theorem exists_sequence_of_untag_eq {depth : ℕ} {n : Node} {v : Value}
    {vs : List Value} (h : (value depth n).Yields aliases i v j)
    (hv : v.untag = .sequence vs) :
    ∃ p elements k depth', depth = depth' + 1 ∧
      (follow n).Yields aliases i (.sequence p elements) k ∧
      (elements.mapM (value depth')).Yields aliases k vs j := by
  rcases value_cases h with ⟨p, plain, t, -, hscalar⟩ |
    ⟨p, elements, k, depth', ws, hfollow, hdepth, hws, rfl⟩ |
    ⟨p, es, k, depth', fs, -, -, -, rfl⟩
  · rcases untag_scalar_cases hscalar with ht | hcore
    · rw [hv] at ht
      cases ht
    · rw [hv] at hcore
      exact hcore.elim
  · rw [untag_withTag] at hv
    obtain rfl := Value.sequence.inj hv
    exact ⟨p, elements, k, depth', hdepth, hfollow, hws⟩
  · rw [untag_withTag] at hv
    cases hv

theorem exists_mapping_of_untag_eq {depth : ℕ} {n : Node} {v : Value}
    {fs : List (Value × Value)} (h : (value depth n).Yields aliases i v j)
    (hv : v.untag = .mapping fs) :
    ∃ p es k depth', depth = depth' + 1 ∧
      (follow n).Yields aliases i (.mapping p es) k ∧
      (entries (value depth') [] es).Yields aliases k fs j := by
  rcases value_cases h with ⟨p, plain, t, -, hscalar⟩ |
    ⟨p, elements, k, depth', vs, -, -, -, rfl⟩ |
    ⟨p, es, k, depth', gs, hfollow, hdepth, hgs, rfl⟩
  · rcases untag_scalar_cases hscalar with ht | hcore
    · rw [hv] at ht
      cases ht
    · rw [hv] at hcore
      exact hcore.elim
  · rw [untag_withTag] at hv
    cases hv
  · rw [untag_withTag] at hv
    obtain rfl := Value.mapping.inj hv
    exact ⟨p, es, k, depth', hdepth, hfollow, hgs⟩

/-! ## Entries one after another -/

/-- The entries of a mapping are composed in order, each key before its
value. -/
inductive EntriesYield (depth : ℕ) (aliases : Aliases) :
    ℕ → List (Node × Node) → List (Value × Value) → ℕ → Prop where
  | nil (i : ℕ) : EntriesYield depth aliases i [] [] i
  | cons {i j k l : ℕ} {key value : Node} {es : List (Node × Node)}
      {key' value' : Value} {fs : List (Value × Value)}
      (hkey : (Compose.value depth key).Yields aliases i key' j)
      (hvalue : (Compose.value depth value).Yields aliases j value' k)
      (hrest : EntriesYield depth aliases k es fs l) :
      EntriesYield depth aliases i ((key, value) :: es) ((key', value') :: fs) l

theorem entriesYield_of_entries {depth : ℕ} {before all : List (Value × Value)}
    {es : List (Node × Node)}
    (h : (entries (value depth) before es).Yields aliases i all j) :
    ∃ fs, all = before.reverse ++ fs ∧ EntriesYield depth aliases i es fs j := by
  induction es generalizing before i with
  | nil =>
      obtain ⟨rfl, rfl⟩ := yields_pure_iff.mp h
      exact ⟨[], (List.append_nil _).symm, .nil i⟩
  | cons e es ih =>
      obtain ⟨k, v⟩ := e
      rw [entries] at h
      obtain ⟨key, i₁, hkey, h⟩ := yields_bind_iff.mp h
      obtain ⟨-, h⟩ := yields_guard_iff.mp h
      obtain ⟨w, i₂, hvalue, hrest⟩ := yields_bind_iff.mp h
      obtain ⟨fs, rfl, hfs⟩ := ih hrest
      refine ⟨(key, w) :: fs, ?_, .cons hkey hvalue hfs⟩
      rw [List.reverse_cons, List.append_assoc, List.singleton_append]

end ContainerArgs.Yaml.Compose
