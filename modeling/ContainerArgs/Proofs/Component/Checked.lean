import ContainerArgs.Proofs.Component.Faithful

/-!
# Checks and command lines agree

What a component checks before it starts can be seen in the tokens that its
options contribute to the command line. A required path is missing exactly when
no token shows its option, and the combinations that the receiver and the cache
refuse are combinations of tokens. What passes the check starts with the
required path.
-/

namespace ContainerArgs

open ContainerArgs.Flag Settings Text

namespace Component

/-- A path without which a component does not start: its key, the name of its
option and where it is held. -/
structure RequiredPath (σ : Type) where
  key : String
  option : String
  path : σ → FilePath

namespace RequiredPath

variable {σ : Type}

/-- How the tokens of the option begin. -/
def start (r : RequiredPath σ) : List Char :=
  ("--" ++ r.option).toList

def token (r : RequiredPath σ) (o : σ) : String :=
  "--" ++ r.option ++ "=" ++ (r.path o).text

def field (r : RequiredPath σ) (o : σ) : Field :=
  .tagged r.key r.option (Setting.flag (r.path o))

theorem ownArguments_field (r : RequiredPath σ) (o : σ) :
    (r.field o).ownArguments =
      if (r.path o).isEmpty then [] else [.valued (r.path o).text] :=
  render_leaf_plain (Tag.parse r.option) (.path (r.path o))

theorem walkedTag?_field (r : RequiredPath σ) (o : σ) :
    (r.field o).walkedTag? = some (Tag.parse r.option) := rfl

/-- The option has a plain tag, and its field stands first. -/
structure Leads (r : RequiredPath σ) (c : Component σ) : Prop where
  hyphens : (Tag.parse r.option).hyphens = "--"
  name : (Tag.parse r.option).name = r.option
  standFor : ∃ (tags : List Tag) (rest : σ → List Field),
    StandFor c (Tag.parse r.option :: tags) fun o => r.field o :: rest o

end RequiredPath

theorem StandFor.fieldTokens_eq
    {σ : Type} {c : Component σ} {tags : List Tag} {fields : σ → List Field}
    (h : StandFor c tags fields) (o : σ) :
    (c.record o).fieldTokens = (fields o).flatMap Field.ownTokens := by
  rw [h.tokens]
  exact flatMap_tokens_outcomes h.apart (h.carry o) (by simp)

namespace RequiredPath

variable {σ : Type} {r : RequiredPath σ} {c : Component σ}

theorem Leads.start_eq (h : r.Leads c) :
    (Tag.parse r.option).start = r.start := by
  rw [Tag.start, h.hyphens, h.name, start, String.toList_append]

/-- No token shows the option exactly when the path is empty. -/
theorem Leads.forall_tokenStart_ne_iff (h : r.Leads c) (o : σ) :
    (∀ token ∈ (c.record o).fieldTokens, tokenStart token ≠ r.start) ↔
      (r.path o).isEmpty = true := by
  obtain ⟨tags, rest, hstand⟩ := h.standFor
  have hiff := hstand.apart.forall_tokenStart_ne_iff (hstand.carry o)
    List.mem_cons_self (r.walkedTag?_field o)
  rw [hstand.fieldTokens_eq, ← h.start_eq, hiff, ownArguments_field]
  split
  next hempty => simp [hempty]
  next hempty => simp [hempty]

/-- A path that is not empty gives the first token, and the only one that shows
its option. -/
theorem Leads.fieldTokens_eq_cons
    (h : r.Leads c) {o : σ} (hpath : (r.path o).isEmpty = false) :
    ∃ tail,
      (c.record o).fieldTokens = r.token o :: tail ∧
        ∀ token ∈ tail, tokenStart token ≠ r.start := by
  obtain ⟨tags, rest, hstand⟩ := h.standFor
  obtain ⟨f, fs, hcons, -, hcarry⟩ := (hstand.carry o).cons_inv
  obtain ⟨rfl, rfl⟩ := List.cons.inj hcons
  refine ⟨(rest o).flatMap Field.ownTokens, ?_, ?_⟩
  · have hown : (r.field o).ownTokens = [r.token o] := by
      rw [Field.ownTokens_of_walkedTag? (r.walkedTag?_field o),
        ownArguments_field, hpath, h.hyphens, h.name]
      rfl
    rw [hstand.fieldTokens_eq, List.flatMap_cons, hown, List.singleton_append]
  · intro token htoken
    rw [← h.start_eq]
    exact hstand.apart.tokenStart_ne_of_mem hcarry htoken

end RequiredPath

/-! ## The checks -/

theorem require_eq_missingField_iff
    {component field component' field' : String} {missing : Bool} :
    require component field missing = .error (.missingField component' field') ↔
      component' = component ∧ field' = field ∧ missing = true := by
  rw [require]
  split
  next hmissing => simp [hmissing, eq_comm]
  next hmissing => simp [hmissing]

/-- The receiver looks at its path first. -/
theorem receive_validate_eq (o : ReceiveOptions) :
    receive.validate o =
      if o.tsdbPath.isEmpty then
        .error (.missingField "thanos receive" "tsdb_path")
      else if o.replicationFactor = some 0 then
        .error (.invalid "thanos receive"
          "replication_factor must be at least 1")
      else .ok () := by
  simp only [receive, require]
  split <;> rfl

theorem receive_invalid_iff
    {o : ReceiveOptions} (h : o.tsdbPath.isEmpty = false) :
    (∃ component reason,
        receive.validate o = .error (.invalid component reason)) ↔
      o.replicationFactor = some 0 := by
  rw [receive_validate_eq, h, if_neg Bool.false_ne_true]
  split
  next hzero => exact iff_of_true ⟨_, _, rfl⟩ hzero
  next hzero => exact iff_of_false (by simp) hzero

theorem memcached_invalid_iff (o : MemcachedOptions) :
    (∃ component reason,
        memcached.validate o = .error (.invalid component reason)) ↔
      o.verbose = true ∧ o.veryVerbose = true := by
  simp only [memcached]
  split
  next hboth => exact iff_of_true ⟨_, _, rfl⟩ hboth
  next hboth => exact iff_of_false (by simp) hboth

end Component

open Component

namespace Kind

/-- The path that a kind requires, if it does. -/
def requiredPath? : (k : Kind) → Option (RequiredPath k.Options)
  | compact => some ⟨"data_dir", "data-dir", CompactOptions.dataDir⟩
  | query => none
  | store => some ⟨"data_dir", "data-dir", StoreOptions.dataDir⟩
  | receive => some ⟨"tsdb_path", "tsdb.path", ReceiveOptions.tsdbPath⟩
  | alertmanager =>
      some ⟨"config_file", "config.file", AlertmanagerOptions.configFile⟩
  | memcached => none

theorem leads_of_mem_requiredPath?
    {k : Kind} {r : RequiredPath k.Options} (h : r ∈ k.requiredPath?) :
    r.Leads k.component := by
  cases k with
  | query => cases h
  | memcached => cases h
  | alertmanager =>
      cases h
      exact ⟨by decide +kernel, by decide +kernel, _, _,
        AlertmanagerOptions.standFor_mergedFields⟩
  | _ =>
      cases h
      exact ⟨by decide +kernel, by decide +kernel, _, _,
        standFor_of_ne (by decide)⟩

/-- A field is missing exactly when it is a required path that is empty. -/
theorem validate_eq_missingField_iff
    (k : Kind) (o : k.Options) (component field : String) :
    k.component.validate o = .error (.missingField component field) ↔
      ∃ r ∈ k.requiredPath?, component = k.component.name ∧ field = r.key ∧
        (r.path o).isEmpty = true := by
  cases k with
  | query => simp [Kind.component, Component.query, requiredPath?]
  | memcached =>
      simp only [Kind.component, Component.memcached, requiredPath?]
      split <;> simp
  | receive =>
      change Component.receive.validate o = _ ↔ _
      by_cases hpath : o.tsdbPath.isEmpty = true
      · have hrequire : Component.receive.validate o =
            require "thanos receive" "tsdb_path" o.tsdbPath.isEmpty := by
          rw [receive_validate_eq, require, if_pos hpath, if_pos hpath]
        rw [hrequire, require_eq_missingField_iff]
        simp [requiredPath?, Kind.component, Component.receive]
      · rw [receive_validate_eq, if_neg hpath]
        constructor
        · intro h
          split at h <;> cases h
        · rintro ⟨r, hr, -, -, hempty⟩
          cases hr
          exact absurd hempty hpath
  | _ =>
      refine require_eq_missingField_iff.trans ?_
      simp [requiredPath?, Kind.component, Component.compact, Component.store,
        Component.alertmanager]

end Kind

/-! ## Values that are refused -/

namespace Component

/-- Where only one field has an option, the tokens of the fields contain a token
of the option exactly when that field gives the argument. -/
theorem StandFor.token_mem_iff
    {σ : Type} {c : Component σ} {tags : List Tag} {fields : σ → List Field}
    (h : StandFor c tags fields) {o : σ} {ident tag : String} {value : Value}
    (hf : .tagged ident tag value ∈ fields o) {a : Argument} {token : String}
    (htoken : a.token (Tag.parse tag).hyphens (Tag.parse tag).name = token) :
    token ∈ (c.record o).fieldTokens ↔
      a ∈ (value.render (Tag.parse tag) .plain).arguments := by
  rw [h.fieldTokens_eq, ← htoken]
  exact h.apart.token_mem_iff (h.carry o) hf rfl a

theorem bare_mem_arguments_iff
    {tag : String} (h : (Tag.parse tag).noval = true) (b : Bool) :
    Argument.bare ∈ arguments tag b ↔ b = true := by
  have hbool : arguments tag b =
      if (Leaf.bool b).isZero then []
      else (Leaf.bool b).arguments (Tag.parse tag) :=
    render_leaf_plain _ _
  rw [hbool]
  cases b <;> simp [Leaf.isZero, Leaf.arguments, h]

theorem valued_mem_arguments_uint32_iff
    {tag : String} {m : Option UInt32} {n : UInt32} :
    .valued (Number.natText n.toNat) ∈ arguments tag m ↔ m = some n := by
  cases m with
  | none => simp [arguments_none]
  | some m =>
      have hargs : arguments tag (some m) =
          [.valued (Number.natText m.toNat)] := rfl
      rw [hargs, List.mem_singleton, Argument.valued.injEq, Option.some.injEq,
        ← UInt32.toNat_inj, eq_comm]
      exact ⟨Number.natText_injective, congrArg Number.natText⟩

theorem receive_token_mem_iff (o : ReceiveOptions) :
    "--receive.replication-factor=0" ∈ (receive.record o).fieldTokens ↔
      o.replicationFactor = some 0 := by
  have hfield : .tagged "replication_factor" "receive.replication-factor"
      (Setting.flag o.replicationFactor) ∈ (receive.record o).fields :=
    List.mem_of_getElem? (i := 8) rfl
  refine ((standFor_of_ne (k := .receive) (by decide)).token_mem_iff hfield
    (a := .valued (Number.natText 0)) (by decide +kernel)).trans ?_
  exact valued_mem_arguments_uint32_iff (n := 0)

theorem memcached_token_mem_iff (o : MemcachedOptions) :
    ("-v" ∈ (memcached.record o).fieldTokens ↔ o.verbose = true) ∧
      ("-vv" ∈ (memcached.record o).fieldTokens ↔ o.veryVerbose = true) := by
  have hstand := standFor_of_ne (k := .memcached) (by decide)
  have hverbose : .tagged "verbose" "v,noval" (Setting.flag o.verbose) ∈
      (memcached.record o).fields :=
    List.mem_of_getElem? (i := 6) rfl
  have hvery : .tagged "very_verbose" "vv,single-hyphen,noval"
      (Setting.flag o.veryVerbose) ∈ (memcached.record o).fields :=
    List.mem_of_getElem? (i := 7) rfl
  constructor
  · refine (hstand.token_mem_iff hverbose (a := .bare)
      (by decide +kernel)).trans ?_
    exact bare_mem_arguments_iff (by decide +kernel) _
  · refine (hstand.token_mem_iff hvery (a := .bare)
      (by decide +kernel)).trans ?_
    exact bare_mem_arguments_iff (by decide +kernel) _

/-! ## Command lines of checked options -/

section Args

variable {σ : Type} (c : Component σ) (o : σ)

theorem args_eq_ok_iff {v : List String} :
    c.args o = .ok v ↔
      c.validate o = .ok () ∧ v = c.subcommand.toList ++ c.encode o := by
  rw [args]
  cases c.validate o with
  | error e => simp [bind, Except.bind]
  | ok u => simp [bind, Except.bind, pure, Except.pure, eq_comm]

theorem args_eq_error_iff {e : ValidationError} :
    c.args o = .error e ↔ c.validate o = .error e := by
  rw [args]
  cases c.validate o with
  | error e' => simp [bind, Except.bind]
  | ok u => simp [bind, Except.bind, pure, Except.pure]

end Args

end Component

namespace Kind

theorem encode_eq (k : Kind) (o : k.Options) :
    k.component.encode o =
      (k.component.record o).fieldTokens ++ (k.component.extra o).tokens := by
  have hextra : (k.component.record o).extra = (k.component.extra o).tokens := by
    by_cases hk : k = .alertmanager
    · subst hk
      exact AlertmanagerOptions.standFor_mergedFields.extra o
    · exact (standFor_of_ne hk).extra o
  rw [← hextra]
  exact Record.encode_arguments _

theorem isEmpty_of_validate
    {k : Kind} {o : k.Options} (h : k.component.validate o = .ok ())
    {r : RequiredPath k.Options} (hr : r ∈ k.requiredPath?) :
    (r.path o).isEmpty = false := by
  by_contra hempty
  have hmissing : k.component.validate o =
      .error (.missingField k.component.name r.key) :=
    (k.validate_eq_missingField_iff o _ _).mpr
      ⟨r, hr, rfl, rfl, Bool.not_eq_false _ ▸ hempty⟩
  rw [h] at hmissing
  cases hmissing

theorem missingField_iff_no_token
    (k : Kind) (o : k.Options) (component field : String) :
    k.component.validate o = .error (.missingField component field) ↔
      ∃ r ∈ k.requiredPath?, component = k.component.name ∧ field = r.key ∧
        ∀ token ∈ (k.component.record o).fieldTokens,
          tokenStart token ≠ r.start := by
  rw [validate_eq_missingField_iff]
  constructor
  · rintro ⟨r, hr, hname, hkey, hempty⟩
    exact ⟨r, hr, hname, hkey,
      ((leads_of_mem_requiredPath? hr).forall_tokenStart_ne_iff o).mpr hempty⟩
  · rintro ⟨r, hr, hname, hkey, hnone⟩
    exact ⟨r, hr, hname, hkey,
      ((leads_of_mem_requiredPath? hr).forall_tokenStart_ne_iff o).mp hnone⟩

/-- The check and the command line agree, for all options of every kind. The
tokens of the fields are what the encoded options begin with. A field is
missing, and is reported under its key, exactly when the kind requires a path
and none of these tokens shows its option. Once the option of its path is shown,
the receiver is refused exactly when its tokens replicate to nobody, and the
cache exactly when both of its verbosity tokens are there; the query layer is
never refused. The arguments of a component are the subcommand and the encoded
options, of which a required path is the first token and the only one for its
option, with a text that is not empty; and they fail in just the way that the
check does. -/
theorem validation_agrees_with_encoding :
    (∀ (k : Kind) (o : k.Options), k.component.encode o =
      (k.component.record o).fieldTokens ++ (k.component.extra o).tokens) ∧
    (∀ (k : Kind) (o : k.Options) (component field : String),
      k.component.validate o = .error (.missingField component field) ↔
        ∃ r ∈ k.requiredPath?, component = k.component.name ∧ field = r.key ∧
          ∀ token ∈ (k.component.record o).fieldTokens,
            tokenStart token ≠ r.start) ∧
    (∀ o : ReceiveOptions,
      (∃ token ∈ (Component.receive.record o).fieldTokens,
        tokenStart token = "--tsdb.path".toList) →
      ((∃ component reason,
          Component.receive.validate o = .error (.invalid component reason)) ↔
        "--receive.replication-factor=0" ∈
          (Component.receive.record o).fieldTokens)) ∧
    (∀ o : MemcachedOptions,
      (∃ component reason,
          Component.memcached.validate o = .error (.invalid component reason)) ↔
        "-v" ∈ (Component.memcached.record o).fieldTokens ∧
          "-vv" ∈ (Component.memcached.record o).fieldTokens) ∧
    (∀ o : QueryOptions, Component.query.validate o = .ok ()) ∧
    (∀ (k : Kind) (o : k.Options) (v : List String),
      k.component.args o = .ok v →
        v = k.component.subcommand.toList ++ k.component.encode o ∧
          ∀ r ∈ k.requiredPath?,
            (r.path o).text ≠ "" ∧
              ∃ tail,
                (k.component.record o).fieldTokens = r.token o :: tail ∧
                  (∀ token ∈ tail, tokenStart token ≠ r.start) ∧
                  v = k.component.subcommand.toList ++
                    r.token o :: (tail ++ (k.component.extra o).tokens)) ∧
    (∀ (k : Kind) (o : k.Options) (e : ValidationError),
      k.component.args o = .error e ↔ k.component.validate o = .error e) := by
  refine ⟨encode_eq, missingField_iff_no_token, ?_, ?_, fun _ => rfl, ?_, ?_⟩
  · rintro o ⟨token, hmem, hstart⟩
    have hleads := leads_of_mem_requiredPath? (k := .receive) rfl
    have hpath : o.tsdbPath.isEmpty = false := by
      by_contra hempty
      have hnone := (hleads.forall_tokenStart_ne_iff o).mpr
        (Bool.not_eq_false _ ▸ hempty)
      exact hnone token hmem hstart
    rw [receive_token_mem_iff, receive_invalid_iff hpath]
  · intro o
    rw [(memcached_token_mem_iff o).1, (memcached_token_mem_iff o).2,
      memcached_invalid_iff]
  · intro k o v hargs
    obtain ⟨hvalid, rfl⟩ := (args_eq_ok_iff _ _).mp hargs
    refine ⟨rfl, fun r hr => ?_⟩
    have hpath := isEmpty_of_validate hvalid hr
    obtain ⟨tail, htokens, hothers⟩ :=
      (leads_of_mem_requiredPath? hr).fieldTokens_eq_cons hpath
    refine ⟨?_, tail, htokens, hothers, ?_⟩
    · intro htext
      rw [← FilePath.isEmpty_text, htext] at hpath
      cases hpath
    · rw [encode_eq, htokens, List.cons_append]
  · intro k o e
    exact args_eq_error_iff _ _

/-- A receiver that has a path for its data and replicates to nobody. -/
theorem validation_agrees_with_encoding_receive :
    (∃ token ∈ (Component.receive.record
          { tsdbPath := ⟨[0x2f]⟩, replicationFactor := some 0 }).fieldTokens,
        tokenStart token = "--tsdb.path".toList) ∧
      "--receive.replication-factor=0" ∈ (Component.receive.record
          { tsdbPath := ⟨[0x2f]⟩, replicationFactor := some 0 }).fieldTokens ∧
      ∃ component reason, Component.receive.validate
          { tsdbPath := ⟨[0x2f]⟩, replicationFactor := some 0 } =
        .error (.invalid component reason) := by
  have htoken : ∃ token ∈ (Component.receive.record
        { tsdbPath := ⟨[0x2f]⟩, replicationFactor := some 0 }).fieldTokens,
      tokenStart token = "--tsdb.path".toList := by decide +kernel
  have hzero : "--receive.replication-factor=0" ∈ (Component.receive.record
      { tsdbPath := ⟨[0x2f]⟩, replicationFactor := some 0 }).fieldTokens := by
    decide +kernel
  exact ⟨htoken, hzero,
    (validation_agrees_with_encoding.2.2.1 _ htoken).mpr hzero⟩

end Kind

end ContainerArgs
