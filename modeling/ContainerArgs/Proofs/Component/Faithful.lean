import ContainerArgs.Proofs.Component.Agreement
import ContainerArgs.Proofs.Flag.Tokens
import ContainerArgs.Proofs.Settings.Arguments

/-!
# No option is lost on the command line

The command lines of two values of the options of a component are the same
exactly when the options agree.  For most components every entry has an option
of its own; the alert manager has two entries for one option, of which the first
that is set counts.
-/

namespace ContainerArgs

namespace Settings

open ContainerArgs.Flag

/-- The arguments that the fields of some entries give, field by field. -/
def shown {σ : Type} (es : List (Entry σ)) (x : σ) : List (List Argument) :=
  (Member.fieldsAll (es.map (·.member x))).map Field.ownArguments

variable {σ τ α : Type} (es : List (Entry σ)) (x : σ)

@[simp] theorem shown_nil :
    shown ([] : List (Entry σ)) x = [] := rfl

@[simp] theorem shown_option
    [Setting α] (key tag : String) (get : σ → α) (set : α → σ → σ) :
    shown (.option key tag get set :: es) x =
      arguments tag (get x) :: shown es x := rfl

@[simp] theorem shown_extra
    (key : String) (get : σ → Extra) (set : Extra → σ → σ) :
    shown (.extra key get set :: es) x = shown es x := rfl

@[simp] theorem shown_nested
    (key : String) (schema : Schema τ) (get : σ → τ) (set : τ → σ → σ) :
    shown (.nested key schema get set :: es) x =
      shown schema.entries (get x) ++ shown es x :=
  List.map_append

end Settings

namespace Component

open ContainerArgs.Flag Settings

/-- The tags of the fields of a component's options. -/
def tags {σ : Type} (c : Component σ) : List Tag :=
  (c.record c.schema.default).fields.filterMap Field.walkedTag?

/-- Fields stand for the options of a component when they have the same tokens
as the fields of the options, under tags that are the same for all options and
tell the fields apart. -/
structure StandFor
    {σ : Type} (c : Component σ) (tags : List Tag) (fields : σ → List Field) :
    Prop where
  apart : IsApart tags
  carry : ∀ o, Carry tags (fields o)
  tokens : ∀ o, (c.record o).fieldTokens =
    (outcomes [] (fields o)).flatMap Outcome.tokens
  extra : ∀ o, (c.record o).extra = (c.extra o).tokens

/-- Two values of the options have the same command line and the same extra
tokens exactly when the fields that stand for them show the same one by one. -/
theorem StandFor.encode_eq_iff
    {σ : Type} {c : Component σ} {tags : List Tag} {fields : σ → List Field}
    (h : StandFor c tags fields) {o p : σ} :
    c.extra o = c.extra p ∧ c.encode o = c.encode p ↔
      (fields o).map Field.ownArguments = (fields p).map Field.ownArguments ∧
        c.extra o = c.extra p := by
  have hencode : ∀ q, c.encode q =
      (outcomes [] (fields q)).flatMap Outcome.tokens ++ (c.extra q).tokens := by
    intro q
    rw [← h.tokens, ← h.extra]
    rfl
  rw [and_comm, and_congr_left_iff]
  intro hextra
  rw [hencode, hencode, hextra, List.append_left_inj]
  exact flatMap_tokens_outcomes_eq_iff h.apart (h.carry o) (h.carry p)

/-- Apart from those of the alert manager, the fields of the options stand for
themselves. -/
theorem standFor_of_ne
    {k : Kind} (h : k ≠ .alertmanager) :
    StandFor k.component k.component.tags
      fun o => (k.component.record o).fields := by
  cases k with
  | alertmanager => exact absurd rfl h
  | _ =>
      exact ⟨by decide +kernel, fun _ => rfl, fun _ => rfl,
        fun _ => List.append_nil _⟩

/-! ## The alert manager -/

namespace AlertmanagerOptions

def listenField (o : AlertmanagerOptions) : Field :=
  ⟨"cluster_listen_address", some "cluster.listen-address", true,
    Setting.flag o.clusterListenAddress⟩

def listenRawField (o : AlertmanagerOptions) : Field :=
  ⟨"cluster_listen_address_raw", some "cluster.listen-address", true,
    Setting.flag o.clusterListenAddressRaw⟩

def fieldsBefore (o : AlertmanagerOptions) : List Field :=
  (alertmanager.record o).fields.take 6

def fieldsAfter (o : AlertmanagerOptions) : List Field :=
  (alertmanager.record o).fields.drop 8

/-- The tags of the fields before and after the two listen addresses, with
theirs between. -/
def mergedTags : List Tag :=
  (fieldsBefore {}).filterMap Field.walkedTag? ++
    Tag.parse "cluster.listen-address" ::
      (fieldsAfter {}).filterMap Field.walkedTag?

/-- The fields with one instead of the two listen addresses. -/
def mergedFields (o : AlertmanagerOptions) : List Field :=
  o.fieldsBefore ++ o.listenField.orElse o.listenRawField :: o.fieldsAfter

theorem carry_mergedFields (o : AlertmanagerOptions) :
    Carry mergedTags o.mergedFields := by
  have hmiddle := Field.walkedTag?_orElse (f := o.listenField)
    (g := o.listenRawField) rfl rfl
  rw [Carry, mergedFields, List.map_append, List.map_cons, hmiddle]
  rfl

theorem ownArguments_listen (o : AlertmanagerOptions) :
    (o.listenField.orElse o.listenRawField).ownArguments =
      arguments "cluster.listen-address" o.listenText := by
  have hlisten : o.listenField.ownArguments =
      arguments "cluster.listen-address" o.clusterListenAddress := rfl
  have hraw : o.listenRawField.ownArguments =
      arguments "cluster.listen-address" o.clusterListenAddressRaw := rfl
  rw [Field.orElse, listenText]
  cases h : o.clusterListenAddress with
  | none =>
      rw [h, arguments_none] at hlisten
      rw [if_pos hlisten, hraw]
  | some a =>
      rw [h, arguments_some] at hlisten
      have hshown : o.listenField.ownArguments ≠ [] := by
        rw [hlisten]
        exact List.cons_ne_nil _ _
      rw [if_neg hshown, hlisten, arguments_some]
      rfl

/-- Leaving out the listen address that is not used changes nothing. -/
theorem standFor_mergedFields :
    StandFor alertmanager mergedTags mergedFields where
  apart := by decide +kernel
  carry := carry_mergedFields
  tokens := by
    intro o
    have hnamed : (Tag.parse "cluster.listen-address").name ≠ "" := by
      decide +kernel
    exact flatMap_tokens_outcomes_orElse rfl rfl hnamed o.fieldsBefore
      o.fieldsAfter []
  extra := fun _ => List.append_nil _

end AlertmanagerOptions

/-! ## What the fields show -/

theorem LogOptions.eq_iff {o p : LogOptions} :
    o = p ↔ o.level = p.level ∧ o.format = p.format := by
  cases o
  cases p
  simp

theorem shown_compact_eq_iff {o p : CompactOptions} :
    shown compact.schema.entries o = shown compact.schema.entries p ∧
        o.extra = p.extra ↔
      o.Agree p := by
  simp [compact, CompactOptions.schema, LogOptions.schema, LogOptions.eq_iff,
    CompactOptions.agree_iff, nonEmpty, and_assoc]

theorem shown_query_eq_iff {o p : QueryOptions} :
    shown query.schema.entries o = shown query.schema.entries p ∧
        o.extra = p.extra ↔
      o.Agree p := by
  simp [query, QueryOptions.schema, LogOptions.schema, LogOptions.eq_iff,
    QueryOptions.agree_iff, nonEmpty, and_assoc]

theorem shown_store_eq_iff {o p : StoreOptions} :
    shown store.schema.entries o = shown store.schema.entries p ∧
        o.extra = p.extra ↔
      o.Agree p := by
  simp [store, StoreOptions.schema, LogOptions.schema, LogOptions.eq_iff,
    StoreOptions.agree_iff, and_assoc]

theorem shown_receive_eq_iff {o p : ReceiveOptions} :
    shown receive.schema.entries o = shown receive.schema.entries p ∧
        o.extra = p.extra ↔
      o.Agree p := by
  simp [receive, ReceiveOptions.schema, LogOptions.schema, LogOptions.eq_iff,
    ReceiveOptions.agree_iff, nonEmpty, and_assoc]

theorem shown_memcached_eq_iff {o p : MemcachedOptions} :
    shown memcached.schema.entries o = shown memcached.schema.entries p ∧
        o.extra = p.extra ↔
      o = p := by
  cases o
  cases p
  simp [memcached, MemcachedOptions.schema, and_assoc]

/-- The fields of the alert manager, with its listen addresses as one. -/
theorem shown_merged_eq_iff {o p : AlertmanagerOptions} :
    o.mergedFields.map Field.ownArguments =
          p.mergedFields.map Field.ownArguments ∧
        o.extra = p.extra ↔
      o.Agree p := by
  have hmerged : ∀ q : AlertmanagerOptions,
      q.mergedFields.map Field.ownArguments =
        (shown alertmanager.schema.entries q).take 6 ++
          arguments "cluster.listen-address" q.listenText ::
            (shown alertmanager.schema.entries q).drop 8 := by
    intro q
    rw [AlertmanagerOptions.mergedFields, List.map_append, List.map_cons,
      AlertmanagerOptions.ownArguments_listen]
    rfl
  rw [hmerged, hmerged]
  simp [alertmanager, AlertmanagerOptions.schema, LogOptions.schema,
    LogOptions.eq_iff, AlertmanagerOptions.agree_iff, nonEmpty, and_assoc]

end Component

open Component

/-- The command lines of two values of the options of a component, with the same
extra tokens, are the same exactly when the options agree.  So a command line
tells all that was configured, up to empty elements of lists, how paths and
addresses are held beyond their texts, and a raw listen address that is not
used. -/
theorem Kind.encode_eq_iff_agree (k : Kind) (o p : k.Options) :
    k.component.extra o = k.component.extra p ∧
        k.component.encode o = k.component.encode p ↔
      k.Agree o p := by
  by_cases hk : k = .alertmanager
  · subst hk
    exact AlertmanagerOptions.standFor_mergedFields.encode_eq_iff.trans
      shown_merged_eq_iff
  · refine (standFor_of_ne hk).encode_eq_iff.trans ?_
    cases k with
    | alertmanager => exact absurd rfl hk
    | compact => exact shown_compact_eq_iff
    | query => exact shown_query_eq_iff
    | store => exact shown_store_eq_iff
    | receive => exact shown_receive_eq_iff
    | memcached => exact shown_memcached_eq_iff

end ContainerArgs
