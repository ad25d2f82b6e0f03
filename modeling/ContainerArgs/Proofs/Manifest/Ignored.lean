import ContainerArgs.Manifest.Basic
import ContainerArgs.Proofs.Component.Lawful
import ContainerArgs.Proofs.Manifest.Saved
import ContainerArgs.Proofs.Settings.Insertion
import ContainerArgs.Proofs.Settings.Reordering

/-!
# What does not matter about options

The specification of a component does not depend on the order of keys in its
options, on keys that are not known, or on keys that are given their default.
Options that are absent, null or empty are the defaults.
-/

namespace ContainerArgs

open Settings Component Entry
open Yaml (Value)

/-! ## The order of keys -/

namespace Component

@[simp] theorem LogOptions.orderFree_load :
    OrderFree LogOptions.schema.load := by
  apply LogOptions.lawful_schema.orderFree_load
  simp [LogOptions.schema, option_eq_part]

end Component

namespace Kind

theorem ignoresOrder (k : Kind) :
    ∀ e ∈ k.component.schema.entries, e.IgnoresOrder := by
  cases k with
  | compact =>
      simp [component, Component.compact, CompactOptions.schema, option_eq_part,
        nested_eq_part, extra_eq_part]
  | query =>
      simp [component, Component.query, QueryOptions.schema, option_eq_part,
        nested_eq_part, extra_eq_part]
  | store =>
      simp [component, Component.store, StoreOptions.schema, option_eq_part,
        nested_eq_part, extra_eq_part]
  | receive =>
      simp [component, Component.receive, ReceiveOptions.schema, option_eq_part,
        nested_eq_part, extra_eq_part]
  | alertmanager =>
      simp [component, Component.alertmanager, AlertmanagerOptions.schema,
        option_eq_part, nested_eq_part, extra_eq_part]
  | memcached =>
      simp [component, Component.memcached, MemcachedOptions.schema,
        option_eq_part, extra_eq_part]

theorem orderFree_load (k : Kind) :
    OrderFree k.component.schema.load :=
  k.lawful_schema.orderFree_load k.ignoresOrder

/-- The keys of the options of the kind. -/
def keys (k : Kind) : List String :=
  k.component.schema.entries.map Entry.key

/-- The value is read as the default at the key of the kind's options. -/
def ReadsDefault (k : Kind) (key : String) (v : Value) : Prop :=
  k.component.schema.ReadsDefault key v

end Kind

/-! ## Options that are absent -/

/-- The component with other options. -/
def Configuration.withOptions (v : Value) (c : Configuration) : Configuration :=
  { c with options := v }

namespace Manifest

/-- The draft with other options. -/
def Draft.setOptions (v : Value) (d : Draft) : Draft :=
  { d with options := v }

theorem Draft.finish_setOptions (v : Value) (d : Draft) :
    (d.setOptions v).finish = d.finish.map (·.withOptions v) := by
  rcases d with ⟨_ | name, _ | kind, options⟩ <;> rfl

theorem Draft.commutes_setOptions
    {es : List (Value × Value)} (hout : ¬HasKey "options" es) (v : Value) :
    Commutes Draft.loader? (fun _ => True) (Draft.setOptions v) es := by
  intro entry hentry key load hkey hloader d _
  refine ⟨?_, fun _ _ => trivial⟩
  unfold Draft.loader? at hloader
  split at hloader
  next =>
    obtain rfl := Option.some.inj hloader
    dsimp only
    cases decodeText "a string" entry.2 <;> rfl
  next =>
    obtain rfl := Option.some.inj hloader
    dsimp only
    cases Kind.decode entry.2 <;> rfl
  next => exact absurd ⟨entry.1, List.mem_map_of_mem hentry, hkey⟩ hout
  next => simp at hloader

theorem decodeComponent_mapping (es : List (Value × Value)) :
    decodeComponent (.mapping es) =
      loadEntries Draft.loader? [] es {} >>= Draft.finish := rfl

/-- Without options a component has null for them. -/
theorem options_of_decodeComponent
    {es : List (Value × Value)} {c : Configuration} (hout : ¬HasKey "options" es)
    (hdecode : decodeComponent (.mapping es) = .ok c) :
    c.options = .null := by
  -- Null is what the draft starts with, and setting it commutes with reading.
  have hnull : loadEntries Draft.loader? [] es {} =
      (loadEntries Draft.loader? [] es {}).map (Draft.setOptions .null) :=
    loadEntries_map (x := {}) (fun _ _ => Iff.rfl)
      (Draft.commutes_setOptions hout .null) trivial
  rw [decodeComponent_mapping, hnull] at hdecode
  obtain ⟨d, hload, hfinish⟩ := bind_eq_ok_iff.mp hdecode
  obtain ⟨d, -, rfl⟩ := map_eq_ok_iff.mp hload
  rw [Draft.finish_setOptions] at hfinish
  obtain ⟨c, -, rfl⟩ := map_eq_ok_iff.mp hfinish
  rfl

/-- The value at the key for options becomes the options, whatever it is. -/
theorem decodeComponent_insert_options
    {before after : List (Value × Value)}
    (hout : ¬HasKey "options" (before ++ after)) (v : Value) :
    decodeComponent (.mapping (before ++ (.text "options", v) :: after)) =
      (decodeComponent (.mapping (before ++ after))).map (·.withOptions v) := by
  have hinsert : loadEntries Draft.loader? []
      (before ++ (.text "options", v) :: after) {} =
        (loadEntries Draft.loader? [] (before ++ after) {}).map
          (Draft.setOptions v) :=
    loadEntries_insert rfl (fun _ _ => rfl) hout
      (Draft.commutes_setOptions hout v) List.not_mem_nil trivial
  rw [decodeComponent_mapping, decodeComponent_mapping, hinsert]
  cases loadEntries Draft.loader? [] (before ++ after) {} with
  | error fault => rfl
  | ok d => exact d.finish_setOptions v

end Manifest

/-! ## The specification -/

namespace Configuration

theorem specification_withOptions_eq_ok_iff
    {c : Configuration} {v : Value} {s : Specification} :
    (c.withOptions v).specification = .ok s ↔
      ∃ o, c.kind.component.schema.load v = .ok o ∧ ⟨c.kind, o⟩ = s :=
  specification_eq_ok_iff.trans Specification.load_eq_ok_iff

/-- The specification depends on nothing but what the options are read as. -/
theorem specification_withOptions_congr
    {c : Configuration} {v w : Value}
    (h : c.kind.component.schema.load v = c.kind.component.schema.load w) :
    (c.withOptions v).specification = (c.withOptions w).specification := by
  simp only [specification, withOptions, Specification.load, h]

theorem specification_of_empty
    {c : Configuration} (h : c.options = .null ∨ c.options = .mapping []) :
    c.specification = .ok (.default c.kind) := by
  rw [specification_eq_ok_iff, Specification.load_eq_ok_iff]
  rcases h with h | h <;> rw [h] <;> exact ⟨_, rfl, rfl⟩

/-- Reading options ignores what should not matter.  For a component of any kind
and with any options, the options may be rearranged, mapping by mapping, without
any change to whether they are read and as what.  A key that is not one of the
kind's may be put anywhere, with any value, and a key may be put or left out
where it has its default: neither the specification nor the fault changes.
Options that are null or empty are the defaults.  So are options that are
absent, for what a component mapping has at the key for options is all that
the key does to the component. -/
theorem specification_ignores (c : Configuration) :
    (∀ v w s, Relation.ReflTransGen Value.Reorders v w →
      ((c.withOptions v).specification = .ok s ↔
        (c.withOptions w).specification = .ok s)) ∧
    (∀ before after key v, key ∉ c.kind.keys →
      (c.withOptions (.mapping (before ++ (.text key, v) :: after))).specification =
        (c.withOptions (.mapping (before ++ after))).specification) ∧
    (∀ before after key v, c.kind.ReadsDefault key v →
      ¬HasKey key (before ++ after) →
        (c.withOptions (.mapping (before ++ (.text key, v) :: after))).specification =
          (c.withOptions (.mapping (before ++ after))).specification) ∧
    (∀ v, v = .null ∨ v = .mapping [] →
      (c.withOptions v).specification = .ok (.default c.kind)) ∧
    (∀ before after, ¬HasKey "options" (before ++ after) →
      Manifest.decodeComponent (.mapping (before ++ after)) = .ok c →
        c.specification = .ok (.default c.kind) ∧
          ∀ v, Manifest.decodeComponent
            (.mapping (before ++ (.text "options", v) :: after)) =
              .ok (c.withOptions v)) := by
  refine ⟨?_, ?_, ?_, ?_, ?_⟩
  · intro v w s hsteps
    rw [specification_withOptions_eq_ok_iff, specification_withOptions_eq_ok_iff]
    simp only [OrderFree.eq_ok_iff c.kind.orderFree_load hsteps]
  · intro before after key v hkey
    apply specification_withOptions_congr
    exact Schema.load_insert_unknown hkey
  · intro before after key v hdefault hout
    apply specification_withOptions_congr
    exact c.kind.lawful_schema.load_insert_default hdefault hout
  · intro v hv
    exact specification_of_empty hv
  · intro before after hout hdecode
    refine ⟨?_, ?_⟩
    · exact specification_of_empty
        (Or.inl (Manifest.options_of_decodeComponent hout hdecode))
    · intro v
      rw [Manifest.decodeComponent_insert_options hout, hdecode]
      rfl

/-- A compactor without options. -/
def plainCompactor : Configuration :=
  ⟨"compactor", .compact, .null⟩

/-- Options for the compactor, with options for logging inside. -/
def givenEntries : List (Value × Value) :=
  [(.text "data_dir", .text "/data"),
    (.text "log", .mapping
      [(.text "level", .text "info"), (.text "format", .text "json")]),
    (.text "wait", .bool true)]

/-- The same options in another order, inside and outside. -/
def turnedEntries : List (Value × Value) :=
  [(.text "wait", .bool true),
    (.text "log", .mapping
      [(.text "format", .text "json"), (.text "level", .text "info")]),
    (.text "data_dir", .text "/data")]

/-- What the compactor reads from either. -/
def givenSpecification : Specification :=
  ⟨.compact, { dataDir := Text.FilePath.ofText "/data", wait := true,
               log := { level := some .info, format := some .json } }⟩

theorem reorders_turnedEntries :
    Relation.ReflTransGen Value.Reorders (.mapping givenEntries)
      (.mapping turnedEntries) := by
  have hinside : Value.Reorders (.mapping givenEntries)
      (.mapping turnedEntries.reverse) :=
    .inside [(.text "data_dir", .text "/data")] (.text "log")
      [(.text "wait", .bool true)] (.entries (List.Perm.swap _ _ _))
  have houtside : Value.Reorders (.mapping turnedEntries.reverse)
      (.mapping turnedEntries) :=
    .entries (List.reverse_perm _)
  exact .tail (.single hinside) houtside

theorem specification_ignores_compactor :
    (plainCompactor.withOptions (.mapping givenEntries)).specification =
      .ok givenSpecification ∧
    (plainCompactor.withOptions (.mapping turnedEntries)).specification =
      .ok givenSpecification ∧
    (plainCompactor.withOptions
      (.mapping ([] ++ (.text "comment", .int 7) :: givenEntries))).specification =
        .ok givenSpecification ∧
    (plainCompactor.withOptions
      (.mapping (givenEntries ++ [(.text "concurrency", .int 0)]))).specification =
        .ok givenSpecification ∧
    plainCompactor.specification = .ok (.default .compact) ∧
    Manifest.decodeComponent
      (.mapping [(.text "name", .text "compactor"), (.text "options", .mapping []),
        (.text "kind", .text "thanos_compact")]) =
      .ok (plainCompactor.withOptions (.mapping [])) := by
  obtain ⟨horder, hunknown, hdefault, -, habsent⟩ :=
    specification_ignores plainCompactor
  have hgiven : (plainCompactor.withOptions (.mapping givenEntries)).specification =
      .ok givenSpecification := rfl
  refine ⟨hgiven, ?_, ?_, ?_, ?_⟩
  · exact (horder _ _ _ reorders_turnedEntries).mp hgiven
  · rw [hunknown [] givenEntries "comment" (.int 7) (by decide)]
    exact hgiven
  · rw [hdefault givenEntries [] "concurrency" (.int 0)
      ⟨CompactOptions.schema.entries[10], List.getElem_mem _, rfl, rfl⟩
      (by simp [givenEntries, Value.untag])]
    exact hgiven
  · obtain ⟨hspec, hoptions⟩ := habsent [(.text "name", .text "compactor")]
      [(.text "kind", .text "thanos_compact")] (by simp [Value.untag]) rfl
    exact ⟨hspec, hoptions (.mapping [])⟩

end Configuration

end ContainerArgs
