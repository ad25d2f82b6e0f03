import ContainerArgs.Manifest.Text
import ContainerArgs.Proofs.Manifest.Ignored
import ContainerArgs.Proofs.Yaml.Compose

/-!
# Manifests read from values and from texts

A manifest can be decoded from the value of a document, or read from the nodes
of the document without composing more of them than the options.  What is
decoded from the value is also what the nodes are read as, whether in a
component or in a manifest.  There are two exceptions.  A value that stands for
a kind loses a second mark at the start of its tag, where the node does not, and
null in place of the list of components is an empty list, where a node that says
so is no list.
-/

namespace ContainerArgs.Manifest

open Settings Yaml
open Yaml (Value)
open Yaml.Compose

variable {aliases : Aliases} {i j k depth : ℕ} {n : Node} {v : Value}

/-! ## Names and kinds -/

/-- A node that is composed to a text is read as that text. -/
theorem scalarText_of_value {s : String}
    (h : (value depth n).Yields aliases i v j) (hv : v.untag = .text s) :
    (scalarText n).YieldsWithin aliases i s j := by
  obtain ⟨p, plain, hfollow⟩ := exists_scalar_of_untag_eq_text h hv
  exact ((counts_follow n).within hfollow).bind (yieldsWithin_pure s)

/-- A node that leads to a scalar is read as the kind that the text of the scalar
names or, where the scalar is a plain null, the name in its tag. -/
theorem kindOf_of_follow
    {kind : Kind} {p : Properties} {plain : Bool} {s name : String}
    (hfollow : (follow n).Yields aliases i (.scalar p plain s) j)
    (hname : (p.tag.bind Tag.localName? = none ∧ name = s) ∨
      p.tag.bind Tag.localName? = some name ∧ plain = true ∧
        (s.isEmpty || Plain.isNull s) = true)
    (hkind : Kind.names.lookup name = some kind) :
    (kindOf n).YieldsWithin aliases i kind j := by
  refine ((counts_follow n).within hfollow).bind ?_
  rcases hname with ⟨hnone, rfl⟩ | ⟨hsome, rfl, hnull⟩
  · simp only [hnone, hkind, pure_bind]
    exact yieldsWithin_pure kind
  · simp only [hsome, hnull, hkind, pure_bind]
    exact yieldsWithin_pure kind

/-- The tag of the value, if it has one, begins with no mark that would be
dropped. -/
def HasBareTag (v : Value) : Prop :=
  ∀ tag w, v = .tagged tag w → bareTag tag = tag

/-- A node whose value is decoded to a kind is read as that kind. -/
theorem kindOf_of_value
    {kind : Kind} (h : (value depth n).Yields aliases i v j)
    (hdecode : Kind.decode v = .ok kind) (hbare : HasBareTag v) :
    (kindOf n).YieldsWithin aliases i kind j := by
  rcases decodeName_cases hdecode with
    ⟨s, rfl, hkind⟩ | ⟨tag, w, rfl, hw, hkind⟩
  · obtain ⟨p, plain, t, hfollow, hscalar⟩ :=
      exists_scalar_of_untag_ne h nofun nofun
    refine kindOf_of_follow hfollow (.inl ?_) hkind
    rcases scalar_cases hscalar with
      ⟨hnone, htext | hcore⟩ | ⟨_, _, -, -, htagged⟩
    · exact ⟨hnone, Value.text.inj htext⟩
    · exact hcore.elim
    · cases htagged
  · obtain ⟨p, plain, t, hfollow, hscalar⟩ :=
      exists_scalar_of_untag_ne h (by rw [Value.untag, hw]; nofun)
        (by rw [Value.untag, hw]; nofun)
    rw [hbare tag w rfl] at hkind
    refine kindOf_of_follow hfollow (.inr ?_) hkind
    rcases scalar_cases hscalar with
      ⟨-, htext | hcore⟩ | ⟨_, _, hname, hu, htagged⟩
    · cases htext
    · exact hcore.elim
    · obtain ⟨rfl, rfl⟩ := Value.tagged.inj htagged
      have hnull : w = .null := by
        rcases untaggedScalar_cases hu with rfl | hcore
        · cases hw
        · exact (untag_of_isCore hcore).symm.trans hw
      subst hnull
      exact ⟨hname, plain_of_untaggedScalar hu⟩

/-! ## Components -/

/-- The kinds that the entries give are named without a mark that would be
dropped. -/
def BareKinds (es : List (Value × Value)) : Prop :=
  ∀ e ∈ es, e.1.untag = .text "kind" → HasBareTag e.2

/-- The entries of a component are read as what their values are decoded to.
The values of unknown keys are not composed, so that fewer aliases may be
followed than in decoding. -/
theorem draftOf_of_loadEntries
    {es : List (Node × Node)} {fs : List (Value × Value)} {met : List String}
    {d d' : Draft}
    (h : EntriesYield optionsDepth aliases i es fs j)
    (hload : loadEntries Draft.loader? met fs d = .ok d')
    (hmet : ∀ key ∈ met, Draft.loader? key ≠ none) (hbare : BareKinds fs) :
    (draftOf met d es).YieldsWithin aliases i d' j := by
  induction h generalizing met d with
  | nil i =>
      obtain rfl := Except.ok.inj hload
      exact yieldsWithin_pure d
  | cons hkey hvalue hrest ih =>
      obtain ⟨hbareHead, hbareRest⟩ := List.forall_mem_cons.mp hbare
      obtain ⟨key, htext, hcases⟩ := loadEntries_cons_eq_ok_iff.mp hload
      have hfresh : key ∉ met := by
        rcases hcases with ⟨hloader, -⟩ | ⟨load, e, -, hnew, -⟩
        · exact fun hin => hmet key hin hloader
        · exact hnew
      rw [draftOf]
      refine (scalarText_of_value hkey htext).bind (.guard (by simpa) ?_)
      rcases hcases with
        ⟨hloader, hmore⟩ | ⟨load, e, hloader, -, hstep, hmore⟩
      · have hskip := (ih hmore hmet hbareRest).of_le
          ((counts_value _ _).le hvalue)
        unfold Draft.loader? at hloader
        split at hloader
        next => cases hloader
        next => cases hloader
        next => cases hloader
        next hname hkind hoptions => simpa [hname, hkind, hoptions] using hskip
      · have hknown : Draft.loader? key ≠ none := by simp [hloader]
        have hmet' : ∀ key' ∈ key :: met, Draft.loader? key' ≠ none :=
          List.forall_mem_cons.mpr ⟨hknown, hmet⟩
        have hnext := ih hmore hmet' hbareRest
        unfold Draft.loader? at hloader
        split at hloader
        next =>
          obtain rfl := Option.some.inj hloader
          obtain ⟨s, hs, rfl⟩ := map_eq_ok_iff.mp hstep
          have hname := untag_of_decodeText hs
          exact (scalarText_of_value hvalue hname).bind hnext
        next =>
          obtain rfl := Option.some.inj hloader
          obtain ⟨kind, hkind, rfl⟩ := map_eq_ok_iff.mp hstep
          exact (kindOf_of_value hvalue hkind (hbareHead htext)).bind hnext
        next =>
          obtain rfl := Option.some.inj hloader
          obtain rfl := Except.ok.inj hstep
          exact ((counts_value _ _).within hvalue).bind hnext
        next => cases hloader

/-- The entries of a node that is composed to a mapping. -/
theorem mappingEntries_of_value {fs : List (Value × Value)}
    (h : (value depth n).Yields aliases i v j) (hv : v.untag = .mapping fs) :
    ∃ es k depth', depth = depth' + 1 ∧
      (mappingEntries n).YieldsWithin aliases i es k ∧
        EntriesYield depth' aliases k es fs j := by
  obtain ⟨p, es, k, depth', hdepth, hfollow, hentries⟩ :=
    exists_mapping_of_untag_eq h hv
  obtain ⟨gs, rfl, hes⟩ := entriesYield_of_entries hentries
  refine ⟨es, k, depth', hdepth, ?_, hes⟩
  exact ((counts_follow n).within hfollow).bind (yieldsWithin_pure es)

/-- The kind of the component is named without a mark that would be dropped. -/
def HasBareKind (v : Value) : Prop :=
  ∀ es, v.untag = .mapping es → BareKinds es

/-- A node whose value is decoded to a component is read as that component. -/
theorem componentOf_of_value {c : Configuration}
    (h : (value (optionsDepth + 1) n).Yields aliases i v j)
    (hdecode : decodeComponent v = .ok c) (hbare : HasBareKind v) :
    (componentOf n).YieldsWithin aliases i c j := by
  obtain ⟨d, hload, hfinish⟩ := bind_eq_ok_iff.mp hdecode
  rcases loadRecord_cases hload with ⟨-, rfl⟩ | ⟨fs, hv, hload⟩
  · cases hfinish
  · obtain ⟨es, k, depth', hdepth, hentries, hes⟩ :=
      mappingEntries_of_value h hv
    obtain rfl := Nat.succ.inj hdepth
    have hdraft := draftOf_of_loadEntries hes hload nofun (hbare fs hv)
    refine hentries.bind (hdraft.bind ?_)
    rw [hfinish]
    exact yieldsWithin_pure c

/-! ## Manifests -/

/-- Nodes whose values are decoded to components are read as these. -/
theorem mapM_componentOf_of_mapM {ns : List Node} {vs : List Value}
    {cs : List Configuration}
    (h : (ns.mapM (value (optionsDepth + 1))).Yields aliases i vs j)
    (hdecode : vs.mapM decodeComponent = .ok cs)
    (hbare : ∀ v ∈ vs, HasBareKind v) :
    (ns.mapM componentOf).YieldsWithin aliases i cs j := by
  induction ns generalizing i vs cs with
  | nil =>
      obtain ⟨rfl, rfl⟩ := yields_pure_iff.mp h
      obtain rfl := Except.ok.inj hdecode
      exact yieldsWithin_pure []
  | cons n ns ih =>
      rw [List.mapM_cons] at h
      obtain ⟨v, k, hv, h⟩ := yields_bind_iff.mp h
      obtain ⟨vs, l, hvs, hpure⟩ := yields_bind_iff.mp h
      obtain ⟨rfl, rfl⟩ := yields_pure_iff.mp hpure
      obtain ⟨hbareHead, hbareRest⟩ := List.forall_mem_cons.mp hbare
      rw [List.mapM_cons] at hdecode ⊢
      obtain ⟨c, hc, hdecode⟩ := bind_eq_ok_iff.mp hdecode
      obtain ⟨cs, hcs, hpure⟩ := bind_eq_ok_iff.mp hdecode
      obtain rfl := Except.ok.inj hpure
      refine (componentOf_of_value hv hc hbareHead).bind ?_
      exact (ih hvs hcs hbareRest).bind (yieldsWithin_pure (c :: cs))

/-- The components that the entries of a manifest give are listed, and their
kinds are named without marks that would be dropped. -/
def Listed (es : List (Value × Value)) : Prop :=
  ∀ e ∈ es, e.1.untag = .text "components" →
    ∃ vs, e.2.untag = .sequence vs ∧ ∀ v ∈ vs, HasBareKind v

theorem sequenceElements_of_value {vs : List Value}
    (h : (value depth n).Yields aliases i v j) (hv : v.untag = .sequence vs) :
    ∃ ns k depth', depth = depth' + 1 ∧
      (sequenceElements n).YieldsWithin aliases i ns k ∧
        (ns.mapM (value depth')).Yields aliases k vs j := by
  obtain ⟨p, ns, k, depth', hdepth, hfollow, hns⟩ :=
    exists_sequence_of_untag_eq h hv
  refine ⟨ns, k, depth', hdepth, ?_, hns⟩
  exact ((counts_follow n).within hfollow).bind (yieldsWithin_pure ns)

/-- The entries of a manifest are read as what their values are decoded to. -/
theorem componentsOf_of_loadEntries
    {es : List (Node × Node)} {fs : List (Value × Value)} {met : List String}
    {found found' : Option Manifest}
    (h : EntriesYield (optionsDepth + 2) aliases i es fs j)
    (hload : loadEntries loader? met fs found = .ok found')
    (hmet : found.isSome → "components" ∈ met) (hlisted : Listed fs) :
    (componentsOf (found.map Manifest.components) es).YieldsWithin aliases i
      (found'.map Manifest.components) j := by
  induction h generalizing met found with
  | nil i =>
      obtain rfl := Except.ok.inj hload
      exact yieldsWithin_pure _
  | cons hkey hvalue hrest ih =>
      obtain ⟨hlistedHead, hlistedRest⟩ := List.forall_mem_cons.mp hlisted
      obtain ⟨key, htext, hcases⟩ := loadEntries_cons_eq_ok_iff.mp hload
      rw [componentsOf]
      refine (scalarText_of_value hkey htext).bind ?_
      rcases hcases with
        ⟨hloader, hmore⟩ | ⟨load, m, hloader, hnew, hstep, hmore⟩
      · have hout : key ≠ "components" := by
          rintro rfl
          cases hloader
        rw [if_neg hout]
        exact (ih hmore hmet hlistedRest).of_le ((counts_value _ _).le hvalue)
      · rw [loader?] at hloader
        split at hloader
        next hcomponents =>
          subst hcomponents
          obtain rfl := Option.some.inj hloader
          obtain ⟨cs, hcs, rfl⟩ := map_eq_ok_iff.mp hstep
          have hnone : found = none := by
            cases found with
            | none => rfl
            | some m => exact absurd (hmet rfl) hnew
          subst hnone
          obtain ⟨vs, hvs, hbare⟩ := hlistedHead htext
          rw [decodeComponents, hvs] at hcs
          obtain ⟨ns, k, depth', hdepth, helements, hns⟩ :=
            sequenceElements_of_value hvalue hvs
          obtain rfl := Nat.succ.inj hdepth
          have hnext := ih hmore (fun _ => List.mem_cons_self) hlistedRest
          have hread := mapM_componentOf_of_mapM hns hcs hbare
          exact helements.bind (hread.bind hnext)
        next => cases hloader

/-- The components of the manifest are listed, and their kinds are named without
marks that would be dropped. -/
def IsListed (v : Value) : Prop :=
  ∀ es, v.untag = .mapping es → Listed es

/-- A node whose value is decoded to a manifest is read as that manifest. -/
theorem ofNode_of_value {m : Manifest}
    (h : (value depthLimit n).Yields aliases i v j) (hdecode : decode v = .ok m)
    (hlisted : IsListed v) :
    (ofNode n).YieldsWithin aliases i m j := by
  obtain ⟨found, hload, hfinish⟩ := bind_eq_ok_iff.mp hdecode
  rcases loadRecord_cases hload with ⟨-, rfl⟩ | ⟨fs, hv, hload⟩
  · cases hfinish
  · obtain ⟨es, k, depth', hdepth, hentries, hes⟩ :=
      mappingEntries_of_value h hv
    obtain rfl := Nat.succ.inj hdepth
    have hcomponents :=
      componentsOf_of_loadEntries hes hload nofun (hlisted fs hv)
    refine hentries.bind (hcomponents.bind ?_)
    cases found with
    | none => cases hfinish
    | some m' =>
        obtain rfl := Except.ok.inj hfinish
        exact yieldsWithin_pure m'

theorem runOn_eq_ok_iff {α : Type} {step : Node → Compose α} {a : α} :
    runOn step n = .ok a ↔
      ∃ j, (step n).Yields ⟨n.anchors.reverse, 100 * n.events⟩ 0 a j := by
  rw [runOn, map_eq_ok_iff]
  constructor
  · rintro ⟨⟨_, j⟩, h, rfl⟩
    exact ⟨j, h⟩
  · rintro ⟨j, h⟩
    exact ⟨(a, j), h, rfl⟩

/-- What is decoded from the value of a text is what the text is read as.  The
reader of texts composes no more of a document than it needs, so it may read a
document that has no value; but where the value of the document is decoded to a
manifest, with its components listed, the document is read as the same
manifest. -/
theorem ofText_of_decode {s : String} {m : Manifest}
    (hvalue : Value.ofText s = .ok v) (hdecode : decode v = .ok m)
    (hlisted : IsListed v) :
    ofText s.toList = .ok m := by
  obtain ⟨root?, hroot, hvalue⟩ := bind_eq_ok_iff.mp hvalue
  cases root? with
  | none =>
      obtain rfl := Except.ok.inj hvalue
      cases hdecode
  | some root =>
      obtain ⟨j, h⟩ := runOn_eq_ok_iff.mp hvalue
      obtain ⟨j', -, hm⟩ := ofNode_of_value h hdecode hlisted 0 le_rfl
      rw [ofText, hroot]
      exact runOn_eq_ok_iff.mpr ⟨j', hm⟩

/-! ## Components without options -/

/-- Reading entries none of which has the key for options leaves the options as
they are. -/
theorem options_of_draftOf {es : List (Node × Node)} {met : List String}
    {d d' : Draft} (h : (draftOf met d es).Yields aliases i d' j)
    (hout : ∀ e ∈ es, ∀ i j, ¬(scalarText e.1).Yields aliases i "options" j) :
    d'.options = d.options := by
  induction es generalizing met d i with
  | nil =>
      obtain ⟨rfl, -⟩ := yields_pure_iff.mp h
      rfl
  | cons e es ih =>
      obtain ⟨houtHead, houtRest⟩ := List.forall_mem_cons.mp hout
      rw [draftOf] at h
      obtain ⟨key, k, hkey, h⟩ := yields_bind_iff.mp h
      obtain ⟨-, h⟩ := yields_guard_iff.mp h
      dsimp only at h
      split at h
      next =>
        obtain ⟨name, l, -, h⟩ := yields_bind_iff.mp h
        exact (ih h houtRest).trans rfl
      next =>
        obtain ⟨kind, l, -, h⟩ := yields_bind_iff.mp h
        exact (ih h houtRest).trans rfl
      next => exact absurd hkey (houtHead i k)
      next => exact ih h houtRest

/-- A component whose node has no key for options has the default options of its
kind. -/
theorem specification_of_componentOf
    {es : List (Node × Node)} {c : Configuration}
    (hes : (mappingEntries n).Yields aliases i es k)
    (hout : ∀ e ∈ es, ∀ i j, ¬(scalarText e.1).Yields aliases i "options" j)
    (h : (componentOf n).Yields aliases i c j) :
    c.specification = .ok (.default c.kind) := by
  obtain ⟨es', k', hes', h⟩ := yields_bind_iff.mp h
  obtain ⟨rfl, rfl⟩ := hes'.unique hes
  obtain ⟨d, l, hdraft, h⟩ := yields_bind_iff.mp h
  have hoptions : d.options = .null := options_of_draftOf hdraft hout
  split at h
  next c' hfinish =>
    obtain ⟨rfl, -⟩ := yields_pure_iff.mp h
    apply Configuration.specification_of_empty
    rcases d with ⟨_ | name, _ | kind, options⟩
    · cases hfinish
    · cases hfinish
    · cases hfinish
    · obtain rfl := Except.ok.inj hfinish
      exact .inl hoptions
  next => exact absurd h not_yields_throw

end ContainerArgs.Manifest
