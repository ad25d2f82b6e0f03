import ContainerArgs.Flag.Member
import ContainerArgs.Proofs.Flag.Precedence
import Mathlib.Data.List.Flatten
import Mathlib.Data.List.Lex
import Mathlib.Logic.Relation

/-!
# Nested records stand for their members

A description of an option record may nest other descriptions to any depth.
Every member has a place: its position in the description, below that its
position in the nested record that stands there, and so on.  The record reads
its fields and its extra tokens off the members that are no nested records, in
the order of their places, and replacing nested records by their members, in
place and step by step, changes nothing.
-/

namespace ContainerArgs.Flag

namespace Member

def isNested : Member → Bool
  | .nested _ _ => true
  | _ => false

/-- The members directly inside a member. -/
def members : Member → List Member
  | .nested ms _ => ms
  | _ => []

theorem eq_nested_of_isNested {m : Member} (h : m.isNested = true) :
    ∃ ms exported, m = .nested ms exported := by
  cases m with
  | nested ms exported => exact ⟨ms, exported, rfl⟩
  | _ => cases h

theorem induction_members
    {motive : Member → Prop}
    (step : ∀ m, (∀ c ∈ m.members, motive c) → motive m) (m : Member) :
    motive m := by
  refine @Member.rec motive (fun ms => ∀ c ∈ ms, motive c)
    ?_ ?_ ?_ ?_ ?_ ?_ m
  · exact fun _ _ _ _ => step _ (by simp [members])
  · exact fun _ _ => step _ (by simp [members])
  · exact fun _ _ => step _ (by simp [members])
  · exact fun _ _ ih => step _ ih
  · simp
  · intro c cs hc hcs
    exact List.forall_mem_cons.mpr ⟨hc, hcs⟩

/-- The member at a place inside a member: the empty place is the member
itself. -/
def at? (m : Member) : List ℕ → Option Member
  | [] => some m
  | i :: place => m.members[i]?.bind (·.at? place)

/-- The field that a member gives on its own.  It is exported exactly when the
member is. -/
def field? : Member → Option Field
  | .tagged ident tag exported value => some ⟨ident, some tag, exported, value⟩
  | _ => none

/-- The extra tokens that a member gives on its own, exported or not. -/
def ownExtras : Member → List String
  | .extra tokens _ => tokens
  | _ => []

mutual

/-- The members inside a member that are no nested records, with their
places. -/
def leaves : Member → List (List ℕ × Member)
  | .nested ms _ => leavesFrom 0 ms
  | m => [([], m)]

/-- The same for several members, the first of which has a given position. -/
def leavesFrom (i : ℕ) : List Member → List (List ℕ × Member)
  | [] => []
  | m :: ms => m.leaves.map (Prod.map (i :: ·) id) ++ leavesFrom (i + 1) ms

end

/-! ## Several members at once -/

theorem fieldsAll_eq_flatMap (ms : List Member) :
    fieldsAll ms = ms.flatMap fields := by
  induction ms with
  | nil => rfl
  | cons m ms ih => rw [fieldsAll, ih, List.flatMap_cons]

theorem extrasAll_eq_flatMap (ms : List Member) :
    extrasAll ms = ms.flatMap extras := by
  induction ms with
  | nil => rfl
  | cons m ms ih => rw [extrasAll, ih, List.flatMap_cons]

theorem flattenAll_eq_flatMap (ms : List Member) :
    flattenAll ms = ms.flatMap flatten := by
  induction ms with
  | nil => rfl
  | cons m ms ih => rw [flattenAll, ih, List.flatMap_cons]

theorem leavesFrom_eq_flatMap (i : ℕ) (ms : List Member) :
    leavesFrom i ms =
      (ms.zipIdx i).flatMap fun c => c.1.leaves.map (Prod.map (c.2 :: ·) id) := by
  induction ms generalizing i with
  | nil => rfl
  | cons m ms ih => rw [leavesFrom, ih, List.zipIdx_cons, List.flatMap_cons]

/-! ## Places -/

theorem leaves_nested (ms : List Member) (exported : Bool) :
    (Member.nested ms exported).leaves =
      ms.zipIdx.flatMap fun c => c.1.leaves.map (Prod.map (c.2 :: ·) id) := by
  rw [leaves, leavesFrom_eq_flatMap]

theorem leaves_of_not_nested {m : Member} (h : m.isNested = false) :
    m.leaves = [([], m)] := by
  cases m with
  | nested ms exported => cases h
  | _ => rfl

theorem members_of_not_nested {m : Member} (h : m.isNested = false) :
    m.members = [] := by
  cases m with
  | nested ms exported => cases h
  | _ => rfl

/-- The leaves are the members that stand at some place and are no nested
records. -/
theorem mem_leaves_iff {m l : Member} {place : List ℕ} :
    (place, l) ∈ m.leaves ↔ m.at? place = some l ∧ l.isNested = false := by
  induction m using induction_members generalizing place with
  | step m ih =>
      cases hm : m.isNested with
      | false =>
          rw [leaves_of_not_nested hm]
          cases place with
          | nil =>
              simp only [List.mem_singleton, Prod.mk.injEq, true_and, at?,
                Option.some.injEq]
              constructor
              · rintro rfl
                exact ⟨rfl, hm⟩
              · rintro ⟨rfl, -⟩
                rfl
          | cons i below => simp [at?, members_of_not_nested hm]
      | true =>
          obtain ⟨ms, exported, rfl⟩ := eq_nested_of_isNested hm
          rw [leaves_nested, List.mem_flatMap]
          constructor
          · rintro ⟨⟨c, i⟩, hc, hl⟩
            obtain ⟨⟨below, l'⟩, hbelow, heq⟩ := List.mem_map.mp hl
            obtain ⟨rfl, rfl⟩ := Prod.ext_iff.mp heq
            have hi := List.mem_zipIdx_iff_getElem?.mp hc
            obtain ⟨hat, hleaf⟩ := (ih c (List.mem_of_getElem? hi)).mp hbelow
            refine ⟨?_, hleaf⟩
            rw [Prod.map_fst, at?, members, hi, Option.bind_some]
            exact hat
          · rintro ⟨hat, hleaf⟩
            cases place with
            | nil =>
                obtain rfl := Option.some.inj hat
                cases hleaf
            | cons i below =>
                obtain ⟨c, hi, hc⟩ := Option.bind_eq_some_iff.mp hat
                have hbelow := (ih c (List.mem_of_getElem? hi)).mpr ⟨hc, hleaf⟩
                exact ⟨(c, i), List.mem_zipIdx_iff_getElem?.mpr hi,
                  List.mem_map_of_mem (f := Prod.map (i :: ·) id) hbelow⟩

theorem pairwise_zipIdx (ms : List Member) :
    ms.zipIdx.Pairwise fun c d => c.2 < d.2 := by
  have hrange : (ms.zipIdx.map Prod.snd).Pairwise (· < ·) := by
    rw [List.zipIdx_map_snd]
    exact List.pairwise_lt_range' 1
  exact List.pairwise_map.mp hrange

/-- The leaves stand in the order of their places: a member comes before what
stands after it in its own record, and before what stands after any of the
nested records around it. -/
theorem pairwise_leaves (m : Member) :
    m.leaves.Pairwise fun a b => a.1 < b.1 := by
  induction m using induction_members with
  | step m ih =>
      cases hm : m.isNested with
      | false =>
          rw [leaves_of_not_nested hm]
          exact List.pairwise_singleton _ _
      | true =>
          obtain ⟨ms, exported, rfl⟩ := eq_nested_of_isNested hm
          rw [leaves_nested, List.pairwise_flatMap]
          constructor
          · rintro ⟨c, i⟩ hc
            have hi := List.mem_zipIdx_iff_getElem?.mp hc
            refine List.pairwise_map.mpr ?_
            refine (ih c (List.mem_of_getElem? hi)).imp ?_
            intro a b hab
            exact List.cons_lt_cons_self.mpr hab
          · refine (pairwise_zipIdx ms).imp ?_
            rintro ⟨c, i⟩ ⟨d, j⟩ hij a ha b hb
            obtain ⟨a, -, rfl⟩ := List.mem_map.mp ha
            obtain ⟨b, -, rfl⟩ := List.mem_map.mp hb
            exact List.cons_lt_cons_iff.mpr (Or.inl hij)

/-! ## Reading off the leaves -/

theorem flatten_of_not_nested {m : Member} (h : m.isNested = false) :
    m.flatten = [m] := by
  cases m with
  | nested ms exported => cases h
  | _ => rfl

theorem map_snd_leavesFrom
    {ms : List Member} (h : ∀ c ∈ ms, c.leaves.map Prod.snd = c.flatten)
    (i : ℕ) :
    (leavesFrom i ms).map Prod.snd = flattenAll ms := by
  induction ms generalizing i with
  | nil => rfl
  | cons m ms ih =>
      obtain ⟨hm, hms⟩ := List.forall_mem_cons.mp h
      rw [leavesFrom, flattenAll, List.map_append, ih hms, List.map_map, ← hm]
      rfl

theorem map_snd_leaves (m : Member) :
    m.leaves.map Prod.snd = m.flatten := by
  induction m using induction_members with
  | step m ih =>
      cases hm : m.isNested with
      | false =>
          rw [leaves_of_not_nested hm, flatten_of_not_nested hm]
          rfl
      | true =>
          obtain ⟨ms, exported, rfl⟩ := eq_nested_of_isNested hm
          exact map_snd_leavesFrom ih 0

theorem fields_eq_filterMap (m : Member) :
    m.fields = m.flatten.filterMap field? := by
  induction m using induction_members with
  | step m ih =>
      cases m with
      | nested ms exported =>
          rw [fields, flatten, fieldsAll_eq_flatMap, flattenAll_eq_flatMap,
            List.filterMap_flatMap]
          exact List.flatMap_congr ih
      | _ => rfl

theorem extras_eq_flatMap (m : Member) :
    m.extras = m.flatten.flatMap ownExtras := by
  induction m using induction_members with
  | step m ih =>
      cases m with
      | nested ms exported =>
          rw [extras, flatten, extrasAll_eq_flatMap, flattenAll_eq_flatMap,
            List.flatMap_assoc]
          exact List.flatMap_congr ih
      | extra tokens exported => exact (List.append_nil tokens).symm
      | _ => rfl

/-! ## Inlining -/

/-- One nested record, at any depth, is replaced by its members in place. -/
inductive Inlines : List Member → List Member → Prop where
  | here (before inner : List Member) (exported : Bool) (after : List Member) :
      Inlines (before ++ .nested inner exported :: after)
        (before ++ inner ++ after)
  | inside (before : List Member) {inner inner' : List Member}
      (exported : Bool) (after : List Member) (h : Inlines inner inner') :
      Inlines (before ++ .nested inner exported :: after)
        (before ++ .nested inner' exported :: after)

theorem flattenAll_append (ms ns : List Member) :
    flattenAll (ms ++ ns) = flattenAll ms ++ flattenAll ns := by
  simp only [flattenAll_eq_flatMap, List.flatMap_append]

theorem flattenAll_of_inlines
    {ms ns : List Member} (h : Inlines ms ns) :
    flattenAll ns = flattenAll ms := by
  induction h with
  | here before inner exported after =>
      simp only [flattenAll_append, flattenAll, flatten, List.append_assoc]
  | inside before exported after h ih =>
      simp only [flattenAll_append, flattenAll, flatten, ih]

theorem flattenAll_of_inlines_star
    {ms ns : List Member} (h : Relation.ReflTransGen Inlines ms ns) :
    flattenAll ns = flattenAll ms := by
  induction h with
  | refl => rfl
  | tail _ hstep ih => exact (flattenAll_of_inlines hstep).trans ih

theorem flattenAll_of_flat
    {ms : List Member} (h : ∀ m ∈ ms, m.isNested = false) :
    flattenAll ms = ms := by
  induction ms with
  | nil => rfl
  | cons m ms ih =>
      obtain ⟨hm, hms⟩ := List.forall_mem_cons.mp h
      rw [flattenAll, flatten_of_not_nested hm, ih hms]
      rfl

theorem isNested_of_mem_flatten {m l : Member} (h : l ∈ m.flatten) :
    l.isNested = false := by
  rw [← map_snd_leaves] at h
  obtain ⟨⟨place, l⟩, hl, rfl⟩ := List.mem_map.mp h
  exact (mem_leaves_iff.mp hl).2

theorem inlines_star_flattenAll
    {ms : List Member}
    (h : ∀ c ∈ ms, ∀ before after, Relation.ReflTransGen Inlines
      (before ++ c :: after) (before ++ c.flatten ++ after))
    (before after : List Member) :
    Relation.ReflTransGen Inlines (before ++ ms ++ after)
      (before ++ flattenAll ms ++ after) := by
  induction ms generalizing before with
  | nil => exact .refl
  | cons c cs ih =>
      obtain ⟨hc, hcs⟩ := List.forall_mem_cons.mp h
      have hfirst := hc before (cs ++ after)
      have hrest := ih hcs (before ++ c.flatten)
      simp only [flattenAll, List.append_assoc, List.cons_append]
        at hfirst hrest ⊢
      exact hfirst.trans hrest

/-- Any member can be inlined down to its leaves, whatever stands around
it. -/
theorem inlines_star_flatten (m : Member) (before after : List Member) :
    Relation.ReflTransGen Inlines (before ++ m :: after)
      (before ++ m.flatten ++ after) := by
  induction m using induction_members generalizing before after with
  | step m ih =>
      cases hm : m.isNested with
      | false =>
          rw [flatten_of_not_nested hm, List.append_assoc]
          exact .refl
      | true =>
          obtain ⟨ms, exported, rfl⟩ := eq_nested_of_isNested hm
          exact .head (.here before ms exported after)
            (inlines_star_flattenAll ih before after)

/-- A description is inlined completely when no nested record is left.  This
ends with the leaves, in whatever order the nested records are replaced. -/
theorem inlines_star_flat_iff {ms ns : List Member} :
    (Relation.ReflTransGen Inlines ms ns ∧ ∀ m ∈ ns, m.isNested = false) ↔
      ns = flattenAll ms := by
  constructor
  · rintro ⟨hinlines, hflat⟩
    rw [← flattenAll_of_flat hflat]
    exact flattenAll_of_inlines_star hinlines
  · rintro rfl
    constructor
    · have hall : ∀ c ∈ ms, ∀ before after,
          Relation.ReflTransGen Inlines (before ++ c :: after)
            (before ++ c.flatten ++ after) :=
        fun c _ => c.inlines_star_flatten
      simpa using inlines_star_flattenAll hall [] []
    · intro l hl
      rw [flattenAll_eq_flatMap] at hl
      obtain ⟨m, -, hm⟩ := List.mem_flatMap.mp hl
      exact isNested_of_mem_flatten hm

end Member

open Member

theorem Record.ofMembers_eq (ms : List Member) :
    Record.ofMembers ms =
      ⟨(flattenAll ms).filterMap field?, (flattenAll ms).flatMap ownExtras⟩ := by
  have hfields := fields_eq_filterMap (.nested ms)
  have hextras := extras_eq_flatMap (.nested ms)
  rw [Member.fields, flatten] at hfields
  rw [Member.extras, flatten] at hextras
  rw [ofMembers, hfields, hextras]

theorem Record.ofMembers_of_inlines_star
    {ms ns : List Member} (h : Relation.ReflTransGen Inlines ms ns) :
    Record.ofMembers ns = Record.ofMembers ms := by
  rw [ofMembers_eq, ofMembers_eq, flattenAll_of_inlines_star h]

/-- Nesting is inlining, to any depth.  The leaves of a description are the
members that stand at some place and are no nested records, in the order of
their places.  The fields of the record are those of the tagged leaves, each
exported exactly when its own member is, and its extra tokens are those of all
lists among the leaves; neither depends on whether the nested records around
them are exported.  So replacing nested records by their members, in place and
at any depth, changes neither the record nor its encoding.  This can be done
until only the leaves are left, and then the first leaf of each name that
renders something speaks for its option, wherever it was nested, and all extra
tokens come after what the tagged leaves contribute. -/
theorem Record.ofMembers_inlines_nested (ms : List Member) :
    let leaves := (Member.nested ms).leaves
    let fields := leaves.filterMap fun l => l.2.field?
    leaves.Pairwise (fun a b => a.1 < b.1) ∧
      (∀ place m, (place, m) ∈ leaves ↔
        (Member.nested ms).at? place = some m ∧ m.isNested = false) ∧
      Record.ofMembers ms = ⟨fields, leaves.flatMap fun l => l.2.ownExtras⟩ ∧
      (∀ ns, Relation.ReflTransGen Inlines ms ns →
        Record.ofMembers ns = Record.ofMembers ms ∧
          (Record.ofMembers ns).encode = (Record.ofMembers ms).encode) ∧
      (∀ ns,
        (Relation.ReflTransGen Inlines ms ns ∧ ∀ m ∈ ns, m.isNested = false) ↔
          ns = leaves.map Prod.snd) ∧
      (Record.ofMembers ms).encode.arguments =
        fields.zipIdx.flatMap (spokenTokens fields) ++
          leaves.flatMap fun l => l.2.ownExtras := by
  have hleaves : (Member.nested ms).leaves.map Prod.snd = flattenAll ms :=
    map_snd_leaves (.nested ms)
  have hrecord : Record.ofMembers ms =
      ⟨(Member.nested ms).leaves.filterMap fun l => l.2.field?,
        (Member.nested ms).leaves.flatMap fun l => l.2.ownExtras⟩ := by
    rw [ofMembers_eq, ← hleaves, List.filterMap_map, List.flatMap_map]
    rfl
  refine ⟨pairwise_leaves _, fun _ _ => mem_leaves_iff, hrecord, ?_, ?_, ?_⟩
  · intro ns h
    have hsame := Record.ofMembers_of_inlines_star h
    exact ⟨hsame, congrArg Record.encode hsame⟩
  · intro ns
    rw [hleaves]
    exact inlines_star_flat_iff
  · rw [Record.encode_arguments, Record.fieldTokens_eq_spokenTokens, hrecord]

example :
    (Record.ofMembers
      [.tagged "before" "before" true (.leaf (.int 1)),
        .nested
          [.tagged "level" "log.level" true (.leaf (.text "debug")),
            .extra ["--shared-extra"]] false,
        .tagged "later" "log.level" true (.leaf (.text "info")),
        .extra ["--own-extra"]]).encode.arguments =
      ["--before=1", "--log.level=debug", "--shared-extra", "--own-extra"] := by
  decide +kernel

end ContainerArgs.Flag
