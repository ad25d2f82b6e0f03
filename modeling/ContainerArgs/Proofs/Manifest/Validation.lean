import ContainerArgs.Manifest.Basic
import Mathlib.Data.List.Nodup
import Mathlib.Data.Nat.Find

/-!
# What makes a manifest valid

A manifest is valid when its components have names, no two the same, and all
have arguments.  Otherwise it is refused for its first component at fault, with
the error that the component's own arguments have if its name is no fault.
-/

namespace ContainerArgs

/-! ## Checking a component and building its arguments -/

namespace Configuration

theorem check_eq_map_args (c : Configuration) :
    c.check = c.args.map fun _ => () := by
  rw [check, args]
  cases c.specification with
  | error e => rfl
  | ok s =>
      have hargs : s.args = s.validate.map fun _ =>
          s.kind.component.subcommand.toList ++
            s.kind.component.encode s.options := by
        rw [Specification.args, Component.args]
        exact bind_pure_comp _ _
      change s.validate.mapError _ = (s.args.mapError _).map _
      rw [hargs]
      cases s.validate <;> rfl

/-- A component fails by its options or by its own check, and the error names
it. -/
theorem args_eq_error
    {c : Configuration} {e : ManifestError} (h : c.args = .error e) :
    (∃ fault, c.specification = .error e ∧
        Specification.load c.kind c.options = .error fault ∧
        e = .invalidOptions c.name fault) ∨
      ∃ s fault, c.specification = .ok s ∧ s.args = .error fault ∧
        e = .validation c.name fault := by
  rw [args] at h
  cases hs : c.specification with
  | error e' =>
      left
      obtain rfl : e' = e := by
        rw [hs] at h
        exact Except.error.inj h
      rw [specification] at hs
      cases hload : Specification.load c.kind c.options with
      | error fault =>
          rw [hload] at hs
          exact ⟨fault, rfl, rfl, (Except.error.inj hs).symm⟩
      | ok s =>
          rw [hload] at hs
          cases hs
  | ok s =>
      right
      rw [hs] at h
      cases hargs : s.args with
      | error fault =>
          refine ⟨s, fault, rfl, hargs, ?_⟩
          have herror : (s.args.mapError (.validation c.name) :
              Except ManifestError (List String)) = .error e := h
          rw [hargs] at herror
          exact (Except.error.inj herror).symm
      | ok arguments =>
          have herror : (s.args.mapError (.validation c.name) :
              Except ManifestError (List String)) = .error e := h
          rw [hargs] at herror
          cases herror

end Configuration

namespace Manifest

/-! ## The first component at fault -/

/-- The names of the components before a place. -/
def namesBefore (cs : List Configuration) (i : ℕ) : List String :=
  (cs.take i).map (·.name)

/-- The component at a place has no name, the name of an earlier one, or no
arguments. -/
def IsFaulty (cs : List Configuration) (i : ℕ) : Prop :=
  ∃ c ∈ cs[i]?, c.name = "" ∨ c.name ∈ namesBefore cs i ∨
    ∃ e, c.args = .error e

/-- The error that the component at a place is refused with: a missing name
comes before a repeated one, and a name before the arguments. -/
def Refuses (cs : List Configuration) (i : ℕ) (e : ManifestError) : Prop :=
  ∃ c ∈ cs[i]?,
    (c.name = "" → e = .emptyName) ∧
    (c.name ≠ "" → c.name ∈ namesBefore cs i → e = .duplicateName c.name) ∧
    (c.name ≠ "" → c.name ∉ namesBefore cs i → c.args = .error e)

/-- The first place whose component is at fault. -/
def IsFirstFault (cs : List Configuration) (i : ℕ) : Prop :=
  IsFaulty cs i ∧ ∀ j < i, ¬IsFaulty cs j

/-- The fault of a component, given the names that are taken. -/
def fault? (taken : List String) (c : Configuration) : Option ManifestError :=
  if c.name = "" then some .emptyName
  else if c.name ∈ taken then some (.duplicateName c.name)
  else match c.args with
    | .ok _ => none
    | .error e => some e

theorem checkAll_cons
    (met : List String) (c : Configuration) (cs : List Configuration) :
    checkAll met (c :: cs) =
      match fault? met c with
      | some e => .error e
      | none => checkAll (c.name :: met) cs := by
  rw [checkAll, fault?]
  by_cases hname : c.name = ""
  · simp [hname]
  · by_cases hmet : c.name ∈ met
    · simp [hname, hmet]
    · have hcheck := c.check_eq_map_args
      simp only [hname, hmet, String.isEmpty_iff, List.contains_iff_mem,
        if_false]
      cases hargs : c.args with
      | error e =>
          rw [hargs] at hcheck
          rw [hcheck]
          rfl
      | ok arguments =>
          rw [hargs] at hcheck
          rw [hcheck]
          rfl

/-- The names before a place, with those met before the first one, are all
that a component's own name is compared with. -/
theorem fault?_congr
    {taken taken' : List String} {c : Configuration}
    (h : c.name ∈ taken ↔ c.name ∈ taken') :
    fault? taken c = fault? taken' c := by
  simp only [fault?, h]

/-- The fault of the component at a place, given the names met before. -/
def faultAt? (met : List String) (cs : List Configuration) (i : ℕ) :
    Option ManifestError :=
  cs[i]?.bind (fault? (namesBefore cs i ++ met))

theorem faultAt?_cons_succ
    (met : List String) (c : Configuration) (cs : List Configuration) (i : ℕ) :
    faultAt? met (c :: cs) (i + 1) = faultAt? (c.name :: met) cs i := by
  rw [faultAt?, faultAt?, List.getElem?_cons_succ]
  refine Option.bind_congr fun d _ => fault?_congr ?_
  simp [namesBefore, or_left_comm]

/-- Checking fails with the error of the first component at fault. -/
theorem checkAll_eq_error_iff
    {met : List String} {cs : List Configuration} {e : ManifestError} :
    checkAll met cs = .error e ↔
      ∃ i, faultAt? met cs i = some e ∧ ∀ j < i, faultAt? met cs j = none := by
  induction cs generalizing met with
  | nil => simp [checkAll, faultAt?]
  | cons c cs ih =>
      have hzero : faultAt? met (c :: cs) 0 = fault? met c := by
        simp [faultAt?, namesBefore]
      rw [checkAll_cons]
      cases hfault : fault? met c with
      | some e' =>
          rw [hfault] at hzero
          constructor
          · intro h
            refine ⟨0, ?_, by simp⟩
            rw [hzero, Except.error.inj h]
          · rintro ⟨i, hi, hfirst⟩
            rcases Nat.eq_zero_or_pos i with rfl | hpos
            · rw [hzero] at hi
              rw [Option.some.inj hi]
            · have hnone := hfirst 0 hpos
              simp [hzero] at hnone
      | none =>
          rw [hfault] at hzero
          change checkAll (c.name :: met) cs = .error e ↔ _
          rw [ih]
          constructor
          · rintro ⟨i, hi, hfirst⟩
            refine ⟨i + 1, (faultAt?_cons_succ met c cs i).trans hi, ?_⟩
            intro j hj
            cases j with
            | zero => exact hzero
            | succ j =>
                rw [faultAt?_cons_succ]
                exact hfirst j (by omega)
          · rintro ⟨i, hi, hfirst⟩
            cases i with
            | zero => simp [hzero] at hi
            | succ i =>
                refine ⟨i, (faultAt?_cons_succ met c cs i).symm.trans hi, ?_⟩
                intro j hj
                rw [← faultAt?_cons_succ]
                exact hfirst (j + 1) (by omega)

/-! ## The faults of a manifest -/

section Place

variable {cs : List Configuration} {i : ℕ} {c : Configuration} (hi : cs[i]? = some c)

include hi

theorem isFaulty_iff_of_getElem? :
    IsFaulty cs i ↔
      c.name = "" ∨ c.name ∈ namesBefore cs i ∨ ∃ e, c.args = .error e := by
  simp [IsFaulty, hi]

theorem refuses_iff_of_getElem? {e : ManifestError} :
    Refuses cs i e ↔
      (c.name = "" → e = .emptyName) ∧
      (c.name ≠ "" → c.name ∈ namesBefore cs i →
        e = .duplicateName c.name) ∧
      (c.name ≠ "" → c.name ∉ namesBefore cs i → c.args = .error e) := by
  simp only [Refuses, hi, Option.mem_def, Option.some.injEq,
    exists_eq_left']

theorem faultAt?_of_getElem? :
    faultAt? [] cs i = fault? (namesBefore cs i) c := by
  simp [faultAt?, hi]

end Place

theorem faultAt?_eq_none_iff {cs : List Configuration} {i : ℕ} :
    faultAt? [] cs i = none ↔ ¬IsFaulty cs i := by
  cases hi : cs[i]? with
  | none => simp [faultAt?, IsFaulty, hi]
  | some c =>
      rw [faultAt?_of_getElem? hi, isFaulty_iff_of_getElem? hi, fault?]
      by_cases hname : c.name = ""
      · simp [hname]
      · by_cases hmet : c.name ∈ namesBefore cs i
        · simp [hname, hmet]
        · cases hargs : c.args <;> simp [hname, hmet]

theorem faultAt?_eq_some_iff
    {cs : List Configuration} {i : ℕ} {e : ManifestError} :
    faultAt? [] cs i = some e ↔ IsFaulty cs i ∧ Refuses cs i e := by
  cases hi : cs[i]? with
  | none => simp [faultAt?, IsFaulty, hi]
  | some c =>
      rw [faultAt?_of_getElem? hi, isFaulty_iff_of_getElem? hi,
        refuses_iff_of_getElem? hi, fault?]
      by_cases hname : c.name = ""
      · simp [hname, eq_comm]
      · by_cases hmet : c.name ∈ namesBefore cs i
        · simp [hname, hmet, eq_comm]
        · cases hargs : c.args <;> simp [hname, hmet]

theorem validate_eq_error_iff {m : Manifest} {e : ManifestError} :
    m.validate = .error e ↔
      ∃ i, IsFirstFault m.components i ∧ Refuses m.components i e := by
  rw [validate, checkAll_eq_error_iff]
  simp only [faultAt?_eq_some_iff, faultAt?_eq_none_iff, IsFirstFault]
  exact exists_congr fun i => and_right_comm

/-- A component at fault gives a first one, and an error for it. -/
theorem exists_refuses_of_isFaulty
    {cs : List Configuration} {i : ℕ} (h : IsFaulty cs i) :
    ∃ j e, IsFirstFault cs j ∧ Refuses cs j e := by
  classical
  let j := Nat.find ⟨i, h⟩
  have hfaulty : IsFaulty cs j := Nat.find_spec ⟨i, h⟩
  have hsome : faultAt? [] cs j ≠ none := by
    rw [Ne, faultAt?_eq_none_iff]
    exact not_not_intro hfaulty
  obtain ⟨e, he⟩ := Option.ne_none_iff_exists'.mp hsome
  refine ⟨j, e, ⟨hfaulty, fun k hk => ?_⟩, (faultAt?_eq_some_iff.mp he).2⟩
  exact Nat.find_min ⟨i, h⟩ hk

theorem validate_eq_ok_iff {m : Manifest} :
    m.validate = .ok () ↔ ∀ i, ¬IsFaulty m.components i := by
  constructor
  · intro hok i hi
    obtain ⟨j, e, hj, he⟩ := exists_refuses_of_isFaulty hi
    have herror : m.validate = .error e :=
      validate_eq_error_iff.mpr ⟨j, hj, he⟩
    rw [hok] at herror
    cases herror
  · intro h
    cases hvalidate : m.validate with
    | ok u => rfl
    | error e =>
        obtain ⟨i, hi, -⟩ := validate_eq_error_iff.mp hvalidate
        exact (h i hi.1).elim

theorem mem_namesBefore_iff
    {cs : List Configuration} {i : ℕ} {name : String} :
    name ∈ namesBefore cs i ↔
      ∃ j < i, ∃ d, cs[j]? = some d ∧ d.name = name := by
  constructor
  · intro h
    obtain ⟨d, hd, rfl⟩ := List.mem_map.mp h
    obtain ⟨j, hj⟩ := List.mem_iff_getElem?.mp hd
    rw [List.getElem?_take] at hj
    split at hj
    next hlt => exact ⟨j, hlt, d, hj, rfl⟩
    next => simp at hj
  · rintro ⟨j, hlt, d, hd, rfl⟩
    refine List.mem_map_of_mem (List.mem_iff_getElem?.mpr ⟨j, ?_⟩)
    rw [List.getElem?_take, if_pos hlt, hd]

theorem nodup_names_iff {cs : List Configuration} :
    (cs.map (·.name)).Nodup ↔
      ∀ i c, cs[i]? = some c → c.name ∉ namesBefore cs i := by
  simp only [mem_namesBefore_iff]
  rw [List.nodup_iff_getElem?_ne_getElem?]
  constructor
  · rintro h i c hi ⟨j, hj, d, hd, heq⟩
    have hlt : i < (cs.map (·.name)).length := by
      simpa using (List.getElem?_eq_some_iff.mp hi).1
    refine h j i hj hlt ?_
    simp [hi, hd, heq]
  · intro h i j hij hj heq
    have hj' : j < cs.length := by simpa using hj
    have hi' : i < cs.length := by omega
    refine h j cs[j] (List.getElem?_eq_getElem hj') ⟨i, hij, cs[i],
      List.getElem?_eq_getElem hi', ?_⟩
    simpa [hi', hj'] using heq

/-- No component is at fault when all have names, no two the same, and all have
arguments. -/
theorem forall_not_isFaulty_iff {cs : List Configuration} :
    (∀ i, ¬IsFaulty cs i) ↔
      (∀ c ∈ cs, c.name ≠ "") ∧ (cs.map (·.name)).Nodup ∧
        ∀ c ∈ cs, ∃ arguments, c.args = .ok arguments := by
  have hargs : ∀ c : Configuration,
      (∃ arguments, c.args = .ok arguments) ↔ ¬∃ e, c.args = .error e := by
    intro c
    cases c.args <;> simp
  rw [nodup_names_iff]
  simp only [IsFaulty, hargs, List.mem_iff_getElem?, Option.mem_def]
  constructor
  · intro h
    refine ⟨?_, ?_, ?_⟩
    · rintro c ⟨i, hi⟩ hname
      exact h i ⟨c, hi, Or.inl hname⟩
    · intro i c hi hmem
      exact h i ⟨c, hi, Or.inr (Or.inl hmem)⟩
    · rintro c ⟨i, hi⟩ herror
      exact h i ⟨c, hi, Or.inr (Or.inr herror)⟩
  · rintro ⟨hnames, hfree, hall⟩ i ⟨c, hi, hname | hmem | herror⟩
    · exact hnames c ⟨i, hi⟩ hname
    · exact hfree i c hi hmem
    · exact hall c ⟨i, hi⟩ herror

/-- A component and the names before it, up to some place, are the same in
manifests that are the same up to there. -/
theorem eq_of_take_eq
    {cs ds : List Configuration} {i j : ℕ} (hj : j ≤ i)
    (h : cs.take (i + 1) = ds.take (i + 1)) :
    cs[j]? = ds[j]? ∧ namesBefore cs j = namesBefore ds j := by
  constructor
  · have hget := congrArg (·[j]?) h
    simpa [List.getElem?_take, Nat.lt_succ_of_le hj] using hget
  · have htake := congrArg (List.take j) h
    rw [List.take_take, List.take_take,
      Nat.min_eq_left (Nat.le_succ_of_le hj)] at htake
    rw [namesBefore, namesBefore, htake]

theorem refuses_congr
    {cs ds : List Configuration} {i : ℕ} {e : ManifestError}
    (h : cs.take (i + 1) = ds.take (i + 1)) :
    Refuses cs i e ↔ Refuses ds i e := by
  obtain ⟨hat, hbefore⟩ := eq_of_take_eq le_rfl h
  rw [Refuses, Refuses, hat, hbefore]

theorem isFirstFault_congr
    {cs ds : List Configuration} {i : ℕ}
    (h : cs.take (i + 1) = ds.take (i + 1)) :
    IsFirstFault cs i ↔ IsFirstFault ds i := by
  have hfaulty : ∀ j ≤ i, IsFaulty cs j ↔ IsFaulty ds j := by
    intro j hj
    obtain ⟨hat, hbefore⟩ := eq_of_take_eq hj h
    rw [IsFaulty, IsFaulty, hat, hbefore]
  rw [IsFirstFault, IsFirstFault, hfaulty i le_rfl]
  refine and_congr_right fun _ => forall₂_congr fun j hj => ?_
  rw [hfaulty j (Nat.le_of_lt hj)]

theorem IsFirstFault.unique
    {cs : List Configuration} {i j : ℕ} (hi : IsFirstFault cs i)
    (hj : IsFirstFault cs j) :
    i = j := by
  rcases Nat.lt_trichotomy i j with hlt | heq | hgt
  · exact (hj.2 i hlt hi.1).elim
  · exact heq
  · exact (hi.2 j hgt hj.1).elim

/-- Nothing after the first component at fault influences the check. -/
theorem validate_congr
    {m n : Manifest} {i : ℕ} (hi : IsFirstFault m.components i)
    (h : n.components.take (i + 1) = m.components.take (i + 1)) :
    n.validate = m.validate := by
  obtain ⟨k, e, hk, hrefuses⟩ := exists_refuses_of_isFaulty hi.1
  obtain rfl : k = i := hk.unique hi
  have hm : m.validate = .error e :=
    validate_eq_error_iff.mpr ⟨k, hk, hrefuses⟩
  have hn : n.validate = .error e :=
    validate_eq_error_iff.mpr
      ⟨k, (isFirstFault_congr h).mpr hk, (refuses_congr h).mpr hrefuses⟩
  rw [hm, hn]

/-! ## Looking a component up -/

/-- In a valid manifest a name belongs to the component at one place only, and
looking the name up finds that component. -/
theorem component?_eq_some_iff
    {m : Manifest} (hvalid : m.validate = .ok ()) {name : String}
    {c : Configuration} :
    m.component? name = some c ↔
      ∃ i, m.components[i]? = some c ∧ c.name = name ∧
        ∀ (j : ℕ) (d : Configuration),
          m.components[j]? = some d → d.name = name → j = i := by
  have hfree : ∀ i c, m.components[i]? = some c →
      c.name ∉ namesBefore m.components i :=
    nodup_names_iff.mp
      (forall_not_isFaulty_iff.mp (validate_eq_ok_iff.mp hvalid)).2.1
  have hunique : ∀ (i j : ℕ) (c d : Configuration),
      m.components[i]? = some c → m.components[j]? = some d →
        d.name = c.name → ¬j < i := by
    intro i j c d hi hj heq hlt
    exact hfree i c hi (mem_namesBefore_iff.mpr ⟨j, hlt, d, hj, heq⟩)
  rw [component?, List.find?_eq_some_iff_getElem]
  simp only [decide_eq_true_eq]
  constructor
  · rintro ⟨rfl, i, hlt, rfl, -⟩
    have hi := List.getElem?_eq_getElem hlt
    refine ⟨i, hi, rfl, fun j d hj heq => ?_⟩
    have hji := hunique i j _ d hi hj heq
    have hij := hunique j i d _ hj hi heq.symm
    omega
  · rintro ⟨i, hi, rfl, honly⟩
    obtain ⟨hlt, rfl⟩ := List.getElem?_eq_some_iff.mp hi
    refine ⟨rfl, i, hlt, rfl, fun j hj => ?_⟩
    have hj' := List.getElem?_eq_getElem (Nat.lt_trans hj hlt)
    simp only [Bool.not_eq_true', decide_eq_false_iff_not]
    intro heq
    have hji := honly j _ hj' heq
    omega

theorem component?_eq_none_iff {m : Manifest} {name : String} :
    m.component? name = none ↔ ∀ c ∈ m.components, c.name ≠ name := by
  simp [component?]

/-! ## The verdict on a manifest -/

/-- Validation is exact and agrees with the arguments of the components.  A
manifest is valid exactly when every name is there, no two are the same and
every component has arguments.  Otherwise the first component with a missing
name, a repeated name or no arguments decides: the error is the one that
`Refuses` gives, which for a component with a new name is that of its own
arguments, about its options or its own check and under its name, and the
components after it do not matter.  In a valid manifest, looking a name up finds
the only component of that name, and nothing for any other name. -/
theorem validate_decides_components (m : Manifest) :
    (m.validate = .ok () ↔
      (∀ c ∈ m.components, c.name ≠ "") ∧
      (m.components.map (·.name)).Nodup ∧
      ∀ c ∈ m.components, ∃ arguments, c.args = .ok arguments) ∧
    (∀ e, m.validate = .error e ↔
      ∃ i, IsFirstFault m.components i ∧ Refuses m.components i e) ∧
    (∀ (c : Configuration) (e : ManifestError), c.args = .error e →
      (∃ fault, c.specification = .error e ∧
        Specification.load c.kind c.options = .error fault ∧
        e = .invalidOptions c.name fault) ∨
      ∃ s fault, c.specification = .ok s ∧ s.args = .error fault ∧
        e = .validation c.name fault) ∧
    (∀ i, IsFirstFault m.components i → ∀ n : Manifest,
      n.components.take (i + 1) = m.components.take (i + 1) →
        n.validate = m.validate) ∧
    (m.validate = .ok () → ∀ name,
      (∀ c, m.component? name = some c ↔
        ∃ i, m.components[i]? = some c ∧ c.name = name ∧
          ∀ (j : ℕ) (d : Configuration),
            m.components[j]? = some d → d.name = name → j = i) ∧
      (m.component? name = none ↔ ∀ c ∈ m.components, c.name ≠ name)) :=
  ⟨validate_eq_ok_iff.trans forall_not_isFaulty_iff,
    fun _ => validate_eq_error_iff,
    fun _ _ => Configuration.args_eq_error,
    fun _ hi _ h => validate_congr hi h,
    fun hvalid _ =>
      ⟨fun _ => component?_eq_some_iff hvalid, component?_eq_none_iff⟩⟩

end Manifest

end ContainerArgs
