import ContainerArgs.Proofs.Flag.Precedence
import ContainerArgs.Proofs.Flag.Visibility
import Mathlib.Logic.Relation

/-!
# Wrappers do not show

Wrappers may stand around any value of a tree and around a record. This module
erases them all at once and shows that a value without its wrappers is zero
where the value is and is rendered as the value in every position. Values that
differ in wrappers, wherever these are put or taken away, are those that are the
same when all wrappers are erased.
-/

namespace ContainerArgs.Flag

namespace Value

/-! ## Erasing wrappers -/

mutual

/-- A value without its wrappers. -/
def unwrap : Value → Value
  | .leaf l => .leaf l
  | .list vs => .list (unwrapAll vs)
  | .absent => .absent
  | .present v => .present v.unwrap
  | .wrapped _ v => v.unwrap

/-- Several values without their wrappers. -/
def unwrapAll : List Value → List Value
  | [] => []
  | v :: vs => v.unwrap :: unwrapAll vs

end

theorem unwrapAll_eq_map (vs : List Value) :
    unwrapAll vs = vs.map unwrap := by
  induction vs with
  | nil => rfl
  | cons v vs ih => rw [unwrapAll, ih, List.map_cons]

theorem isZero_unwrap (v : Value) :
    v.unwrap.isZero = v.isZero := by
  induction v using induction_children with
  | step v ih =>
      cases v with
      | leaf l => rfl
      | list vs => simp [unwrap, isZero, unwrapAll_eq_map]
      | absent => rfl
      | present v => rfl
      | wrapped w v => exact ih v (List.mem_singleton.mpr rfl)

theorem renderElements_unwrapAll
    {tag : Tag} {vs : List Value}
    (h : ∀ v ∈ vs, v.unwrap.render tag .plain = v.render tag .plain) :
    renderElements tag (unwrapAll vs) = renderElements tag vs := by
  induction vs with
  | nil => rfl
  | cons v vs ih =>
      obtain ⟨hv, hvs⟩ := List.forall_mem_cons.mp h
      rw [unwrapAll, renderElements, renderElements, hv, ih hvs]

/-- A value without its wrappers is rendered as the value, in any position. -/
theorem render_unwrap (tag : Tag) (v : Value) (position : Position) :
    v.unwrap.render tag position = v.render tag position := by
  induction v using induction_children generalizing position with
  | step v ih =>
      cases v with
      | leaf l => rfl
      | list vs =>
          rw [unwrap, render, render]
          apply renderElements_unwrapAll
          intro v hv
          exact ih v hv .plain
      | absent => rfl
      | present v =>
          have hcontent := ih v (List.mem_singleton.mpr rfl) .pointee
          cases position with
          | pointee => rw [unwrap, render, render]
          | _ => simpa only [unwrap, render] using hcontent
      | wrapped w v =>
          rw [unwrap, render_wrapped]
          exact ih v (List.mem_singleton.mpr rfl) position

/-! ## Putting wrappers in -/

/-- One wrapper is put around one of the values in a tree. -/
inductive Wraps : Value → Value → Prop where
  | here (w : Wrapper) (v : Value) : Wraps v (.wrapped w v)
  | element (before : List Value) {v v' : Value} (after : List Value)
      (h : Wraps v v') :
      Wraps (.list (before ++ v :: after)) (.list (before ++ v' :: after))
  | content {v v' : Value} (h : Wraps v v') : Wraps (.present v) (.present v')
  | inside (w : Wrapper) {v v' : Value} (h : Wraps v v') :
      Wraps (.wrapped w v) (.wrapped w v')

/-- Two values are the same but for wrappers when putting in and taking away
wrappers, in any number and anywhere, leads from one to the other. -/
def SameButWrappers (v v' : Value) : Prop :=
  Relation.EqvGen Wraps v v'

theorem unwrap_eq_of_wraps {v v' : Value} (h : Wraps v v') :
    v.unwrap = v'.unwrap := by
  induction h with
  | here w v => rfl
  | element before after h ih =>
      simp only [unwrap, unwrapAll_eq_map, List.map_append, List.map_cons, ih]
  | content h ih => rw [unwrap, unwrap, ih]
  | inside w h ih => rw [unwrap, unwrap, ih]

namespace SameButWrappers

theorem unwrap_eq {v v' : Value} (h : SameButWrappers v v') :
    v.unwrap = v'.unwrap := by
  induction h with
  | rel v v' hstep => exact unwrap_eq_of_wraps hstep
  | refl v => rfl
  | symm v v' _ ih => exact ih.symm
  | trans v v' v'' _ _ ih ih' => exact ih.trans ih'

/-- What is the same but for wrappers stays so in a place where wrappers can be
put in. -/
theorem lift
    {place : Value → Value}
    (hplace : ∀ {v v' : Value}, Wraps v v' → Wraps (place v) (place v'))
    {v v' : Value} (h : SameButWrappers v v') :
    SameButWrappers (place v) (place v') := by
  induction h with
  | rel v v' hstep => exact .rel _ _ (hplace hstep)
  | refl v => exact .refl _
  | symm v v' _ ih => exact ih.symm
  | trans v v' v'' _ _ ih ih' => exact ih.trans _ _ _ ih'

theorem list_unwrapAll
    {vs : List Value} (h : ∀ v ∈ vs, SameButWrappers v v.unwrap)
    (before : List Value) :
    SameButWrappers (.list (before ++ vs)) (.list (before ++ unwrapAll vs)) := by
  induction vs generalizing before with
  | nil => exact .refl _
  | cons v vs ih =>
      obtain ⟨hv, hvs⟩ := List.forall_mem_cons.mp h
      have hhead : SameButWrappers (.list (before ++ v :: vs))
          (.list (before ++ v.unwrap :: vs)) :=
        lift (.element before vs) hv
      have htail := ih hvs (before ++ [v.unwrap])
      simp only [List.append_assoc, List.singleton_append] at htail
      exact hhead.trans _ _ _ htail

end SameButWrappers

theorem sameButWrappers_unwrap (v : Value) :
    SameButWrappers v v.unwrap := by
  induction v using induction_children with
  | step v ih =>
      cases v with
      | leaf l => exact .refl _
      | list vs => exact SameButWrappers.list_unwrapAll ih []
      | absent => exact .refl _
      | present v =>
          exact (ih v (List.mem_singleton.mpr rfl)).lift .content
      | wrapped w v =>
          have hbelow := ih v (List.mem_singleton.mpr rfl)
          exact (Relation.EqvGen.rel _ _ (.here w v)).symm.trans _ _ _ hbelow

/-- Values are the same but for wrappers exactly when they are the same without
any. -/
theorem sameButWrappers_iff {v v' : Value} :
    SameButWrappers v v' ↔ v.unwrap = v'.unwrap := by
  constructor
  · exact SameButWrappers.unwrap_eq
  · intro h
    have hv := sameButWrappers_unwrap v
    rw [h] at hv
    exact hv.trans _ _ _ (sameButWrappers_unwrap v').symm

namespace SameButWrappers

variable {v v' : Value}

theorem isZero_eq (h : SameButWrappers v v') :
    v.isZero = v'.isZero := by
  rw [← v.isZero_unwrap, ← v'.isZero_unwrap, h.unwrap_eq]

theorem render_eq
    (h : SameButWrappers v v') (tag : Tag) (position : Position) :
    v.render tag position = v'.render tag position := by
  rw [← render_unwrap, ← v'.render_unwrap, h.unwrap_eq]

end SameButWrappers

end Value

/-! ## Wrappers in and around records -/

namespace Field

/-- Two fields are the same but for wrappers when their values are and all else
is equal. -/
structure SameButWrappers (f g : Field) : Prop where
  ident : f.ident = g.ident
  tag : f.tag = g.tag
  exported : f.exported = g.exported
  value : f.value.SameButWrappers g.value

theorem outcome_of_sameButWrappers
    {f g : Field} (h : f.SameButWrappers g) (claimed : List String) :
    f.outcome claimed = g.outcome claimed := by
  have hunder : ∀ tag, f.renderUnder tag = g.renderUnder tag := by
    intro tag
    rw [renderUnder, renderUnder, h.value.render_eq]
  simp only [outcome, h.ident, h.tag, h.exported, hunder]

end Field

namespace Handle

/-- A record behind a stack of wrappers, the outermost first. -/
def wrap (ws : List Wrapper) (r : Record) : Handle :=
  ws.foldr .wrapped (.record r)

theorem toRecord_wrap (ws : List Wrapper) (r : Record) :
    (wrap ws r).toRecord = r := by
  induction ws with
  | nil => rfl
  | cons w ws ih => exact ih

end Handle

/-- Wrappers do not show. Putting in and taking away wrappers anywhere in a
value relates exactly the values that are the same without any, and changes
neither whether the value is zero nor, under any tag and in any position, the
arguments and the notes. Records whose values are related so have the same
encoding, and behind any stack of wrappers a record has the fields, the extra
tokens, the encoding and the arguments that it has itself. -/
theorem wrappers_do_not_show :
    (∀ v v' : Value, Value.SameButWrappers v v' ↔ v.unwrap = v'.unwrap) ∧
      (∀ v v' : Value, Value.SameButWrappers v v' →
        v.isZero = v'.isZero ∧
          ∀ (tag : Tag) (position : Position),
            (v.render tag position).arguments =
                (v'.render tag position).arguments ∧
              (v.render tag position).notes = (v'.render tag position).notes) ∧
      (∀ (ws : List Wrapper) (r s : Record),
        List.Forall₂ Field.SameButWrappers s.fields r.fields →
          s.extra = r.extra →
            (Handle.wrap ws s).encode = r.encode ∧
              (Handle.wrap ws s).arguments = r.encode.arguments) ∧
      (∀ (ws : List Wrapper) (r : Record),
        (Handle.wrap ws r).fields = r.fields ∧
          (Handle.wrap ws r).extra = r.extra ∧
          (Handle.wrap ws r).toRecord.walk = r.walk ∧
          (Handle.wrap ws r).encode = r.encode ∧
          (Handle.wrap ws r).arguments = r.encode.arguments) := by
  refine ⟨fun _ _ => Value.sameButWrappers_iff, ?_, ?_, ?_⟩
  · intro v v' h
    refine ⟨h.isZero_eq, ?_⟩
    intro tag position
    rw [h.render_eq tag position]
    exact ⟨rfl, rfl⟩
  · intro ws r s hfields hextra
    have hencode : s.encode = r.encode := by
      rw [Record.encode, Record.encode, hextra,
        outcomes_of_forall₂ Field.outcome_of_sameButWrappers hfields]
    rw [Handle.arguments, Handle.encode, Handle.toRecord_wrap, hencode]
    exact ⟨rfl, rfl⟩
  · intro ws r
    have hrecord := Handle.toRecord_wrap ws r
    refine ⟨congrArg Record.fields hrecord, congrArg Record.extra hrecord, ?_, ?_, ?_⟩
    · rw [hrecord]
    · rw [Handle.encode, hrecord]
    · rw [Handle.arguments, Handle.encode, hrecord]

/-- Wrappers between two optional values, around an element and around the
record. -/
theorem wrappers_do_not_show_nested :
    let v : Value := .list [.present (.present (.leaf (.int 1))), .leaf (.int 2)]
    let v' : Value := .wrapped .borrowed <| .list
      [.present (.wrapped .boxed (.wrapped .borrowed (.present (.leaf (.int 1))))),
        .wrapped .boxed (.leaf (.int 2))]
    let r : Record := ⟨[.tagged "depth" "depth" v], ["--extra"]⟩
    let r' : Record := ⟨[.tagged "depth" "depth" v'], ["--extra"]⟩
    v'.SameButWrappers v ∧
      (∀ tag position,
        (v'.render tag position).arguments = (v.render tag position).arguments ∧
          (v'.render tag position).notes = (v.render tag position).notes) ∧
      List.Forall₂ Field.SameButWrappers r'.fields r.fields ∧
      (Handle.wrap [.boxed, .borrowed] r').encode = r.encode ∧
      r.encode =
        ⟨["--depth=2", "--extra"], [.nestedOptional "depth"]⟩ := by
  intro v v' r r'
  have hvalue : v'.SameButWrappers v := Value.sameButWrappers_iff.mpr rfl
  have hfields : List.Forall₂ Field.SameButWrappers r'.fields r.fields :=
    .cons ⟨rfl, rfl, rfl, hvalue⟩ .nil
  refine ⟨hvalue, (wrappers_do_not_show.2.1 v' v hvalue).2, hfields, ?_, ?_⟩
  · exact (wrappers_do_not_show.2.2.1 _ r r' hfields rfl).1
  · decide +kernel

end ContainerArgs.Flag
