import ContainerArgs.Component.Log
import ContainerArgs.Flag.Render
import ContainerArgs.Proofs.Duration.Clock
import ContainerArgs.Proofs.Duration.Written

/-!
# The arguments of settings

What a setting shows of itself as the value of an option.  Zero is the only
value that a plain setting does not show, so settings with the same arguments
have the same text; under an optional value nothing is left out.
-/

namespace ContainerArgs

theorem Text.FilePath.isEmpty_text (p : FilePath) :
    p.text.isEmpty = p.isEmpty := by
  obtain ⟨bytes⟩ := p
  cases bytes with
  | nil => simp [text, isEmpty, Utf8.decodeLossy, Utf8.decodeParts]
  | cons b bs => simp [text, isEmpty, Utf8.decodeLossy, Utf8.decodeParts]

namespace Settings

open ContainerArgs.Flag Text Component

/-- The arguments of a setting in a field with a tag. -/
def arguments {α : Type} [Setting α] (tag : String) (a : α) : List Argument :=
  ((Setting.flag a).render (Tag.parse tag) .plain).arguments

/-! ## Single values -/

theorem render_leaf_plain (tag : Tag) (l : Leaf) :
    ((Value.leaf l).render tag .plain).arguments =
      if l.isZero then [] else l.arguments tag := by
  rw [Value.render]
  cases l.isZero <;> rfl

/-- Leaves that show their texts show the same exactly when the texts are equal,
provided that the text tells whether a leaf is zero. -/
theorem render_leaf_eq_iff
    {tag : Tag} {l m : Leaf} {s u : String}
    (hl : l.arguments tag = [.valued s]) (hm : m.arguments tag = [.valued u])
    (hzero : s = u → l.isZero = m.isZero)
    (hboth : l.isZero = true → m.isZero = true → s = u) :
    ((Value.leaf l).render tag .plain).arguments =
        ((Value.leaf m).render tag .plain).arguments ↔ s = u := by
  rw [render_leaf_plain, render_leaf_plain, hl, hm]
  constructor
  · intro h
    by_cases hlz : l.isZero = true
    · by_cases hmz : m.isZero = true
      · exact hboth hlz hmz
      · simp [hlz, hmz] at h
    · by_cases hmz : m.isZero = true
      · simp [hlz, hmz] at h
      · simpa [hlz, hmz] using h
  · intro h
    rw [h, hzero h]

@[simp] theorem arguments_string {tag s u : String} :
    arguments tag s = arguments tag u ↔ s = u := by
  refine render_leaf_eq_iff rfl rfl (fun h => by rw [h]) ?_
  simp only [Leaf.isZero, String.isEmpty_iff]
  rintro rfl rfl
  rfl

@[simp] theorem arguments_path {tag : String} {p q : FilePath} :
    arguments tag p = arguments tag q ↔ p.text = q.text := by
  refine render_leaf_eq_iff rfl rfl ?_ ?_
  · intro h
    simp only [Leaf.isZero, ← FilePath.isEmpty_text, h]
  · simp only [Leaf.isZero, ← FilePath.isEmpty_text, String.isEmpty_iff]
    intro hp hq
    rw [hp, hq]

@[simp] theorem arguments_bool {tag : String} {b c : Bool} :
    arguments tag b = arguments tag c ↔ b = c := by
  have hrender : ∀ d : Bool, arguments tag d =
      if d = true then (Leaf.bool true).arguments (Tag.parse tag) else [] := by
    intro d
    cases d <;> rfl
  have hshown : (Leaf.bool true).arguments (Tag.parse tag) ≠ [] := by
    rw [Leaf.arguments]
    split <;> simp
  rw [hrender, hrender]
  cases b <;> cases c <;> simp [hshown, hshown.symm]

theorem arguments_nat {tag : String} {m n : ℕ} :
    ((Value.leaf (.int m)).render (Tag.parse tag) .plain).arguments =
        ((Value.leaf (.int n)).render (Tag.parse tag) .plain).arguments ↔
      m = n := by
  have hinj : Number.natText m = Number.natText n ↔ m = n :=
    ⟨Number.natText_injective, congrArg Number.natText⟩
  rw [← hinj]
  refine render_leaf_eq_iff rfl rfl ?_ ?_
  · rw [hinj]
    rintro rfl
    rfl
  · intro hm hn
    rw [hinj]
    simp only [Leaf.isZero, beq_iff_eq] at hm hn
    omega

@[simp] theorem arguments_uint16 {tag : String} {m n : UInt16} :
    arguments tag m = arguments tag n ↔ m = n :=
  arguments_nat.trans UInt16.toNat_inj

@[simp] theorem arguments_uint32 {tag : String} {m n : UInt32} :
    arguments tag m = arguments tag n ↔ m = n :=
  arguments_nat.trans UInt32.toNat_inj

@[simp] theorem arguments_uint64 {tag : String} {m n : UInt64} :
    arguments tag m = arguments tag n ↔ m = n :=
  arguments_nat.trans UInt64.toNat_inj

@[simp] theorem arguments_duration {tag : String} {d e : Duration} :
    arguments tag d = arguments tag e ↔ d = e := by
  rw [← Duration.clockText_inj]
  refine render_leaf_eq_iff rfl rfl ?_ ?_
  · rw [Duration.clockText_inj]
    rintro rfl
    rfl
  · simp only [Leaf.isZero, Duration.isZero, beq_iff_eq]
    intro hd he
    rw [Duration.clockText, Duration.clockText, if_pos hd, if_pos he]

@[simp] theorem arguments_retention {tag : String} {r s : Retention} :
    arguments tag r = arguments tag s ↔ r = s := by
  rw [← Retention.text_inj]
  refine render_leaf_eq_iff rfl rfl ?_ ?_
  · rw [Retention.text_inj]
    rintro rfl
    rfl
  · simp only [Leaf.isZero, Retention.isZero, beq_iff_eq]
    intro hr hs
    rw [Retention.text, Retention.text, if_pos hr, if_pos hs]

/-! ## Optional values -/

theorem arguments_none {α : Type} [Setting α] (tag : String) :
    arguments tag (none : Option α) = [] := rfl

theorem arguments_some {α : Type} [Setting α] (tag : String) (a : α) :
    arguments tag (some a) =
      ((Setting.flag a).render (Tag.parse tag) .pointee).arguments := by
  rw [arguments]
  simp only [Setting.flag, Value.render]

/-- An optional value shows the text of its content, whatever that is. -/
theorem arguments_option
    {α : Type} [Setting α] {tag : String} (text : α → String)
    (htext : ∀ a : α,
      ((Setting.flag a).render (Tag.parse tag) .pointee).arguments =
        [.valued (text a)])
    {a b : Option α} :
    arguments tag a = arguments tag b ↔ a.map text = b.map text := by
  cases a with
  | none => cases b <;> simp [arguments_none, arguments_some, htext]
  | some a => cases b <;> simp [arguments_none, arguments_some, htext]

theorem map_eq_map_iff
    {α β : Type} {f : α → β} (hf : ∀ {x y : α}, f x = f y ↔ x = y)
    {a b : Option α} :
    a.map f = b.map f ↔ a = b := by
  rw [(Option.map_injective fun _ _ => hf.mp).eq_iff]

@[simp] theorem arguments_option_path {tag : String} {p q : Option FilePath} :
    arguments tag p = arguments tag q ↔
      p.map FilePath.text = q.map FilePath.text :=
  arguments_option FilePath.text fun _ => rfl

@[simp] theorem arguments_option_socket {tag : String} {a b : Option Net.Socket} :
    arguments tag a = arguments tag b ↔
      a.map Net.Socket.text = b.map Net.Socket.text :=
  arguments_option Net.Socket.text fun _ => rfl

@[simp] theorem arguments_option_string {tag : String} {s u : Option String} :
    arguments tag s = arguments tag u ↔ s = u := by
  rw [arguments_option id fun _ => rfl, Option.map_id, id, id]

@[simp] theorem arguments_option_uint32 {tag : String} {m n : Option UInt32} :
    arguments tag m = arguments tag n ↔ m = n := by
  rw [arguments_option (fun k => Number.natText k.toNat) fun _ => rfl]
  refine map_eq_map_iff fun {k l} => ⟨fun h => ?_, fun h => by rw [h]⟩
  exact UInt32.toNat_inj.mp (Number.natText_injective h)

@[simp] theorem arguments_option_retention
    {tag : String} {r s : Option Retention} :
    arguments tag r = arguments tag s ↔ r = s := by
  rw [arguments_option Retention.text fun _ => rfl]
  exact map_eq_map_iff Retention.text_inj

@[simp] theorem arguments_option_level {tag : String} {l m : Option LogLevel} :
    arguments tag l = arguments tag m ↔ l = m := by
  rw [arguments_option LogLevel.text fun _ => rfl]
  refine map_eq_map_iff fun {k l} => ?_
  cases k <;> cases l <;> decide

@[simp] theorem arguments_option_format {tag : String} {f g : Option LogFormat} :
    arguments tag f = arguments tag g ↔ f = g := by
  rw [arguments_option LogFormat.text fun _ => rfl]
  refine map_eq_map_iff fun {k l} => ?_
  cases k <;> cases l <;> decide

/-! ## Lists -/

theorem renderElements_strings (tag : Tag) (ss : List String) :
    (Value.renderElements tag (ss.map Setting.flag)).arguments =
      (ss.filter (· ≠ "")).map .valued := by
  induction ss with
  | nil => rfl
  | cons s ss ih =>
      have hhead : ((Setting.flag s).render tag .plain).arguments =
          if s = "" then [] else [.valued s] := by
        rw [show Setting.flag s = .leaf (.text s) from rfl, render_leaf_plain]
        simp only [Leaf.isZero, String.isEmpty_iff]
        rfl
      rw [List.map_cons, Value.renderElements, Rendering.arguments_append, ih,
        hhead]
      by_cases hs : s = "" <;> simp [hs]

/-- A list of texts shows those that are not empty. -/
@[simp] theorem arguments_strings {tag : String} {ss us : List String} :
    arguments tag ss = arguments tag us ↔
      ss.filter (· ≠ "") = us.filter (· ≠ "") := by
  have hrender : ∀ vs : List String,
      arguments tag vs = (vs.filter (· ≠ "")).map .valued := by
    intro vs
    rw [← renderElements_strings (Tag.parse tag), arguments]
    simp only [Setting.flag, Value.render]
  have hinj : Function.Injective Argument.valued := fun s u h => by
    simpa using h
  rw [hrender, hrender, (List.map_injective_iff.mpr hinj).eq_iff]

end Settings

end ContainerArgs
