import ContainerArgs.Component.Log
import ContainerArgs.Proofs.Duration.Canonical
import ContainerArgs.Proofs.Duration.Spelled
import ContainerArgs.Proofs.Net.Address
import ContainerArgs.Proofs.Text.Utf8

/-!
# Settings survive writing

A setting that was read from a free-form value is read again, as the same, from
the value that is written for it.  Most settings are, however they were made;
paths and windows of time have values that no text denotes.
-/

namespace ContainerArgs.Settings

open Yaml (Value)
open Component Text

section

variable {α : Type} (decode : Value → Except DecodeError α) (encode : α → Value)

/-- What is written is read as what was written. -/
def Rereads (a : α) : Prop :=
  decode (encode a) = .ok a

/-- Whatever was read is read again. -/
def Lossless : Prop :=
  ∀ {v : Value} {a : α}, decode v = .ok a → Rereads decode encode a

end

/-- Settings of the type that were read are read again. -/
class Stable (α : Type) [Setting α] : Prop where
  lossless : Lossless (α := α) Setting.decode Setting.encode

/-- What is written for a setting of the type is not null. -/
class Shown (α : Type) [Setting α] : Prop where
  encode_ne_null (a : α) : Setting.encode a ≠ .null

/-! ## Readers that succeed -/

section

variable {ε α β : Type} {x : Except ε α} {b : β}

theorem map_eq_ok_iff {f : α → β} :
    x.map f = .ok b ↔ ∃ a, x = .ok a ∧ f a = b := by
  cases x with
  | error fault => simp [Except.map]
  | ok a => simp [Except.map]

theorem bind_eq_ok_iff {f : α → Except ε β} :
    (x >>= f) = .ok b ↔ ∃ a, x = .ok a ∧ f a = .ok b := by
  cases x with
  | error fault => simp [bind, Except.bind]
  | ok a => simp [bind, Except.bind]

end

theorem untag_of_decodeText
    {expected s : String} {v : Value} (h : decodeText expected v = .ok s) :
    v.untag = .text s := by
  rw [decodeText] at h
  split at h
  next t ht =>
    obtain rfl := Except.ok.inj h
    exact ht
  next => cases h

/-- One of a few names is read from its text, or from null with the name as its
tag. -/
theorem decodeName_cases
    {α : Type} {names : List (String × α)} {v : Value} {a : α}
    (h : decodeName names v = .ok a) :
    (∃ s, v = .text s ∧ names.lookup s = some a) ∨
      ∃ tag w, v = .tagged tag w ∧ w.untag = .null ∧
        names.lookup (Yaml.bareTag tag) = some a := by
  rw [decodeName.eq_def] at h
  split at h
  next s =>
    dsimp only at h
    split at h
    next b hb =>
      obtain rfl := Except.ok.inj h
      exact .inl ⟨s, rfl, hb⟩
    next => cases h
  next tag w =>
    obtain ⟨b, hfind, hnull⟩ := bind_eq_ok_iff.mp h
    dsimp only at hfind
    split at hfind
    next c hc =>
      obtain rfl := Except.ok.inj hfind
      split at hnull
      next hw =>
        obtain rfl := Except.ok.inj hnull
        exact .inr ⟨tag, w, rfl, hw, hc⟩
      next => cases hnull
    next => cases hfind
  next => cases h

/-! ## Single values -/

@[simp] theorem rereads_string (s : String) :
    Rereads Setting.decode Setting.encode s := rfl

@[simp] theorem rereads_bool (b : Bool) :
    Rereads Setting.decode Setting.encode b := rfl

theorem decodeNat_ofNat {bound n : ℕ} (h : n < bound) (expected : String) :
    decodeNat bound expected (.int n) = .ok n := by
  have hbound : (n : Int) < bound := Int.ofNat_lt.mpr h
  simp [decodeNat, Value.untag, hbound]

@[simp] theorem rereads_uint16 (n : UInt16) :
    Rereads Setting.decode Setting.encode n := by
  show (decodeNat _ _ (.int n.toNat)).map Nat.toUInt16 = .ok n
  rw [decodeNat_ofNat n.toNat_lt]
  exact congrArg Except.ok UInt16.ofNat_toNat

@[simp] theorem rereads_uint32 (n : UInt32) :
    Rereads Setting.decode Setting.encode n := by
  show (decodeNat _ _ (.int n.toNat)).map Nat.toUInt32 = .ok n
  rw [decodeNat_ofNat n.toNat_lt]
  exact congrArg Except.ok UInt32.ofNat_toNat

@[simp] theorem rereads_uint64 (n : UInt64) :
    Rereads Setting.decode Setting.encode n := by
  show (decodeNat _ _ (.int n.toNat)).map Nat.toUInt64 = .ok n
  rw [decodeNat_ofNat n.toNat_lt]
  exact congrArg Except.ok UInt64.ofNat_toNat

theorem rereads_socket (a : Net.Socket) :
    Rereads Setting.decode Setting.encode a := by
  simp [Rereads, Setting.decode, Setting.encode, decodeText, Value.untag, bind,
    Except.bind, Net.Socket.ofText?_text]

@[simp] theorem rereads_duration (d : Duration) :
    Rereads Setting.decode Setting.encode d := by
  simp [Rereads, Setting.decode, Setting.encode, decodeText, Value.untag, bind,
    Except.bind, Duration.ofSpelled?_spelledText]

theorem rereads_level (l : LogLevel) :
    Rereads Setting.decode Setting.encode l := by
  cases l <;> rfl

theorem rereads_format (f : LogFormat) :
    Rereads Setting.decode Setting.encode f := by
  cases f <;> rfl

/-- A path is read again when it was made from a text. -/
theorem rereads_ofText (s : String) :
    Rereads Setting.decode Setting.encode (FilePath.ofText s) := by
  show Except.ok (FilePath.ofText (FilePath.ofText s).text) = _
  rw [FilePath.text_ofText]

@[simp] theorem rereads_emptyPath :
    Rereads Setting.decode Setting.encode (⟨[]⟩ : FilePath) :=
  rereads_ofText ""

theorem rereads_retention_iff (r : Retention) :
    Rereads Setting.decode Setting.encode r ↔
      Retention.ofText r.text = .ok r := by
  simp only [Rereads, Setting.decode, Setting.encode, decodeText, Value.untag,
    bind, Except.bind]
  cases Retention.ofText r.text with
  | error fault => simp
  | ok s => simp

@[simp] theorem rereads_zeroRetention :
    Rereads Setting.decode Setting.encode Retention.zero := by
  rw [rereads_retention_iff, Retention.ofText_text]
  exact if_pos (by decide)

instance : Stable String := ⟨fun _ => rereads_string _⟩

instance : Stable Bool := ⟨fun _ => rereads_bool _⟩

instance : Stable UInt16 := ⟨fun _ => rereads_uint16 _⟩

instance : Stable UInt32 := ⟨fun _ => rereads_uint32 _⟩

instance : Stable UInt64 := ⟨fun _ => rereads_uint64 _⟩

instance : Stable Net.Socket := ⟨fun _ => rereads_socket _⟩

instance : Stable Duration := ⟨fun _ => rereads_duration _⟩

instance : Stable LogLevel := ⟨fun _ => rereads_level _⟩

instance : Stable LogFormat := ⟨fun _ => rereads_format _⟩

instance : Stable FilePath where
  lossless {v p} h := by
    obtain ⟨s, -, rfl⟩ := map_eq_ok_iff.mp h
    exact rereads_ofText s

instance : Stable Retention where
  lossless {v r} h := by
    rw [rereads_retention_iff]
    obtain ⟨s, -, hread⟩ := bind_eq_ok_iff.mp h
    split at hread
    next q hq =>
      obtain rfl := Except.ok.inj hread
      exact Retention.ofText_text_of_ofText hq
    next => simp at hread

instance : Shown String := ⟨fun _ => nofun⟩

instance : Shown UInt32 := ⟨fun _ => nofun⟩

instance : Shown Net.Socket := ⟨fun _ => nofun⟩

instance : Shown LogLevel := ⟨fun _ => nofun⟩

instance : Shown LogFormat := ⟨fun _ => nofun⟩

instance : Shown FilePath := ⟨fun _ => nofun⟩

instance : Shown Retention := ⟨fun _ => nofun⟩

/-! ## Optional values and lists -/

variable {α : Type} [Setting α]

@[simp] theorem rereads_none :
    Rereads Setting.decode Setting.encode (none : Option α) := rfl

theorem decode_option_of_ne_null {v : Value} (h : v ≠ .null) :
    (Setting.decode v : Except DecodeError (Option α)) =
      (Setting.decode v).map some := by
  cases v with
  | null => exact absurd rfl h
  | _ => rfl

theorem rereads_some
    [Shown α] {a : α} (h : Rereads Setting.decode Setting.encode a) :
    Rereads Setting.decode Setting.encode (some a) := by
  show Setting.decode (Setting.encode a) = .ok (some a)
  rw [decode_option_of_ne_null (Shown.encode_ne_null a), h]
  rfl

instance [Stable α] [Shown α] : Stable (Option α) where
  lossless {v o} h := by
    by_cases hnull : v = .null
    · subst hnull
      obtain rfl : none = o := Except.ok.inj h
      exact rereads_none
    · rw [decode_option_of_ne_null hnull] at h
      obtain ⟨a, hread, rfl⟩ := map_eq_ok_iff.mp h
      exact rereads_some (Stable.lossless hread)

@[simp] theorem rereads_nil :
    Rereads Setting.decode Setting.encode ([] : List α) := rfl

theorem decodeElements_map_encode
    [Stable α] {vs : List Value} {as : List α}
    (h : decodeElements vs = .ok as) :
    decodeElements (as.map Setting.encode) = .ok as := by
  induction vs generalizing as with
  | nil =>
      obtain rfl := Except.ok.inj h
      rfl
  | cons v vs ih =>
      obtain ⟨a, hhead, hmore⟩ := bind_eq_ok_iff.mp h
      obtain ⟨rest, htail, hcons⟩ := bind_eq_ok_iff.mp hmore
      obtain rfl := Except.ok.inj hcons
      have ha : Setting.decode (Setting.encode a) = .ok a :=
        Stable.lossless hhead
      rw [List.map_cons, decodeElements, ha, ih htail]
      rfl

instance [Stable α] : Stable (List α) where
  lossless {v as} h := by
    have hdecode : (match v.untag with
      | .sequence vs => decodeElements vs
      | .null => .ok []
      | found => .error (.wrongType found "a sequence")) = .ok as := h
    show decodeElements (as.map Setting.encode) = .ok as
    split at hdecode
    next vs => exact decodeElements_map_encode hdecode
    next =>
      obtain rfl := Except.ok.inj hdecode
      rfl
    next => simp at hdecode

end ContainerArgs.Settings
