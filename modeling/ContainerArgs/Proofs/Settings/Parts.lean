import ContainerArgs.Proofs.Settings.Lawful

/-!
# Parts of records

An entry of a schema reads and writes a part of the record.  Such entries are
lawful when what is read survives writing, and apart when their parts are, so
that the laws of a schema come down to one fact for each type of setting.
-/

namespace ContainerArgs.Settings

open Yaml (Value)

variable {σ τ α β : Type}

/-- A part of a record can be read and replaced. -/
structure IsPart (get : σ → α) (set : α → σ → σ) : Prop where
  get_set (a : α) (x : σ) : get (set a x) = a
  set_get (x : σ) : set (get x) x = x
  set_set (a b : α) (x : σ) : set a (set b x) = set a x

@[simp] theorem isPart_iff {get : σ → α} {set : α → σ → σ} :
    IsPart get set ↔ (∀ a x, get (set a x) = a) ∧ (∀ x, set (get x) x = x) ∧
      ∀ a b x, set a (set b x) = set a x := by
  constructor
  · rintro ⟨hget, hset, hagain⟩
    exact ⟨hget, hset, hagain⟩
  · rintro ⟨hget, hset, hagain⟩
    exact ⟨hget, hset, hagain⟩

namespace Entry

/-- The entry of a part of the record, given how the part is read and
written. -/
def part
    (key : String) (decode : Value → Except DecodeError α) (encode : α → Value)
    (member : σ → Flag.Member) (get : σ → α) (set : α → σ → σ) :
    Entry σ where
  key := key
  load v x := (decode v).map (set · x)
  save x := encode (get x)
  member := member

theorem option_eq_part
    [Setting α] (key tag : String) (get : σ → α) (set : α → σ → σ) :
    option key tag get set =
      part key Setting.decode Setting.encode
        (fun x => .tagged key tag true (Setting.flag (get x))) get set := rfl

theorem nested_eq_part
    (key : String) (schema : Schema τ) (get : σ → τ) (set : τ → σ → σ) :
    nested key schema get set =
      part key schema.load schema.save
        (fun x => .nested (schema.members (get x))) get set := rfl

def decodeExtra (v : Value) : Except DecodeError Flag.Extra :=
  (Setting.decode v).map Flag.Extra.mk

def encodeExtra (e : Flag.Extra) : Value :=
  Setting.encode e.tokens

theorem extra_eq_part
    (key : String) (get : σ → Flag.Extra) (set : Flag.Extra → σ → σ) :
    extra key get set =
      part key decodeExtra encodeExtra (fun x => .extra (get x).tokens) get
        set := by
  have hload : ∀ (v : Value) (x : σ),
      (Setting.decode v).map (fun tokens => set ⟨tokens⟩ x) =
        (decodeExtra v).map (set · x) := by
    intro v x
    rw [decodeExtra]
    cases (Setting.decode v : Except DecodeError (List String)) <;> rfl
  simp only [extra, part, hload]
  rfl

section

variable {key : String} {decode : Value → Except DecodeError α}
  {encode : α → Value} {member : σ → Flag.Member} {get : σ → α}
  {set : α → σ → σ}

theorem load_part_eq_ok_iff {v : Value} {x y : σ} :
    (part key decode encode member get set).load v x = .ok y ↔
      ∃ a, decode v = .ok a ∧ set a x = y :=
  map_eq_ok_iff

@[simp] theorem lawful_part
    (hpart : IsPart get set) (hlossless : Lossless decode encode) :
    (part key decode encode member get set).Lawful where
  load_ok {v x y} hload z := by
    obtain ⟨a, hread, -⟩ := load_part_eq_ok_iff.mp hload
    exact ⟨set a z, load_part_eq_ok_iff.mpr ⟨a, hread, rfl⟩⟩
  holds_of_load {v x y} hload := by
    obtain ⟨a, hread, rfl⟩ := load_part_eq_ok_iff.mp hload
    exact load_part_eq_ok_iff.mpr ⟨a, hread, hpart.set_set a a x⟩
  holds_save {v x} hholds := by
    obtain ⟨a, hread, hset⟩ := load_part_eq_ok_iff.mp hholds
    refine load_part_eq_ok_iff.mpr ⟨a, ?_, hset⟩
    show decode (encode (get x)) = .ok a
    rw [← hset, hpart.get_set]
    exact hlossless hread

/-- Parts that can be replaced in either order are apart. -/
@[simp] theorem apart_part
    {key' : String} {decode' : Value → Except DecodeError β}
    {encode' : β → Value} {member' : σ → Flag.Member} {get' : σ → β}
    {set' : β → σ → σ} (hcomm : ∀ a b x, set a (set' b x) = set' b (set a x)) :
    Apart (part key decode encode member get set)
      (part key' decode' encode' member' get' set') := by
  constructor
  · intro v w x y hholds hload
    obtain ⟨a, hread, hset⟩ := load_part_eq_ok_iff.mp hholds
    obtain ⟨b, -, rfl⟩ := load_part_eq_ok_iff.mp hload
    exact load_part_eq_ok_iff.mpr ⟨a, hread, by rw [hcomm, hset]⟩
  · intro v w x y hholds hload
    obtain ⟨b, hread, hset⟩ := load_part_eq_ok_iff.mp hholds
    obtain ⟨a, -, rfl⟩ := load_part_eq_ok_iff.mp hload
    exact load_part_eq_ok_iff.mpr ⟨b, hread, by rw [← hcomm, hset]⟩

/-- Records hold a common value at a part when the part is the same in both. -/
@[simp] theorem exists_holds_part_iff
    (hpart : IsPart get set) {x y : σ} :
    (∃ v, (part key decode encode member get set).Holds v x ∧
        (part key decode encode member get set).Holds v y) ↔
      get x = get y ∧ ∃ v, (part key decode encode member get set).Holds v x := by
  constructor
  · rintro ⟨v, hx, hy⟩
    obtain ⟨a, hread, hsetx⟩ := load_part_eq_ok_iff.mp hx
    obtain ⟨b, hread', hsety⟩ := load_part_eq_ok_iff.mp hy
    rw [hread] at hread'
    obtain rfl := Except.ok.inj hread'
    refine ⟨?_, v, hx⟩
    rw [← hsetx, ← hsety, hpart.get_set, hpart.get_set]
  · rintro ⟨heq, v, hx⟩
    obtain ⟨a, hread, hset⟩ := load_part_eq_ok_iff.mp hx
    have ha : a = get y := by
      rw [← heq, ← hset, hpart.get_set]
    refine ⟨v, hx, load_part_eq_ok_iff.mpr ⟨a, hread, ?_⟩⟩
    rw [ha, hpart.set_get]

/-- A part that is read back from what is written for it could have been
loaded. -/
@[simp] theorem exists_holds_part
    (hpart : IsPart get set) {x : σ} (hreads : Rereads decode encode (get x)) :
    ∃ v, (part key decode encode member get set).Holds v x :=
  ⟨encode (get x), load_part_eq_ok_iff.mpr ⟨get x, hreads, hpart.set_get x⟩⟩

end

/-! ## What parts are made of -/

@[simp] theorem lossless_setting [Setting α] [Stable α] :
    Lossless (α := α) Setting.decode Setting.encode :=
  Stable.lossless

@[simp] theorem rereads_noExtra :
    Rereads decodeExtra encodeExtra .empty := rfl

@[simp] theorem lossless_extra :
    Lossless decodeExtra encodeExtra := by
  intro v e hread
  obtain ⟨tokens, htokens, rfl⟩ := map_eq_ok_iff.mp hread
  exact map_eq_ok_iff.mpr ⟨tokens, Stable.lossless htokens, rfl⟩

end Entry

end ContainerArgs.Settings
