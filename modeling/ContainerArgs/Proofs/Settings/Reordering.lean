import ContainerArgs.Proofs.Settings.Parts
import Mathlib.Logic.Relation

/-!
# The order of entries does not matter

What a mapping is read as does not depend on its order, and the values that are
no mappings have no order.  So the entries of a mapping, and of the mappings in
it, may change places without any change to whether it is read and as what.
Only which fault is found depends on the order.
-/

namespace ContainerArgs

namespace Yaml

/-- The entries of a mapping in the value stand in another order. -/
inductive Value.Reorders : Value → Value → Prop where
  | entries {es fs : List (Value × Value)} (h : es.Perm fs) :
      Reorders (.mapping es) (.mapping fs)
  | inside (before : List (Value × Value)) (k : Value)
      (after : List (Value × Value)) {v w : Value} (h : Reorders v w) :
      Reorders (.mapping (before ++ (k, v) :: after))
        (.mapping (before ++ (k, w) :: after))
  | tagged (tag : String) {v w : Value} (h : Reorders v w) :
      Reorders (.tagged tag v) (.tagged tag w)

namespace Value.Reorders

theorem symm {v w : Value} (h : Reorders v w) :
    Reorders w v := by
  induction h with
  | entries hperm => exact .entries hperm.symm
  | inside before k after _ ih => exact .inside before k after ih
  | tagged tag _ ih => exact .tagged tag ih

/-- Only mappings have entries to put in order. -/
theorem exists_untag_eq {v w : Value} (h : Reorders v w) :
    ∃ es, v.untag = .mapping es := by
  induction h with
  | @entries es _ _ => exact ⟨es, rfl⟩
  | @inside before k after v _ _ _ => exact ⟨before ++ (k, v) :: after, rfl⟩
  | tagged _ _ ih => exact ih

end Value.Reorders

end Yaml

namespace Settings

open Yaml (Value)
open Component Text

variable {σ τ α β : Type}

/-- What the reader makes of a value does not change when entries of mappings
change places. -/
def OrderFree (read : Value → Except DecodeError α) : Prop :=
  ∀ {v w : Value} {a : α}, v.Reorders w → read v = .ok a → read w = .ok a

/-- Any number of changes keeps what is read, and keeps failure. -/
theorem OrderFree.eq_ok_iff
    {read : Value → Except DecodeError α} (h : OrderFree read) {v w : Value}
    (hsteps : Relation.ReflTransGen Value.Reorders v w) {a : α} :
    read v = .ok a ↔ read w = .ok a := by
  induction hsteps with
  | refl => rfl
  | tail _ hstep ih =>
      rw [ih]
      exact ⟨h hstep, h hstep.symm⟩

/-! ## Settings that are no mappings -/

/-- No setting of the type is read from a mapping. -/
class Flat (α : Type) [Setting α] : Prop where
  decode_ne_ok {v : Value} {es : List (Value × Value)} :
    v.untag = .mapping es → ∀ a : α, Setting.decode v ≠ .ok a

instance : Flat String where
  decode_ne_ok h _ := by simp [Setting.decode, decodeText, h]

instance : Flat FilePath where
  decode_ne_ok h _ := by simp [Setting.decode, decodeText, h, Except.map]

instance : Flat Bool where
  decode_ne_ok h _ := by simp [Setting.decode, h]

instance : Flat UInt16 where
  decode_ne_ok h _ := by simp [Setting.decode, decodeNat, h, Except.map]

instance : Flat UInt32 where
  decode_ne_ok h _ := by simp [Setting.decode, decodeNat, h, Except.map]

instance : Flat UInt64 where
  decode_ne_ok h _ := by simp [Setting.decode, decodeNat, h, Except.map]

instance : Flat Net.Socket where
  decode_ne_ok h _ := by
    simp [Setting.decode, decodeText, h, bind, Except.bind]

instance : Flat Duration where
  decode_ne_ok h _ := by
    simp [Setting.decode, decodeText, h, bind, Except.bind]

instance : Flat Retention where
  decode_ne_ok h _ := by
    simp [Setting.decode, decodeText, h, bind, Except.bind]

theorem decodeName_ne_ok
    {names : List (String × α)} {v : Value} {es : List (Value × Value)}
    (h : v.untag = .mapping es) (a : α) :
    decodeName names v ≠ .ok a := by
  intro hread
  cases v with
  | mapping fs => simp [decodeName] at hread
  | tagged tag content =>
      obtain ⟨b, -, hmore⟩ := bind_eq_ok_iff.mp hread
      have hcontent : content.untag = .mapping es := h
      simp [hcontent] at hmore
  | _ => simp [Value.untag] at h

instance : Flat LogLevel where
  decode_ne_ok h a := decodeName_ne_ok h a

instance : Flat LogFormat where
  decode_ne_ok h a := decodeName_ne_ok h a

instance [Setting α] [Flat α] : Flat (Option α) where
  decode_ne_ok {v es} h o hread := by
    have hnull : v ≠ .null := by
      rintro rfl
      simp [Value.untag] at h
    rw [decode_option_of_ne_null hnull] at hread
    obtain ⟨a, ha, -⟩ := map_eq_ok_iff.mp hread
    exact Flat.decode_ne_ok h a ha

instance [Setting α] : Flat (List α) where
  decode_ne_ok h _ := by simp [Setting.decode, h]

@[simp] theorem orderFree_setting [Setting α] [Flat α] :
    OrderFree (α := α) Setting.decode := by
  intro v w a hreorders hread
  obtain ⟨es, hes⟩ := hreorders.exists_untag_eq
  exact absurd hread (Flat.decode_ne_ok hes a)

namespace Entry

@[simp] theorem orderFree_extra : OrderFree decodeExtra := by
  intro v w e hreorders hread
  obtain ⟨tokens, htokens, -⟩ := map_eq_ok_iff.mp hread
  obtain ⟨es, hes⟩ := hreorders.exists_untag_eq
  exact absurd htokens (Flat.decode_ne_ok hes tokens)

/-- Loading the entry does not depend on the order in its value. -/
def IgnoresOrder (e : Entry σ) : Prop :=
  ∀ x, OrderFree (e.load · x)

@[simp] theorem ignoresOrder_part
    {key : String} {decode : Value → Except DecodeError α} {encode : α → Value}
    {member : σ → Flag.Member} {get : σ → α} {set : α → σ → σ}
    (h : OrderFree decode) :
    (part key decode encode member get set).IgnoresOrder := by
  intro x v w y hreorders hload
  obtain ⟨a, hread, hset⟩ := load_part_eq_ok_iff.mp hload
  exact load_part_eq_ok_iff.mpr ⟨a, h hreorders hread, hset⟩

end Entry

/-! ## Records in any order -/

namespace Schema

variable {s : Schema σ}

theorem Fits.perm
    {es fs : List (Value × Value)} {y : σ} (h : s.Fits es y)
    (hperm : es.Perm fs) :
    s.Fits fs y := by
  have hkeys := hperm.map Prod.fst
  refine ⟨?_, ?_, ?_⟩
  · intro k hk
    exact h.texts k (hkeys.mem_iff.mpr hk)
  · exact h.once.perm hkeys fun hkl e he hlk => hkl e he hlk.symm
  · intro e he entry hentry
    exact h.held e he entry (hperm.mem_iff.mpr hentry)

/-- A value may be replaced by one that is held wherever it was. -/
theorem Fits.replace
    {before after : List (Value × Value)} {k v w : Value} {y : σ}
    (h : s.Fits (before ++ (k, v) :: after) y)
    (hvalue : ∀ e ∈ s.entries, e.Holds v y → e.Holds w y) :
    s.Fits (before ++ (k, w) :: after) y := by
  have hkeys : (before ++ (k, w) :: after).map Prod.fst =
      (before ++ (k, v) :: after).map Prod.fst := by
    simp
  refine ⟨hkeys ▸ h.texts, hkeys ▸ h.once, ?_⟩
  intro e he entry hentry hnamed
  rcases List.mem_append.mp hentry with hbefore | hrest
  · exact h.held e he entry (List.mem_append_left _ hbefore) hnamed
  · rcases List.mem_cons.mp hrest with rfl | hafter
    · exact hvalue e he (h.held e he (k, v) (by simp) hnamed)
    · exact h.held e he entry (by simp [hafter]) hnamed

/-- A record is read without regard to the order of keys when each of its
entries is. -/
theorem Lawful.orderFree_load
    (h : s.Lawful) (hentries : ∀ e ∈ s.entries, e.IgnoresOrder) :
    OrderFree s.load := by
  intro v w y hreorders
  induction hreorders with
  | entries hperm =>
      rw [h.load_mapping_eq_ok_iff, h.load_mapping_eq_ok_iff]
      rintro ⟨hfits, hkept⟩
      refine ⟨hfits.perm hperm, ?_⟩
      intro e he hout
      exact hkept e he (mt (hasKey_congr (hperm.map Prod.fst)).mp hout)
  | @inside before k after v w hvalue _ =>
      rw [h.load_mapping_eq_ok_iff, h.load_mapping_eq_ok_iff]
      rintro ⟨hfits, hkept⟩
      refine ⟨hfits.replace fun e he => hentries e he y hvalue, ?_⟩
      intro e he hout
      exact hkept e he (mt (hasKey_congr (by simp)).mp hout)
  | tagged _ _ ih => exact ih

end Schema

end Settings

end ContainerArgs
