import ContainerArgs.Proofs.Settings.Stable
import ContainerArgs.Settings.Schema
import Mathlib.Data.List.Nodup

/-!
# Records survive writing

A record holds a value at an entry when loading the value there leaves the
record as it is.  Where loading one entry keeps what the record holds at the
others, and what it holds at all of them determines the record, what a mapping
is read as can be said without its order: every key is a text, no two keys name
one entry, the record holds what the mapping gives for the entries that are
named, and at the others it holds the defaults.  What is saved of a record that
was loaded is such a mapping, so the record is loaded from it again.
-/

namespace ContainerArgs.Settings

open Yaml (Value)

variable {σ : Type}

/-! ## The entries of a mapping -/

/-- What reading one more entry of a mapping can do: pass over a key that is not
known, or load the value for one that is known and new. -/
theorem loadEntries_cons_eq_ok_iff
    {loader? : String → Option (Value → σ → Except DecodeError σ)}
    {met : List String} {entry : Value × Value} {es : List (Value × Value)}
    {x y : σ} :
    loadEntries loader? met (entry :: es) x = .ok y ↔
      ∃ key, entry.1.untag = .text key ∧
        ((loader? key = none ∧ loadEntries loader? met es x = .ok y) ∨
          ∃ load z, loader? key = some load ∧ key ∉ met ∧
            load entry.2 x = .ok z ∧
            loadEntries loader? (key :: met) es z = .ok y) := by
  obtain ⟨k, v⟩ := entry
  rw [loadEntries]
  split
  next key hkey =>
    have hkey' : ∀ key', k.untag = .text key' ↔ key = key' := by
      simp [hkey]
    simp only [hkey', exists_eq_left']
    split
    next hloader => simp [hloader]
    next load hloader =>
      simp only [hloader, reduceCtorEq, false_and, false_or, Option.some.injEq]
      by_cases hmet : key ∈ met
      · simp [hmet]
      · simp [hmet, bind_eq_ok_iff]
  next hother =>
    refine ⟨nofun, ?_⟩
    rintro ⟨key, hkey, -⟩
    exact absurd hkey (hother key)

/-- What was loaded from a record that was not null came from its entries. -/
theorem loadRecord_cases
    {name : String}
    {loader? : String → Option (Value → σ → Except DecodeError σ)} {v : Value}
    {x y : σ}
    (h : loadRecord name loader? x v = .ok y) :
    (v.untag = .null ∧ x = y) ∨
      ∃ es, v.untag = .mapping es ∧ loadEntries loader? [] es x = .ok y := by
  rw [loadRecord] at h
  split at h
  next es hes => exact .inr ⟨es, hes, h⟩
  next hnull => exact .inl ⟨hnull, Except.ok.inj h⟩
  next => cases h

/-- Some key of the mapping is the text. -/
def HasKey (key : String) (es : List (Value × Value)) : Prop :=
  ∃ k ∈ es.map Prod.fst, k.untag = .text key

@[simp] theorem not_hasKey_nil (key : String) : ¬HasKey key [] := by
  simp [HasKey]

@[simp] theorem hasKey_cons
    {key : String} {entry : Value × Value} {es : List (Value × Value)} :
    HasKey key (entry :: es) ↔ entry.1.untag = .text key ∨ HasKey key es := by
  simp [HasKey]

@[simp] theorem hasKey_append {key : String} {es fs : List (Value × Value)} :
    HasKey key (es ++ fs) ↔ HasKey key es ∨ HasKey key fs := by
  simp only [HasKey, List.map_append, List.mem_append, or_and_right, exists_or]

theorem hasKey_congr {key : String} {es fs : List (Value × Value)}
    (h : (es.map Prod.fst).Perm (fs.map Prod.fst)) :
    HasKey key es ↔ HasKey key fs := by
  simp only [HasKey, h.mem_iff]

/-! ## Entries -/

namespace Entry

/-- Loading the value leaves the record as it is. -/
def Holds (e : Entry σ) (v : Value) (x : σ) : Prop :=
  e.load v x = .ok x

/-- What is loaded does not depend on the record and is held after it, and what
is saved in its place is held just as well. -/
structure Lawful (e : Entry σ) : Prop where
  load_ok {v : Value} {x y : σ} :
    e.load v x = .ok y → ∀ z, ∃ t, e.load v z = .ok t
  holds_of_load {v : Value} {x y : σ} : e.load v x = .ok y → e.Holds v y
  holds_save {v : Value} {x : σ} : e.Holds v x → e.Holds (e.save x) x

/-- Loading either entry keeps what is held at the other. -/
def Apart (e f : Entry σ) : Prop :=
  (∀ {v w : Value} {x y : σ}, e.Holds v x → f.load w x = .ok y → e.Holds v y) ∧
    ∀ {v w : Value} {x y : σ}, f.Holds v x → e.load w x = .ok y → f.Holds v y

instance : Std.Symm (@Apart σ) where
  symm _ _ h := ⟨h.2, h.1⟩

end Entry

/-! ## Schemas -/

namespace Schema

/-- The entries of the schema are keyed, independent parts that make up the
record, and the defaults could have been loaded. -/
structure Lawful (s : Schema σ) : Prop where
  keys_nodup : (s.entries.map Entry.key).Nodup
  entry : ∀ e ∈ s.entries, e.Lawful
  apart : s.entries.Pairwise Entry.Apart
  ext {x y : σ} : (∀ e ∈ s.entries, ∃ v, e.Holds v x ∧ e.Holds v y) → x = y
  default_holds : ∀ e ∈ s.entries, ∃ v, e.Holds v s.default

variable {s : Schema σ}

theorem exists_of_loader?
    {key : String} {load : Value → σ → Except DecodeError σ}
    (h : s.loader? key = some load) :
    ∃ e ∈ s.entries, e.key = key ∧ e.load = load := by
  rw [loader?, Option.map_eq_some_iff] at h
  obtain ⟨e, hfind, hload⟩ := h
  have hkey : e.key = key := by simpa using List.find?_some hfind
  exact ⟨e, List.mem_of_find?_eq_some hfind, hkey, hload⟩

theorem Lawful.loader?_key
    (h : s.Lawful) {e : Entry σ} (he : e ∈ s.entries) :
    s.loader? e.key = some e.load := by
  obtain ⟨before, after, hsplit⟩ := List.append_of_mem he
  have hnodup := h.keys_nodup
  rw [hsplit, List.map_append, List.map_cons] at hnodup
  have hbefore : ∀ f ∈ before, f.key ≠ e.key := by
    intro f hf heq
    exact (List.nodup_append.mp hnodup).2.2 f.key (List.mem_map_of_mem hf) e.key
      List.mem_cons_self heq
  have hfind : s.entries.find? (·.key = e.key) = some e := by
    rw [List.find?_eq_some_iff_append]
    exact ⟨by simp, before, after, hsplit, by simpa using hbefore⟩
  rw [loader?, hfind]
  rfl

/-- Loading an entry keeps what is held at any other. -/
theorem Lawful.holds_of_load_other
    (h : s.Lawful) {e f : Entry σ} (he : e ∈ s.entries) (hf : f ∈ s.entries)
    (hne : e ≠ f) {v w : Value} {x y : σ} (hholds : e.Holds v x)
    (hload : f.load w x = .ok y) :
    e.Holds v y :=
  (h.apart.forall he hf hne).1 hholds hload

theorem loader?_eq_none_iff {key : String} :
    s.loader? key = none ↔ ∀ e ∈ s.entries, e.key ≠ key := by
  simp [loader?]

/-- A key that is passed over names no entry. -/
theorem untag_ne_of_loader?_eq_none
    {k : Value} {key : String} (hkey : k.untag = .text key)
    (hloader : s.loader? key = none) :
    ∀ e ∈ s.entries, k.untag ≠ .text e.key := by
  intro e he hnamed
  have heq : e.key = key := Value.text.inj (hnamed.symm.trans hkey)
  exact loader?_eq_none_iff.mp hloader e he heq

theorem Lawful.eq_of_key_eq
    (h : s.Lawful) {e f : Entry σ} (he : e ∈ s.entries) (hf : f ∈ s.entries)
    (hkey : e.key = f.key) :
    e = f :=
  List.inj_on_of_nodup_map h.keys_nodup he hf hkey

theorem Lawful.eq_of_untag_eq
    (h : s.Lawful) {e f : Entry σ} (he : e ∈ s.entries) (hf : f ∈ s.entries)
    {k : Value} (hek : k.untag = .text e.key) (hfk : k.untag = .text f.key) :
    e = f :=
  h.eq_of_key_eq he hf (Value.text.inj (hek.symm.trans hfk))

/-! ## What a mapping is read as -/

/-- The keys of a mapping are texts, no two of them name one entry, and the
record holds what the mapping gives for the entries that are named. -/
structure Fits (s : Schema σ) (es : List (Value × Value)) (y : σ) : Prop where
  texts : ∀ k ∈ es.map Prod.fst, ∃ key, k.untag = .text key
  once : (es.map Prod.fst).Pairwise fun k l =>
    ∀ e ∈ s.entries, ¬(k.untag = .text e.key ∧ l.untag = .text e.key)
  held : ∀ e ∈ s.entries, ∀ entry ∈ es,
    entry.1.untag = .text e.key → e.Holds entry.2 y

theorem fits_cons_iff
    {entry : Value × Value} {es : List (Value × Value)} {y : σ} :
    s.Fits (entry :: es) y ↔
      (∃ key, entry.1.untag = .text key) ∧
        (∀ e ∈ s.entries, entry.1.untag = .text e.key →
          e.Holds entry.2 y ∧ ¬HasKey e.key es) ∧
        s.Fits es y := by
  constructor
  · rintro ⟨htexts, honce, hheld⟩
    rw [List.map_cons, List.forall_mem_cons] at htexts
    rw [List.map_cons, List.pairwise_cons] at honce
    refine ⟨htexts.1, ?_, htexts.2, honce.2, ?_⟩
    · intro e he hnamed
      refine ⟨hheld e he entry List.mem_cons_self hnamed, ?_⟩
      rintro ⟨l, hl, hagain⟩
      exact honce.1 l hl e he ⟨hnamed, hagain⟩
    · intro e he other hother
      exact hheld e he other (List.mem_cons_of_mem _ hother)
  · rintro ⟨htext, hhead, htexts, honce, hheld⟩
    refine ⟨?_, ?_, ?_⟩
    · rw [List.map_cons, List.forall_mem_cons]
      exact ⟨htext, htexts⟩
    · rw [List.map_cons, List.pairwise_cons]
      refine ⟨?_, honce⟩
      rintro l hl e he ⟨hnamed, hagain⟩
      exact (hhead e he hnamed).2 ⟨l, hl, hagain⟩
    · intro e he other hother hnamed
      rcases List.mem_cons.mp hother with rfl | hother
      · exact (hhead e he hnamed).1
      · exact hheld e he other hother hnamed

/-- Loading leaves what is held at entries that are not named. -/
theorem Lawful.holds_of_loadEntries
    (h : s.Lawful) {e : Entry σ} (he : e ∈ s.entries) {met : List String}
    {es : List (Value × Value)} {v : Value} {x y : σ} (hout : ¬HasKey e.key es)
    (hholds : e.Holds v x) (hload : loadEntries s.loader? met es x = .ok y) :
    e.Holds v y := by
  induction es generalizing met x with
  | nil =>
      obtain rfl := Except.ok.inj hload
      exact hholds
  | cons entry es ih =>
      rw [hasKey_cons, not_or] at hout
      obtain ⟨key, hkey, ⟨-, hmore⟩ | ⟨load, z, hloader, -, hstep, hmore⟩⟩ :=
        loadEntries_cons_eq_ok_iff.mp hload
      · exact ih hout.2 hholds hmore
      · obtain ⟨f, hf, rfl, rfl⟩ := exists_of_loader? hloader
        have hne : e ≠ f := by
          rintro rfl
          exact hout.1 hkey
        exact ih hout.2 (h.holds_of_load_other he hf hne hholds hstep) hmore

/-- A mapping that was loaded fits the record, and its known keys were not met
before. -/
theorem Lawful.fits_of_loadEntries
    (h : s.Lawful) {met : List String} {es : List (Value × Value)} {x y : σ}
    (hload : loadEntries s.loader? met es x = .ok y) :
    s.Fits es y ∧ ∀ e ∈ s.entries, HasKey e.key es → e.key ∉ met := by
  induction es generalizing met x with
  | nil => exact ⟨⟨by simp, by simp, by simp⟩, by simp⟩
  | cons entry es ih =>
      rw [fits_cons_iff]
      obtain ⟨key, hkey, ⟨hloader, hmore⟩ |
        ⟨load, z, hloader, hnew, hstep, hmore⟩⟩ :=
          loadEntries_cons_eq_ok_iff.mp hload
      · obtain ⟨hfits, hfresh⟩ := ih hmore
        have hnone := untag_ne_of_loader?_eq_none hkey hloader
        refine ⟨⟨⟨key, hkey⟩, ?_, hfits⟩, ?_⟩
        · intro e he hnamed
          exact absurd hnamed (hnone e he)
        · intro e he hin
          rcases hasKey_cons.mp hin with hnamed | hin
          · exact absurd hnamed (hnone e he)
          · exact hfresh e he hin
      · obtain ⟨hfits, hfresh⟩ := ih hmore
        obtain ⟨f, hf, rfl, rfl⟩ := exists_of_loader? hloader
        have hout : ¬HasKey f.key es := fun hin =>
          hfresh f hf hin List.mem_cons_self
        refine ⟨⟨⟨f.key, hkey⟩, ?_, hfits⟩, ?_⟩
        · intro e he hnamed
          obtain rfl := h.eq_of_untag_eq he hf hnamed hkey
          have hheld := (h.entry e he).holds_of_load hstep
          exact ⟨h.holds_of_loadEntries he hout hheld hmore, hout⟩
        · intro e he hin
          rcases hasKey_cons.mp hin with hnamed | hin
          · obtain rfl := h.eq_of_untag_eq he hf hnamed hkey
            exact hnew
          · exact List.not_mem_of_not_mem_cons (hfresh e he hin)

/-- Loading at an entry what another record holds there makes the records agree
at the entry, and leaves them in agreement elsewhere. -/
theorem Lawful.agree_of_load
    (h : s.Lawful) {e f : Entry σ} (he : e ∈ s.entries) (hf : f ∈ s.entries)
    {w : Value} {x y z : σ} (hstep : f.load w x = .ok z) (hholds : f.Holds w y)
    (helse : e ≠ f → ∃ v, e.Holds v x ∧ e.Holds v y) :
    ∃ v, e.Holds v z ∧ e.Holds v y := by
  by_cases hef : e = f
  · subst hef
    exact ⟨w, (h.entry e he).holds_of_load hstep, hholds⟩
  · obtain ⟨v, hx, hy⟩ := helse hef
    exact ⟨v, h.holds_of_load_other he hf hef hx hstep, hy⟩

/-- A mapping with new keys is loaded as a record that it fits, if that record
agrees with the start where the mapping is silent. -/
theorem Lawful.loadEntries_of_fits
    (h : s.Lawful) {met : List String} {es : List (Value × Value)} {x y : σ}
    (hfits : s.Fits es y)
    (hfresh : ∀ e ∈ s.entries, HasKey e.key es → e.key ∉ met)
    (hkept : ∀ e ∈ s.entries, ¬HasKey e.key es →
      ∃ v, e.Holds v x ∧ e.Holds v y) :
    loadEntries s.loader? met es x = .ok y := by
  induction es generalizing met x with
  | nil =>
      have heq : x = y := h.ext fun e he => hkept e he (by simp)
      rw [heq]
      rfl
  | cons entry es ih =>
      rw [loadEntries_cons_eq_ok_iff]
      obtain ⟨⟨key, hkey⟩, hhead, hfits⟩ := fits_cons_iff.mp hfits
      refine ⟨key, hkey, ?_⟩
      cases hloader : s.loader? key with
      | none =>
          have hnone := untag_ne_of_loader?_eq_none hkey hloader
          refine Or.inl ⟨rfl, ih hfits ?_ ?_⟩
          · intro e he hin
            exact hfresh e he (hasKey_cons.mpr (Or.inr hin))
          · intro e he hout
            exact hkept e he (by simp [hnone e he, hout])
      | some load =>
          obtain ⟨f, hf, rfl, rfl⟩ := exists_of_loader? hloader
          obtain ⟨hholds, hout⟩ := hhead f hf hkey
          obtain ⟨z, hstep⟩ := (h.entry f hf).load_ok hholds x
          have hnew : f.key ∉ met := hfresh f hf (hasKey_cons.mpr (Or.inl hkey))
          refine Or.inr ⟨f.load, z, rfl, hnew, hstep, ih hfits ?_ ?_⟩
          · intro e he hin
            have hne : e.key ≠ f.key := by
              intro heq
              obtain rfl := h.eq_of_key_eq he hf heq
              exact hout hin
            exact List.not_mem_cons_of_ne_of_not_mem hne
              (hfresh e he (hasKey_cons.mpr (Or.inr hin)))
          · intro e he hout'
            refine h.agree_of_load he hf hstep hholds ?_
            intro hef
            have hnamed : entry.1.untag ≠ .text e.key := fun hnamed =>
              hef (h.eq_of_untag_eq he hf hnamed hkey)
            exact hkept e he (by simp [hnamed, hout'])

/-- A mapping is read as the record that it fits and that holds the defaults
elsewhere. -/
theorem Lawful.load_mapping_eq_ok_iff
    (h : s.Lawful) {es : List (Value × Value)} {y : σ} :
    s.load (.mapping es) = .ok y ↔
      s.Fits es y ∧
        ∀ e ∈ s.entries, ¬HasKey e.key es →
          ∃ v, e.Holds v s.default ∧ e.Holds v y := by
  show loadEntries s.loader? [] es s.default = .ok y ↔ _
  constructor
  · intro hload
    refine ⟨(h.fits_of_loadEntries hload).1, ?_⟩
    intro e he hout
    obtain ⟨v, hv⟩ := h.default_holds e he
    exact ⟨v, hv, h.holds_of_loadEntries he hout hv hload⟩
  · rintro ⟨hfits, hkept⟩
    exact h.loadEntries_of_fits hfits (by simp) hkept

/-! ## Saving -/

/-- A record that was loaded holds something at each entry. -/
theorem Lawful.exists_holds_of_load
    (h : s.Lawful) {v : Value} {x : σ} (hload : s.load v = .ok x) :
    ∀ e ∈ s.entries, ∃ w, e.Holds w x := by
  intro e he
  rcases loadRecord_cases hload with ⟨-, rfl⟩ | ⟨es, -, hentries⟩
  · exact h.default_holds e he
  · obtain ⟨hfits, hkept⟩ := h.load_mapping_eq_ok_iff.mp hentries
    by_cases hin : HasKey e.key es
    · obtain ⟨k, hk, hkey⟩ := hin
      obtain ⟨entry, hentry, rfl⟩ := List.mem_map.mp hk
      exact ⟨entry.2, hfits.held e he entry hentry hkey⟩
    · obtain ⟨w, -, hw⟩ := hkept e he hin
      exact ⟨w, hw⟩

/-- What is saved of a record that holds something at each entry fits it. -/
theorem Lawful.fits_save
    (h : s.Lawful) {x : σ} (hx : ∀ e ∈ s.entries, ∃ w, e.Holds w x) :
    s.Fits (s.entries.map fun e => (.text e.key, e.save x)) x := by
  refine ⟨?_, ?_, ?_⟩
  · intro k hk
    rw [List.map_map] at hk
    obtain ⟨e, -, rfl⟩ := List.mem_map.mp hk
    exact ⟨e.key, rfl⟩
  · have hkeys := List.pairwise_map.mp h.keys_nodup
    rw [List.map_map, List.pairwise_map]
    refine hkeys.imp ?_
    rintro e f hne g - ⟨he, hf⟩
    exact hne ((Value.text.inj he).trans (Value.text.inj hf).symm)
  · intro e he entry hentry hkey
    obtain ⟨f, hf, rfl⟩ := List.mem_map.mp hentry
    obtain rfl := h.eq_of_untag_eq he hf hkey rfl
    obtain ⟨w, hw⟩ := hx e he
    exact (h.entry e he).holds_save hw

/-- A record that was loaded is loaded again from what is saved of it. -/
theorem Lawful.load_save
    (h : s.Lawful) {v : Value} {x : σ} (hload : s.load v = .ok x) :
    s.load (s.save x) = .ok x := by
  rw [save, h.load_mapping_eq_ok_iff]
  refine ⟨h.fits_save (h.exists_holds_of_load hload), ?_⟩
  intro e he hout
  refine absurd ⟨.text e.key, ?_, rfl⟩ hout
  rw [List.map_map]
  exact List.mem_map_of_mem he

/-- The options of a nested schema survive writing when its schema is lawful. -/
theorem Lawful.lossless (h : s.Lawful) :
    Lossless s.load s.save :=
  h.load_save

theorem Lawful.rereads_default (h : s.Lawful) :
    Rereads s.load s.save s.default :=
  h.load_save (v := .null) rfl

end Schema

end ContainerArgs.Settings
