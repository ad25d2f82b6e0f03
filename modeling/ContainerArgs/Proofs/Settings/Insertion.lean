import ContainerArgs.Proofs.Settings.Lawful

/-!
# Entries that make no difference

An entry of a mapping that is passed over, or whose value is the default that is
held anyway, can be put into the mapping or taken out of it at any place.  Not
only what is read stays the same, but also which fault is found.
-/

namespace ContainerArgs.Settings

open Yaml (Value)

variable {σ : Type}

/-! ## Two runs side by side -/

section

variable {loader? : String → Option (Value → σ → Except DecodeError σ)}
  {f : σ → σ}

/-- What the rest of a mapping does to two runs, it does when the same entries
are read in front of it. -/
theorem loadEntries_append_map
    {I : List String → σ → Prop} {before as bs : List (Value × Value)}
    (hkeep : ∀ entry ∈ before, ∀ key load, entry.1.untag = .text key →
      loader? key = some load →
        ∀ met x y, I met x → load entry.2 x = .ok y → I (key :: met) y)
    (hrest : ∀ met x, I met x →
      loadEntries loader? met as x = (loadEntries loader? met bs x).map f)
    {met : List String} {x : σ} (hx : I met x) :
    loadEntries loader? met (before ++ as) x =
      (loadEntries loader? met (before ++ bs) x).map f := by
  induction before generalizing met x with
  | nil => exact hrest met x hx
  | cons entry before ih =>
      rw [List.forall_mem_cons] at hkeep
      obtain ⟨hhead, htail⟩ := hkeep
      obtain ⟨k, v⟩ := entry
      simp only [List.cons_append, loadEntries]
      split
      next key hkey =>
        split
        next => exact ih htail hx
        next load hloader =>
          split
          next => rfl
          next =>
            cases hstep : load v x with
            | error fault => rfl
            | ok y =>
                exact ih htail (hhead key load hkey hloader met x y hx hstep)
      next => rfl

/-- Reading values of the mapping into records with the property commutes with
the change of the record, and keeps the property. -/
def Commutes
    (loader? : String → Option (Value → σ → Except DecodeError σ))
    (I : σ → Prop) (f : σ → σ) (es : List (Value × Value)) : Prop :=
  ∀ entry ∈ es, ∀ key load, entry.1.untag = .text key →
    loader? key = some load → ∀ x, I x →
      load entry.2 (f x) = (load entry.2 x).map f ∧
        ∀ y, load entry.2 x = .ok y → I y

variable {I : σ → Prop}

theorem commutes_append {es fs : List (Value × Value)} :
    Commutes loader? I f (es ++ fs) ↔
      Commutes loader? I f es ∧ Commutes loader? I f fs :=
  List.forall_mem_append

theorem loadEntries_map
    {es : List (Value × Value)} {met met' : List String}
    (hmet : ∀ key, HasKey key es → (key ∈ met ↔ key ∈ met'))
    (hcomm : Commutes loader? I f es) {x : σ} (hx : I x) :
    loadEntries loader? met es (f x) =
      (loadEntries loader? met' es x).map f := by
  induction es generalizing met met' x with
  | nil => rfl
  | cons entry es ih =>
      obtain ⟨hhead, htail⟩ := List.forall_mem_cons.mp hcomm
      have hmet' : ∀ key, HasKey key es → (key ∈ met ↔ key ∈ met') :=
        fun key hkey => hmet key (hasKey_cons.mpr (Or.inr hkey))
      obtain ⟨k, v⟩ := entry
      simp only [loadEntries]
      split
      next key hkey =>
        have hnew : met.contains key = met'.contains key := by
          simp [hmet key (hasKey_cons.mpr (Or.inl hkey))]
        split
        next => exact ih hmet' htail hx
        next load hloader =>
          obtain ⟨hload, hkeep⟩ := hhead key load hkey hloader x hx
          rw [hnew, hload]
          split
          next => rfl
          next =>
            cases hstep : load v x with
            | error fault => rfl
            | ok y =>
                refine ih ?_ htail (hkeep y hstep)
                intro key' hkey'
                simp [hmet' key' hkey']
      next => rfl

/-- An entry with a key of its own, which changes the record in a way that
reading the others commutes with, changes what the others are read as. -/
theorem loadEntries_insert
    {before after : List (Value × Value)} {key : String} {v : Value}
    {load : Value → σ → Except DecodeError σ} (hloader : loader? key = some load)
    (hload : ∀ x, I x → load v x = .ok (f x))
    (hout : ¬HasKey key (before ++ after))
    (hcomm : Commutes loader? I f (before ++ after)) {met : List String}
    (hnew : key ∉ met) {x : σ} (hx : I x) :
    loadEntries loader? met (before ++ (.text key, v) :: after) x =
      (loadEntries loader? met (before ++ after) x).map f := by
  rw [hasKey_append, not_or] at hout
  obtain ⟨hbefore, hafter⟩ := commutes_append.mp hcomm
  refine loadEntries_append_map (I := fun met x => key ∉ met ∧ I x) ?_ ?_
    ⟨hnew, hx⟩
  · rintro entry hentry key' load' hkey' hloader' met x y ⟨hnew, hx⟩ hy
    have hne : key ≠ key' := by
      rintro rfl
      exact hout.1 ⟨entry.1, List.mem_map_of_mem hentry, hkey'⟩
    refine ⟨List.not_mem_cons_of_ne_of_not_mem hne hnew, ?_⟩
    exact (hbefore entry hentry key' load' hkey' hloader' x hx).2 y hy
  · rintro met x ⟨hnew, hx⟩
    have hfirst : loadEntries loader? met ((.text key, v) :: after) x =
        loadEntries loader? (key :: met) after (f x) := by
      simp [loadEntries, Value.untag, hloader, hnew, hload x hx, bind,
        Except.bind]
    rw [hfirst]
    refine loadEntries_map ?_ hafter hx
    intro key' hkey'
    have hne : key' ≠ key := by
      rintro rfl
      exact hout.2 hkey'
    simp [hne]

/-- A key that is not known makes no difference. -/
theorem loadEntries_insert_unknown
    {before after : List (Value × Value)} {key : String} {v : Value}
    (hloader : loader? key = none) {met : List String} {x : σ} :
    loadEntries loader? met (before ++ (.text key, v) :: after) x =
      loadEntries loader? met (before ++ after) x := by
  have hsame : loadEntries loader? met (before ++ (.text key, v) :: after) x =
      (loadEntries loader? met (before ++ after) x).map id := by
    refine loadEntries_append_map (I := fun _ _ => True) ?_ ?_ trivial
    · intro _ _ _ _ _ _ _ _ _ _ _
      trivial
    · intro met x _
      simp [loadEntries, Value.untag, hloader, Except.map_id]
  rw [hsame, Except.map_id, id]

end

/-! ## Records -/

namespace Schema

variable {s : Schema σ} {before after : List (Value × Value)} {key : String}
  {v : Value}

theorem load_insert_unknown (h : key ∉ s.entries.map Entry.key) :
    s.load (.mapping (before ++ (.text key, v) :: after)) =
      s.load (.mapping (before ++ after)) := by
  have hloader : s.loader? key = none := by
    rw [loader?_eq_none_iff]
    rintro e he rfl
    exact h (List.mem_map_of_mem he)
  exact loadEntries_insert_unknown hloader

/-- The value is read as what the key has by default: loading it there leaves
the defaults as they are. -/
def ReadsDefault (s : Schema σ) (key : String) (v : Value) : Prop :=
  ∃ e ∈ s.entries, e.key = key ∧ e.Holds v s.default

/-- A key with its default makes no difference where it is the only one. -/
theorem Lawful.load_insert_default
    (h : s.Lawful) (hdefault : s.ReadsDefault key v)
    (hout : ¬HasKey key (before ++ after)) :
    s.load (.mapping (before ++ (.text key, v) :: after)) =
      s.load (.mapping (before ++ after)) := by
  obtain ⟨e, he, rfl, hholds⟩ := hdefault
  have hcomm : Commutes s.loader? (e.Holds v) id (before ++ after) := by
    intro entry hentry key load hkey hloader x hx
    obtain ⟨f, hf, rfl, rfl⟩ := exists_of_loader? hloader
    have hne : e ≠ f := by
      rintro rfl
      exact hout ⟨entry.1, List.mem_map_of_mem hentry, hkey⟩
    refine ⟨by simp [Except.map_id], ?_⟩
    intro y hy
    exact h.holds_of_load_other he hf hne hx hy
  have hload : ∀ x, e.Holds v x → e.load v x = .ok (id x) := fun _ hx => hx
  have hinsert := loadEntries_insert (h.loader?_key he) hload hout hcomm
    List.not_mem_nil hholds
  rw [Except.map_id, id] at hinsert
  exact hinsert

end Schema

end ContainerArgs.Settings
