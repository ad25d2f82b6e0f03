import ContainerArgs.Flag.Tag
import ContainerArgs.Proofs.Text.Runs
import ContainerArgs.Proofs.Text.Split

/-!
# Tags and their texts

Reading a tag and joining the parts of one with commas undo each other: every
text is the text of exactly one tag whose parts are without commas, the one that
it is read as. A modifier is asked for by its whole text, as it stands between
the commas.
-/

namespace ContainerArgs.Flag.Tag

open Text

/-- Neither the name nor a modifier has a comma. -/
def IsCommaFree (t : Tag) : Prop :=
  ∀ part ∈ t.name :: t.modifiers, ',' ∉ part.toList

instance (t : Tag) : Decidable t.IsCommaFree :=
  inferInstanceAs (Decidable (∀ part ∈ t.name :: t.modifiers, ',' ∉ part.toList))

theorem raw_eq_intercalate (t : Tag) :
    t.raw = ",".intercalate (t.name :: t.modifiers) := by
  apply String.toList_injective
  rw [raw, String.toList_ofList, toList_intercalate_cons, join, List.flatMap_map]
  rfl

theorem raw_parse (raw : String) :
    (parse raw).raw = raw := by
  have hsplit : ((parse raw).name.toList,
      (parse raw).modifiers.map String.toList) = split ',' raw.toList := by
    simp [parse, Function.comp_def]
  rw [Tag.raw, hsplit, join_split, String.ofList_toList]

theorem cons_modifiers_parse (raw : String) :
    (parse raw).name :: (parse raw).modifiers =
      ((split ',' raw.toList).1 :: (split ',' raw.toList).2).map String.ofList :=
  rfl

theorem isCommaFree_parse (raw : String) :
    (parse raw).IsCommaFree := by
  intro part hpart
  rw [cons_modifiers_parse] at hpart
  obtain ⟨cs, hcs, rfl⟩ := List.mem_map.mp hpart
  rw [String.toList_ofList]
  rcases List.mem_cons.mp hcs with rfl | hcs
  · exact split_head_free ',' raw.toList
  · exact split_tail_free ',' raw.toList cs hcs

theorem parse_raw {t : Tag} (h : t.IsCommaFree) :
    parse t.raw = t := by
  obtain ⟨hname, hmodifiers⟩ := List.forall_mem_cons.mp h
  have hsplit : split ',' t.raw.toList =
      (t.name.toList, t.modifiers.map String.toList) := by
    rw [raw, String.toList_ofList]
    apply split_join ',' _ _ hname
    exact List.forall_mem_map.mpr hmodifiers
  rw [parse, hsplit]
  simp [Function.comp_def]

theorem getElem?_parse_iff {raw part : String} {i : ℕ} :
    ((parse raw).name :: (parse raw).modifiers)[i]? = some part ↔
      IsPartAt ',' raw.toList part.toList i := by
  rw [cons_modifiers_parse, List.getElem?_map, Option.map_eq_some_iff]
  constructor
  · rintro ⟨cs, hcs, rfl⟩
    rw [String.toList_ofList]
    exact getElem?_split_iff.mp hcs
  · intro h
    exact ⟨part.toList, getElem?_split_iff.mpr h, String.ofList_toList⟩

theorem length_modifiers_parse (raw : String) :
    (parse raw).modifiers.length = raw.toList.count ',' := by
  rw [← length_split]
  exact List.length_map _

theorem has_parse_iff_isPartAt {raw modifier : String} :
    (parse raw).has modifier = true ↔
      ∃ i, IsPartAt ',' raw.toList modifier.toList (i + 1) := by
  rw [has, List.contains_iff_mem, List.mem_iff_getElem?]
  apply exists_congr
  intro i
  rw [← getElem?_parse_iff, List.getElem?_cons_succ]

theorem has_parse_of_comma_mem {raw modifier : String}
    (h : ',' ∈ modifier.toList) :
    (parse raw).has modifier = false := by
  rw [← Bool.not_eq_true, has_parse_iff_isPartAt]
  rintro ⟨i, hpart⟩
  exact hpart.free h

/-- Parsing is the inverse of joining with commas. What a text is read as has no
commas and joins to the text again, and joining a name and modifiers without
commas is read as these. The parts that are read are the whole stretches between
the commas of the text, in order, so nothing is trimmed and empty parts stay; a
modifier is there when such a stretch after the first comma is its text, and so
never when it has a comma. -/
theorem parsing_inverts_joining :
    (∀ raw : String, (parse raw).IsCommaFree ∧
      ",".intercalate ((parse raw).name :: (parse raw).modifiers) = raw) ∧
    (∀ t : Tag, t.IsCommaFree →
      parse (",".intercalate (t.name :: t.modifiers)) = t) ∧
    (∀ (raw part : String) (i : ℕ),
      ((parse raw).name :: (parse raw).modifiers)[i]? = some part ↔
        IsPartAt ',' raw.toList part.toList i) ∧
    (∀ raw : String, (parse raw).modifiers.length = raw.toList.count ',') ∧
    (∀ raw modifier : String, (parse raw).has modifier = true ↔
      ∃ i, IsPartAt ',' raw.toList modifier.toList (i + 1)) ∧
    (∀ raw modifier : String, ',' ∈ modifier.toList →
      (parse raw).has modifier = false) := by
  refine ⟨?_, ?_, ?_, length_modifiers_parse, ?_, ?_⟩
  · intro raw
    rw [← raw_eq_intercalate]
    exact ⟨isCommaFree_parse raw, raw_parse raw⟩
  · intro t ht
    rw [← raw_eq_intercalate]
    exact parse_raw ht
  · intro raw part i
    exact getElem?_parse_iff
  · intro raw modifier
    exact has_parse_iff_isPartAt
  · intro raw modifier hcomma
    exact has_parse_of_comma_mem hcomma

/-- Empty parts at both ends and next to each other, a space and a letter of two
bytes are read as they stand. -/
theorem parsing_inverts_joining_blanks :
    let t : Tag := ⟨"µ", ["", " noval", "noval", ""]⟩
    t.IsCommaFree ∧ ",".intercalate (t.name :: t.modifiers) = "µ,, noval,noval," ∧
      parse "µ,, noval,noval," = t ∧
      IsPartAt ',' "µ,, noval,noval,".toList " noval".toList 2 ∧
      ',' ∈ "noval,".toList ∧ (parse "µ,, noval,noval,").has "noval," = false := by
  intro t
  have ht : t.IsCommaFree := by decide
  have hjoin : ",".intercalate (t.name :: t.modifiers) = "µ,, noval,noval," := by
    decide
  have hcomma : ',' ∈ "noval,".toList := by decide
  obtain ⟨-, hparse, hplace, -, -, hhas⟩ := parsing_inverts_joining
  have hread : parse "µ,, noval,noval," = t := by
    rw [← hjoin]
    exact hparse t ht
  refine ⟨ht, hjoin, hread, ?_, hcomma, hhas _ _ hcomma⟩
  rw [← hplace, hread]
  rfl

end ContainerArgs.Flag.Tag
