import ContainerArgs.Text.Split
import Mathlib.Data.List.Basic

/-!
# Parts and their places

A text that is cut at a separator has one part more than it has separators. Each
part is the whole stretch between two separators next to each other, or between
one and an end of the text, so that parts may be empty. What is split off at a
place is exactly the part that stands there.
-/

namespace ContainerArgs.Text

/-- A part stands at a place of a text that is cut at a separator: it has no
separator, it is bounded on both sides by one or by an end of the text, and its
place is the number of separators before it. -/
structure IsPartAt (sep : Char) (text part : List Char) (i : ℕ) : Prop where
  free : sep ∉ part
  bounded : ∃ before after, text = before ++ part ++ after ∧
    before.count sep = i ∧ (∀ c ∈ before.getLast?, c = sep) ∧
    ∀ c ∈ after.head?, c = sep

/-! ## Splitting and joining in the middle -/

theorem splitOn_eq_split (sep : Char) (text : List Char) :
    text.splitOn sep = (split sep text).1 :: (split sep text).2 := by
  induction text with
  | nil => exact List.splitOn_nil sep
  | cons c text ih =>
      rw [List.splitOn_cons_eq_if_modifyHead, ih, split]
      by_cases hc : c = sep
      · simp [hc]
      · simp [hc]

theorem takeWhile_eq_split (sep : Char) (text : List Char) :
    text.takeWhile (· ≠ sep) = (split sep text).1 := by
  induction text with
  | nil => rfl
  | cons c text ih =>
      rw [split]
      by_cases hc : c = sep
      · simp [hc]
      · simp [hc, ← ih]

/-- After the first part there is one part for each separator. -/
theorem length_split (sep : Char) (text : List Char) :
    (split sep text).2.length = text.count sep := by
  induction text with
  | nil => rfl
  | cons c text ih =>
      by_cases hc : c = sep
      · simp [split, hc, ih]
      · simp [split, hc, ih]

theorem join_append_cons
    (sep : Char) (head part : List Char) (front back : List (List Char)) :
    join sep (head, front ++ part :: back) =
      join sep (head, front) ++ sep :: join sep (part, back) := by
  simp [join]

theorem count_join
    {sep : Char} {head : List Char} {parts : List (List Char)} (h : sep ∉ head)
    (hs : ∀ p ∈ parts, sep ∉ p) :
    (join sep (head, parts)).count sep = parts.length := by
  rw [← length_split, split_join sep head parts h hs]

theorem head_of_join (sep : Char) (parts : List (List Char)) :
    ∀ c ∈ (parts.flatMap (sep :: ·)).head?, c = sep := by
  cases parts with
  | nil => simp
  | cons p ps => simp

theorem split_fst_append
    {sep : Char} {part after : List Char} (hpart : sep ∉ part)
    (hafter : ∀ c ∈ after.head?, c = sep) :
    (split sep (part ++ after)).1 = part := by
  rw [split_append_of_free sep part after hpart]
  cases after with
  | nil => exact List.append_nil part
  | cons c after =>
      obtain rfl := hafter c rfl
      simp [split]

/-! ## The part at a place -/

theorem isPartAt_split_fst (sep : Char) (text : List Char) :
    IsPartAt sep text (split sep text).1 0 where
  free := split_head_free sep text
  bounded := by
    refine ⟨[], (split sep text).2.flatMap (sep :: ·), ?_, rfl, by simp,
      head_of_join sep _⟩
    exact (join_split sep text).symm

theorem isPartAt_of_split_snd
    {sep : Char} {text part : List Char} {front back : List (List Char)}
    (h : (split sep text).2 = front ++ part :: back) :
    IsPartAt sep text part (front.length + 1) := by
  have hfree : ∀ p ∈ front ++ part :: back, sep ∉ p := by
    rw [← h]
    exact split_tail_free sep text
  have htext : text =
      join sep ((split sep text).1, front) ++ sep :: join sep (part, back) := by
    rw [← join_append_cons, ← h]
    exact (join_split sep text).symm
  refine ⟨hfree part (by simp), join sep ((split sep text).1, front) ++ [sep],
    back.flatMap (sep :: ·), ?_, ?_, by simp, head_of_join sep back⟩
  · rw [List.append_assoc, List.append_assoc, List.singleton_append]
    exact htext
  · rw [List.count_append, List.count_singleton_self,
      count_join (split_head_free sep text)]
    intro p hp
    exact hfree p (List.mem_append_left _ hp)

theorem IsPartAt.getElem?_split
    {sep : Char} {text part : List Char} {i : ℕ} (h : IsPartAt sep text part i) :
    ((split sep text).1 :: (split sep text).2)[i]? = some part := by
  obtain ⟨before, after, rfl, rfl, hlast, hhead⟩ := h.bounded
  have hpart := split_fst_append h.free hhead
  rcases List.eq_nil_or_concat' before with rfl | ⟨front, c, rfl⟩
  · rw [List.count_nil, List.nil_append, hpart]
    rfl
  · obtain rfl : c = sep := hlast c (by simp)
    -- Everything before the part is split off on its own, and has one part for
    -- each separator.
    have hcount : (front ++ [c]).count c = (front.splitOn c).length := by
      rw [splitOn_eq_split, List.length_cons, length_split, List.count_append,
        List.count_singleton_self]
    have htext : front ++ [c] ++ part ++ after = front ++ c :: (part ++ after) := by
      simp
    rw [← splitOn_eq_split, hcount, htext, List.splitOn_append_cons_self,
      List.getElem?_append_right (Nat.le_refl _), Nat.sub_self, splitOn_eq_split, hpart]
    rfl

/-- The parts that a text is split into are the parts that stand in it, in order
of their places. -/
theorem getElem?_split_iff
    {sep : Char} {text part : List Char} {i : ℕ} :
    ((split sep text).1 :: (split sep text).2)[i]? = some part ↔
      IsPartAt sep text part i := by
  refine ⟨?_, IsPartAt.getElem?_split⟩
  intro h
  cases i with
  | zero =>
      obtain rfl := Option.some.inj h
      exact isPartAt_split_fst sep text
  | succ i =>
      rw [List.getElem?_cons_succ, List.getElem?_eq_some_iff] at h
      obtain ⟨hi, rfl⟩ := h
      have hsplit := (List.take_append_drop i (split sep text).2).symm
      rw [List.drop_eq_getElem_cons hi] at hsplit
      have hpart := isPartAt_of_split_snd hsplit
      rwa [List.length_take_of_le (Nat.le_of_lt hi)] at hpart

end ContainerArgs.Text
