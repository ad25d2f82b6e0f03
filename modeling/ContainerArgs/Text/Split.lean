/-!
# Splitting at a separator

A text without its separators is a head and a list of further parts; joining the
parts with the separator gives the text back.  No part is trimmed or dropped, so
an empty text has one empty part.
-/

namespace ContainerArgs.Text

/-- The part before the first separator and the parts after each of them. -/
def split (sep : Char) : List Char → List Char × List (List Char)
  | [] => ([], [])
  | c :: cs =>
    let parts := split sep cs
    if c = sep then ([], parts.1 :: parts.2) else (c :: parts.1, parts.2)

/-- The parts with one separator before each part but the first. -/
def join (sep : Char) (parts : List Char × List (List Char)) : List Char :=
  parts.1 ++ parts.2.flatMap (sep :: ·)

theorem join_split (sep : Char) (cs : List Char) :
    join sep (split sep cs) = cs := by
  induction cs with
  | nil => rfl
  | cons c cs ih =>
    by_cases h : c = sep <;> simp_all [split, join]

theorem split_head_free (sep : Char) (cs : List Char) :
    sep ∉ (split sep cs).1 := by
  induction cs with
  | nil => simp [split]
  | cons c cs ih =>
    by_cases h : c = sep
    · simp [split, h]
    · simp [split, h, ih, Ne.symm h]

theorem split_tail_free (sep : Char) (cs : List Char) :
    ∀ part ∈ (split sep cs).2, sep ∉ part := by
  induction cs with
  | nil => simp [split]
  | cons c cs ih =>
    by_cases h : c = sep
    · simpa [split, h] using ⟨split_head_free sep cs, ih⟩
    · simpa [split, h] using ih

theorem split_append_of_free
    (sep : Char) (part rest : List Char) (h : sep ∉ part) :
    split sep (part ++ rest) =
      (part ++ (split sep rest).1, (split sep rest).2) := by
  induction part with
  | nil => simp
  | cons c part ih =>
    have hc : c ≠ sep := fun e => h (e ▸ List.mem_cons_self)
    simp [split, hc, ih fun hm => h (List.mem_cons_of_mem _ hm)]

theorem split_join
    (sep : Char) (part : List Char) (parts : List (List Char)) (h : sep ∉ part)
    (hs : ∀ p ∈ parts, sep ∉ p) :
    split sep (join sep (part, parts)) = (part, parts) := by
  induction parts generalizing part with
  | nil => simpa [join, split] using split_append_of_free sep part [] h
  | cons p ps ih =>
    have hp := ih p (hs p List.mem_cons_self) fun q hq =>
      hs q (List.mem_cons_of_mem _ hq)
    simp only [join] at hp
    simp [join, split_append_of_free sep part _ h, split, hp]

end ContainerArgs.Text
