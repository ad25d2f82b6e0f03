import Mathlib.Data.List.Basic

/-!
# Texts made of alternating runs

A text in which runs of one class of characters alternate with runs of all the
others can be cut into these runs in one way only.  Numbers followed by their
units are such texts.  Where parts are joined, the separator stands before each
part but the first.
-/

namespace ContainerArgs.Text

variable {α : Type} {p : α → Bool}

theorem takeWhile_append_of_stop
    {xs rest : List α} (hxs : ∀ a ∈ xs, p a = true)
    (hrest : ∀ a ∈ rest.head?, p a = false) :
    (xs ++ rest).takeWhile p = xs := by
  rw [List.takeWhile_append_of_pos hxs]
  cases rest with
  | nil => simp
  | cons a rest => simp [hrest a rfl]

theorem dropWhile_append_of_stop
    {xs rest : List α} (hxs : ∀ a ∈ xs, p a = true)
    (hrest : ∀ a ∈ rest.head?, p a = false) :
    (xs ++ rest).dropWhile p = rest := by
  rw [List.dropWhile_append_of_pos hxs]
  cases rest with
  | nil => rfl
  | cons a rest => simp [hrest a rfl]

theorem toList_intercalate_cons (sep s : String) (ss : List String) :
    (String.intercalate sep (s :: ss)).toList =
      s.toList ++ ss.flatMap fun t => sep.toList ++ t.toList := by
  induction ss generalizing s with
  | nil => simp
  | cons t ss ih =>
      rw [String.intercalate_cons_cons, String.toList_append, ih,
        String.toList_append]
      simp

/-- A run of elements in a class, and after it a run of elements outside it. -/
structure IsRun (p : α → Bool) (x : List α × List α) : Prop where
  inside_ne_nil : x.1 ≠ []
  inside : ∀ a ∈ x.1, p a = true
  outside_ne_nil : x.2 ≠ []
  outside : ∀ a ∈ x.2, p a = false

/-- The text that runs make up. -/
def ofRuns (xs : List (List α × List α)) : List α :=
  xs.flatMap fun x => x.1 ++ x.2

@[simp] theorem ofRuns_nil :
    ofRuns ([] : List (List α × List α)) = [] := rfl

@[simp] theorem ofRuns_cons (x : List α × List α) (xs : List (List α × List α)) :
    ofRuns (x :: xs) = x.1 ++ (x.2 ++ ofRuns xs) := by
  simp [ofRuns]

theorem head_ofRuns
    {xs : List (List α × List α)} (h : ∀ x ∈ xs, IsRun p x) :
    ∀ a ∈ (ofRuns xs).head?, p a = true := by
  intro a ha
  cases xs with
  | nil => simp at ha
  | cons x xs =>
      have hx := h x List.mem_cons_self
      rw [ofRuns_cons, List.head?_append_of_ne_nil _ hx.inside_ne_nil] at ha
      exact hx.inside a (List.mem_of_mem_head? ha)

theorem takeWhile_ofRuns_cons
    {x : List α × List α} (hx : IsRun p x) (xs : List (List α × List α)) :
    (ofRuns (x :: xs)).takeWhile p = x.1 := by
  rw [ofRuns_cons]
  refine takeWhile_append_of_stop hx.inside ?_
  intro a ha
  rw [List.head?_append_of_ne_nil _ hx.outside_ne_nil] at ha
  exact hx.outside a (List.mem_of_mem_head? ha)

theorem takeWhile_outside_append
    {x : List α × List α} (hx : IsRun p x) {xs : List (List α × List α)}
    (hxs : ∀ y ∈ xs, IsRun p y) :
    (x.2 ++ ofRuns xs).takeWhile (!p ·) = x.2 := by
  refine takeWhile_append_of_stop (fun a ha => ?_) (fun a ha => ?_)
  · simp [hx.outside a ha]
  · simp [head_ofRuns hxs a ha]

/-- The text that runs make up determines the runs. -/
theorem ofRuns_injective
    {xs ys : List (List α × List α)} (hxs : ∀ x ∈ xs, IsRun p x)
    (hys : ∀ y ∈ ys, IsRun p y) (h : ofRuns xs = ofRuns ys) :
    xs = ys := by
  induction xs generalizing ys with
  | nil =>
      cases ys with
      | nil => rfl
      | cons y ys =>
          have hy := hys y List.mem_cons_self
          simp [hy.inside_ne_nil] at h
  | cons x xs ih =>
      have hx := hxs x List.mem_cons_self
      cases ys with
      | nil => simp [hx.inside_ne_nil] at h
      | cons y ys =>
          have hy := hys y List.mem_cons_self
          have hxs' : ∀ x ∈ xs, IsRun p x :=
            fun z hz => hxs z (List.mem_cons_of_mem _ hz)
          have hys' : ∀ y ∈ ys, IsRun p y :=
            fun z hz => hys z (List.mem_cons_of_mem _ hz)
          have hinside : x.1 = y.1 := by
            rw [← takeWhile_ofRuns_cons hx xs, h, takeWhile_ofRuns_cons hy ys]
          rw [ofRuns_cons, ofRuns_cons, hinside,
            List.append_cancel_left_eq] at h
          have houtside : x.2 = y.2 := by
            rw [← takeWhile_outside_append hx hxs', h,
              takeWhile_outside_append hy hys']
          rw [houtside, List.append_cancel_left_eq] at h
          rw [ih hxs' hys' h, Prod.ext hinside houtside]

end ContainerArgs.Text
