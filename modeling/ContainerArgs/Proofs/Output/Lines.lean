import ContainerArgs.Proofs.Run.Selection

/-!
# Lines read back

A text of lines is read back by taking its lines and starting a new vector at
each empty one. For arguments that stay on one line this gives back the vectors
that were rendered exactly when there is a component and no argument is empty:
an empty argument is a line like those between components, and a text without
lines stands for one component without arguments.
-/

namespace ContainerArgs.Output

/-! ## Reading lines -/

/-- The lines of a text, without the line breaks that end them. -/
def linesOf (text : String) : List String :=
  (text.toList.splitOn '\n').dropLast.map String.ofList

/-- The vectors that the lines of a text give, where each empty line starts a
new one. -/
def vectorsOf (text : String) : List (List String) :=
  (linesOf text).splitOn ""

theorem splitOn_flatMap_newline
    {ls : List (List Char)} (h : ∀ l ∈ ls, '\n' ∉ l) :
    (ls.flatMap (· ++ ['\n'])).splitOn '\n' = ls ++ [[]] := by
  induction ls with
  | nil => rfl
  | cons l ls ih =>
      have hl : '\n' ∉ l := h l List.mem_cons_self
      have hls : ∀ k ∈ ls, '\n' ∉ k := fun k hk => h k (List.mem_cons_of_mem _ hk)
      rw [List.flatMap_cons, List.append_assoc, List.singleton_append,
        List.splitOn_append_cons_self_of_not_mem hl, ih hls, List.cons_append]

theorem linesOf_ofList
    {ls : List String} (h : ∀ l ∈ ls, '\n' ∉ l.toList) :
    linesOf (String.ofList (ls.flatMap fun l => l.toList ++ ['\n'])) = ls := by
  have hls : ∀ l ∈ ls.map String.toList, '\n' ∉ l := by
    intro l hl
    obtain ⟨s, hs, rfl⟩ := List.mem_map.mp hl
    exact h s hs
  have hflat : (ls.flatMap fun l => l.toList ++ ['\n']) =
      (ls.map String.toList).flatMap (· ++ ['\n']) := by
    rw [List.flatMap_map]
  rw [linesOf, String.toList_ofList, hflat, splitOn_flatMap_newline hls,
    List.dropLast_concat, List.map_map]
  simp [Function.comp_def]

/-- The pieces of a split do not contain what was split at. -/
theorem not_mem_of_mem_splitOn
    {α : Type} [BEq α] [LawfulBEq α] {x : α} {xs piece : List α}
    (h : piece ∈ xs.splitOn x) :
    x ∉ piece := by
  induction xs generalizing piece with
  | nil =>
      rw [List.splitOn_nil, List.mem_singleton] at h
      rw [h]
      exact List.not_mem_nil
  | cons y ys ih =>
      rw [List.splitOn_cons_eq_if_modifyHead] at h
      split at h
      next =>
        rcases List.mem_cons.mp h with rfl | h
        · exact List.not_mem_nil
        · exact ih h
      next hy =>
        obtain ⟨p, ps, hps⟩ := List.exists_cons_of_ne_nil (List.splitOn_ne_nil x ys)
        rw [hps, List.modifyHead_cons] at h
        have hmem : ∀ q ∈ p :: ps, x ∉ q := fun q hq => ih (hps ▸ hq)
        rcases List.mem_cons.mp h with rfl | h
        · intro hx
          rcases List.mem_cons.mp hx with rfl | hx
          · exact hy BEq.rfl
          · exact hmem p List.mem_cons_self hx
        · exact hmem piece (List.mem_cons_of_mem _ h)

theorem mem_intercalate
    {α : Type} {sep : α} {vs : List (List α)} {a : α}
    (h : a ∈ [sep].intercalate vs) :
    a = sep ∨ ∃ v ∈ vs, a ∈ v := by
  induction vs with
  | nil => cases h
  | cons v vs ih =>
      cases vs with
      | nil => exact .inr ⟨v, List.mem_cons_self, by simpa using h⟩
      | cons w ws =>
          rw [List.intercalate_cons_cons, List.append_assoc,
            List.singleton_append] at h
          rcases List.mem_append.mp h with hv | h
          · exact .inr ⟨v, List.mem_cons_self, hv⟩
          · rcases List.mem_cons.mp h with rfl | h
            · exact .inl rfl
            · rcases ih h with hsep | ⟨u, hu, ha⟩
              · exact .inl hsep
              · exact .inr ⟨u, List.mem_cons_of_mem _ hu, ha⟩

/-! ## Rendered lines -/

namespace Rendered

/-- No argument has a line break. -/
def IsSingleLine (r : Rendered) : Prop :=
  ∀ a ∈ r.args, '\n' ∉ a.toList

instance (r : Rendered) : Decidable r.IsSingleLine :=
  inferInstanceAs (Decidable (∀ a ∈ r.args, '\n' ∉ a.toList))

/-- Each argument is one line that is not empty. -/
def IsReadable (r : Rendered) : Prop :=
  r.IsSingleLine ∧ "" ∉ r.args

instance (r : Rendered) : Decidable r.IsReadable :=
  inferInstanceAs (Decidable (r.IsSingleLine ∧ "" ∉ r.args))

end Rendered

/-- As lines, arguments stand below each other, with an empty line between
components. -/
theorem joinBlocks_block (rs : List Rendered) :
    joinBlocks (rs.map block) =
      ([""].intercalate (rs.map (·.args))).flatMap fun a => a.toList ++ ['\n'] := by
  induction rs with
  | nil => rfl
  | cons r rs ih =>
      cases rs with
      | nil => simp [joinBlocks, block]
      | cons s rs =>
          have hjoin : joinBlocks ((r :: s :: rs).map block) =
              block r ++ ['\n'] ++ joinBlocks ((s :: rs).map block) := rfl
          have hargs : [""].intercalate ((r :: s :: rs).map (·.args)) =
              r.args ++ [""] ++ [""].intercalate ((s :: rs).map (·.args)) := by
            exact List.intercalate_cons_cons
          rw [hjoin, ih, hargs, List.flatMap_append, List.flatMap_append]
          rfl

theorem linesOf_render
    {rs : List Rendered} (h : ∀ r ∈ rs, r.IsSingleLine) :
    linesOf (render .lines rs) = [""].intercalate (rs.map (·.args)) := by
  rw [render, joinBlocks_block]
  apply linesOf_ofList
  intro l hl
  rcases mem_intercalate hl with rfl | ⟨args, hargs, hl⟩
  · exact List.not_mem_nil
  · obtain ⟨r, hr, rfl⟩ := List.mem_map.mp hargs
    exact h r hr l hl

theorem vectorsOf_render_iff
    {rs : List Rendered} (h : ∀ r ∈ rs, r.IsSingleLine) :
    vectorsOf (render .lines rs) = rs.map (·.args) ↔
      rs ≠ [] ∧ ∀ r ∈ rs, "" ∉ r.args := by
  rw [vectorsOf, linesOf_render h]
  constructor
  · intro heq
    constructor
    · rintro rfl
      exact List.splitOn_ne_nil _ _ heq
    · intro r hr
      apply not_mem_of_mem_splitOn
      rw [heq]
      exact List.mem_map_of_mem hr
  · rintro ⟨hne, hargs⟩
    apply List.splitOn_intercalate
    · intro args hmem
      obtain ⟨r, hr, rfl⟩ := List.mem_map.mp hmem
      exact hargs r hr
    · exact mt List.map_eq_nil_iff.mp hne

theorem vectorsOf_render
    {rs : List Rendered} (hne : rs ≠ []) (h : ∀ r ∈ rs, r.IsReadable) :
    vectorsOf (render .lines rs) = rs.map (·.args) :=
  (vectorsOf_render_iff fun r hr => (h r hr).1).mpr ⟨hne, fun r hr => (h r hr).2⟩

theorem map_args_eq_of_render_lines_eq
    {rs ss : List Rendered} (hrs : rs ≠ []) (hss : ss ≠ [])
    (hr : ∀ r ∈ rs, r.IsReadable) (hs : ∀ s ∈ ss, s.IsReadable)
    (h : render .lines rs = render .lines ss) :
    rs.map (·.args) = ss.map (·.args) := by
  rw [← vectorsOf_render hrs hr, h, vectorsOf_render hss hs]

end ContainerArgs.Output

namespace ContainerArgs

open Text Output

namespace Configuration

theorem exists_shownBy_of_subset
    {m : Manifest} (h : m.validate = .ok ()) {cs : List Configuration}
    (hcs : cs ⊆ m.components) :
    ∃ rs, List.Forall₂ ShownBy cs rs := by
  apply exists_shownBy
  intro c hc
  exact (Manifest.forall_not_isFaulty_iff.mp
    (Manifest.validate_eq_ok_iff.mp h)).2.2 c (hcs hc)

end Configuration

namespace Run

open CommandLine

/-- Lines are readable. Any components of a manifest that loads have arguments,
and the run that selects them puts their lines out. When all of these arguments
stay on one line, taking the lines and starting a new vector at each empty one
gives back the vectors in order exactly when there is a component and no
argument is empty. So two selections that read back have the same lines only
when they have the same vectors. -/
theorem lines_read_back
    (inv : Invocation) (file : FileContent) (m : Manifest)
    (hload : (Manifest.load (.ofText inv.config) file).2 = .ok m) :
    (∀ cs, cs ⊆ m.components →
      ∃ rs : List Rendered,
        List.Forall₂ (fun c r => r.name = c.name ∧ c.args = .ok r.args) cs rs ∧
        (∀ component, m.select component = .ok cs →
          PutsOut { inv with component := component, format := .lines } file
            (render .lines rs)) ∧
        ((∀ r ∈ rs, r.IsSingleLine) →
          (vectorsOf (render .lines rs) = rs.map (·.args) ↔
            rs ≠ [] ∧ ∀ r ∈ rs, "" ∉ r.args))) ∧
    (∀ rs ss : List Rendered, rs ≠ [] → ss ≠ [] →
      (∀ r ∈ rs, r.IsReadable) → (∀ s ∈ ss, s.IsReadable) →
      render .lines rs = render .lines ss →
      rs.map (·.args) = ss.map (·.args)) := by
  constructor
  · intro cs hcs
    have hvalid := Manifest.validate_of_load hload
    obtain ⟨rs, hshown⟩ := Configuration.exists_shownBy_of_subset hvalid hcs
    refine ⟨rs, hshown, ?_, vectorsOf_render_iff⟩
    intro component hselect
    apply putsOut_of_rendered
    exact rendered_of_shownBy
      { inv with component := component, format := .lines } hload hselect hshown
  · intro rs ss hrs hss hr hs h
    exact map_args_eq_of_render_lines_eq hrs hss hr hs h

/-- Two caches, of which the first has no arguments. -/
def twoCaches : FileContent :=
  .bytes (Utf8.encode
    ("components:\n- name: a\n  kind: memcached\n" ++
      "- name: b\n  kind: memcached\n  options:\n    verbose: true\n").toList)

/-- The two caches with their arguments. -/
def shownCaches : List Rendered :=
  [⟨"a", []⟩, ⟨"b", ["-v"]⟩]

/-- The lines of both caches give back both vectors, the empty one too, and are
not the lines of the second cache alone. -/
theorem lines_read_back_caches :
    (∃ m : Manifest,
      (Manifest.load (.ofText "manifest.yaml") twoCaches).2 = .ok m ∧
      List.Forall₂ (fun c r => r.name = c.name ∧ c.args = .ok r.args)
        m.components shownCaches) ∧
    PutsOut (linesFor none) twoCaches (render .lines shownCaches) ∧
    (∀ r ∈ shownCaches, r.IsReadable) ∧
    vectorsOf (render .lines shownCaches) = [[], ["-v"]] ∧
    (∀ r ∈ [(⟨"b", ["-v"]⟩ : Rendered)], r.IsReadable) ∧
    render .lines shownCaches ≠ render .lines [⟨"b", ["-v"]⟩] := by
  have hrendered : (rendered (linesFor none) twoCaches).2.toOption =
      some shownCaches := by
    decide +kernel
  have hboth : ∀ r ∈ shownCaches, r.IsReadable := by decide
  have hsecond : ∀ r ∈ [(⟨"b", ["-v"]⟩ : Rendered)], r.IsReadable := by decide
  obtain ⟨m, hload⟩ := exists_load_of_rendered hrendered
  obtain ⟨hselections, hdifferent⟩ :=
    lines_read_back (linesFor none) twoCaches m hload
  obtain ⟨rs, hshown, hputs, hback⟩ :=
    hselections m.components (List.Subset.refl _)
  obtain rfl : rs = shownCaches := by
    have hsome := congrArg Except.toOption
      (rendered_of_shownBy (linesFor none) hload rfl hshown)
    exact Option.some.inj (hsome.symm.trans hrendered)
  refine ⟨⟨m, hload, hshown⟩, hputs none rfl, hboth, ?_, hsecond, ?_⟩
  · exact (hback fun r hr => (hboth r hr).1).mpr
      ⟨List.cons_ne_nil _ _, fun r hr => (hboth r hr).2⟩
  · intro hsame
    have hargs := hdifferent shownCaches [⟨"b", ["-v"]⟩] (List.cons_ne_nil _ _)
      (List.cons_ne_nil _ _) hboth hsecond hsame
    exact absurd hargs (by decide)

/-- An empty argument and a line break in an argument look like a change of the
component, and no component at all like one without arguments. -/
theorem lines_of_different_selections :
    (rendered ⟨"m.yaml", none, .lines, none⟩ (.bytes (Utf8.encode
      ("components:\n- name: a\n  kind: memcached\n" ++
        "  options:\n    extra: [x, '', y]\n").toList))).2.toOption =
      some [⟨"a", ["x", "", "y"]⟩] ∧
    (rendered ⟨"m.yaml", none, .lines, none⟩ (.bytes (Utf8.encode
      ("components:\n- name: a\n  kind: memcached\n" ++
        "  options:\n    extra: [\"x\\n\\ny\"]\n").toList))).2.toOption =
      some [⟨"a", ["x\n\ny"]⟩] ∧
    (rendered ⟨"m.yaml", none, .lines, none⟩ (.bytes (Utf8.encode
      ("components:\n- name: a\n  kind: memcached\n" ++
        "  options:\n    extra: [x]\n" ++
        "- name: b\n  kind: memcached\n" ++
        "  options:\n    extra: [y]\n").toList))).2.toOption =
      some [⟨"a", ["x"]⟩, ⟨"b", ["y"]⟩] ∧
    (rendered ⟨"m.yaml", none, .lines, none⟩ (.bytes (Utf8.encode
      "components: []\n".toList))).2.toOption = some [] ∧
    render .lines [⟨"a", ["x", "", "y"]⟩] = "x\n\ny\n" ∧
    render .lines [⟨"a", ["x\n\ny"]⟩] = "x\n\ny\n" ∧
    render .lines [⟨"a", ["x"]⟩, ⟨"b", ["y"]⟩] = "x\n\ny\n" ∧
    vectorsOf "x\n\ny\n" = [["x"], ["y"]] ∧
    render .lines [] = "" ∧
    vectorsOf "" = [[]] := by
  decide +kernel

end Run

end ContainerArgs
