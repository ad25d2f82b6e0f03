import ContainerArgs.Proofs.Manifest.Validation
import ContainerArgs.Proofs.Text.Runs
import ContainerArgs.Run
import Mathlib.Data.List.Forall2

/-!
# Runs are all or nothing

A run that fails puts nothing out, and a run that succeeds puts out everything
at its end. It fails when the manifest is refused or lacks the component that is
asked for, and never while arguments are built. Asking for a component picks its
entry from the full run, and the lines of the full run are those of the single
runs, joined.
-/

namespace ContainerArgs

open Text Output

/-! ## Rendering components -/

namespace Configuration

/-- An entry of the output that shows a component with its arguments. -/
def ShownBy (c : Configuration) (r : Rendered) : Prop :=
  r.name = c.name ∧ c.args = .ok r.args

theorem renderAll_of_shownBy
    {cs : List Configuration} {rs : List Rendered}
    (h : List.Forall₂ ShownBy cs rs) :
    (renderAll cs).2 = .ok rs := by
  induction h with
  | nil => rfl
  | @cons c r cs rs hcr _ ih =>
      obtain ⟨name, args⟩ := r
      obtain ⟨rfl, hargs⟩ := hcr
      rw [renderAll, hargs]
      simp only [ih]
      rfl

theorem exists_shownBy
    {cs : List Configuration} (h : ∀ c ∈ cs, ∃ arguments, c.args = .ok arguments) :
    ∃ rs, List.Forall₂ ShownBy cs rs := by
  induction cs with
  | nil => exact ⟨[], .nil⟩
  | cons c cs ih =>
      obtain ⟨args, hargs⟩ := h c List.mem_cons_self
      obtain ⟨rs, hrs⟩ := ih fun d hd => h d (List.mem_cons_of_mem _ hd)
      exact ⟨⟨c.name, args⟩ :: rs, .cons ⟨rfl, hargs⟩ hrs⟩

theorem exists_shownBy_of_mem
    {cs : List Configuration} {rs : List Rendered}
    (h : List.Forall₂ ShownBy cs rs) {c : Configuration} (hc : c ∈ cs) :
    ∃ r ∈ rs, c.ShownBy r := by
  induction h with
  | nil => cases hc
  | @cons d s cs rs hds _ ih =>
      rcases List.mem_cons.mp hc with rfl | hc
      · exact ⟨s, List.mem_cons_self, hds⟩
      · obtain ⟨r, hr, hcr⟩ := ih hc
        exact ⟨r, List.mem_cons_of_mem _ hr, hcr⟩

theorem map_name_of_shownBy
    {cs : List Configuration} {rs : List Rendered}
    (h : List.Forall₂ ShownBy cs rs) :
    rs.map (·.name) = cs.map (·.name) := by
  induction h with
  | nil => rfl
  | cons hcr _ ih => rw [List.map_cons, List.map_cons, hcr.1, ih]

end Configuration

theorem filter_name_eq_singleton
    {rs : List Rendered} (h : (rs.map (·.name)).Nodup) {r : Rendered}
    (hr : r ∈ rs) :
    rs.filter (·.name = r.name) = [r] := by
  induction rs with
  | nil => cases hr
  | cons s rs ih =>
      obtain ⟨hfresh, hnodup⟩ := List.nodup_cons.mp h
      have hother : ∀ t ∈ rs, t.name ≠ s.name := by
        intro t ht heq
        exact hfresh (List.mem_map.mpr ⟨t, ht, heq⟩)
      rw [List.filter_cons]
      rcases List.mem_cons.mp hr with rfl | hmem
      · have hrest : rs.filter (·.name = r.name) = [] :=
          List.filter_eq_nil_iff.mpr fun t ht => by simpa using hother t ht
        rw [hrest, if_pos (decide_eq_true rfl)]
      · rw [ih hnodup hmem, if_neg]
        simpa using (hother r hmem).symm

/-! ## Lines -/

theorem ofList_joinBlocks (bs : List (List Char)) :
    String.ofList (joinBlocks bs) =
      String.intercalate "\n" (bs.map String.ofList) := by
  induction bs with
  | nil => rfl
  | cons b bs ih =>
      cases bs with
      | nil => simp [joinBlocks]
      | cons c bs =>
          have hjoin : joinBlocks (b :: c :: bs) =
              b ++ ['\n'] ++ joinBlocks (c :: bs) := rfl
          rw [hjoin, String.ofList_append, String.ofList_append, ih]
          exact String.intercalate_cons_cons.symm

/-- The lines of several components are those of each one, joined. -/
theorem render_lines (rs : List Rendered) :
    render .lines rs =
      String.intercalate "\n" (rs.map fun r => render .lines [r]) := by
  rw [render, ofList_joinBlocks, List.map_map]
  rfl

/-! ## Runs -/

namespace Run

open CommandLine

/-- The run puts nothing out and ends in a failure. -/
def Fails (inv : Invocation) (file : FileContent) (fault : RunError) : Prop :=
  ∃ notes : List RunNote,
    events inv file = notes.map .report ++ [.failure fault]

/-- The run puts a text out once, after everything else that it does. -/
def PutsOut (inv : Invocation) (file : FileContent) (text : String) : Prop :=
  ∃ notes : List RunNote,
    events inv file = notes.map .report ++ [.output inv.output text]

variable {inv : Invocation} {file : FileContent}

theorem fails_of_rendered {fault : RunError}
    (h : (rendered inv file).2 = .error fault) :
    Fails inv file fault := by
  refine ⟨(rendered inv file).1, ?_⟩
  rw [events, h, ending]

theorem putsOut_of_rendered {rs : List Rendered}
    (h : (rendered inv file).2 = .ok rs) :
    PutsOut inv file (render inv.format rs) := by
  refine ⟨(rendered inv file).1, ?_⟩
  rw [events, h, ending]

theorem rendered_of_load_error {fault : LoadError}
    (h : (Manifest.load (.ofText inv.config) file).2 = .error fault) :
    (rendered inv file).2 = .error (.load fault) := by
  simp only [rendered, h]

theorem rendered_of_select_error {m : Manifest} {fault : RunError}
    (h : (Manifest.load (.ofText inv.config) file).2 = .ok m)
    (hselect : m.select inv.component = .error fault) :
    (rendered inv file).2 = .error fault := by
  simp only [rendered, h, hselect]

theorem rendered_of_shownBy
    (inv : Invocation) {m : Manifest} {cs : List Configuration}
    {rs : List Rendered}
    (h : (Manifest.load (.ofText inv.config) file).2 = .ok m)
    (hselect : m.select inv.component = .ok cs)
    (hshown : List.Forall₂ Configuration.ShownBy cs rs) :
    (rendered inv file).2 = .ok rs := by
  simp only [rendered, h, hselect, Configuration.renderAll_of_shownBy hshown]
  rfl

end Run

namespace Manifest

theorem validate_of_load
    {path : FilePath} {file : FileContent} {m : Manifest}
    (h : (load path file).2 = .ok m) :
    m.validate = .ok () := by
  rw [load] at h
  split at h
  next => cases h
  next n hread =>
    simp only [reportOn] at h
    split at h
    next hvalid =>
      obtain rfl := Except.ok.inj h
      exact hvalid
    next => cases h

/-- A name that no other component has leads to its component. -/
theorem select_name
    {m : Manifest} (h : (m.components.map (·.name)).Nodup) {c : Configuration}
    (hc : c ∈ m.components) :
    m.select (some c.name) = .ok [c] := by
  cases hfind : m.component? c.name with
  | none => exact absurd rfl (component?_eq_none_iff.mp hfind c hc)
  | some d =>
      have hd : d ∈ m.components := List.mem_of_find?_eq_some hfind
      have hname : d.name = c.name := by simpa using List.find?_some hfind
      obtain rfl : d = c := List.inj_on_of_nodup_map h hd hc hname
      rw [select, hfind]

theorem select_eq_error
    {m : Manifest} {name : String} (h : ∀ c ∈ m.components, c.name ≠ name) :
    m.select (some name) = .error (.unknownComponent name) := by
  rw [select, component?_eq_none_iff.mpr h]

theorem nodup_names_of_validate {m : Manifest} (h : m.validate = .ok ()) :
    (m.components.map (·.name)).Nodup :=
  (forall_not_isFaulty_iff.mp (validate_eq_ok_iff.mp h)).2.1

theorem exists_shownBy_of_validate {m : Manifest} (h : m.validate = .ok ()) :
    ∃ full, List.Forall₂ Configuration.ShownBy m.components full :=
  Configuration.exists_shownBy
    (forall_not_isFaulty_iff.mp (validate_eq_ok_iff.mp h)).2.2

end Manifest

namespace Run

open CommandLine

variable {file : FileContent} {m : Manifest} {full : List Rendered}

/-- Asking for no component gives all, in the order of the manifest. -/
theorem rendered_none (inv : Invocation)
    (hload : (Manifest.load (.ofText inv.config) file).2 = .ok m)
    (hfull : List.Forall₂ Configuration.ShownBy m.components full) :
    (rendered { inv with component := none } file).2 = .ok full :=
  rendered_of_shownBy { inv with component := none } hload rfl hfull

theorem rendered_name (inv : Invocation)
    (hload : (Manifest.load (.ofText inv.config) file).2 = .ok m)
    {c : Configuration} {r : Rendered} (hc : c ∈ m.components)
    (hr : c.ShownBy r) :
    (rendered { inv with component := some c.name } file).2 = .ok [r] := by
  have hnodup := Manifest.nodup_names_of_validate (Manifest.validate_of_load hload)
  exact rendered_of_shownBy { inv with component := some c.name } hload
    (Manifest.select_name hnodup hc) (.cons hr .nil)

/-- Asking for a component gives the entry of the full run with that name. -/
theorem exists_rendered_name (inv : Invocation)
    (hload : (Manifest.load (.ofText inv.config) file).2 = .ok m)
    (hfull : List.Forall₂ Configuration.ShownBy m.components full)
    {c : Configuration} (hc : c ∈ m.components) :
    ∃ r,
      full.filter (·.name = c.name) = [r] ∧
        (rendered { inv with component := some c.name } file).2 = .ok [r] := by
  obtain ⟨r, hr, hcr⟩ := Configuration.exists_shownBy_of_mem hfull hc
  refine ⟨r, ?_, rendered_name inv hload hc hcr⟩
  have hnodup := Manifest.nodup_names_of_validate (Manifest.validate_of_load hload)
  rw [← Configuration.map_name_of_shownBy hfull] at hnodup
  rw [← hcr.1]
  exact filter_name_eq_singleton hnodup hr

/-- A run is all or nothing, and asking for a component is projection. When the
manifest is refused, or lacks the component that is asked for, the run puts
nothing out and ends in that failure. Otherwise arguments are there for all
components; the full run renders an entry for each, in the order of the
manifest, and the run that asks for one renders just the entry of the full run
with its name; what is rendered is put out at once, after everything else. As
lines, the text of the full run is that of the single runs, with line breaks
between. -/
theorem run_is_all_or_nothing (inv : Invocation) (file : FileContent) :
    (∀ fault, (Manifest.load (.ofText inv.config) file).2 = .error fault →
      Fails inv file (.load fault)) ∧
    (∀ m, (Manifest.load (.ofText inv.config) file).2 = .ok m →
      (∀ name, (∀ c ∈ m.components, c.name ≠ name) →
        Fails { inv with component := some name } file
          (.unknownComponent name)) ∧
      ∃ full : List Rendered,
        List.Forall₂ (fun c r => r.name = c.name ∧ c.args = .ok r.args)
          m.components full ∧
        (rendered { inv with component := none } file).2 = .ok full ∧
        PutsOut { inv with component := none } file (render inv.format full) ∧
        (∀ c ∈ m.components, ∃ r,
          full.filter (·.name = c.name) = [r] ∧
          (rendered { inv with component := some c.name } file).2 = .ok [r] ∧
          PutsOut { inv with component := some c.name } file
            (render inv.format [r])) ∧
        ∃ texts : List String,
          List.Forall₂
            (fun c text =>
              PutsOut { inv with component := some c.name, format := .lines }
                file text)
            m.components texts ∧
          PutsOut { inv with component := none, format := .lines } file
            (String.intercalate "\n" texts)) := by
  constructor
  · intro fault hload
    exact fails_of_rendered (rendered_of_load_error hload)
  · intro m hload
    obtain ⟨full, hfull⟩ := Manifest.exists_shownBy_of_validate
      (Manifest.validate_of_load hload)
    refine ⟨?_, full, hfull, rendered_none inv hload hfull, ?_, ?_, ?_⟩
    · intro name hname
      exact fails_of_rendered
        (rendered_of_select_error hload (Manifest.select_eq_error hname))
    · exact putsOut_of_rendered (rendered_none inv hload hfull)
    · intro c hc
      obtain ⟨r, hfilter, hrendered⟩ := exists_rendered_name inv hload hfull hc
      exact ⟨r, hfilter, hrendered, putsOut_of_rendered hrendered⟩
    · refine ⟨full.map fun r => render .lines [r], ?_, ?_⟩
      · rw [List.forall₂_map_right_iff]
        have hmem := (List.forall₂_and_left m.components full).mpr
          ⟨fun _ hc => hc, hfull⟩
        refine hmem.imp ?_
        rintro c r ⟨hc, hcr⟩
        exact putsOut_of_rendered
          (rendered_name { inv with format := .lines } hload hc hcr)
      · rw [← render_lines]
        exact putsOut_of_rendered
          (rendered_none { inv with format := .lines } hload hfull)

/-- A run puts out one text. -/
theorem PutsOut.unique
    {inv : Invocation} {text text' : String} (h : PutsOut inv file text)
    (h' : PutsOut inv file text') :
    text = text' := by
  obtain ⟨notes, hevents⟩ := h
  obtain ⟨notes', hevents'⟩ := h'
  rw [hevents] at hevents'
  have hlast := (List.append_inj' hevents' rfl).2
  exact (Event.output.inj (List.cons.inj hlast).1).2

/-- What is rendered comes from a manifest that loads. -/
theorem exists_load_of_rendered
    {inv : Invocation} {file : FileContent} {rs : List Rendered}
    (h : (rendered inv file).2.toOption = some rs) :
    ∃ m, (Manifest.load (.ofText inv.config) file).2 = .ok m := by
  cases hload : (Manifest.load (.ofText inv.config) file).2 with
  | ok m => exact ⟨m, rfl⟩
  | error fault =>
      rw [rendered_of_load_error hload] at h
      cases h

/-- A manifest file with a query and a cache. -/
def queryAndCache : FileContent :=
  .bytes (Utf8.encode
    ("components:\n- name: query\n  kind: thanos_query\n" ++
      "- name: cache\n  kind: memcached\n  options:\n    verbose: true\n").toList)

/-- Asks for the lines of all components in a manifest, or of one. -/
def linesFor (component : Option String) : Invocation :=
  ⟨"manifest.yaml", component, .lines, none⟩

/-- The full run, runs for its components, one for a component that is not
there, and one without the file. -/
theorem run_is_all_or_nothing_query :
    (Manifest.load (.ofText "manifest.yaml") (.missing "no such file")).2 =
      .error (.notOpened (.ofText "manifest.yaml") "no such file") ∧
    Fails (linesFor none) (.missing "no such file")
      (.load (.notOpened (.ofText "manifest.yaml") "no such file")) ∧
    (∃ m, (Manifest.load (.ofText "manifest.yaml") queryAndCache).2 = .ok m ∧
      m.components.map (·.name) = ["query", "cache"]) ∧
    Fails (linesFor (some "store")) queryAndCache (.unknownComponent "store") ∧
    PutsOut (linesFor none) queryAndCache "query\n\n-v\n" ∧
    PutsOut (linesFor (some "cache")) queryAndCache "-v\n" ∧
    ∃ texts : List String,
      List.Forall₂
        (fun name text => PutsOut (linesFor (some name)) queryAndCache text)
        ["query", "cache"] texts ∧
      String.intercalate "\n" texts = "query\n\n-v\n" := by
  have hmissing : (Manifest.load (.ofText "manifest.yaml")
      (.missing "no such file")).2 =
        .error (.notOpened (.ofText "manifest.yaml") "no such file") := rfl
  have hrendered : (rendered (linesFor none) queryAndCache).2.toOption =
      some [⟨"query", ["query"]⟩, ⟨"cache", ["-v"]⟩] := by
    decide +kernel
  obtain ⟨m, hload⟩ := exists_load_of_rendered hrendered
  obtain ⟨hunknown, full, hshown, hfull, hall, hone, texts, htexts, hjoined⟩ :=
    (run_is_all_or_nothing (linesFor none) queryAndCache).2 m hload
  obtain rfl : full = [⟨"query", ["query"]⟩, ⟨"cache", ["-v"]⟩] := by
    have hsome := congrArg Except.toOption hfull
    exact Option.some.inj (hsome.symm.trans hrendered)
  have hnames : m.components.map (·.name) = ["query", "cache"] :=
    (Configuration.map_name_of_shownBy hshown).symm
  have hcache : "cache" ∈ m.components.map (·.name) := by
    rw [hnames]
    decide
  obtain ⟨c, hc, hname⟩ := List.mem_map.mp hcache
  obtain ⟨r, hfilter, -, hputs⟩ := hone c hc
  rw [hname] at hfilter hputs
  obtain rfl : ⟨"cache", ["-v"]⟩ = r := (List.cons.inj hfilter).1
  refine ⟨hmissing, ?_, ⟨m, hload, hnames⟩, ?_, hall, hputs, texts, ?_, ?_⟩
  · exact (run_is_all_or_nothing (linesFor none) (.missing "no such file")).1 _
      hmissing
  · apply hunknown
    intro d hd heq
    have hstore : d.name ∈ m.components.map (·.name) := List.mem_map_of_mem hd
    rw [hnames, heq] at hstore
    exact absurd hstore (by decide)
  · rw [← hnames, List.forall₂_map_left_iff]
    exact htexts
  · exact hjoined.unique hall

end Run

end ContainerArgs
