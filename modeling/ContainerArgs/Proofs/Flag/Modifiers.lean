import ContainerArgs.Proofs.Flag.Precedence
import ContainerArgs.Proofs.Flag.Visibility
import ContainerArgs.Proofs.Text.Split

/-!
# What modifiers do

Of a tag, encoding asks for the name and for whether two of the modifiers are
there; their order, repetitions and other modifiers do not matter. The modifier
`noval` concerns boolean leaves alone. This module compares renderings of one
value under two tags, first as a whole and then argument by argument, each
argument with the leaf that it comes from.
-/

namespace ContainerArgs.Flag

/-! ## Tags that say the same -/

namespace Tag

/-- The parts of a raw tag between its commas. -/
def parts (raw : String) : List String :=
  (raw.toList.splitOn ',').map String.ofList

/-- The text of a raw tag before its first comma. -/
def beforeComma (raw : String) : String :=
  String.ofList (raw.toList.takeWhile (· ≠ ','))

/-- Two raw tags are alike when they agree before the first comma and on which
of the two modifiers with a meaning are among the parts after it. -/
structure Alike (raw raw' : String) : Prop where
  beforeComma : beforeComma raw = Tag.beforeComma raw'
  noval : "noval" ∈ (parts raw).tail ↔ "noval" ∈ (parts raw').tail
  singleHyphen :
    "single-hyphen" ∈ (parts raw).tail ↔ "single-hyphen" ∈ (parts raw').tail

theorem parts_eq_parse (raw : String) :
    parts raw = (parse raw).name :: (parse raw).modifiers := by
  rw [parts, Text.splitOn_eq_split, List.map_cons]
  rfl

theorem beforeComma_eq_parse (raw : String) :
    beforeComma raw = (parse raw).name := by
  rw [beforeComma, Text.takeWhile_eq_split]
  rfl

theorem has_parse_iff (raw modifier : String) :
    (parse raw).has modifier = true ↔ modifier ∈ (parts raw).tail := by
  rw [parts_eq_parse, has, List.contains_iff_mem, List.tail_cons]

namespace Alike

variable {raw raw' : String}

theorem name_parse (h : Alike raw raw') :
    (parse raw).name = (parse raw').name := by
  rw [← beforeComma_eq_parse, ← beforeComma_eq_parse, h.beforeComma]

theorem noval_parse (h : Alike raw raw') :
    (parse raw).noval = (parse raw').noval := by
  rw [Bool.eq_iff_iff, Tag.noval, Tag.noval, has_parse_iff, has_parse_iff]
  exact h.noval

theorem hyphens_parse (h : Alike raw raw') :
    (parse raw).hyphens = (parse raw').hyphens := by
  have hsingle : (parse raw).singleHyphen = (parse raw').singleHyphen := by
    rw [Bool.eq_iff_iff, Tag.singleHyphen, Tag.singleHyphen, has_parse_iff,
      has_parse_iff]
    exact h.singleHyphen
  rw [hyphens, hyphens, hsingle, h.name_parse]

end Alike

end Tag

/-! ## One value under two tags -/

/-- A relation between renderings is compatible when it holds of what does not
depend on the modifiers of a tag, and of renderings one after another when it
holds of each. -/
structure Rendering.IsCompatible (R : Rendering → Rendering → Prop) : Prop where
  empty : R .empty .empty
  nested (option : String) :
    R (.note (.nestedOptional option)) (.note (.nestedOptional option))
  append {r r' s s' : Rendering} : R r r' → R s s' → R (r ++ s) (r' ++ s')

namespace Value

mutual

/-- The leaves of a value, from left to right. -/
def leaves : Value → List Leaf
  | .leaf l => [l]
  | .list vs => leavesAll vs
  | .absent => []
  | .present v => v.leaves
  | .wrapped _ v => v.leaves

/-- The leaves of several values, one after another. -/
def leavesAll : List Value → List Leaf
  | [] => []
  | v :: vs => v.leaves ++ leavesAll vs

end

theorem mem_leavesAll_iff {l : Leaf} {vs : List Value} :
    l ∈ leavesAll vs ↔ ∃ v ∈ vs, l ∈ v.leaves := by
  induction vs with
  | nil => simp [leavesAll]
  | cons v vs ih => simp [leavesAll, ih]

theorem mem_leaves_of_mem_children
    {v c : Value} {l : Leaf} (hc : c ∈ v.children) (hl : l ∈ c.leaves) :
    l ∈ v.leaves := by
  cases v with
  | leaf m => cases hc
  | list vs =>
      rw [leaves, mem_leavesAll_iff]
      exact ⟨c, hc, hl⟩
  | absent => cases hc
  | present v =>
      obtain rfl := List.mem_singleton.mp hc
      exact hl
  | wrapped w v =>
      obtain rfl := List.mem_singleton.mp hc
      exact hl

theorem renderElements_related
    {R : Rendering → Rendering → Prop} (hR : Rendering.IsCompatible R)
    {t t' : Tag} {vs : List Value}
    (h : ∀ v ∈ vs, R (v.render t .plain) (v.render t' .plain)) :
    R (renderElements t vs) (renderElements t' vs) := by
  induction vs with
  | nil => exact hR.empty
  | cons v vs ih =>
      obtain ⟨hv, hvs⟩ := List.forall_mem_cons.mp h
      exact hR.append hv (ih hvs)

/-- Two tags with the same name give related renderings of a value, in any
position, when they do so for each of its leaves. -/
theorem render_related
    {R : Rendering → Rendering → Prop} (hR : Rendering.IsCompatible R)
    {t t' : Tag} (hname : t.name = t'.name) (v : Value)
    (h : ∀ l ∈ v.leaves, R (l.render t) (l.render t')) (position : Position) :
    R (v.render t position) (v.render t' position) := by
  induction v using induction_children generalizing position with
  | step v ih =>
      have hbelow : ∀ c ∈ v.children, ∀ position,
          R (c.render t position) (c.render t' position) := by
        intro c hc
        apply ih c hc
        intro l hl
        exact h l (mem_leaves_of_mem_children hc hl)
      cases v with
      | leaf l =>
          rw [render, render]
          split
          · exact hR.empty
          · exact h l (List.mem_singleton.mpr rfl)
      | list vs =>
          rw [render, render]
          apply renderElements_related hR
          intro v hv
          exact hbelow v hv .plain
      | absent =>
          cases position with
          | pointee =>
              rw [render, render, hname]
              exact hR.nested _
          | _ => simpa only [render] using hR.empty
      | present v =>
          cases position with
          | pointee =>
              rw [render, render, hname]
              exact hR.nested _
          | _ =>
              simpa only [render] using
                hbelow v (List.mem_singleton.mpr rfl) .pointee
      | wrapped w v =>
          rw [render_wrapped, render_wrapped]
          exact hbelow v (List.mem_singleton.mpr rfl) position

end Value

/-! ## Relations between renderings -/

namespace Rendering

theorem isCompatible_eq :
    IsCompatible (· = ·) where
  empty := rfl
  nested _ := rfl
  append hr hs := by rw [hr, hs]

theorem isCompatible_notes_eq :
    IsCompatible fun r s => r.notes = s.notes where
  empty := rfl
  nested _ := rfl
  append hr hs := by rw [notes_append, notes_append, hr, hs]

theorem isCompatible_no_bare :
    IsCompatible fun r _ => .bare ∉ r.arguments where
  empty := List.not_mem_nil
  nested _ := List.not_mem_nil
  append hr hs := by
    rw [arguments_append, List.mem_append]
    exact fun h => h.elim hr hs

end Rendering

namespace Leaf

theorem notes_congr {t t' : Tag} (hname : t.name = t'.name) (l : Leaf) :
    l.notes t = l.notes t' := by
  cases l with
  | unsupported kind => rw [notes, notes, hname]
  | _ => rfl

theorem arguments_of_not_bool
    {l : Leaf} (h : ∀ b, l ≠ .bool b) (t t' : Tag) :
    l.arguments t = l.arguments t' := by
  cases l with
  | bool b => exact absurd rfl (h b)
  | _ => rfl

theorem arguments_congr {t t' : Tag} (hnoval : t.noval = t'.noval) (l : Leaf) :
    l.arguments t = l.arguments t' := by
  rw [arguments_eq_toList, arguments_eq_toList, hnoval]

theorem bare_not_mem_arguments {t : Tag} (h : t.noval = false) (l : Leaf) :
    .bare ∉ l.arguments t := by
  cases l with
  | bool b => simp [arguments, h]
  | _ => simp [arguments]

end Leaf

namespace Value

/-- Rendering asks a tag for nothing but its name and whether it has
`noval`. -/
theorem render_congr
    {t t' : Tag} (hname : t.name = t'.name) (hnoval : t.noval = t'.noval)
    (v : Value) (position : Position) :
    v.render t position = v.render t' position := by
  apply render_related Rendering.isCompatible_eq hname
  intro l _
  rw [Leaf.render, Leaf.render, l.arguments_congr hnoval, l.notes_congr hname]

theorem render_of_no_bool
    {t t' : Tag} (hname : t.name = t'.name) {v : Value}
    (h : ∀ b, .bool b ∉ v.leaves) (position : Position) :
    v.render t position = v.render t' position := by
  apply render_related Rendering.isCompatible_eq hname
  intro l hl
  have hbool : ∀ b, l ≠ .bool b := by
    rintro b rfl
    exact h b hl
  rw [Leaf.render, Leaf.render, Leaf.arguments_of_not_bool hbool t t',
    l.notes_congr hname]

theorem notes_render_congr
    {t t' : Tag} (hname : t.name = t'.name) (v : Value) (position : Position) :
    (v.render t position).notes = (v.render t' position).notes := by
  apply render_related Rendering.isCompatible_notes_eq hname
  intro l _
  exact l.notes_congr hname

theorem bare_not_mem_arguments_render
    {t : Tag} (h : t.noval = false) (v : Value) (position : Position) :
    .bare ∉ (v.render t position).arguments := by
  apply render_related Rendering.isCompatible_no_bare (rfl : t.name = t.name)
  intro l _
  exact l.bare_not_mem_arguments h

/-! ## Arguments with their origins -/

/-- The leaf at the end of a path. -/
def leafAt? (path : List Value) : Option Leaf :=
  match path.getLast? with
  | some (.leaf l) => some l
  | _ => none

/-- The arguments of a value from left to right, each with the path to the leaf
that it comes from. -/
def origins (tag : Tag) (v : Value) : List (List Value × Argument) :=
  v.paths.filterMap fun path => (argumentAt? tag path).map (path, ·)

/-- What becomes of an argument when the option no longer takes values: that of
a true boolean is bare, that of a false one is left out, any other is kept. -/
def withoutValue (origin : List Value × Argument) :
    Option (List Value × Argument) :=
  match leafAt? origin.1 with
  | some (.bool true) => some (origin.1, .bare)
  | some (.bool false) => none
  | _ => some origin

theorem render_plain_eq_visible (tag : Tag) (v : Value) :
    v.render tag .plain = visible tag [] v := by
  have hreached : IsReached [] := by simp [IsReached]
  have hplain : ¬IsContent [] := by simp [IsContent, holder?]
  have hrender := render_eq_visible tag hreached v fun h => (hplain h).elim
  rwa [positionBelow, if_neg hplain] at hrender

theorem map_snd_origins (tag : Tag) (v : Value) :
    (v.origins tag).map Prod.snd = (v.render tag .plain).arguments := by
  rw [render_plain_eq_visible, origins, List.map_filterMap]
  simp only [visible, yieldBelow, List.nil_append, Option.map_map]
  congr 1
  funext path
  exact Option.map_id'

theorem argumentAt?_of_leafAt?
    (tag : Tag) {path : List Value} {l : Leaf} (h : leafAt? path = some l) :
    argumentAt? tag path =
      if IsVisible path.dropLast l then l.argument? tag.noval else none := by
  rw [leafAt?] at h
  split at h
  next m hlast =>
    obtain rfl := Option.some.inj h
    rw [argumentAt?, hlast]
  next => cases h

theorem argumentAt?_of_leafAt?_eq_none
    (tag : Tag) {path : List Value} (h : leafAt? path = none) :
    argumentAt? tag path = none := by
  rw [leafAt?] at h
  split at h
  next => cases h
  next hlast =>
    rw [argumentAt?]
    split
    next l hleaf => exact absurd hleaf (hlast l)
    next => rfl

/-- The argument of a leaf without and with `noval`. -/
theorem withoutValue_argument?
    {path : List Value} {l : Leaf} (h : leafAt? path = some l) :
    ((l.argument? false).map (path, ·)).bind withoutValue =
      (l.argument? true).map (path, ·) := by
  cases l with
  | bool b => cases b <;> simp [Leaf.argument?, withoutValue, h]
  | renderable r =>
      obtain ⟨text⟩ := r
      cases text <;> simp [Leaf.argument?, withoutValue, h]
  | _ => simp [Leaf.argument?, withoutValue, h]

theorem origins_of_noval
    {t t' : Tag} (h : t.noval = false) (h' : t'.noval = true) (v : Value) :
    v.origins t' = (v.origins t).filterMap withoutValue := by
  rw [origins, origins, List.filterMap_filterMap]
  congr 1
  funext path
  cases hleaf : leafAt? path with
  | none =>
      rw [argumentAt?_of_leafAt?_eq_none t hleaf,
        argumentAt?_of_leafAt?_eq_none t' hleaf]
      rfl
  | some l =>
      rw [argumentAt?_of_leafAt? t hleaf, argumentAt?_of_leafAt? t' hleaf, h, h']
      split
      · exact (withoutValue_argument? hleaf).symm
      · rfl

/-- An argument comes from a leaf of the value, and from a false boolean only
where that is the direct content of a present optional value. -/
theorem exists_leafAt?_of_mem_origins
    {tag : Tag} {v : Value} {origin : List Value × Argument}
    (h : origin ∈ v.origins tag) :
    v.IsPath origin.1 ∧ ∃ l, leafAt? origin.1 = some l ∧
      l.argument? tag.noval = some origin.2 ∧
      (l = .bool false → IsContent origin.1.dropLast) := by
  obtain ⟨path, hpath, hsome⟩ := List.mem_filterMap.mp h
  obtain ⟨a, harg, rfl⟩ := Option.map_eq_some_iff.mp hsome
  refine ⟨(mem_paths_iff v path).mp hpath, ?_⟩
  cases hleaf : leafAt? path with
  | none =>
      rw [argumentAt?_of_leafAt?_eq_none tag hleaf] at harg
      cases harg
  | some l =>
      rw [argumentAt?_of_leafAt? tag hleaf] at harg
      split at harg
      next hvisible =>
        refine ⟨l, rfl, harg, ?_⟩
        rintro rfl
        obtain hzero | hcontent := hvisible.2
        · cases hzero
        · exact hcontent
      next => cases harg

end Value

/-! ## Records under tags that say the same -/

namespace Field

/-- Two fields are alike when they differ at most in tags that are alike. -/
structure Alike (f g : Field) : Prop where
  ident : f.ident = g.ident
  tag : Option.Rel Tag.Alike f.tag g.tag
  exported : f.exported = g.exported
  value : f.value = g.value

theorem renderUnder_of_alike
    {raw raw' : String} (h : Tag.Alike raw raw') (f g : Field)
    (hvalue : f.value = g.value) :
    f.renderUnder (Tag.parse raw) = g.renderUnder (Tag.parse raw') := by
  have hrender : f.value.render (Tag.parse raw) .plain =
      g.value.render (Tag.parse raw') .plain := by
    rw [hvalue]
    exact g.value.render_congr h.name_parse h.noval_parse .plain
  rw [renderUnder, renderUnder, hrender, h.name_parse, h.hyphens_parse]

theorem outcome_of_alike {f g : Field} (h : f.Alike g) (claimed : List String) :
    f.outcome claimed = g.outcome claimed := by
  obtain ⟨fident, ftag, fexported, fvalue⟩ := f
  obtain ⟨gident, gtag, gexported, gvalue⟩ := g
  obtain ⟨rfl, htag, rfl, rfl⟩ := h
  cases htag with
  | none => rfl
  | @some raw raw' halike =>
      have hunder := renderUnder_of_alike halike
        ⟨fident, some raw, fexported, fvalue⟩
        ⟨fident, some raw', fexported, fvalue⟩ rfl
      simp only [outcome, halike.name_parse, hunder]

end Field

/-- Modifiers act as documented. Replacing tags by tags that are alike changes
nothing about the encoding of a record. Rendering a value asks a tag for nothing
but its name and whether it has `noval`. Every argument comes from a leaf, and
`noval` makes bare the arguments that come from true booleans and leaves out
those that come from false ones, which are the direct contents of present
optional values; it keeps all other arguments, their order and the notes. So a
value without boolean leaves is rendered in one way under all tags with one
name, and without `noval` no argument is bare. -/
theorem modifiers_act_as_documented :
    (∀ (fs gs : List Field) (extra : List String),
        List.Forall₂ Field.Alike fs gs →
          Record.encode ⟨fs, extra⟩ = Record.encode ⟨gs, extra⟩) ∧
      (∀ (t t' : Tag) (v : Value) (position : Position), t.name = t'.name →
        ((v.render t position).notes = (v.render t' position).notes) ∧
          (t.noval = t'.noval → v.render t position = v.render t' position) ∧
          ((∀ b, .bool b ∉ v.leaves) →
            v.render t position = v.render t' position)) ∧
      (∀ (t : Tag) (v : Value),
        (v.origins t).map Prod.snd = (v.render t .plain).arguments ∧
          ∀ origin ∈ v.origins t, v.IsPath origin.1 ∧
            ∃ l, Value.leafAt? origin.1 = some l ∧
              l.argument? t.noval = some origin.2 ∧
              (l = .bool false → Value.IsContent origin.1.dropLast)) ∧
      (∀ (t t' : Tag) (v : Value), t.noval = false → t'.noval = true →
        v.origins t' = (v.origins t).filterMap Value.withoutValue) ∧
      (∀ (t : Tag) (v : Value) (position : Position), t.noval = false →
        .bare ∉ (v.render t position).arguments) := by
  refine ⟨?_, ?_, ?_, ?_, ?_⟩
  · intro fs gs extra h
    rw [Record.encode, Record.encode, outcomes_of_forall₂ Field.outcome_of_alike h]
  · intro t t' v position hname
    refine ⟨v.notes_render_congr hname position, ?_, ?_⟩
    · intro hnoval
      exact v.render_congr hname hnoval position
    · intro hbool
      exact Value.render_of_no_bool hname hbool position
  · intro t v
    refine ⟨v.map_snd_origins t, ?_⟩
    intro origin horigin
    exact Value.exists_leafAt?_of_mem_origins horigin
  · intro t t' v h h'
    exact v.origins_of_noval h h'
  · intro t v position h
    exact v.bare_not_mem_arguments_render h position

/-- Repeated and unknown modifiers do not show, and `noval` concerns only the
boolean leaves of a list. -/
theorem modifiers_act_as_documented_flags :
    let flags : Value := .list
      [.leaf (.bool true), .present (.wrapped .boxed (.leaf (.bool false))),
        .leaf (.text "true"), .leaf (.bool false)]
    let plain : List Field :=
      [.tagged "flags" "flags,noval" flags, .tagged "level" "level" flags]
    let odd : List Field :=
      [.tagged "flags" "flags,hidden, noval,noval,,noval" flags,
        .tagged "level" "level,NOVAL" flags]
    List.Forall₂ Field.Alike plain odd ∧
      Record.encode ⟨plain, []⟩ = Record.encode ⟨odd, []⟩ ∧
      (Tag.parse "level").noval = false ∧ (Tag.parse "level,noval").noval = true ∧
      flags.origins (Tag.parse "level,noval") =
        (flags.origins (Tag.parse "level")).filterMap Value.withoutValue ∧
      (flags.render (Tag.parse "level,noval") .plain).arguments =
        [.bare, .valued "true"] := by
  intro flags plain odd
  have halike : List.Forall₂ Field.Alike plain odd := by
    refine .cons ⟨rfl, .some ?_, rfl, rfl⟩ (.cons ⟨rfl, .some ?_, rfl, rfl⟩ .nil)
    · constructor <;> decide +kernel
    · constructor <;> decide +kernel
  have hplain : (Tag.parse "level").noval = false := by decide +kernel
  have hnoval : (Tag.parse "level,noval").noval = true := by decide +kernel
  refine ⟨halike, modifiers_act_as_documented.1 plain odd [] halike, hplain,
    hnoval, ?_, by decide +kernel⟩
  exact modifiers_act_as_documented.2.2.2.1 _ _ flags hplain hnoval

end ContainerArgs.Flag
