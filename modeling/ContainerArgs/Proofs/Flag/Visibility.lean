import ContainerArgs.Flag.Render
import Mathlib.Data.List.Basic

/-!
# What is visible of a value

Rendering descends through a tree of values and switches between positions on
the way.  This module says what comes out in terms of paths from the root: which
leaves are visible depends only on the values above them, and so do the notes.
-/

namespace ContainerArgs.Flag

/-- The argument of a visible leaf: its text, except that a boolean of an option
without values is the bare option or nothing, and that unset and unsupported
values have no text. -/
def Leaf.argument? (noval : Bool) : Leaf → Option Argument
  | .text s => some (.valued s)
  | .path p => some (.valued p.text)
  | .bool b =>
    if noval then (if b then some .bare else none)
    else some (.valued (if b then "true" else "false"))
  | .int n => some (.valued (Number.intText n))
  | .float x => some (.valued x.text)
  | .shown s => some (.valued s)
  | .duration d => some (.valued d.clockText)
  | .retention r => some (.valued r.text)
  | .renderable ⟨none⟩ => none
  | .renderable ⟨some s⟩ => some (.valued s)
  | .unsupported _ => none

theorem Leaf.arguments_eq_toList (tag : Tag) (l : Leaf) :
    l.arguments tag = (l.argument? tag.noval).toList := by
  cases l with
  | bool b =>
      simp only [arguments, argument?]
      cases tag.noval <;> cases b <;> rfl
  | renderable r =>
      obtain ⟨text⟩ := r
      cases text <;> rfl
  | _ => rfl

namespace Value

/-! ## Paths -/

/-- The values directly inside a value. -/
def children : Value → List Value
  | .list vs => vs
  | .present v => [v]
  | .wrapped _ v => [v]
  | _ => []

theorem induction_children
    {motive : Value → Prop}
    (step : ∀ v, (∀ c ∈ v.children, motive c) → motive v) (v : Value) :
    motive v := by
  refine Value.rec (motive_1 := motive)
    (motive_2 := fun vs => ∀ c ∈ vs, motive c) ?_ ?_ ?_ ?_ ?_ ?_ ?_ v
  · exact fun l => step _ (by simp [children])
  · exact fun vs ih => step _ (by simpa [children] using ih)
  · exact step _ (by simp [children])
  · exact fun v ih => step _ (by simpa [children] using ih)
  · exact fun w v ih => step _ (by simpa [children] using ih)
  · simp
  · intro v vs hv hvs
    simpa using ⟨hv, hvs⟩

mutual

/-- The paths from a value to itself and to everything inside it, from left to
right.  A path is the values on the way, with both ends. -/
def paths : Value → List (List Value)
  | .leaf l => [[.leaf l]]
  | .list vs => [.list vs] :: (pathsAll vs).map (.list vs :: ·)
  | .absent => [[.absent]]
  | .present v => [.present v] :: v.paths.map (.present v :: ·)
  | .wrapped w v => [.wrapped w v] :: v.paths.map (.wrapped w v :: ·)

/-- The paths of several values, one after another. -/
def pathsAll : List Value → List (List Value)
  | [] => []
  | v :: vs => v.paths ++ pathsAll vs

end

theorem pathsAll_eq_flatMap (vs : List Value) :
    pathsAll vs = vs.flatMap paths := by
  induction vs with
  | nil => rfl
  | cons v vs ih => rw [pathsAll, ih, List.flatMap_cons]

theorem paths_eq (v : Value) :
    v.paths = [v] :: (v.children.flatMap paths).map (v :: ·) := by
  cases v with
  | list vs => rw [paths, pathsAll_eq_flatMap, children]
  | _ => simp [paths, children]

/-- A path leads from a value through values each directly inside the one
before. -/
def IsPath (v : Value) (path : List Value) : Prop :=
  path.head? = some v ∧ path.IsChain fun a b => b ∈ a.children

theorem isPath_iff (v : Value) (path : List Value) :
    v.IsPath path ↔ path = [v] ∨
      ∃ c ∈ v.children, ∃ tail, c.IsPath tail ∧ path = v :: tail := by
  constructor
  · rintro ⟨hhead, hchain⟩
    obtain ⟨tail, rfl⟩ := List.head?_eq_some_iff.mp hhead
    cases tail with
    | nil => exact Or.inl rfl
    | cons c tail =>
        obtain ⟨hc, htail⟩ := List.isChain_cons_cons.mp hchain
        exact Or.inr ⟨c, hc, c :: tail, ⟨rfl, htail⟩, rfl⟩
  · rintro (rfl | ⟨c, hc, tail, ⟨hhead, hchain⟩, rfl⟩)
    · exact ⟨rfl, .singleton v⟩
    · obtain ⟨tail, rfl⟩ := List.head?_eq_some_iff.mp hhead
      exact ⟨rfl, List.isChain_cons_cons.mpr ⟨hc, hchain⟩⟩

theorem mem_paths_iff (v : Value) (path : List Value) :
    path ∈ v.paths ↔ v.IsPath path := by
  induction v using induction_children generalizing path with
  | step v ih =>
      rw [paths_eq, isPath_iff, List.mem_cons, List.mem_map]
      refine or_congr_right ?_
      constructor
      · rintro ⟨tail, htail, rfl⟩
        obtain ⟨c, hc, hpath⟩ := List.mem_flatMap.mp htail
        exact ⟨c, hc, tail, (ih c hc tail).mp hpath, rfl⟩
      · rintro ⟨c, hc, tail, hpath, rfl⟩
        have htail : tail ∈ v.children.flatMap paths :=
          List.mem_flatMap.mpr ⟨c, hc, (ih c hc tail).mpr hpath⟩
        exact ⟨tail, htail, rfl⟩

/-! ## What the values above decide -/

def isWrapped : Value → Bool
  | .wrapped _ _ => true
  | _ => false

def isPresent : Value → Bool
  | .present _ => true
  | _ => false

/-- Whether a value is optional, wrappers apart. -/
def isOptional : Value → Bool
  | .absent => true
  | .present _ => true
  | .wrapped _ v => v.isOptional
  | _ => false

/-- Whether a value is a present optional value with another optional value,
present or not, as its direct content. -/
def holdsOptional : Value → Bool
  | .present v => v.isOptional
  | _ => false

/-- The nearest of the values above that is not a wrapper. -/
def holder? (above : List Value) : Option Value :=
  above.reverse.find? (!·.isWrapped)

/-- Something is the direct content of a present optional value. -/
def IsContent (above : List Value) : Prop :=
  (holder? above).any isPresent = true

instance (above : List Value) : Decidable (IsContent above) :=
  inferInstanceAs (Decidable (_ = true))

/-- Something is reached when no optional value above it holds another one. -/
def IsReached (above : List Value) : Prop :=
  ∀ a ∈ above, a.holdsOptional = false

instance (above : List Value) : Decidable (IsReached above) :=
  inferInstanceAs (Decidable (∀ a ∈ above, _))

/-- A leaf is visible when it is reached, and not zero or the direct content of
a present optional value. -/
def IsVisible (above : List Value) (l : Leaf) : Prop :=
  IsReached above ∧ (l.isZero = false ∨ IsContent above)

instance (above : List Value) (l : Leaf) : Decidable (IsVisible above l) :=
  inferInstanceAs (Decidable (_ ∧ _))

/-- The argument at the end of a path. -/
def argumentAt? (tag : Tag) (path : List Value) : Option Argument :=
  match path.getLast? with
  | some (.leaf l) =>
    if IsVisible path.dropLast l then l.argument? tag.noval else none
  | _ => none

/-- The note about a value that is reached: a leaf may be unsupported, and an
optional value may hold another one. -/
def note? (tag : Tag) : Value → Option Note
  | .leaf (.unsupported kind) => some (.unsupported tag.name kind)
  | v => if v.holdsOptional then some (.nestedOptional tag.name) else none

/-- The note at the end of a path. -/
def noteAt? (tag : Tag) (path : List Value) : Option Note :=
  match path.getLast? with
  | some v => if IsReached path.dropLast then v.note? tag else none
  | none => none

theorem argumentAt?_leaf (tag : Tag) (above : List Value) (l : Leaf) :
    argumentAt? tag (above ++ [.leaf l]) =
      if IsVisible above l then l.argument? tag.noval else none := by
  simp [argumentAt?]

theorem argumentAt?_of_not_leaf
    (tag : Tag) (above : List Value) {v : Value} (h : ∀ l, v ≠ .leaf l) :
    argumentAt? tag (above ++ [v]) = none := by
  cases v with
  | leaf l => exact (h l rfl).elim
  | _ => simp [argumentAt?]

theorem noteAt?_append (tag : Tag) (above : List Value) (v : Value) :
    noteAt? tag (above ++ [v]) =
      if IsReached above then v.note? tag else none := by
  simp [noteAt?]

/-! ## Reading a tree along its paths -/

/-- What the paths from a value yield, in a place below given values. -/
def yieldBelow {β : Type} (at? : List Value → Option β) (above : List Value)
    (v : Value) : List β :=
  v.paths.filterMap fun path => at? (above ++ path)

theorem yieldBelow_eq {β : Type} (at? : List Value → Option β) (above : List Value)
    (v : Value) :
    yieldBelow at? above v =
      (at? (above ++ [v])).toList ++
        v.children.flatMap (yieldBelow at? (above ++ [v])) := by
  rw [yieldBelow, paths_eq, List.filterMap_cons]
  have hrest : ((v.children.flatMap paths).map (v :: ·)).filterMap
      (fun path => at? (above ++ path)) =
        v.children.flatMap (yieldBelow at? (above ++ [v])) := by
    rw [List.filterMap_map, List.filterMap_flatMap]
    congr 1
    funext c
    simp [yieldBelow]
  rw [hrest]
  cases at? (above ++ [v]) <;> rfl

/-- Nothing comes from below an optional value that holds another one. -/
theorem yieldBelow_eq_nil
    {β : Type} {at? : List Value → Option β}
    (hat : ∀ above v, ¬IsReached above → at? (above ++ [v]) = none)
    {above : List Value} (h : ¬IsReached above) (v : Value) :
    yieldBelow at? above v = [] := by
  induction v using induction_children generalizing above with
  | step v ih =>
      have hmore : ¬IsReached (above ++ [v]) :=
        fun hall => h fun a ha => hall a (List.mem_append_left _ ha)
      rw [yieldBelow_eq, hat above v h]
      simpa using fun c hc => ih c hc hmore

theorem argumentAt?_of_not_reached
    (tag : Tag) (above : List Value) (v : Value) (h : ¬IsReached above) :
    argumentAt? tag (above ++ [v]) = none := by
  cases v with
  | leaf l => rw [argumentAt?_leaf, if_neg fun hvisible => h hvisible.1]
  | _ => exact argumentAt?_of_not_leaf tag above (by simp)

theorem noteAt?_of_not_reached
    (tag : Tag) (above : List Value) (v : Value) (h : ¬IsReached above) :
    noteAt? tag (above ++ [v]) = none := by
  rw [noteAt?_append, if_neg h]

theorem isReached_append {above : List Value} {v : Value} :
    IsReached (above ++ [v]) ↔ IsReached above ∧ v.holdsOptional = false := by
  simp [IsReached, or_imp, forall_and]

theorem isContent_append_present (above : List Value) (v : Value) :
    IsContent (above ++ [.present v]) := by
  simp [IsContent, holder?, isWrapped, isPresent]

theorem not_isContent_append_list (above vs : List Value) :
    ¬IsContent (above ++ [.list vs]) := by
  simp [IsContent, holder?, isWrapped, isPresent]

theorem isContent_append_wrapped (above : List Value) (w : Wrapper) (v : Value) :
    IsContent (above ++ [.wrapped w v]) ↔ IsContent above := by
  simp [IsContent, holder?, isWrapped]

/-! ## Rendering yields what the paths yield -/

theorem renderElements_arguments (tag : Tag) (vs : List Value) :
    (renderElements tag vs).arguments =
      vs.flatMap fun v => (v.render tag .plain).arguments := by
  induction vs with
  | nil => rfl
  | cons v vs ih => simp [renderElements, ih]

theorem renderElements_notes (tag : Tag) (vs : List Value) :
    (renderElements tag vs).notes =
      vs.flatMap fun v => (v.render tag .plain).notes := by
  induction vs with
  | nil => rfl
  | cons v vs ih => simp [renderElements, ih]

/-- As the content of a present optional value, an optional value is noted and
not rendered, and any other value is rendered as if it were asked for. -/
theorem render_pointee (tag : Tag) (v : Value) :
    v.render tag .pointee =
      if v.isOptional then .note (.nestedOptional tag.name)
      else v.render tag .explicit := by
  induction v using induction_children with
  | step v ih =>
      cases v with
      | leaf l => simp [render, isOptional]
      | list vs => simp [render, isOptional]
      | absent => simp [render, isOptional]
      | present v => simp [render, isOptional]
      | wrapped w v =>
          rw [render_wrapped, render_wrapped, isOptional]
          exact ih v (List.mem_singleton.mpr rfl)

/-- The position in which rendering meets what is below given values. -/
def positionBelow (above : List Value) : Position :=
  if IsContent above then .pointee else .plain

/-- What the paths from a value yield together, below given values. -/
def visible (tag : Tag) (above : List Value) (v : Value) : Rendering :=
  ⟨yieldBelow (argumentAt? tag) above v, yieldBelow (noteAt? tag) above v⟩

theorem visible_eq (tag : Tag) (above : List Value) (v : Value) :
    visible tag above v =
      ⟨(argumentAt? tag (above ++ [v])).toList ++
          v.children.flatMap fun c => (visible tag (above ++ [v]) c).arguments,
        (noteAt? tag (above ++ [v])).toList ++
          v.children.flatMap fun c => (visible tag (above ++ [v]) c).notes⟩ := by
  rw [visible, yieldBelow_eq, yieldBelow_eq]
  rfl

theorem visible_of_not_isReached
    (tag : Tag) {above : List Value} (h : ¬IsReached above) (v : Value) :
    visible tag above v = .empty := by
  rw [visible, yieldBelow_eq_nil (argumentAt?_of_not_reached tag) h,
    yieldBelow_eq_nil (noteAt?_of_not_reached tag) h]
  rfl

theorem notes_eq_toList_note? (tag : Tag) (l : Leaf) :
    l.notes tag = ((Value.leaf l).note? tag).toList := by
  cases l <;> rfl

theorem note?_of_isZero (tag : Tag) {l : Leaf} (h : l.isZero = true) :
    (Value.leaf l).note? tag = none := by
  cases l with
  | unsupported kind => simp [Leaf.isZero] at h
  | _ => rfl

theorem render_leaf_eq_visible
    (tag : Tag) {above : List Value} (hreached : IsReached above) (l : Leaf) :
    (Value.leaf l).render tag (positionBelow above) =
      visible tag above (.leaf l) := by
  rw [visible_eq, argumentAt?_leaf, noteAt?_append, if_pos hreached, render]
  by_cases hhidden : l.isZero = true ∧ ¬IsContent above
  · have hplain : positionBelow above = .plain := if_neg hhidden.2
    have hinvisible : ¬IsVisible above l := by
      rintro ⟨-, hzero | hcontent⟩
      · simp [hhidden.1] at hzero
      · exact hhidden.2 hcontent
    rw [if_pos ⟨hplain, hhidden.1⟩, if_neg hinvisible,
      note?_of_isZero tag hhidden.1]
    rfl
  · have hvisible : IsVisible above l := by
      refine ⟨hreached, ?_⟩
      by_cases hzero : l.isZero = true
      · exact Or.inr (by_contra fun hcontent => hhidden ⟨hzero, hcontent⟩)
      · exact Or.inl (Bool.not_eq_true _ ▸ hzero)
    have hshown : ¬(positionBelow above = .plain ∧ l.isZero = true) := by
      rintro ⟨hplain, hzero⟩
      refine hhidden ⟨hzero, fun hcontent => ?_⟩
      rw [positionBelow, if_pos hcontent] at hplain
      cases hplain
    rw [if_neg hshown, if_pos hvisible, Leaf.render, Leaf.arguments_eq_toList,
      notes_eq_toList_note?]
    simp [children]

theorem render_list_eq_visible
    (tag : Tag) {above : List Value} (hreached : IsReached above)
    {vs : List Value}
    (h : ∀ v ∈ vs, v.render tag .plain = visible tag (above ++ [.list vs]) v)
    (position : Position) :
    (Value.list vs).render tag position = visible tag above (.list vs) := by
  have harguments : (renderElements tag vs).arguments =
      vs.flatMap fun v => (visible tag (above ++ [.list vs]) v).arguments := by
    rw [renderElements_arguments]
    exact List.flatMap_congr fun v hv => by rw [h v hv]
  have hnotes : (renderElements tag vs).notes =
      vs.flatMap fun v => (visible tag (above ++ [.list vs]) v).notes := by
    rw [renderElements_notes]
    exact List.flatMap_congr fun v hv => by rw [h v hv]
  rw [visible_eq, argumentAt?_of_not_leaf tag above (by simp), noteAt?_append,
    if_pos hreached, render, children, ← harguments, ← hnotes]
  rfl

theorem render_present_eq_visible
    (tag : Tag) {above : List Value} (hreached : IsReached above) {v : Value}
    (h : v.isOptional = false →
      v.render tag .pointee = visible tag (above ++ [.present v]) v) :
    (Value.present v).render tag .plain = visible tag above (.present v) := by
  have hrender : (Value.present v).render tag .plain =
      v.render tag .pointee := by
    rw [render]
    simp
  rw [visible_eq, argumentAt?_of_not_leaf tag above (by simp), noteAt?_append,
    if_pos hreached, hrender]
  by_cases hoptional : v.isOptional = true
  · have hmore : ¬IsReached (above ++ [.present v]) := by
      rw [isReached_append]
      simp [holdsOptional, hoptional]
    rw [render_pointee, if_pos hoptional]
    simp [children, visible_of_not_isReached tag hmore, note?, holdsOptional,
      hoptional, Rendering.note, Rendering.empty]
  · rw [h (by simpa using hoptional)]
    simp [children, note?, holdsOptional, hoptional]

theorem render_wrapped_eq_visible
    (tag : Tag) {above : List Value} (hreached : IsReached above)
    {w : Wrapper} {v : Value} {position : Position}
    (h : v.render tag position = visible tag (above ++ [.wrapped w v]) v) :
    (Value.wrapped w v).render tag position =
      visible tag above (.wrapped w v) := by
  rw [render_wrapped, h, visible_eq tag above,
    argumentAt?_of_not_leaf tag above (by simp), noteAt?_append,
    if_pos hreached]
  simp [children, note?, holdsOptional]

/-- Rendering a value in the position that the values above it put it in yields
what its paths yield. -/
theorem render_eq_visible
    (tag : Tag) {above : List Value} (hreached : IsReached above)
    (v : Value) (hfit : IsContent above → v.isOptional = false) :
    v.render tag (positionBelow above) = visible tag above v := by
  induction v using induction_children generalizing above with
  | step v ih =>
      cases v with
      | leaf l => exact render_leaf_eq_visible tag hreached l
      | list vs =>
          have hmore : IsReached (above ++ [.list vs]) :=
            isReached_append.mpr ⟨hreached, rfl⟩
          have hplain := not_isContent_append_list above vs
          refine render_list_eq_visible tag hreached (fun v hv => ?_) _
          have helement := ih v hv hmore fun h => (hplain h).elim
          rwa [positionBelow, if_neg hplain] at helement
      | absent =>
          have hplain : positionBelow above = .plain := if_neg fun h => by
            simpa [isOptional] using hfit h
          rw [visible_eq, argumentAt?_of_not_leaf tag above (by simp),
            noteAt?_append, if_pos hreached, hplain, render]
          · rfl
          · simp
      | present v =>
          have hplain : positionBelow above = .plain := if_neg fun h => by
            simpa [isOptional] using hfit h
          rw [hplain]
          refine render_present_eq_visible tag hreached fun hoptional => ?_
          have hmore : IsReached (above ++ [.present v]) :=
            isReached_append.mpr ⟨hreached, hoptional⟩
          have hv := ih v (by simp [children]) hmore fun _ => hoptional
          rwa [positionBelow, if_pos (isContent_append_present above v)] at hv
      | wrapped w v =>
          have hmore : IsReached (above ++ [.wrapped w v]) :=
            isReached_append.mpr ⟨hreached, rfl⟩
          have hcontent := isContent_append_wrapped above w v
          have hposition : positionBelow (above ++ [.wrapped w v]) =
              positionBelow above := by
            simp only [positionBelow, hcontent]
          refine render_wrapped_eq_visible tag hreached ?_
          rw [← hposition]
          exact ih v (by simp [children]) hmore fun h => hfit (hcontent.mp h)

/-- Rendering a value yields, from left to right along the paths from its root,
the arguments of the visible leaves and the notes about what is reached.  A leaf
is visible when no optional value on its path holds another one and the leaf is
not zero or the direct content of a present optional value. -/
theorem render_eq_paths (tag : Tag) (v : Value) :
    (v.render tag .plain).arguments = v.paths.filterMap (argumentAt? tag) ∧
      (v.render tag .plain).notes = v.paths.filterMap (noteAt? tag) ∧
      ∀ path, path ∈ v.paths ↔ v.IsPath path := by
  have hreached : IsReached [] := by simp [IsReached]
  have hplain : ¬IsContent [] := by simp [IsContent, holder?]
  have hrender := render_eq_visible tag hreached v fun h => (hplain h).elim
  rw [positionBelow, if_neg hplain] at hrender
  refine ⟨?_, ?_, mem_paths_iff v⟩
  · rw [hrender]
    simp [visible, yieldBelow]
  · rw [hrender]
    simp [visible, yieldBelow]

end Value

end ContainerArgs.Flag
