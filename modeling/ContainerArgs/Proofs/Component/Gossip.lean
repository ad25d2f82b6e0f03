import ContainerArgs.Proofs.Component.Checked

/-!
# Gossip turned off

The replicas of the alert manager gossip on a listen address with their peers.
In the command line the two options stand between others, in the order in which
they are declared. Turning gossip off removes the tokens of both, puts an empty
listen address where the listen address is declared, and touches nothing else.
-/

namespace ContainerArgs.Component

open ContainerArgs.Flag Settings

/-- Each token shows one of the options, up to its first equals sign. -/
def Show (options tokens : List String) : Prop :=
  ∀ token ∈ tokens, ∃ option ∈ options,
    tokenStart token = ("--" ++ option).toList

/-- Options whose tags have no modifiers. -/
def ArePlain (options : List String) : Prop :=
  ∀ option ∈ options,
    (Tag.parse option).start = ("--" ++ option).toList ∧
      '=' ∉ (Tag.parse option).name.toList

instance (options : List String) : Decidable (ArePlain options) :=
  inferInstanceAs (Decidable (∀ option ∈ options, _ ∧ _))

theorem show_ownTokens
    {options : List String} (h : ArePlain options) {fs : List Field}
    (hfs : Carry (options.map Tag.parse) fs) :
    Show options (fs.flatMap Field.ownTokens) := by
  intro token htoken
  obtain ⟨f, hf, htoken⟩ := List.mem_flatMap.mp htoken
  obtain ⟨t, ht, hft⟩ := hfs.exists_tag hf
  obtain ⟨option, hoption, rfl⟩ := List.mem_map.mp ht
  obtain ⟨hstart, hplain⟩ := h option hoption
  refine ⟨option, hoption, ?_⟩
  rw [Field.tokenStart_of_mem_ownTokens hft hplain htoken, hstart]

namespace AlertmanagerOptions

/-- A token that configures gossip. -/
def IsGossip (token : String) : Prop :=
  tokenStart token = "--cluster.listen-address".toList ∨
    tokenStart token = "--cluster.peer".toList

instance (token : String) : Decidable (IsGossip token) :=
  inferInstanceAs (Decidable (_ ∨ _))

/-- Tokens cut around those that configure gossip. -/
structure Cut where
  before : List String
  listen : List String
  between : List String
  peers : List String
  after : List String

namespace Cut

/-- The tokens of all pieces. -/
def tokens (c : Cut) : List String :=
  c.before ++ c.listen ++ c.between ++ c.peers ++ c.after

/-- The pieces hold the tokens of the options that are declared there. -/
structure IsDeclared (c : Cut) : Prop where
  before : Show ["config.file", "storage.path", "data.retention",
    "web.listen-address", "web.external-url", "web.route-prefix"] c.before
  listen : Show ["cluster.listen-address"] c.listen
  between : Show ["cluster.advertise-address"] c.between
  peers : Show ["cluster.peer"] c.peers
  after : Show ["log.level", "log.format"] c.after

/-- The tokens without gossip: an empty listen address, and no peers. -/
def withoutGossip (c : Cut) : Cut :=
  { c with listen := ["--cluster.listen-address="], peers := [] }

theorem IsDeclared.withoutGossip {c : Cut} (h : c.IsDeclared) :
    c.withoutGossip.IsDeclared where
  before := h.before
  listen := by
    intro token htoken
    obtain rfl := List.mem_singleton.mp htoken
    exact ⟨_, List.mem_singleton_self _, by decide +kernel⟩
  between := h.between
  peers := fun _ htoken => absurd htoken List.not_mem_nil
  after := h.after

end Cut

theorem not_isGossip_of_show
    {options tokens : List String} (h : Show options tokens)
    (hlisten : "cluster.listen-address" ∉ options)
    (hpeer : "cluster.peer" ∉ options) :
    ∀ token ∈ tokens, ¬ IsGossip token := by
  intro token htoken hgossip
  obtain ⟨option, hoption, hstart⟩ := h token htoken
  have hinj : ∀ name : String,
      ("--" ++ option).toList = ("--" ++ name).toList → option = name := by
    intro name heq
    exact String.append_right_inj "--" |>.mp (String.toList_inj.mp heq)
  rcases hgossip with heq | heq
  · obtain rfl := hinj "cluster.listen-address" (hstart.symm.trans heq)
    exact hlisten hoption
  · obtain rfl := hinj "cluster.peer" (hstart.symm.trans heq)
    exact hpeer hoption

theorem filter_of_isGossip
    {tokens : List String} (h : ∀ token ∈ tokens, IsGossip token) :
    tokens.filter (IsGossip ·) = tokens ∧
      tokens.filter (¬ IsGossip ·) = [] := by
  constructor
  · rw [List.filter_eq_self]
    intro token htoken
    exact decide_eq_true (h token htoken)
  · rw [List.filter_eq_nil_iff]
    intro token htoken
    simpa using h token htoken

theorem filter_of_not_isGossip
    {tokens : List String} (h : ∀ token ∈ tokens, ¬ IsGossip token) :
    tokens.filter (IsGossip ·) = [] ∧
      tokens.filter (¬ IsGossip ·) = tokens := by
  constructor
  · rw [List.filter_eq_nil_iff]
    intro token htoken
    simpa using h token htoken
  · rw [List.filter_eq_self]
    intro token htoken
    exact decide_eq_true (h token htoken)

namespace Cut

variable {c : Cut}

theorem IsDeclared.isGossip (h : c.IsDeclared) :
    (∀ token ∈ c.listen, IsGossip token) ∧
      ∀ token ∈ c.peers, IsGossip token := by
  constructor
  · intro token htoken
    obtain ⟨option, hoption, hstart⟩ := h.listen token htoken
    obtain rfl := List.mem_singleton.mp hoption
    exact .inl hstart
  · intro token htoken
    obtain ⟨option, hoption, hstart⟩ := h.peers token htoken
    obtain rfl := List.mem_singleton.mp hoption
    exact .inr hstart

theorem IsDeclared.not_isGossip (h : c.IsDeclared) :
    (∀ token ∈ c.before, ¬ IsGossip token) ∧
      (∀ token ∈ c.between, ¬ IsGossip token) ∧
      ∀ token ∈ c.after, ¬ IsGossip token := by
  refine ⟨?_, ?_, ?_⟩
  · exact not_isGossip_of_show h.before (by decide) (by decide)
  · exact not_isGossip_of_show h.between (by decide) (by decide)
  · exact not_isGossip_of_show h.after (by decide) (by decide)

/-- The tokens that configure gossip are those of its two options. -/
theorem IsDeclared.filter_isGossip (h : c.IsDeclared) :
    c.tokens.filter (IsGossip ·) = c.listen ++ c.peers ∧
      c.tokens.filter (¬ IsGossip ·) = c.before ++ c.between ++ c.after := by
  obtain ⟨hlisten, hlisten'⟩ := filter_of_isGossip h.isGossip.1
  obtain ⟨hpeers, hpeers'⟩ := filter_of_isGossip h.isGossip.2
  obtain ⟨hbefore, hbefore'⟩ := filter_of_not_isGossip h.not_isGossip.1
  obtain ⟨hbetween, hbetween'⟩ := filter_of_not_isGossip h.not_isGossip.2.1
  obtain ⟨hafter, hafter'⟩ := filter_of_not_isGossip h.not_isGossip.2.2
  constructor
  · simp only [tokens, List.filter_append, hbefore, hlisten, hbetween, hpeers,
      hafter, List.nil_append, List.append_nil]
  · simp only [tokens, List.filter_append, hbefore', hlisten', hbetween',
      hpeers', hafter', List.append_nil]

end Cut

/-- The tokens of the options, cut by the places of their fields. -/
def cut (o : AlertmanagerOptions) : Cut where
  before := o.fieldsBefore.flatMap Field.ownTokens
  listen := (o.listenField.orElse o.listenRawField).ownTokens
  between := (o.fieldsAfter.take 1).flatMap Field.ownTokens
  peers := ((o.fieldsAfter.drop 1).take 1).flatMap Field.ownTokens
  after := (o.fieldsAfter.drop 2).flatMap Field.ownTokens

theorem walkedTag?_listen (o : AlertmanagerOptions) :
    (o.listenField.orElse o.listenRawField).walkedTag? =
      some (Tag.parse "cluster.listen-address") :=
  Field.walkedTag?_orElse rfl rfl

theorem isDeclared_cut (o : AlertmanagerOptions) : o.cut.IsDeclared where
  before := show_ownTokens (by decide +kernel) rfl
  listen := by
    have hlisten : Carry (["cluster.listen-address"].map Tag.parse)
        [o.listenField.orElse o.listenRawField] := by
      rw [Carry, List.map_singleton, walkedTag?_listen]
      rfl
    have hshow := show_ownTokens (by decide +kernel) hlisten
    rwa [List.flatMap_singleton] at hshow
  between := show_ownTokens (by decide +kernel) rfl
  peers := show_ownTokens (by decide +kernel) rfl
  after := show_ownTokens (by decide +kernel) rfl

theorem fieldTokens_eq_tokens_cut (o : AlertmanagerOptions) :
    (alertmanager.record o).fieldTokens = o.cut.tokens := by
  have hafter : o.fieldsAfter =
      o.fieldsAfter.take 1 ++ (o.fieldsAfter.drop 1).take 1 ++
        o.fieldsAfter.drop 2 := rfl
  rw [standFor_mergedFields.fieldTokens_eq, mergedFields, hafter]
  simp only [List.flatMap_append, List.flatMap_cons, Cut.tokens, cut,
    List.append_assoc]

/-- Turning gossip off shows in the pieces of gossip only. The listen address
is unset, so it is the empty text beside it that counts; and the text is set, so
it is rendered although it is empty. -/
theorem cut_disableClustering (o : AlertmanagerOptions) :
    o.disableClustering.cut = o.cut.withoutGossip := by
  have hlisten : (o.disableClustering.listenField.orElse
      o.disableClustering.listenRawField).ownTokens =
        ["--cluster.listen-address="] := by
    have htext : o.disableClustering.listenText = some "" := rfl
    rw [Field.ownTokens_of_walkedTag? (walkedTag?_listen _), ownArguments_listen,
      htext]
    decide +kernel
  have hpeers : ((o.disableClustering.fieldsAfter.drop 1).take 1).flatMap
      Field.ownTokens = [] := rfl
  rw [cut, hlisten, hpeers]
  rfl

/-- Turning gossip off edits just its options. The tokens of the fields are
those of the listen address and of the peers, with others before, between and
after them by the order in which the options are declared. Afterwards the
listen address is the one token that sets it to nothing, there is no peer, and
all else is the same: the other tokens, in place, the extra tokens, and what the
check says. Doing it twice is doing it once. -/
theorem disableClustering_edits_gossip (o : AlertmanagerOptions) :
    (∃ c : Cut,
      c.IsDeclared ∧
        (alertmanager.record o).fieldTokens =
          c.before ++ c.listen ++ c.between ++ c.peers ++ c.after ∧
        (alertmanager.record o.disableClustering).fieldTokens =
          c.before ++ ["--cluster.listen-address="] ++ c.between ++ c.after) ∧
    (alertmanager.record o.disableClustering).fieldTokens.filter (¬ IsGossip ·) =
      (alertmanager.record o).fieldTokens.filter (¬ IsGossip ·) ∧
    (alertmanager.record o.disableClustering).fieldTokens.filter (IsGossip ·) =
      ["--cluster.listen-address="] ∧
    (alertmanager.record o.disableClustering).extra =
      (alertmanager.record o).extra ∧
    o.disableClustering.extra = o.extra ∧
    alertmanager.validate o.disableClustering = alertmanager.validate o ∧
    o.disableClustering.disableClustering = o.disableClustering := by
  have hbefore := fieldTokens_eq_tokens_cut o
  have hafter : (alertmanager.record o.disableClustering).fieldTokens =
      o.cut.withoutGossip.tokens := by
    rw [fieldTokens_eq_tokens_cut, cut_disableClustering]
  have hdeclared := o.isDeclared_cut
  refine ⟨⟨o.cut, hdeclared, hbefore, ?_⟩, ?_, ?_, ?_, rfl, rfl, rfl⟩
  · rw [hafter]
    simp only [Cut.tokens, Cut.withoutGossip, List.append_nil]
  · rw [hbefore, hafter, hdeclared.filter_isGossip.2,
      hdeclared.withoutGossip.filter_isGossip.2]
    rfl
  · rw [hafter, hdeclared.withoutGossip.filter_isGossip.1]
    rfl
  · rw [standFor_mergedFields.extra, standFor_mergedFields.extra]
    rfl

end AlertmanagerOptions

end ContainerArgs.Component
