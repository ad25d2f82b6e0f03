import ContainerArgs.Proofs.Component.Checked
import ContainerArgs.Proofs.Component.Lawful

/-!
# Sessions of edits

In a session the extra tokens of a component are edited, and gossip may be
turned off in between. The two do not meet: however the steps are mixed, the
outcome is that of turning gossip off, if any step did, and of replacing the
extra tokens by what the edits make of them. So the extra tokens are those that
were appended since they were last cleared, and the arguments are the tokens of
the fields, which the edits do not touch, followed by just these.
-/

namespace ContainerArgs

open ContainerArgs.Flag Settings Component

/-! ## Extra tokens as a part of the options -/

namespace Component

/-- The entries of the options before the last one. -/
def otherEntries {σ : Type} (c : Component σ) : List (Entry σ) :=
  c.schema.entries.dropLast

/-- The extra tokens are a part of the options, in the last entry, and nothing
else depends on them: not the other entries, nor the fields, nor the check. -/
structure SetsExtraApart {σ : Type} (c : Component σ) : Prop where
  part : IsPart c.extra c.setExtra
  entries : c.schema.entries =
    c.otherEntries ++ [.extra "extra" c.extra c.setExtra]
  saved (e : Extra) (o : σ) :
    c.otherEntries.map (·.save (c.setExtra e o)) =
      c.otherEntries.map (·.save o)
  fields (e : Extra) (o : σ) :
    (c.record (c.setExtra e o)).fields = (c.record o).fields
  validate (e : Extra) (o : σ) : c.validate (c.setExtra e o) = c.validate o

end Component

theorem Kind.setsExtraApart (k : Kind) : k.component.SetsExtraApart := by
  cases k with
  | _ =>
      exact {
        part := ⟨fun _ _ => rfl, fun _ => rfl, fun _ _ _ => rfl⟩
        entries := rfl
        saved := fun _ _ => rfl
        fields := fun _ _ => rfl
        validate := fun _ _ => rfl }

namespace Settings.Entry

/-- Extra tokens are read back from what is written for them. -/
theorem rereads_extra (e : Extra) : Rereads decodeExtra encodeExtra e := by
  have helements : ∀ tokens : List String,
      decodeElements (tokens.map Setting.encode) = .ok tokens := by
    intro tokens
    induction tokens with
    | nil => rfl
    | cons token tokens ih =>
        rw [List.map_cons, decodeElements, ih]
        rfl
  exact map_eq_ok_iff.mpr ⟨e.tokens, helements e.tokens, rfl⟩

end Settings.Entry

namespace Specification

/-! ## Steps -/

/-- The extra tokens of the options. -/
def extra (s : Specification) : Extra :=
  s.kind.component.extra s.options

def setExtra (e : Extra) (s : Specification) : Specification :=
  ⟨s.kind, s.kind.component.setExtra e s.options⟩

/-- One step of a session. -/
inductive Step where
  | edit (e : Extra.Edit)
  | disableClustering
deriving DecidableEq, Repr

def step (s : Specification) : Step → Specification
  | .edit e => s.editExtra e
  | .disableClustering => s.disableClustering

/-- The options at the end of a session. -/
def run (s : Specification) (steps : List Step) : Specification :=
  steps.foldl step s

namespace Step

/-- The tokens that a step appends. -/
def appended : Step → List String
  | .edit (.add tokens) => tokens
  | .edit (.push token) => [token]
  | .edit .clear => []
  | .disableClustering => []

/-- What a step makes of the extra tokens. -/
def onExtra (e : Extra) : Step → Extra
  | .edit change => e.apply change
  | .disableClustering => e

theorem tokens_onExtra
    {x : Step} (h : x ≠ .edit .clear) (e : Extra) :
    (onExtra e x).tokens = e.tokens ++ x.appended := by
  cases x with
  | disableClustering => exact (List.append_nil _).symm
  | edit change =>
      cases change with
      | add tokens => rfl
      | push token => rfl
      | clear => exact absurd rfl h

/-- Without clearing, tokens are added at the end. -/
theorem tokens_foldl_onExtra
    {steps : List Step} (h : .edit .clear ∉ steps) (e : Extra) :
    (steps.foldl onExtra e).tokens = e.tokens ++ steps.flatMap appended := by
  induction steps generalizing e with
  | nil => exact (List.append_nil _).symm
  | cons x steps ih =>
      have hx : x ≠ .edit .clear := fun heq => h (heq ▸ List.mem_cons_self)
      have hsteps : .edit .clear ∉ steps := fun hmem =>
        h (List.mem_cons_of_mem _ hmem)
      rw [List.foldl_cons, ih hsteps, tokens_onExtra hx,
        List.flatMap_cons, List.append_assoc]

/-- Nothing from before the last clearing is left. -/
theorem tokens_foldl_onExtra_clear
    (before : List Step) {after : List Step} (h : .edit .clear ∉ after)
    (e : Extra) :
    ((before ++ .edit .clear :: after).foldl onExtra e).tokens =
      after.flatMap appended := by
  rw [List.foldl_append, List.foldl_cons, tokens_foldl_onExtra h]
  rfl

end Step

/-! ## Steps that do not meet -/

variable (s : Specification) (e f : Extra)

@[simp] theorem extra_setExtra : (s.setExtra e).extra = e :=
  s.kind.setsExtraApart.part.get_set e s.options

@[simp] theorem setExtra_extra : s.setExtra s.extra = s := by
  rw [setExtra, extra, s.kind.setsExtraApart.part.set_get]

@[simp] theorem setExtra_setExtra : (s.setExtra f).setExtra e = s.setExtra e := by
  simp only [setExtra, s.kind.setsExtraApart.part.set_set]

@[simp] theorem validate_setExtra : (s.setExtra e).validate = s.validate :=
  s.kind.setsExtraApart.validate e s.options

@[simp] theorem fieldTokens_setExtra :
    (s.setExtra e).record.fieldTokens = s.record.fieldTokens :=
  congrArg (fun fs => (outcomes [] fs).flatMap Outcome.tokens)
    (s.kind.setsExtraApart.fields e s.options)

theorem editExtra_eq_setExtra (change : Extra.Edit) :
    s.editExtra change = s.setExtra (s.extra.apply change) := rfl

/-- For the alert manager, turning gossip off is what its options define. -/
theorem disableClustering_alertmanager (o : AlertmanagerOptions) :
    disableClustering ⟨.alertmanager, o⟩ =
      ⟨.alertmanager, o.disableClustering⟩ := rfl

/-- No other kind has gossip. -/
theorem disableClustering_of_ne (h : s.kind ≠ .alertmanager) :
    s.disableClustering = s := by
  obtain ⟨k, o⟩ := s
  cases k with
  | alertmanager => exact absurd rfl h
  | _ => rfl

@[simp] theorem kind_disableClustering : s.disableClustering.kind = s.kind := by
  obtain ⟨k, o⟩ := s
  cases k <;> rfl

@[simp] theorem extra_disableClustering : s.disableClustering.extra = s.extra := by
  obtain ⟨k, o⟩ := s
  cases k <;> rfl

@[simp] theorem validate_disableClustering :
    s.disableClustering.validate = s.validate := by
  obtain ⟨k, o⟩ := s
  cases k <;> rfl

@[simp] theorem disableClustering_disableClustering :
    s.disableClustering.disableClustering = s.disableClustering := by
  obtain ⟨k, o⟩ := s
  cases k <;> rfl

theorem disableClustering_setExtra :
    (s.setExtra e).disableClustering = s.disableClustering.setExtra e := by
  obtain ⟨k, o⟩ := s
  cases k <;> rfl

/-- Turning gossip off commutes with every edit of the extra tokens. -/
theorem disableClustering_editExtra (change : Extra.Edit) :
    (s.editExtra change).disableClustering =
      s.disableClustering.editExtra change := by
  rw [editExtra_eq_setExtra, editExtra_eq_setExtra, disableClustering_setExtra,
    extra_disableClustering]

/-! ## Sessions -/

/-- The options without gossip, if it was turned off in a session. -/
def settled (steps : List Step) : Specification :=
  if .disableClustering ∈ steps then s.disableClustering else s

variable (steps : List Step)

theorem settled_cons_edit (change : Extra.Edit) :
    s.settled (.edit change :: steps) = s.settled steps := by
  simp [settled]

theorem settled_cons_disableClustering :
    s.settled (.disableClustering :: steps) =
      s.disableClustering.settled steps := by
  simp [settled]

theorem settled_setExtra :
    (s.setExtra e).settled steps = (s.settled steps).setExtra e := by
  rw [settled, settled]
  split
  next => exact disableClustering_setExtra s e
  next => rfl

/-- What turning gossip off keeps is kept in a session. -/
theorem settled_keeps
    {α : Type} (g : Specification → α) (h : g s.disableClustering = g s) :
    g (s.settled steps) = g s := by
  rw [settled]
  split
  next => exact h
  next => rfl

@[simp] theorem kind_settled : (s.settled steps).kind = s.kind :=
  settled_keeps s steps kind (kind_disableClustering s)

@[simp] theorem extra_settled : (s.settled steps).extra = s.extra :=
  settled_keeps s steps extra (extra_disableClustering s)

@[simp] theorem validate_settled : (s.settled steps).validate = s.validate :=
  settled_keeps s steps validate (validate_disableClustering s)

/-- A session turns gossip off, if a step says so, and replaces the extra
tokens by what the steps make of them. -/
theorem run_eq :
    s.run steps =
      (s.settled steps).setExtra (steps.foldl Step.onExtra s.extra) := by
  induction steps generalizing s with
  | nil => exact (setExtra_extra s).symm
  | cons x steps ih =>
      have hrun : s.run (x :: steps) = (s.step x).run steps := rfl
      rw [hrun, ih]
      cases x with
      | edit change =>
          rw [step, editExtra_eq_setExtra, extra_setExtra, settled_setExtra,
            setExtra_setExtra, settled_cons_edit]
          rfl
      | disableClustering =>
          rw [step, extra_disableClustering, settled_cons_disableClustering]
          rfl

/-- A session of the alert manager ends with its options without gossip, if a
step turned it off, and with the extra tokens that the steps made. -/
theorem run_alertmanager (o : AlertmanagerOptions) :
    run ⟨.alertmanager, o⟩ steps =
      ⟨.alertmanager,
        { (if .disableClustering ∈ steps then o.disableClustering else o) with
          extra := steps.foldl Step.onExtra o.extra }⟩ := by
  rw [run_eq, settled]
  split
  next => rw [disableClustering_alertmanager]; rfl
  next => rfl

/-- A session of any other kind does nothing but edit the extra tokens. -/
theorem run_of_ne (h : s.kind ≠ .alertmanager) :
    s.run steps = s.setExtra (steps.foldl Step.onExtra s.extra) := by
  have hsettled : s.settled steps = s :=
    settled_keeps s steps id (disableClustering_of_ne s h)
  rw [run_eq, hsettled]

/-! ## What can be seen of a session -/

theorem args_eq_ok (h : s.validate = .ok ()) :
    s.args = .ok (s.kind.component.subcommand.toList ++
      (s.record.fieldTokens ++ s.extra.tokens)) := by
  refine (args_eq_ok_iff s.kind.component s.options).mpr ⟨h, ?_⟩
  rw [s.kind.encode_eq]
  rfl

theorem args_eq_error {fault : ValidationError} :
    s.args = .error fault ↔ s.validate = .error fault :=
  args_eq_error_iff s.kind.component s.options

/-- What is written for the entries other than the extra tokens. -/
def savedOthers : List (Yaml.Value × Yaml.Value) :=
  s.kind.component.otherEntries.map fun entry =>
    (.text entry.key, entry.save s.options)

theorem save_eq :
    s.save = .mapping (s.savedOthers ++
      [(.text "extra", Entry.encodeExtra s.extra)]) := by
  rw [save, Schema.save, s.kind.setsExtraApart.entries, List.map_append]
  rfl

theorem savedOthers_setExtra : (s.setExtra e).savedOthers = s.savedOthers := by
  have hsaved := s.kind.setsExtraApart.saved e s.options
  apply List.map_congr_left
  intro entry hentry
  exact congrArg _ (List.map_inj_left.mp hsaved entry hentry)

/-- The extra tokens are written under a key of their own. -/
theorem key_ne_of_mem_savedOthers :
    ∀ entry ∈ s.savedOthers, entry.1 ≠ .text "extra" := by
  intro entry hentry heq
  obtain ⟨other, hother, rfl⟩ := List.mem_map.mp hentry
  have hnodup := s.kind.lawful_schema.keys_nodup
  rw [s.kind.setsExtraApart.entries, List.map_append, List.nodup_append] at hnodup
  exact hnodup.2.2 other.key (List.mem_map_of_mem hother) "extra"
    (List.mem_singleton_self _) (Yaml.Value.text.inj heq)

/-- Edits of the extra tokens are framed. Whatever options of whatever kind a
session starts from, and however the steps are mixed, the extra tokens at its
end are those appended since they were last cleared, in order, or those of the
start and all appended ones when they never were. They are what is counted, what
is written under their key, and what is read back from it, and the rest of what
is written is that of the options that the session started from, without gossip
if a step turned it off. The session fails the check just as its start does; and
otherwise the arguments are the subcommand, the tokens of these options' fields,
and the extra tokens. Turning gossip off commutes with each edit. -/
theorem run_frames_extra :
    (s.run steps).kind = s.kind ∧
    (∃ tokens : List String,
      (.edit .clear ∉ steps →
        tokens = s.extra.tokens ++ steps.flatMap Step.appended) ∧
      (∀ before after, steps = before ++ .edit .clear :: after →
        .edit .clear ∉ after → tokens = after.flatMap Step.appended) ∧
      (s.run steps).extra.tokens = tokens ∧
      (s.run steps).extra.size = tokens.length ∧
      ((s.run steps).extra.isEmpty = true ↔ tokens = []) ∧
      (∃ others : List (Yaml.Value × Yaml.Value),
        (∀ entry ∈ others, entry.1 ≠ .text "extra") ∧
        (s.settled steps).save =
          .mapping (others ++ [(.text "extra", Entry.encodeExtra s.extra)]) ∧
        (s.run steps).save =
          .mapping (others ++ [(.text "extra", .sequence (tokens.map .text))]) ∧
        Entry.decodeExtra (.sequence (tokens.map .text)) = .ok ⟨tokens⟩) ∧
      (∀ fault, s.args = .error fault → (s.run steps).args = .error fault) ∧
      (∀ arguments, s.args = .ok arguments →
        arguments = s.kind.component.subcommand.toList ++
          (s.record.fieldTokens ++ s.extra.tokens) ∧
        (s.run steps).args = .ok (s.kind.component.subcommand.toList ++
          ((s.settled steps).record.fieldTokens ++ tokens)))) ∧
    ∀ change : Extra.Edit,
      (s.editExtra change).disableClustering =
        s.disableClustering.editExtra change := by
  have hextra : (s.run steps).extra = steps.foldl Step.onExtra s.extra := by
    rw [run_eq, extra_setExtra]
  have hkind : (s.run steps).kind = s.kind := by
    rw [run_eq]
    exact kind_settled s steps
  have hvalidate : (s.run steps).validate = s.validate := by
    rw [run_eq, validate_setExtra, validate_settled]
  refine ⟨hkind, ⟨(s.run steps).extra.tokens, ?_, ?_, rfl, rfl, ?_, ?_, ?_, ?_⟩,
    disableClustering_editExtra s⟩
  · intro hclear
    rw [hextra]
    exact Step.tokens_foldl_onExtra hclear s.extra
  · rintro before after rfl hclear
    rw [hextra]
    exact Step.tokens_foldl_onExtra_clear before hclear s.extra
  · exact List.isEmpty_iff
  · refine ⟨(s.settled steps).savedOthers, ?_, ?_, ?_, ?_⟩
    · exact key_ne_of_mem_savedOthers (s.settled steps)
    · rw [save_eq, extra_settled]
    · rw [save_eq, run_eq, savedOthers_setExtra]
      rfl
    · exact Entry.rereads_extra (s.run steps).extra
  · intro fault hargs
    rw [args_eq_error] at hargs ⊢
    rw [hvalidate, hargs]
  · intro arguments hargs
    have hvalid : s.validate = .ok () :=
      ((args_eq_ok_iff s.kind.component s.options).mp hargs).1
    rw [args_eq_ok s hvalid] at hargs
    refine ⟨(Except.ok.inj hargs).symm, ?_⟩
    have hfields : (s.run steps).record.fieldTokens =
        (s.settled steps).record.fieldTokens := by
      rw [run_eq, fieldTokens_setExtra]
    rw [args_eq_ok (s.run steps) (hvalidate.trans hvalid), hkind, hfields]

/-- An alert manager that gossips with a peer. -/
def gossiping : Specification :=
  ⟨.alertmanager, { configFile := Text.FilePath.ofText "/etc/routes",
                    clusterPeers := ["peer:9094"], extra := ⟨["--old"]⟩ }⟩

/-- Edits before and after gossip is turned off, with a clearing among them. -/
def mixedSteps : List Step :=
  [.edit (.add ["--first", "--second"]), .disableClustering, .edit .clear,
    .edit (.push "--last")]

theorem run_frames_extra_gossiping :
    gossiping.args =
      .ok ["--config.file=/etc/routes", "--cluster.peer=peer:9094", "--old"] ∧
    .edit .clear ∉ [Step.edit (.push "--last")] ∧
    (gossiping.run mixedSteps).extra.tokens = ["--last"] ∧
    (gossiping.run mixedSteps).args =
      .ok ["--config.file=/etc/routes", "--cluster.listen-address=",
        "--last"] := by
  have hargs : gossiping.args =
      .ok ["--config.file=/etc/routes", "--cluster.peer=peer:9094", "--old"] := by
    decide +kernel
  have hafter : .edit .clear ∉ [Step.edit (.push "--last")] := by decide
  obtain ⟨-, ⟨tokens, -, hcleared, hextra, -, -, -, -, hrun⟩, -⟩ :=
    run_frames_extra gossiping mixedSteps
  have htokens : tokens = ["--last"] :=
    hcleared [.edit (.add ["--first", "--second"]), .disableClustering]
      [.edit (.push "--last")] rfl hafter
  refine ⟨hargs, hafter, hextra.trans htokens, ?_⟩
  rw [(hrun _ hargs).2, htokens]
  decide +kernel

end Specification

end ContainerArgs
