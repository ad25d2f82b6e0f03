import ContainerArgs.Manifest.Basic
import ContainerArgs.Proofs.Component.Lawful

/-!
# Typed options survive writing

What is read from free-form options can be written as a free-form value again.
A component with the written value in place of its options is the same
component: it has the same typed options, passes the same checks and is given
the same arguments.
-/

namespace ContainerArgs

open Settings Component

namespace Specification

theorem load_eq_ok_iff {k : Kind} {v : Yaml.Value} {s : Specification} :
    load k v = .ok s ↔
      ∃ o, k.component.schema.load v = .ok o ∧ (⟨k, o⟩ : Specification) = s :=
  map_eq_ok_iff

theorem kind_of_load
    {k : Kind} {v : Yaml.Value} {s : Specification} (h : load k v = .ok s) :
    s.kind = k := by
  obtain ⟨o, -, rfl⟩ := load_eq_ok_iff.mp h
  rfl

theorem load_save
    {k : Kind} {v : Yaml.Value} {s : Specification} (h : load k v = .ok s) :
    load k s.save = .ok s := by
  obtain ⟨o, hload, rfl⟩ := load_eq_ok_iff.mp h
  exact load_eq_ok_iff.mpr ⟨o, k.lawful_schema.load_save hload, rfl⟩

end Specification

namespace Configuration

theorem specification_eq_ok_iff {c : Configuration} {s : Specification} :
    c.specification = .ok s ↔ Specification.load c.kind c.options = .ok s := by
  rw [specification]
  cases Specification.load c.kind c.options with
  | error fault => simp [Except.mapError]
  | ok t => simp [Except.mapError]

/-- The component with the options that are written for a specification. -/
def rewritten (c : Configuration) (s : Specification) : Configuration :=
  { c with options := s.save }

/-- Typed options survive writing.  Whatever free-form options a component of
any kind has, if they are read as a specification, the specification is of that
kind, and the component whose options are replaced by what is written for the
specification is read as the same specification.  Hence it passes or fails the
same check and has the same arguments. -/
theorem specification_rewritten
    {c : Configuration} {s : Specification} (h : c.specification = .ok s) :
    s.kind = c.kind ∧
      (c.rewritten s).specification = .ok s ∧
      (c.rewritten s).check = c.check ∧
      (c.rewritten s).args = c.args := by
  have hload := specification_eq_ok_iff.mp h
  have hagain : (c.rewritten s).specification = .ok s :=
    specification_eq_ok_iff.mpr (Specification.load_save hload)
  refine ⟨Specification.kind_of_load hload, hagain, ?_, ?_⟩
  · rw [check, check, h, hagain]
    rfl
  · rw [args, args, h, hagain]
    rfl

/-- A compactor with tags, an unknown key and loose spellings among its
options. -/
def looseCompactor : Configuration where
  name := "compactor"
  kind := .compact
  options := .tagged "!options" <| .mapping
    [(.text "wait", .tagged "!flag" (.bool true)),
      (.tagged "!key" (.text "data_dir"), .text "/data"),
      (.text "comment", .int 7),
      (.text "wait_interval", .text "1h 30 m"),
      (.text "delete_delay", .text " 48h "),
      (.text "http_address", .text "[0:0::1]:80"),
      (.text "log", .mapping [(.text "level", .tagged "!debug" .null)])]

/-- The typed options of the compactor. -/
def looseOptions : CompactOptions where
  dataDir := Text.FilePath.ofText "/data"
  httpAddress := some (.v6 ⟨[0, 0, 0, 0, 0, 0, 0, 1], rfl⟩ 0 80)
  wait := true
  waitInterval := .ofSeconds 5400
  deleteDelay := some (.ofSeconds 172800)
  log := { level := some .debug }

theorem specification_rewritten_loose :
    looseCompactor.specification = .ok ⟨.compact, looseOptions⟩ ∧
      (looseCompactor.rewritten ⟨.compact, looseOptions⟩).specification =
        .ok ⟨.compact, looseOptions⟩ ∧
      (looseCompactor.rewritten ⟨.compact, looseOptions⟩).check =
        looseCompactor.check ∧
      (looseCompactor.rewritten ⟨.compact, looseOptions⟩).args =
        looseCompactor.args := by
  have hread : looseCompactor.specification = .ok ⟨.compact, looseOptions⟩ :=
    rfl
  exact ⟨hread, (specification_rewritten hread).2⟩

end Configuration

end ContainerArgs
