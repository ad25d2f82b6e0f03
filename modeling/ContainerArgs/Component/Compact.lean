import ContainerArgs.Component.Basic
import ContainerArgs.Component.Log

/-!
# The compactor

The options of the component that compacts stored blocks.
-/

namespace ContainerArgs.Component

open Settings Text

/-- The options of the compactor. -/
structure CompactOptions where
  dataDir : FilePath := ⟨[]⟩
  objstoreConfig : String := ""
  objstoreConfigFile : Option FilePath := none
  httpAddress : Option Net.Socket := none
  wait : Bool := false
  waitInterval : Duration := .zero
  retentionRaw : Retention := .zero
  retention5m : Retention := .zero
  retention1h : Retention := .zero
  replicaLabels : List String := []
  concurrency : UInt32 := 0
  disableDownsampling : Bool := false
  deleteDelay : Option Retention := none
  log : LogOptions := {}
  extra : Flag.Extra := .empty
deriving DecidableEq, Repr

namespace CompactOptions

/-- The entries of the compactor's options. -/
def schema : Schema CompactOptions where
  name := "CompactOptions"
  default := {}
  entries := [
    .option "data_dir" "data-dir" (·.dataDir) fun a o =>
      { o with dataDir := a },
    .option "objstore_config" "objstore.config" (·.objstoreConfig) fun a o =>
      { o with objstoreConfig := a },
    .option "objstore_config_file" "objstore.config-file"
      (·.objstoreConfigFile) fun a o => { o with objstoreConfigFile := a },
    .option "http_address" "http-address" (·.httpAddress) fun a o =>
      { o with httpAddress := a },
    .option "wait" "wait,noval" (·.wait) fun a o => { o with wait := a },
    .option "wait_interval" "wait-interval" (·.waitInterval) fun a o =>
      { o with waitInterval := a },
    .option "retention_resolution_raw" "retention.resolution-raw"
      (·.retentionRaw) fun a o => { o with retentionRaw := a },
    .option "retention_resolution_5m" "retention.resolution-5m"
      (·.retention5m) fun a o => { o with retention5m := a },
    .option "retention_resolution_1h" "retention.resolution-1h"
      (·.retention1h) fun a o => { o with retention1h := a },
    .option "deduplication_replica_labels" "deduplication.replica-label"
      (·.replicaLabels) fun a o => { o with replicaLabels := a },
    .option "concurrency" "compact.concurrency" (·.concurrency) fun a o =>
      { o with concurrency := a },
    .option "disable_downsampling" "downsampling.disable,noval"
      (·.disableDownsampling) fun a o => { o with disableDownsampling := a },
    .option "delete_delay" "delete-delay" (·.deleteDelay) fun a o =>
      { o with deleteDelay := a },
    .nested "log" LogOptions.schema (·.log) fun a o => { o with log := a },
    .extra "extra" (·.extra) fun a o => { o with extra := a }]

end CompactOptions

/-- The compactor, which needs a data directory. -/
def compact : Component CompactOptions where
  name := "thanos compact"
  subcommand := some "compact"
  schema := CompactOptions.schema
  validate o := require "thanos compact" "data_dir" o.dataDir.isEmpty
  extra := (·.extra)
  setExtra e o := { o with extra := e }

end ContainerArgs.Component
