import ContainerArgs.Component.Basic
import ContainerArgs.Component.Log

/-!
# The store gateway

The options of the component that serves stored blocks.
-/

namespace ContainerArgs.Component

open Settings Text

/-- The options of the store gateway. -/
structure StoreOptions where
  dataDir : FilePath := ⟨[]⟩
  objstoreConfig : String := ""
  grpcAddress : Option Net.Socket := none
  httpAddress : Option Net.Socket := none
  indexCacheSize : String := ""
  indexCacheConfig : String := ""
  requestSamplesLimit : UInt64 := 0
  requestSeriesLimit : UInt64 := 0
  seriesMaxConcurrency : UInt32 := 0
  blockSyncConcurrency : UInt32 := 0
  ignoreDeletionMarksDelay : Duration := .zero
  minTime : String := ""
  maxTime : String := ""
  log : LogOptions := {}
  extra : Flag.Extra := .empty
deriving DecidableEq, Repr

namespace StoreOptions

/-- The entries of the store gateway's options. -/
def schema : Schema StoreOptions where
  name := "StoreOptions"
  default := {}
  entries := [
    .option "data_dir" "data-dir" (·.dataDir) fun a o =>
      { o with dataDir := a },
    .option "objstore_config" "objstore.config" (·.objstoreConfig) fun a o =>
      { o with objstoreConfig := a },
    .option "grpc_address" "grpc-address" (·.grpcAddress) fun a o =>
      { o with grpcAddress := a },
    .option "http_address" "http-address" (·.httpAddress) fun a o =>
      { o with httpAddress := a },
    .option "index_cache_size" "index-cache-size" (·.indexCacheSize) fun a o =>
      { o with indexCacheSize := a },
    .option "index_cache_config" "index-cache.config"
      (·.indexCacheConfig) fun a o => { o with indexCacheConfig := a },
    .option "request_samples_limit" "store.limits.request-samples"
      (·.requestSamplesLimit) fun a o => { o with requestSamplesLimit := a },
    .option "request_series_limit" "store.limits.request-series"
      (·.requestSeriesLimit) fun a o => { o with requestSeriesLimit := a },
    .option "series_max_concurrency" "store.grpc.series-max-concurrency"
      (·.seriesMaxConcurrency) fun a o => { o with seriesMaxConcurrency := a },
    .option "block_sync_concurrency" "block-sync-concurrency"
      (·.blockSyncConcurrency) fun a o => { o with blockSyncConcurrency := a },
    .option "ignore_deletion_marks_delay" "ignore-deletion-marks-delay"
      (·.ignoreDeletionMarksDelay) fun a o =>
        { o with ignoreDeletionMarksDelay := a },
    .option "min_time" "min-time" (·.minTime) fun a o =>
      { o with minTime := a },
    .option "max_time" "max-time" (·.maxTime) fun a o =>
      { o with maxTime := a },
    .nested "log" LogOptions.schema (·.log) fun a o => { o with log := a },
    .extra "extra" (·.extra) fun a o => { o with extra := a }]

end StoreOptions

/-- The store gateway, which needs a data directory. -/
def store : Component StoreOptions where
  name := "thanos store"
  subcommand := some "store"
  schema := StoreOptions.schema
  validate o := require "thanos store" "data_dir" o.dataDir.isEmpty
  extra := (·.extra)
  setExtra e o := { o with extra := e }

end ContainerArgs.Component
