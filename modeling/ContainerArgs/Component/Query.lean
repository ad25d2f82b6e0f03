import ContainerArgs.Component.Basic
import ContainerArgs.Component.Log

/-!
# The query layer

The options of the component that answers queries.
-/

namespace ContainerArgs.Component

open Settings

/-- The options of the query layer. -/
structure QueryOptions where
  grpcAddress : Option Net.Socket := none
  httpAddress : Option Net.Socket := none
  endpoints : List String := []
  replicaLabels : List String := []
  timeout : Duration := .zero
  lookbackDelta : Duration := .zero
  maxConcurrent : UInt32 := 0
  autoDownsampling : Bool := false
  partialResponse : Bool := false
  webPrefixHeader : String := ""
  log : LogOptions := {}
  extra : Flag.Extra := .empty
deriving DecidableEq, Repr

namespace QueryOptions

/-- The entries of the query layer's options. -/
def schema : Schema QueryOptions where
  name := "QueryOptions"
  default := {}
  entries := [
    .option "grpc_address" "grpc-address" (·.grpcAddress) fun a o =>
      { o with grpcAddress := a },
    .option "http_address" "http-address" (·.httpAddress) fun a o =>
      { o with httpAddress := a },
    .option "endpoints" "endpoint" (·.endpoints) fun a o =>
      { o with endpoints := a },
    .option "replica_labels" "query.replica-label" (·.replicaLabels) fun a o =>
      { o with replicaLabels := a },
    .option "timeout" "query.timeout" (·.timeout) fun a o =>
      { o with timeout := a },
    .option "lookback_delta" "query.lookback-delta" (·.lookbackDelta) fun a o =>
      { o with lookbackDelta := a },
    .option "max_concurrent" "query.max-concurrent" (·.maxConcurrent) fun a o =>
      { o with maxConcurrent := a },
    .option "auto_downsampling" "query.auto-downsampling,noval"
      (·.autoDownsampling) fun a o => { o with autoDownsampling := a },
    .option "partial_response" "query.partial-response,noval"
      (·.partialResponse) fun a o => { o with partialResponse := a },
    .option "web_prefix_header" "web.prefix-header"
      (·.webPrefixHeader) fun a o => { o with webPrefixHeader := a },
    .nested "log" LogOptions.schema (·.log) fun a o => { o with log := a },
    .extra "extra" (·.extra) fun a o => { o with extra := a }]

end QueryOptions

/-- The query layer, which starts with any options. -/
def query : Component QueryOptions where
  name := "thanos query"
  subcommand := some "query"
  schema := QueryOptions.schema
  validate _ := .ok ()
  extra := (·.extra)
  setExtra e o := { o with extra := e }

end ContainerArgs.Component
