import ContainerArgs.Component.Basic
import ContainerArgs.Component.Log

/-!
# The receiver

The options of the component that receives written samples.
-/

namespace ContainerArgs.Component

open Settings Text

/-- The options of the receiver. -/
structure ReceiveOptions where
  tsdbPath : FilePath := ⟨[]⟩
  tsdbRetention : Retention := .zero
  grpcAddress : Option Net.Socket := none
  httpAddress : Option Net.Socket := none
  remoteWriteAddress : Option Net.Socket := none
  labels : List String := []
  localEndpoint : String := ""
  hashringsFile : Option FilePath := none
  replicationFactor : Option UInt32 := none
  tenantHeader : String := ""
  log : LogOptions := {}
  extra : Flag.Extra := .empty
deriving DecidableEq, Repr

namespace ReceiveOptions

/-- The entries of the receiver's options. -/
def schema : Schema ReceiveOptions where
  name := "ReceiveOptions"
  default := {}
  entries := [
    .option "tsdb_path" "tsdb.path" (·.tsdbPath) fun a o =>
      { o with tsdbPath := a },
    .option "tsdb_retention" "tsdb.retention" (·.tsdbRetention) fun a o =>
      { o with tsdbRetention := a },
    .option "grpc_address" "grpc-address" (·.grpcAddress) fun a o =>
      { o with grpcAddress := a },
    .option "http_address" "http-address" (·.httpAddress) fun a o =>
      { o with httpAddress := a },
    .option "remote_write_address" "remote-write.address"
      (·.remoteWriteAddress) fun a o => { o with remoteWriteAddress := a },
    .option "labels" "label" (·.labels) fun a o => { o with labels := a },
    .option "local_endpoint" "receive.local-endpoint"
      (·.localEndpoint) fun a o => { o with localEndpoint := a },
    .option "hashrings_file" "receive.hashrings-file"
      (·.hashringsFile) fun a o => { o with hashringsFile := a },
    .option "replication_factor" "receive.replication-factor"
      (·.replicationFactor) fun a o => { o with replicationFactor := a },
    .option "tenant_header" "receive.tenant-header" (·.tenantHeader) fun a o =>
      { o with tenantHeader := a },
    .nested "log" LogOptions.schema (·.log) fun a o => { o with log := a },
    .extra "extra" (·.extra) fun a o => { o with extra := a }]

end ReceiveOptions

/-- The receiver, which needs a place for its data and does not replicate to
nobody. -/
def receive : Component ReceiveOptions where
  name := "thanos receive"
  subcommand := some "receive"
  schema := ReceiveOptions.schema
  validate o := do
    require "thanos receive" "tsdb_path" o.tsdbPath.isEmpty
    if o.replicationFactor = some 0 then
      .error (.invalid "thanos receive" "replication_factor must be at least 1")
  extra := (·.extra)
  setExtra e o := { o with extra := e }

end ContainerArgs.Component
