import ContainerArgs.Component.Basic
import ContainerArgs.Component.Log

/-!
# The alert manager

The options of the component that routes alerts.  Its replicas gossip on a
listen address, which is given as an address or, where that is unset, as a text;
an empty text turns gossip off.
-/

namespace ContainerArgs.Component

open Settings Text

/-- The options of the alert manager. -/
structure AlertmanagerOptions where
  configFile : FilePath := ⟨[]⟩
  storagePath : FilePath := ⟨[]⟩
  dataRetention : Duration := .zero
  webListenAddress : Option Net.Socket := none
  webExternalUrl : String := ""
  webRoutePrefix : String := ""
  clusterListenAddress : Option Net.Socket := none
  clusterListenAddressRaw : Option String := none
  clusterAdvertiseAddress : Option Net.Socket := none
  clusterPeers : List String := []
  log : LogOptions := {}
  extra : Flag.Extra := .empty
deriving DecidableEq, Repr

namespace AlertmanagerOptions

/-- The entries of the alert manager's options. -/
def schema : Schema AlertmanagerOptions where
  name := "AlertmanagerOptions"
  default := {}
  entries := [
    .option "config_file" "config.file" (·.configFile) fun a o =>
      { o with configFile := a },
    .option "storage_path" "storage.path" (·.storagePath) fun a o =>
      { o with storagePath := a },
    .option "data_retention" "data.retention" (·.dataRetention) fun a o =>
      { o with dataRetention := a },
    .option "web_listen_address" "web.listen-address"
      (·.webListenAddress) fun a o => { o with webListenAddress := a },
    .option "web_external_url" "web.external-url" (·.webExternalUrl) fun a o =>
      { o with webExternalUrl := a },
    .option "web_route_prefix" "web.route-prefix" (·.webRoutePrefix) fun a o =>
      { o with webRoutePrefix := a },
    .option "cluster_listen_address" "cluster.listen-address"
      (·.clusterListenAddress) fun a o => { o with clusterListenAddress := a },
    .option "cluster_listen_address_raw" "cluster.listen-address"
      (·.clusterListenAddressRaw) fun a o =>
        { o with clusterListenAddressRaw := a },
    .option "cluster_advertise_address" "cluster.advertise-address"
      (·.clusterAdvertiseAddress) fun a o =>
        { o with clusterAdvertiseAddress := a },
    .option "cluster_peers" "cluster.peer" (·.clusterPeers) fun a o =>
      { o with clusterPeers := a },
    .nested "log" LogOptions.schema (·.log) fun a o => { o with log := a },
    .extra "extra" (·.extra) fun a o => { o with extra := a }]

/-- The options of a single replica, without gossip. -/
def disableClustering (o : AlertmanagerOptions) : AlertmanagerOptions :=
  { o with
    clusterListenAddress := none
    clusterListenAddressRaw := some ""
    clusterPeers := [] }

end AlertmanagerOptions

/-- The alert manager, which needs a configuration file. -/
def alertmanager : Component AlertmanagerOptions where
  name := "alertmanager"
  subcommand := none
  schema := AlertmanagerOptions.schema
  validate o := require "alertmanager" "config_file" o.configFile.isEmpty
  extra := (·.extra)
  setExtra e o := { o with extra := e }

end ContainerArgs.Component
