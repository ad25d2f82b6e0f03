import ContainerArgs.Component.Kind
import Mathlib.Tactic.MkIffOfInductiveProp

/-!
# Options that agree

Two values of the options of a component agree when every setting is the same in
both, up to what no text can tell: paths and socket addresses agree in their
texts, and lists of texts in their elements that are not empty.
-/

namespace ContainerArgs

namespace Component

open Net Text

/-- The elements of a list of texts that are not empty. -/
def nonEmpty (ss : List String) : List String :=
  ss.filter (· ≠ "")

@[mk_iff]
structure CompactOptions.Agree (o p : CompactOptions) : Prop where
  dataDir : o.dataDir.text = p.dataDir.text
  objstoreConfig : o.objstoreConfig = p.objstoreConfig
  objstoreConfigFile :
    o.objstoreConfigFile.map FilePath.text =
      p.objstoreConfigFile.map FilePath.text
  httpAddress : o.httpAddress.map Socket.text = p.httpAddress.map Socket.text
  wait : o.wait = p.wait
  waitInterval : o.waitInterval = p.waitInterval
  retentionRaw : o.retentionRaw = p.retentionRaw
  retention5m : o.retention5m = p.retention5m
  retention1h : o.retention1h = p.retention1h
  replicaLabels : nonEmpty o.replicaLabels = nonEmpty p.replicaLabels
  concurrency : o.concurrency = p.concurrency
  disableDownsampling : o.disableDownsampling = p.disableDownsampling
  deleteDelay : o.deleteDelay = p.deleteDelay
  log : o.log = p.log
  extra : o.extra = p.extra

@[mk_iff]
structure QueryOptions.Agree (o p : QueryOptions) : Prop where
  grpcAddress : o.grpcAddress.map Socket.text = p.grpcAddress.map Socket.text
  httpAddress : o.httpAddress.map Socket.text = p.httpAddress.map Socket.text
  endpoints : nonEmpty o.endpoints = nonEmpty p.endpoints
  replicaLabels : nonEmpty o.replicaLabels = nonEmpty p.replicaLabels
  timeout : o.timeout = p.timeout
  lookbackDelta : o.lookbackDelta = p.lookbackDelta
  maxConcurrent : o.maxConcurrent = p.maxConcurrent
  autoDownsampling : o.autoDownsampling = p.autoDownsampling
  partialResponse : o.partialResponse = p.partialResponse
  webPrefixHeader : o.webPrefixHeader = p.webPrefixHeader
  log : o.log = p.log
  extra : o.extra = p.extra

@[mk_iff]
structure StoreOptions.Agree (o p : StoreOptions) : Prop where
  dataDir : o.dataDir.text = p.dataDir.text
  objstoreConfig : o.objstoreConfig = p.objstoreConfig
  grpcAddress : o.grpcAddress.map Socket.text = p.grpcAddress.map Socket.text
  httpAddress : o.httpAddress.map Socket.text = p.httpAddress.map Socket.text
  indexCacheSize : o.indexCacheSize = p.indexCacheSize
  indexCacheConfig : o.indexCacheConfig = p.indexCacheConfig
  requestSamplesLimit : o.requestSamplesLimit = p.requestSamplesLimit
  requestSeriesLimit : o.requestSeriesLimit = p.requestSeriesLimit
  seriesMaxConcurrency : o.seriesMaxConcurrency = p.seriesMaxConcurrency
  blockSyncConcurrency : o.blockSyncConcurrency = p.blockSyncConcurrency
  ignoreDeletionMarksDelay :
    o.ignoreDeletionMarksDelay = p.ignoreDeletionMarksDelay
  minTime : o.minTime = p.minTime
  maxTime : o.maxTime = p.maxTime
  log : o.log = p.log
  extra : o.extra = p.extra

@[mk_iff]
structure ReceiveOptions.Agree (o p : ReceiveOptions) : Prop where
  tsdbPath : o.tsdbPath.text = p.tsdbPath.text
  tsdbRetention : o.tsdbRetention = p.tsdbRetention
  grpcAddress : o.grpcAddress.map Socket.text = p.grpcAddress.map Socket.text
  httpAddress : o.httpAddress.map Socket.text = p.httpAddress.map Socket.text
  remoteWriteAddress :
    o.remoteWriteAddress.map Socket.text = p.remoteWriteAddress.map Socket.text
  labels : nonEmpty o.labels = nonEmpty p.labels
  localEndpoint : o.localEndpoint = p.localEndpoint
  hashringsFile :
    o.hashringsFile.map FilePath.text = p.hashringsFile.map FilePath.text
  replicationFactor : o.replicationFactor = p.replicationFactor
  tenantHeader : o.tenantHeader = p.tenantHeader
  log : o.log = p.log
  extra : o.extra = p.extra

/-- The text of the listen address of a cluster: that of the address, or where
it is unset the raw text. -/
def AlertmanagerOptions.listenText (o : AlertmanagerOptions) : Option String :=
  match o.clusterListenAddress with
  | some a => some a.text
  | none => o.clusterListenAddressRaw

/-- Agreement of the options of the alert manager.  The two listen addresses of
the cluster agree only in the text that is used. -/
@[mk_iff]
structure AlertmanagerOptions.Agree (o p : AlertmanagerOptions) : Prop where
  configFile : o.configFile.text = p.configFile.text
  storagePath : o.storagePath.text = p.storagePath.text
  dataRetention : o.dataRetention = p.dataRetention
  webListenAddress :
    o.webListenAddress.map Socket.text = p.webListenAddress.map Socket.text
  webExternalUrl : o.webExternalUrl = p.webExternalUrl
  webRoutePrefix : o.webRoutePrefix = p.webRoutePrefix
  listenText : o.listenText = p.listenText
  clusterAdvertiseAddress :
    o.clusterAdvertiseAddress.map Socket.text =
      p.clusterAdvertiseAddress.map Socket.text
  clusterPeers : nonEmpty o.clusterPeers = nonEmpty p.clusterPeers
  log : o.log = p.log
  extra : o.extra = p.extra

end Component

/-- Agreement of the options of a kind.  Those of the cache agree only when they
are equal. -/
def Kind.Agree : (k : Kind) → k.Options → k.Options → Prop
  | compact => Component.CompactOptions.Agree
  | query => Component.QueryOptions.Agree
  | store => Component.StoreOptions.Agree
  | receive => Component.ReceiveOptions.Agree
  | alertmanager => Component.AlertmanagerOptions.Agree
  | memcached => Eq

end ContainerArgs
