import ContainerArgs.Component.Basic

/-!
# The cache

The options of the component that caches in memory.
-/

namespace ContainerArgs.Component

open Settings

/-- The options of the cache. -/
structure MemcachedOptions where
  memoryLimitMb : UInt64 := 0
  connLimit : UInt32 := 0
  maxItemSize : String := ""
  threads : UInt32 := 0
  port : UInt16 := 0
  listen : String := ""
  verbose : Bool := false
  veryVerbose : Bool := false
  extra : Flag.Extra := .empty
deriving DecidableEq, Repr

namespace MemcachedOptions

/-- The entries of the cache's options. -/
def schema : Schema MemcachedOptions where
  name := "MemcachedOptions"
  default := {}
  entries := [
    .option "memory_limit_mb" "memory-limit" (·.memoryLimitMb) fun a o =>
      { o with memoryLimitMb := a },
    .option "conn_limit" "conn-limit" (·.connLimit) fun a o =>
      { o with connLimit := a },
    .option "max_item_size" "max-item-size" (·.maxItemSize) fun a o =>
      { o with maxItemSize := a },
    .option "threads" "threads" (·.threads) fun a o => { o with threads := a },
    .option "port" "port" (·.port) fun a o => { o with port := a },
    .option "listen" "listen" (·.listen) fun a o => { o with listen := a },
    .option "verbose" "v,noval" (·.verbose) fun a o => { o with verbose := a },
    .option "very_verbose" "vv,single-hyphen,noval" (·.veryVerbose) fun a o =>
      { o with veryVerbose := a },
    .extra "extra" (·.extra) fun a o => { o with extra := a }]

end MemcachedOptions

/-- The cache, which is verbose in at most one way. -/
def memcached : Component MemcachedOptions where
  name := "memcached"
  subcommand := none
  schema := MemcachedOptions.schema
  validate o :=
    if o.verbose ∧ o.veryVerbose then
      .error
        (.invalid "memcached" "verbose and very_verbose are mutually exclusive")
    else .ok ()
  extra := (·.extra)
  setExtra e o := { o with extra := e }

end ContainerArgs.Component
