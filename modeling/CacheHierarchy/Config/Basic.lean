import CacheHierarchy.Policy

set_option autoImplicit false

/-! # Configuration

The description of a machine: the line size, the caches with their geometry, latencies,
MSHR ranges, policies and the labels of the caches below them, the coherence directory's
policy, the memory controllers, and the cores with the caches they issue to. Every field
without a default here is required in a configuration file.
-/

namespace CacheHierarchy

/-- Minimum cycles between two packets of one traffic class of a cache. -/
structure Throttles where
  sendAnswer : Nat := 1
  sendRequest : Nat := 1
  recvAnswer : Nat := 1
  recvRead : Nat := 1
  recvWrite : Nat := 1
  deriving DecidableEq, Repr, Inhabited

/-- The prefetcher attached to a cache. -/
inductive PrefetcherConfig where
  | disabled
  /-- A stride prefetcher: a table of `tableSize` program counters, `degree` strides issued
  ahead, strides matched within `distance` lines, `nextLines` sequential lines, and a buffer
  of `bufferSize` requests. -/
  | stride (tableSize degree distance nextLines bufferSize : Nat)
  deriving DecidableEq, Repr, Inhabited

def PrefetcherConfig.isEnabled : PrefetcherConfig → Bool
  | .disabled => false
  | .stride .. => true

/-- One cache, or one bank of a banked cache. -/
structure CacheConfig where
  label : String := ""
  level : Nat := 1
  bankNumber : Nat := 0
  totalBanks : Nat := 1
  layout : Layout := .tagIndexOffset
  lineNumber : Nat := 64
  associativity : Nat := 4
  replacement : Replacement := .lru
  penaltyRead : Nat := 1
  penaltyWrite : Nat := 1
  mshrRequest : Nat := 4
  mshrWriteback : Nat := 2
  mshrPrefetch : Nat := 1
  /-- Labels of the caches one level closer to memory; none for a last-level cache. -/
  lowerLevel : List String := []
  prefetcher : PrefetcherConfig := .disabled
  randomSeed : Nat := 0
  throttle : Throttles := {}
  deriving DecidableEq, Repr, Inhabited

structure DirectoryConfig where
  inclusion : Inclusion := .nonInclusive
  /-- Whether a last-level cache writes back a dirty victim. -/
  llcWriteback : Bool := true
  /-- Whether a cache above the last level writes back a dirty victim. -/
  nonLlcWriteback : Bool := true
  deriving DecidableEq, Repr, Inhabited

structure MemoryConfig where
  controllers : Nat := 1
  /-- Cycles from admission to answer. -/
  latency : Nat := 100
  bufferSize : Nat := 16
  /-- Minimum cycles between two answers of one controller. -/
  sendLatency : Nat := 1
  deriving DecidableEq, Repr, Inhabited

/-- One core and the caches it issues to; the instruction cache defaults to the data
cache. -/
structure CoreConfig where
  label : String := ""
  dataCache : String := ""
  instCache : Option String := none
  maxOutstanding : Nat := 4
  deriving DecidableEq, Repr, Inhabited

/-- A whole machine. -/
structure Config where
  lineSize : Nat := 0
  /-- Cycles between progress notes; `0` disables them. -/
  heartbeat : Nat := 100000
  /-- Cycles between checks for stale packets; `0` disables them. -/
  periodicCheck : Nat := 10000
  maxAliveTime : Nat := 1000000
  interconnectLatency : Nat := 1
  directory : DirectoryConfig := {}
  caches : List CacheConfig := []
  memory : MemoryConfig := {}
  cores : List CoreConfig := []
  deriving DecidableEq, Repr, Inhabited

end CacheHierarchy
