import CacheHierarchy.Cache.Basic
import CacheHierarchy.Directory.Basic

set_option autoImplicit false

/-! # The hierarchy

The caches of a machine, indexed by their ids, and the directory that keeps them coherent.
Every coherence action reads and changes both, so it is a function of a `Hierarchy`.

The caches are built from the configuration in order, after two checks on the whole: no
label is used twice among caches and cores, and there is a memory controller. Then each
cache is linked to the caches it names below it, in both directions, and each core's caches
must exist and be on level 1.
-/

namespace CacheHierarchy

/-- The id of the first cache with label `label`. -/
def Config.cacheId (cfg : Config) (label : String) : Except ConfigError Nat :=
  match cfg.caches.findIdx? (·.label == label) with
  | some id => .ok id
  | none => .error (.unknownCache label)

/-- The first label seen twice in `labels`, given the labels `seen` before them. -/
def firstRepeated (seen : List String) : List String → Option String
  | [] => none
  | l :: ls => if seen.contains l then some l else firstRepeated (l :: seen) ls

/-- Build every cache and link them. -/
def Config.buildCaches (cfg : Config) : Except BuildError (Array Cache) := do
  if let some l := firstRepeated [] (cfg.caches.map (·.label) ++ cfg.cores.map (·.label)) then
    throw (.config (.duplicatedLabel l))
  if cfg.memory.controllers == 0 then throw (.config .noMemoryController)
  let built ← cfg.caches.zipIdx.mapM fun (c, id) => Cache.build id c cfg.lineSize
  let mut caches := built.toArray
  for (c, id) in cfg.caches.zipIdx do
    for label in c.lowerLevel do
      let lower ← (cfg.cacheId label).mapError .config
      caches := caches.modify id fun x => { x with lower := x.lower ++ [lower] }
      caches := caches.modify lower fun x => { x with higher := x.higher ++ [id] }
  for core in cfg.cores do
    for label in core.dataCache :: core.instCache.toList do
      let id ← (cfg.cacheId label).mapError .config
      if (caches[id]?.map (·.level)) != some 1 then
        throw (.config (.wrongHierarchyLevel label))
  pure caches

/-- The caches of a machine and their directory. -/
structure Hierarchy where
  caches : Array Cache
  directory : Directory
  deriving Repr, Inhabited

namespace Hierarchy

/-- The hierarchy of `caches` under a fresh directory configured by `cfg`, with lines of
`lineSize` bytes and the memory controllers `memories`. -/
def new (cfg : DirectoryConfig) (lineSize : Nat) (caches : Array Cache) (memories : List Nat) :
    Hierarchy :=
  { caches,
    directory := { inclusion := cfg.inclusion, llcWriteback := cfg.llcWriteback,
                   nonLlcWriteback := cfg.nonLlcWriteback, lineSize, cacheCount := caches.size,
                   llc := (caches.toList.filter (·.isLastLevel)).map (·.id), memories } }

def get (h : Hierarchy) (id : Nat) : Except ProtocolError Cache :=
  match h.caches[id]? with
  | some c => .ok c
  | none => .error (.unknownComponent id)

def modifyCache (h : Hierarchy) (id : Nat) (f : Cache → Cache) : Hierarchy :=
  { h with caches := h.caches.modify id f }

def setCacheAt (h : Hierarchy) (id : Nat) (c : Cache) : Hierarchy :=
  { h with caches := h.caches.setIfInBounds id c }

/-- The hierarchy with cache `c` in place of the cache of its id. -/
def setCache (h : Hierarchy) (c : Cache) : Hierarchy := h.setCacheAt c.id c

def modifyDirectory (h : Hierarchy) (f : Directory → Directory) : Hierarchy :=
  { h with directory := f h.directory }

/-- Whether cache `c` must write back a line in status `st` before dropping it: the line is
dirty and writebacks are enabled for the cache's role, last level or not. -/
def needWriteback (h : Hierarchy) (c : Cache) (st : Status) : Bool :=
  st.isDirty && (if c.isLastLevel then h.directory.llcWriteback else h.directory.nonLlcWriteback)

/-- Whether cache `c` must hold every line held above it. -/
def isInclusiveAt (h : Hierarchy) (c : Cache) : Bool :=
  match h.directory.inclusion with
  | .nonInclusive => false
  | .inclusiveLlc => c.isLastLevel
  | .inclusiveAll => true

/-- The next component towards memory for `addr` from cache `c`: for a last-level cache the
memory controller the line interleaves to, else the first cache below that owns the
address's bank. -/
def nextHop (h : Hierarchy) (c : Cache) (addr : UInt64) : Except ProtocolError Nat :=
  if c.isLastLevel then
    let ms := h.directory.memories
    if ms.isEmpty then .error (.noRoute c.id addr)
    else .ok (ms.getD ((addr.toNat / h.directory.lineSize) % ms.length) 0)
  else
    match c.lower.find? (fun l => (h.caches[l]?).any (·.ownsBank addr)) with
    | some l => .ok l
    | none => .error (.noRoute c.id addr)

/-- The statuses of the line of `addr` in every cache that holds it valid, in id order. -/
def statusesOf (h : Hierarchy) (addr : UInt64) : List (String × Status) :=
  h.caches.toList.filterMap fun c =>
    let st := c.statusOf addr
    if st == .i then none else some (c.label, st)

end Hierarchy

/-- A coherence action: it reads and changes the hierarchy, and may stop at a protocol
error or an overflow. The changes made before it stay. -/
abbrev Action := ExceptT Fault (StateM Hierarchy)

namespace Action

def fail {α : Type} (e : ProtocolError) : Action α := throw (.protocol e)

/-- Cache `id`; a missing cache is an unknown component. -/
def cache (id : Nat) : Action Cache := do
  match (← get).caches[id]? with
  | some c => pure c
  | none => fail (.unknownComponent id)

def directory : Action Directory := return (← get).directory

def putCache (id : Nat) (c : Cache) : Action Unit := modify (·.setCacheAt id c)

def updateCache (id : Nat) (f : Cache → Cache) : Action Unit := modify (·.modifyCache id f)

def updateDirectory (f : Directory → Directory) : Action Unit := modify (·.modifyDirectory f)

/-- Stop with the error of `r`, or go on with its value. -/
def ofExcept {α : Type} (r : Except ProtocolError α) : Action α :=
  match r with
  | .ok a => pure a
  | .error e => fail e

/-- Run a step of cache `id`, keeping what it changed also when it stops. -/
def onCache {α : Type} (id : Nat) (s : CacheStep α) : Action α := do
  let (r, c) := s.runOn (← cache id)
  putCache id c
  match r with
  | .ok a => pure a
  | .error f => throw f

end Action

end CacheHierarchy
