import CacheHierarchy.Directory.Request

set_option autoImplicit false

/-! # Draining the hierarchy

At the end of a run every cache is emptied, one hierarchy level at a time from the first
level down: dirty lines are written back, clean ones dropped. A line locked by a transaction
in flight is left for later, and a dirty line whose writeback finds the writeback range
full stops the set. The drain is done a little each cycle: it is called once per cycle until
it reports the hierarchy clean, and a **cursor** keeps the level being drained and, per
cache, the next set to flush.

The hierarchy is clean when the directory has no entry, no MSHR holds a packet, and every
line is invalid. A drain that reaches the end without finding it clean starts over.
-/

namespace CacheHierarchy

/-- How far a drain has come: the level being drained and the next set of each cache. -/
structure DrainCursor where
  level : Nat := 0
  nextSet : List Nat := []
  deriving DecidableEq, Repr, Inhabited

/-- A fresh cursor for the caches of `h`: the lowest level number, every cache at set 0. -/
def DrainCursor.start (h : Hierarchy) : DrainCursor :=
  { level := (h.caches.toList.map (·.level)).min?.getD 0,
    nextSet := List.replicate h.caches.size 0 }

/-- An action that also moves a drain cursor. The changes made before an error stay. -/
abbrev Drain := ExceptT Fault (StateM (Hierarchy × DrainCursor))

namespace Drain

/-- Run a coherence action on the hierarchy. -/
def lift {α : Type} (a : Action α) : Drain α := do
  let (h, cur) ← get
  let (r, h) := Id.run (a.run.run h)
  set (h, cur)
  match r with
  | .ok x => pure x
  | .error e => throw e

def cursor : Drain DrainCursor := return (← get).2

def moveCursor (f : DrainCursor → DrainCursor) : Drain Unit := modify fun (h, c) => (h, f c)

end Drain

namespace Action

/-- Flush the ways `ways` of set `index` of cache `id`; whether the set is clean so far is
`clean`. A locked line leaves the set unclean; a writeback that finds no slot stops it. -/
def flushWays (id index now : Nat) : List Nat → Bool → Action Bool
  | [], clean => pure clean
  | way :: rest, clean => do
    let c ← cache id
    let line := c.line index way
    if line.status == .i then flushWays id index now rest clean
    else if (← directory).isLocked line.tag then flushWays id index now rest false
    else
      if (← get).needWriteback c line.status then
        unless ← writeBack id index way now do return false
        updateCache id (·.count fun s => { s with finalWriteback := s.finalWriteback + 1 })
        updateDirectory (·.count fun s => { s with finalWriteback := s.finalWriteback + 1 })
      else
        updateCache id (·.count fun s => { s with finalEviction := s.finalEviction + 1 })
        updateDirectory (·.count fun s => { s with finalEviction := s.finalEviction + 1 })
      updateCache id fun c =>
        (c.countUsage fun u => { u with eviction := u.eviction + 1 }).changeStatus index way .i
      flushWays id index now rest clean

end Action

namespace Drain

/-- Flush the sets of cache `id` from the cursor's next set on, at most `fuel` of them;
whether the cache ended clean with an empty MSHR. -/
def flushSets (id now : Nat) : Nat → Drain Bool
  | 0 => do return (← lift (Action.cache id)).mshr.count == 0
  | fuel + 1 => do
    let c ← lift (Action.cache id)
    let index := (← cursor).nextSet.getD id 0
    if index ≥ c.setCount then return c.mshr.count == 0
    unless ← lift (Action.flushWays id index now (List.range c.ways) true) do return false
    moveCursor fun cur => { cur with nextSet := cur.nextSet.modify id (· + 1) }
    flushSets id now fuel

/-- Flush every cache of `ids` on level `level`; whether all of them ended clean. -/
def flushLevel (level now : Nat) : List Nat → Drain Bool
  | [] => pure true
  | id :: ids => do
    let c ← lift (Action.cache id)
    if c.level != level then flushLevel level now ids
    else
      let clean ← flushSets id now (c.setCount + 1)
      let rest ← flushLevel level now ids
      pure (clean && rest)

/-- Flush the levels from the cursor's level up to `maxLevel`, at most `fuel` of them;
whether they all ended clean. Passing the largest 32-bit level overflows. -/
def flushLevels (now maxLevel : Nat) : Nat → Drain Bool
  | 0 => pure true
  | fuel + 1 => do
    let level := (← cursor).level
    if level > maxLevel then return true
    let (h, _) ← get
    unless ← flushLevel level now (List.range h.caches.size) do return false
    -- the level is a 32-bit word: the cursor cannot pass the largest one
    if word32Size ≤ level + 1 then throw (.overflow .add)
    moveCursor fun cur => { cur with level := cur.level + 1 }
    flushLevels now maxLevel fuel

end Drain

/-- Whether the hierarchy is clean: no directory entry, no MSHR packet, no valid line. -/
def Hierarchy.isClean (h : Hierarchy) : Bool :=
  h.directory.entries.isEmpty && h.caches.all fun c => c.mshr.count == 0 && c.lines.isClean

/-- One cycle of the drain: whether the hierarchy is clean. -/
def Drain.step (now : Nat) : Drain Bool := do
  let (h, cur) ← get
  if cur.nextSet.length != h.caches.size then set (h, DrainCursor.start h)
  let maxLevel := (h.caches.toList.map (·.level)).max?.getD 0
  unless ← flushLevels now maxLevel (maxLevel + 1) do return false
  let (h, _) ← get
  unless h.isClean do set (h, DrainCursor.start h)
  pure h.isClean

end CacheHierarchy
