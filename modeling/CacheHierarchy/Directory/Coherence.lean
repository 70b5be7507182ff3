import CacheHierarchy.Hierarchy

set_option autoImplicit false

/-! # MOESI transitions

The directory changes line statuses by these rules.

* A new operation on a line (`applyOperation`): a read, fetch or prefetch turns an invalid
  line shared; a write first invalidates every other copy and makes the line modified; a
  received writeback makes the line owned. Each counts an access of the line.
* A request that misses asks the caches above for the freshest copy (`ownerAbove`): a cache
  holding the line modified or owned gives up ownership (keeping a shared copy) and the
  asker becomes owner; a clean copy makes it a sharer. A last-level cache asks all last-level
  caches that own the address's bank.
* A victim of an inclusive cache takes over a dirty copy from above (`writebackOwner`) and
  then every copy above it is dropped (`evictAbove`).

The walks above a cache follow the `higher` links, which form no cycle; they take a fuel
argument bounded by the number of caches, which a walk never exhausts.
-/

namespace CacheHierarchy

namespace Cache

/-- Invalidate the copy of `addr`, if the cache holds a valid one; the copy counts as
invalidated. -/
def invalidateCopy (c : Cache) (addr : UInt64) : Cache :=
  match c.findLine addr with
  | some (i, w) =>
    if (c.line i w).status == .i then c
    else ((c.countUsage fun u => { u with invalidation := u.invalidation + 1 }).changeStatus i w
      .i).count fun s => { s with invalidation := s.invalidation + 1 }
  | none => c

/-- Drop the copy of `addr` for an eviction below, if the cache holds a valid one; the line
counts as evicted and the cache counts an invalidation. -/
def evictCopy (c : Cache) (addr : UInt64) : Cache :=
  match c.findLine addr with
  | some (i, w) =>
    if (c.line i w).status == .i then c
    else ((c.countUsage fun u => { u with eviction := u.eviction + 1 }).changeStatus i w
      .i).count fun s => { s with invalidation := s.invalidation + 1 }
  | none => c

/-- Make the copy of `addr` shared, if the cache holds the line. -/
def shareCopy (c : Cache) (addr : UInt64) : Cache :=
  match c.findLine addr with
  | some (i, w) => c.changeStatus i w .s
  | none => c

end Cache

namespace Hierarchy

/-- The fuel of a walk along the `higher` links: more than the number of caches. -/
def depth (h : Hierarchy) : Nat := h.caches.size + 2

/-- Invalidate every copy of `addr` except the one of cache `id`. -/
def invalidateOthers (h : Hierarchy) (id : Nat) (addr : UInt64) : Hierarchy :=
  { h with caches := h.caches.map fun c => if c.id == id then c else c.invalidateCopy addr }

/-- The first of `ids` that `visit` finds a valid copy in: owned if the copy was dirty, after
`onDirty`, else shared; invalid when none has one. -/
def firstCopy (visit : Nat → Hierarchy → Status × Hierarchy) (onDirty : Hierarchy → Hierarchy) :
    List Nat → Hierarchy → Status × Hierarchy
  | [], h => (.i, h)
  | x :: xs, h =>
    match visit x h with
    | (.m, h) | (.o, h) => (.o, onDirty h)
    | (.e, h) | (.s, h) => (.s, h)
    | (.i, h) => firstCopy visit onDirty xs h

/-- The freshest copy of `addr` at or above cache `id`, taking ownership from a dirty one.
With `checkLlc` at a last-level cache, the walk starts at every last-level cache owning the
address's bank. A dirty copy found above a cache leaves that cache's own copy shared. -/
def ownerAbove : Nat → Hierarchy → Nat → UInt64 → Bool → Status × Hierarchy
  | 0, h, _, _, _ => (.i, h)
  | fuel + 1, h, id, addr, checkLlc =>
    match h.caches[id]? with
    | none => (.i, h)
    | some c =>
      let above := firstCopy (fun x h => ownerAbove fuel h x addr false)
        (fun h => h.modifyCache id (·.shareCopy addr)) c.higher
      if checkLlc && c.isLastLevel then
        let llcs := h.directory.llc.filter fun l => (h.caches[l]?).any (·.ownsBank addr)
        firstCopy (fun x h => ownerAbove fuel h x addr false) (fun h => h) llcs h
      else
        match c.findLine addr with
        | some (i, w) =>
          match (c.line i w).status with
          | .m | .o => (.o, h.setCacheAt id (c.changeStatus i w .s))
          | .e | .s => (.s, h)
          | .i => above h
        | none => above h

/-- The freshest copy of `addr` strictly above cache `id`, taking ownership from a dirty
one; the walk goes up each cache above in turn, nearest copy first. -/
def writebackOwner : Nat → Hierarchy → Nat → UInt64 → Status × Hierarchy
  | 0, h, _, _ => (.i, h)
  | fuel + 1, h, id, addr =>
    let visit (x : Nat) (h : Hierarchy) : Status × Hierarchy :=
      match h.caches[x]? with
      | none => (.i, h)
      | some c =>
        match c.findLine addr with
        | some (i, w) =>
          match (c.line i w).status with
          | .m | .o => (.o, h.setCacheAt x (c.changeStatus i w .s))
          | .e | .s => (.s, h)
          | .i => writebackOwner fuel h x addr
        | none => writebackOwner fuel h x addr
    firstCopy visit (fun h => h) (((h.caches[id]?).map (·.higher)).getD []) h

/-- Drop every copy of `addr` above cache `id`, the farthest first. -/
def evictAbove : Nat → Hierarchy → Nat → UInt64 → Hierarchy
  | 0, h, _, _ => h
  | fuel + 1, h, id, addr =>
    let dropFrom (h : Hierarchy) (x : Nat) : Hierarchy :=
      (evictAbove fuel h x addr).modifyCache x (·.evictCopy addr)
    (((h.caches[id]?).map (·.higher)).getD []).foldl dropFrom h

end Hierarchy

namespace Action

/-- The operation of `p` applied to the line at `index`, `way` of cache `id`; `received` is
set when the cache takes a writeback from above. Sending a writeback of an invalid line is
an error. -/
def applyOperation (id index way : Nat) (p : Packet) (received : Bool) (now : Nat) :
    Action Unit := do
  let c ← cache id
  let st := (c.line index way).status
  match p.op with
  | .read | .inst | .prefetch =>
    let c := c.touch index way now
    putCache id (if st == .i then c.changeStatus index way .s else c)
  | .write =>
    modify (·.invalidateOthers id p.addr)
    let c ← cache id
    putCache id ((c.touch index way now).changeStatus index way .m)
  | .writeback =>
    if !received && st == .i then fail (.writebackFromInvalidLine id p)
    putCache id ((c.touch index way now).changeStatus index way (if received then .o else .s))

def ownerAbove (id : Nat) (addr : UInt64) (checkLlc : Bool) : Action Status :=
  modifyGet fun h => h.ownerAbove h.depth id addr checkLlc

def writebackOwner (id : Nat) (addr : UInt64) : Action Status :=
  modifyGet fun h => h.writebackOwner h.depth id addr

def evictAbove (id : Nat) (addr : UInt64) : Action Unit :=
  modify fun h => h.evictAbove h.depth id addr

end Action

end CacheHierarchy
