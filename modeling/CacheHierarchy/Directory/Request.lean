import CacheHierarchy.Directory.Coherence
import CacheHierarchy.Cache.Victim

set_option autoImplicit false

/-! # Requests

How the directory treats a request a cache takes from its MSHR. The request's packet comes
back changed, and its phase tells the cache what to do next: retry it later (`untreated`),
send it on (`transmit`), wait for its answer (`waiting`), or retire it (`ready`).

1. A request entering the hierarchy at this cache (a first-level cache, or a cache that
   owns it, such as a prefetch) waits while another transaction holds its line, unless both
   only read. It must have no directory entry yet. A request from above must have one.
2. A writeback from above is absorbed: its line is installed owned (`absorbWriteback`).
3. If the cache is already in the chain of a transaction on this line, a request that hits
   joins it and waits; any other request retries.
4. A hit is served: retired at its owner, or turned into an answer for the cache below
   which asked. A write that hits is retired.
5. A miss installs the line, in a free or evicted way (`makeRoom`), joins the chain of its
   transaction, and asks the caches above for the freshest copy (`ownerAbove`). A write
   goes on as a read. If a copy was found above, the request becomes an answer handled
   here after both penalties; otherwise it is sent to the next component towards memory.

Evicting a dirty victim queues its writeback first (`writeBack`), which needs a free slot in
the writeback range; without one, nothing is evicted and the request retries.
-/

namespace CacheHierarchy

namespace Action

/-- Queue the writeback of the line at `index`, `way` of cache `id` towards memory, and
lock its line with a new directory entry. `false` when the writeback range is full. -/
def writeBack (id index way now : Nat) : Action Bool := do
  let c ← cache id
  let tag := (c.line index way).tag
  let dst ← ofExcept ((← get).nextHop c tag)
  let d ← directory
  let p := (Packet.request id 0 0 0 tag d.lineSize .writeback now).route id dst
    |>.enterNow .transmit now
  match c.allocate .writeback p with
  | (none, c) => putCache id c; pure false
  | (some _, c) =>
    putCache id ((c.countUsage fun u => { u with sendWriteback := u.sendWriteback + 1 }).count
      fun s => { s with writeback := s.writeback + 1 })
    let (k, d) := d.openEntry p now
    updateDirectory fun _ => d.modifyEntry k (·.stamp id)
    pure true

/-- Free a way of cache `id` for the line of `addr`: the victim's way, or `none` when no way
can be freed now. A dirty victim is written back; under inclusion the victim first takes a
dirty copy from above, and every copy above is dropped. -/
def makeRoom (id : Nat) (addr : UInt64) (now : Nat) : Action (Option (Nat × Nat)) := do
  let c ← cache id
  let (victim, c) ← ofExcept (c.victim addr (← directory).isLocked)
  putCache id c
  let some (index, way) := victim | pure none
  let line := c.line index way
  let h ← get
  let inclusive := h.isInclusiveAt c
  let countEviction : Action Unit := updateCache id (·.count fun s =>
    { s with eviction := s.eviction + 1 })
  if h.needWriteback c line.status then
    unless ← writeBack id index way now do return none
    countEviction
  else if inclusive then
    let st ← writebackOwner id line.tag
    updateCache id (·.changeStatus index way st)
    if h.needWriteback c st then
      updateCache id (·.countUsage fun u => { u with recvWriteback := u.recvWriteback + 1 })
      unless ← writeBack id index way now do return none
    if line.status != .i then countEviction
  else if line.status != .i then countEviction
  if inclusive then evictAbove id line.tag
  updateCache id (·.countUsage fun u => { u with eviction := u.eviction + 1 })
  pure (some (index, way))

/-- Count an access of operation `o` in cache `id` and in the directory, as a hit or a
miss. -/
def countAccess (id : Nat) (o : Operation) (hit : Bool) : Action Unit := do
  if hit then
    updateCache id (·.count (·.addHit o))
    updateDirectory (·.count fun s => { s with hit := s.hit.bump o })
  else
    updateCache id (·.count (·.addMiss o))
    updateDirectory (·.count fun s => { s with miss := s.miss.bump o })

/-- Absorb a writeback from above into cache `id`: the line is installed owned, and the
transaction's entry, if it has one here, is closed. A writeback returning to the cache
that started it is an error. -/
def absorbWriteback (id : Nat) (p : Packet) (entry : Option Nat) (now : Nat) :
    Action Packet := do
  if p.owner == id then fail (.writebackLoop id)
  let c ← cache id
  let found := c.findLine p.addr
  let place ← match found with
    | some v => pure (some v)
    | none => makeRoom id p.addr now
  let some (index, way) := place | Fault.check (p.enter .untreated now 1)
  countAccess id .writeback found.isSome
  updateCache id fun c =>
    ((c.countUsage fun u => { u with recvWriteback := u.recvWriteback + 1 }).changeAddress
      index way p.addr).changeStatus index way .i
  applyOperation id index way p true now
  let q ← Fault.check (p.enter .ready now (← cache id).penaltyWrite)
  if let some k := entry then updateDirectory (·.close k)
  pure q

/-- Put cache `id` on top of the chain of `p`'s transaction: on the entry `entry` it came
with, or on a new entry opened at the end. -/
def stampEntry (id : Nat) (p : Packet) (entry : Option Nat) (now : Nat) : Action Unit := do
  match entry with
  | some k => updateDirectory (·.modifyEntry k (·.stamp id))
  | none =>
    let (k, d) := (← directory).openEntry p now
    updateDirectory fun _ => d.modifyEntry k (·.stamp id)

/-- Count a line hit in the line-usage counters of cache `id`. -/
def countLineHit (id : Nat) : Action Unit :=
  updateCache id (·.countUsage fun u => { u with lineHit := u.lineHit + 1 })

/-- Serve request `p` from the valid line at `index`, `way` of cache `id` (`c` before it is
counted): retired at its owner or for a write, else turned into an answer for the cache
below that asked. -/
def serve (id : Nat) (c : Cache) (p : Packet) (index way now : Nat) : Action Packet := do
  countAccess id p.op true
  countLineHit id
  applyOperation id index way p true now
  Fault.check (if p.owner == id then p.enter .ready now c.penaltyRead
    else if p.op == .write then p.enter .ready now c.penaltyWrite
    else ({ p with isAnswer := true }.route id p.src).enter .transmit now c.penaltyRead)

/-- Pass on request `p`, whose line sits at `index`, `way` of cache `id`: a line that came
valid from above makes the request an answer handled here after both penalties; otherwise
the request goes to the next component towards memory. -/
def passOn (id : Nat) (p : Packet) (index way now : Nat) : Action Packet := do
  let c ← cache id
  if (c.line index way).status != .i then
    let stall ← Fault.check (Word.add c.penaltyRead c.penaltyWrite)
    Fault.check ({ p with isAnswer := true }.enter .untreated now stall)
  else
    let dst ← ofExcept ((← get).nextHop c p.addr)
    Fault.check ((p.route id dst).enter .transmit now c.penaltyRead)

/-- Install the line of request `p` at `index`, `way` of cache `id` (`c` before the request),
stamp the transaction's chain, and take the freshest copy from above. A write goes on as a
read. -/
def install (id : Nat) (c : Cache) (p : Packet) (entry : Option Nat) (index way now : Nat) :
    Action Packet := do
  updateCache id fun c => (c.changeAddress index way p.addr).changeStatus index way .i
  stampEntry id p entry now
  let st ← ownerAbove id p.addr true
  updateCache id (·.changeStatus index way st)
  let p ← if st != .i then
      updateCache id (·.countUsage fun u => { u with recvWriteback := u.recvWriteback + 1 })
      pure p
    else
      updateCache id (·.countUsage fun u => { u with lineMiss := u.lineMiss + 1 })
      pure { p with size := c.lineSize }
  countLineHit id
  passOn id (if p.op == .write then { p with op := .read } else p) index way now

/-- A request that misses at cache `id`: it takes the way of its invalid line, if present,
or a way freed by `makeRoom`, and is installed there; with no way free it retries. -/
def miss (id : Nat) (c : Cache) (p : Packet) (entry : Option Nat) (found : Option (Nat × Nat))
    (now : Nat) : Action Packet := do
  countAccess id p.op false
  let place ← match found with
    | some (index, way) =>
      updateCache id (·.countUsage fun u => { u with eviction := u.eviction + 1 })
      pure (some (index, way))
    | none => makeRoom id p.addr now
  match place with
  | some (index, way) => install id c p entry index way now
  | none => Fault.check (p.enter .untreated now 1)

/-- Treat request `p` at cache `id` once its entry `entry` is settled, with `c` and `d` the
cache and the directory as the request found them: steps 2 to 5 above. -/
def proceed (id : Nat) (c : Cache) (d : Directory) (p : Packet) (entry : Option Nat)
    (now : Nat) : Action Packet := do
  if p.op == .writeback then absorbWriteback id p entry now
  else
    let found := c.findLine p.addr
    let hit := Directory.isHit (found.map fun (i, w) => (c.line i w).status) p.op
    if d.entries.any fun e => e.orderOf id != 0 && d.sameLine e.addr p.addr then
      if hit && found.isSome then
        countLineHit id
        stampEntry id p entry now
        updateDirectory (·.count fun s => { s with parallelRequest := s.parallelRequest + 1 })
        pure (p.enterNow .waiting now)
      else Fault.check (p.enter .untreated now 1)
    else
      match hit, found with
      | true, some (index, way) => serve id c p index way now
      | _, _ => miss id c p entry found now

/-- Treat the request `p` that cache `id` took from its MSHR at `now`. -/
def request (id : Nat) (p : Packet) (now : Nat) : Action Packet := do
  let c ← cache id
  let d ← directory
  if c.level == 1 || p.owner == id then
    if d.entries.any fun e => d.sameLine e.addr p.addr && !(p.op.isRead && e.lock == .read) then
      updateDirectory (·.count fun s => { s with lockConflict := s.lockConflict + 1 })
      Fault.check (p.enter .untreated now 1)
    else if (d.findEntry p).isSome then fail (.unexpectedDirectoryLine id p)
    else proceed id c d p none now
  else
    match d.findEntry p with
    | some k => proceed id c d p (some k) now
    | none => fail (.missingDirectoryLine id p)

end Action

end CacheHierarchy
