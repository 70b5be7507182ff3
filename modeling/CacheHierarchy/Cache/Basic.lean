import CacheHierarchy.Cache.Address
import CacheHierarchy.Cache.Line
import CacheHierarchy.Cache.Mshr
import CacheHierarchy.Cache.Stat
import CacheHierarchy.Config.Basic
import CacheHierarchy.Prefetch.Basic
import CacheHierarchy.Random.Stream

set_option autoImplicit false

/-! # Caches

A cache (or one bank of a banked cache) is a tag array, an MSHR, five throttles, a
prefetcher and its counters. It takes no coherence decision itself: every status change
comes from the directory. What it does alone is map addresses to sets, find lines, choose
victims (`Cache/Victim`), and admit packets into its MSHR (`Cache/Admit`).

A cache is built from its configuration, which is checked in a fixed order: the line size
is a power of two; the ways divide the lines into a power-of-two number of sets; the banks
are a power of two, the bank number is below them, and a banked cache has a bank field; no
MSHR range is empty; the replacement policy is one that is implemented; a banked cache has no
prefetcher. Then the tag array is laid out, which overflows when a field of the tags starts
past the word, and the MSHR's ranges are added up, which overflows past a word. Then the
prefetcher's own configuration must be sound, and last the MSHR's slots are laid out, which
overflows when they would take more memory than an array may.

The changes a cache makes alone are steps (`CacheStep`) that may stop at a fault, keeping
what they changed before it.
-/

namespace CacheHierarchy

def isPowerOfTwo (n : Nat) : Bool := n != 0 && (n &&& (n - 1)) == 0

example : isPowerOfTwo 64 = true ∧ isPowerOfTwo 48 = false ∧ isPowerOfTwo 0 = false := by
  decide

/-- A limit on one class of traffic: after a packet passes, the next may pass `gap` cycles
later. -/
structure Throttle where
  gap : Nat
  ready : Nat := 0
  deriving DecidableEq, Repr, Inhabited

namespace Throttle

/-- Whether a packet may pass at `now`. -/
def isOpen (t : Throttle) (now : Nat) : Bool := t.ready ≤ now

/-- The throttle after a packet passed at `now`; it opens again `gap` cycles later, a cycle
that must be a word. -/
def pass (t : Throttle) (now : Nat) : Except Overflow Throttle := do
  let ready ← Word.add now t.gap
  pure { t with ready }

end Throttle

/-- The five throttles of a cache. -/
structure Gates where
  sendAnswer : Throttle
  sendRequest : Throttle
  recvAnswer : Throttle
  recvRead : Throttle
  recvWrite : Throttle
  deriving DecidableEq, Repr, Inhabited

/-- The gates of a configuration, all open. -/
def Gates.ofThrottles (t : Throttles) : Gates :=
  { sendAnswer := ⟨t.sendAnswer, 0⟩, sendRequest := ⟨t.sendRequest, 0⟩,
    recvAnswer := ⟨t.recvAnswer, 0⟩, recvRead := ⟨t.recvRead, 0⟩,
    recvWrite := ⟨t.recvWrite, 0⟩ }

structure Cache where
  id : Nat
  label : String
  level : Nat
  bank : Nat
  banks : Nat
  lineSize : Nat
  lineNumber : Nat
  ways : Nat
  setCount : Nat
  replacement : Replacement
  penaltyRead : Nat
  penaltyWrite : Nat
  fields : AddressMap
  lines : TagArray
  mshr : Mshr
  /-- The caches one level closer to the cores. -/
  higher : List Nat := []
  /-- The caches one level closer to memory; none for a last-level cache. -/
  lower : List Nat := []
  usage : LineUsage := {}
  prefetcher : Prefetcher
  gates : Gates
  random : Random.Stream
  /-- The opcode number of the next prefetch the cache issues; writebacks use `0`. -/
  prefetchSequence : Nat := 1
  stat : CacheStat := {}
  deriving Repr, Inhabited

/-- A change of one cache that may stop at a fault, keeping the changes made before it. -/
abbrev CacheStep := ExceptT Fault (StateM Cache)

/-- Run a step on cache `c`: its result, and the cache after it. -/
def CacheStep.runOn {α : Type} (s : CacheStep α) (c : Cache) : Except Fault α × Cache :=
  Id.run (s.run.run c)

namespace Cache

/-- The tag array of a fresh cache: every way invalid, with its fresh tag. -/
def freshLines (fields : AddressMap) (sets ways bank : Nat) : TagArray :=
  Array.ofFn fun (i : Fin sets) => Array.ofFn fun (w : Fin ways) =>
    { tag := fields.freshTag i.val w.val bank }

/-- Check a cache configuration, for lines of `lineSize` bytes, in the order of the rules
above; the rules on the prefetcher come last, when it is built. -/
def validate (cfg : CacheConfig) (lineSize : Nat) : Except ConfigError Unit := do
  let label := cfg.label
  unless isPowerOfTwo lineSize do throw (.lineSizeNotPowerOfTwo lineSize)
  if cfg.associativity == 0 || cfg.lineNumber % cfg.associativity != 0 ||
      !isPowerOfTwo (cfg.lineNumber / cfg.associativity) then
    throw (.setsNotPowerOfTwo label cfg.lineNumber cfg.associativity)
  if !isPowerOfTwo cfg.totalBanks || cfg.bankNumber ≥ cfg.totalBanks ||
      (cfg.totalBanks > 1 && cfg.layout == .tagIndexOffset) then
    throw (.wrongBanks label cfg.bankNumber cfg.totalBanks)
  if cfg.mshrRequest == 0 then throw (.emptyMshrRange label .request)
  if cfg.mshrWriteback == 0 then throw (.emptyMshrRange label .writeback)
  if cfg.mshrPrefetch == 0 then throw (.emptyMshrRange label .prefetch)
  if cfg.replacement == .fifo || cfg.replacement == .lrf then
    throw (.unimplementedReplacement label cfg.replacement)
  if cfg.totalBanks > 1 && cfg.prefetcher.isEnabled then throw (.prefetchOnBankedCache label)

/-- Build cache `id` from its configuration, for lines of `lineSize` bytes. -/
def build (id : Nat) (cfg : CacheConfig) (lineSize : Nat) : Except BuildError Cache := do
  (validate cfg lineSize).mapError .config
  let sets := cfg.lineNumber / cfg.associativity
  let fields := AddressMap.ofLayout cfg.layout lineSize.log2 sets.log2 cfg.totalBanks.log2
  unless fields.fieldsInWord do throw (.overflow .shiftLeft)
  let slots ← (Word.add cfg.mshrRequest cfg.mshrWriteback).mapError .overflow
  let slots ← (Word.add slots cfg.mshrPrefetch).mapError .overflow
  let prefetcher ← (Prefetcher.build cfg.prefetcher cfg.label lineSize).mapError .config
  unless Mshr.fitsMemory slots do throw (.overflow .capacity)
  pure {
    id, label := cfg.label, level := cfg.level, bank := cfg.bankNumber,
    banks := cfg.totalBanks, lineSize, lineNumber := cfg.lineNumber, ways := cfg.associativity,
    setCount := sets, replacement := cfg.replacement, penaltyRead := cfg.penaltyRead,
    penaltyWrite := cfg.penaltyWrite, fields,
    lines := freshLines fields sets cfg.associativity cfg.bankNumber,
    mshr := Mshr.empty cfg.mshrRequest cfg.mshrWriteback cfg.mshrPrefetch,
    prefetcher, gates := Gates.ofThrottles cfg.throttle,
    random := Random.Stream.ofSeed cfg.randomSeed.toUInt64 }

/-- A cache with no cache below it is a last-level cache. -/
def isLastLevel (c : Cache) : Bool := c.lower.isEmpty

/-- Whether an address belongs to this cache's bank; a single bank takes every address. -/
def ownsBank (c : Cache) (addr : UInt64) : Bool :=
  c.banks ≤ 1 || c.fields.bankOf addr == c.bank

/-! ## The tag array -/

def line (c : Cache) (index way : Nat) : Line := c.lines.get index way

/-- The set and way holding the line of `addr`: the first way of its set whose tag is on
the same line. -/
def findLine (c : Cache) (addr : UInt64) : Option (Nat × Nat) :=
  let index := c.fields.indexOf addr
  ((c.lines.getD index #[]).findIdx? fun l => c.fields.sameLine l.tag addr).map (index, ·)

/-- The status of the line of `addr`, invalid when the cache does not hold it. -/
def statusOf (c : Cache) (addr : UInt64) : Status :=
  match c.findLine addr with
  | some (i, w) => (c.line i w).status
  | none => .i

/-- The cache with the line at `index`, `way` changed by `f`. -/
def modifyLine (c : Cache) (index way : Nat) (f : Line → Line) : Cache :=
  { c with lines := c.lines.modify index way f }

/-- Let the way at `index`, `way` hold the line of `addr`. -/
def changeAddress (c : Cache) (index way : Nat) (addr : UInt64) : Cache :=
  c.modifyLine index way fun l => { l with tag := c.fields.lineOf addr }

def changeStatus (c : Cache) (index way : Nat) (st : Status) : Cache :=
  c.modifyLine index way fun l => { l with status := st }

/-- Record an access at `now` to the line at `index`, `way`. -/
def touch (c : Cache) (index way : Nat) (now : Nat) : Cache :=
  c.modifyLine index way fun l => { l with lastAccess := now, usage := l.usage + 1 }

def countUsage (c : Cache) (f : LineUsage → LineUsage) : Cache := { c with usage := f c.usage }

def count (c : Cache) (f : CacheStat → CacheStat) : Cache := { c with stat := f c.stat }

/-! ## The MSHR -/

/-- Store `p` in range `r`: the slot, or `none` and one more full-range count. -/
def allocate (c : Cache) (r : MshrRange) (p : Packet) : Option Nat × Cache :=
  match c.mshr.allocate r p with
  | some (slot, m) => (some slot, { c with mshr := m })
  | none => (none, c.count (·.addFull r))

/-- Take in a prefetch the prefetcher generated: the cache owns it under the next prefetch
number, and it is to be handled at once. -/
def allocatePrefetch (c : Cache) (p : Packet) (now : Nat) : Option Nat × Cache :=
  let q := ({ p with owner := c.id, opcode := c.prefetchSequence, born := now }.route c.id
    c.id).enterNow .untreated now
  match c.allocate .prefetch q with
  | (some slot, c) => (some slot, { c with prefetchSequence := c.prefetchSequence + 1 })
  | (none, c) => (none, c)

/-- Whether the cache has nothing to do: an empty MSHR and no generated prefetch. -/
def isIdle (c : Cache) : Bool := c.mshr.count == 0 && c.prefetcher.buffer.items.isEmpty

/-- Release the packet in `slot`, done at `now`, recording how long it stayed: the range of
durations is widened before the total, which may overflow. -/
def retire (now slot : Nat) : CacheStep Unit := do
  let c ← get
  match c.mshr.release slot with
  | (some p, m) =>
    let d := (c.stat.wait.get p.op).widen (now - p.born)
    set { c with mshr := m, stat.wait := c.stat.wait.set p.op d }
    let d ← Fault.check (d.accumulate (now - p.born))
    modify fun c => { c with stat.wait := c.stat.wait.set p.op d }
  | (none, m) => set { c with mshr := m }

/-- Release the packets done at `now`, oldest first, recording how long each one stayed. -/
def retireFinished (now : Nat) : CacheStep Unit := do
  ((← get).mshr.finished now).forM (retire now)

/-- Change by `f` every packet that waits for an answer on the line of `addr`. -/
def updateWaiting (c : Cache) (addr : UInt64) (f : Packet → Packet) : Cache :=
  { c with mshr := c.mshr.mapPackets fun p =>
      if p.phase == .waiting && c.fields.sameLine p.addr addr then f p else p }

theorem isLastLevel_iff (c : Cache) : c.isLastLevel = true ↔ c.lower = [] := by
  simp [isLastLevel]

end Cache

end CacheHierarchy
