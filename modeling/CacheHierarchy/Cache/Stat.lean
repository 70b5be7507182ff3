import CacheHierarchy.Operation
import CacheHierarchy.Durations
import CacheHierarchy.Error

set_option autoImplicit false

/-! # What a cache counts

A cache counts its accesses with their hits and misses per operation, the lines it
invalidated, evicted and wrote back (during the run and in the final drain), the times an
MSHR range was full, and per operation how long packets stayed in its MSHR. The line-usage
counters (`LineUsage`) are kept apart: they count what happened to lines, not to requests.
-/

namespace CacheHierarchy

/-- Durations per operation. -/
structure WaitTimes where
  read : Durations := {}
  inst : Durations := {}
  write : Durations := {}
  prefetch : Durations := {}
  writeback : Durations := {}
  deriving DecidableEq, Repr, Inhabited

namespace WaitTimes

def get (w : WaitTimes) : Operation → Durations
  | .read => w.read
  | .inst => w.inst
  | .write => w.write
  | .prefetch => w.prefetch
  | .writeback => w.writeback

def set (w : WaitTimes) (o : Operation) (d : Durations) : WaitTimes :=
  match o with
  | .read => { w with read := d }
  | .inst => { w with inst := d }
  | .write => { w with write := d }
  | .prefetch => { w with prefetch := d }
  | .writeback => { w with writeback := d }

/-- The five summaries, in counter order. -/
def toList (w : WaitTimes) : List Durations := Operation.all.map w.get

@[simp] theorem get_set_self (w : WaitTimes) (o : Operation) (d : Durations) :
    (w.set o d).get o = d := by
  cases o <;> rfl

end WaitTimes

structure CacheStat where
  accesses : Nat := 0
  hit : PerOperation := {}
  miss : PerOperation := {}
  subBlockMiss : Nat := 0
  invalidation : Nat := 0
  eviction : Nat := 0
  writeback : Nat := 0
  finalEviction : Nat := 0
  finalWriteback : Nat := 0
  fullRequest : Nat := 0
  fullWriteback : Nat := 0
  fullPrefetch : Nat := 0
  wait : WaitTimes := {}
  deriving DecidableEq, Repr, Inhabited

namespace CacheStat

def addHit (s : CacheStat) (o : Operation) : CacheStat :=
  { s with accesses := s.accesses + 1, hit := s.hit.bump o }

def addMiss (s : CacheStat) (o : Operation) : CacheStat :=
  { s with accesses := s.accesses + 1, miss := s.miss.bump o }

/-- Count a packet refused because range `r` of the MSHR was full. -/
def addFull (s : CacheStat) : MshrRange → CacheStat
  | .request => { s with fullRequest := s.fullRequest + 1 }
  | .writeback => { s with fullWriteback := s.fullWriteback + 1 }
  | .prefetch => { s with fullPrefetch := s.fullPrefetch + 1 }

/-- The three full-range counters: request, writeback, prefetch. -/
def fullList (s : CacheStat) : List Nat := [s.fullRequest, s.fullWriteback, s.fullPrefetch]

@[simp] theorem accesses_addHit (s : CacheStat) (o : Operation) :
    (s.addHit o).accesses = s.accesses + 1 := rfl

@[simp] theorem accesses_addMiss (s : CacheStat) (o : Operation) :
    (s.addMiss o).accesses = s.accesses + 1 := rfl

end CacheStat

/-- What happened to the lines of a cache: hits and misses on lines, lines written back
in both directions, evicted and invalidated. -/
structure LineUsage where
  lineHit : Nat := 0
  lineMiss : Nat := 0
  subBlockMiss : Nat := 0
  sendWriteback : Nat := 0
  recvWriteback : Nat := 0
  eviction : Nat := 0
  invalidation : Nat := 0
  deriving DecidableEq, Repr, Inhabited

/-- The seven counters in report order. -/
def LineUsage.toList (u : LineUsage) : List Nat :=
  [u.lineHit, u.lineMiss, u.subBlockMiss, u.sendWriteback, u.recvWriteback, u.eviction,
    u.invalidation]

end CacheHierarchy
