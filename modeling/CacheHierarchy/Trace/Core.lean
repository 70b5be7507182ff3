import CacheHierarchy.Trace.Grammar
import CacheHierarchy.Packet
import CacheHierarchy.Durations
import CacheHierarchy.Error

set_option autoImplicit false

/-! # Cores

A core replays a trace into its first-level caches: instruction fetches go to its
instruction cache and all other accesses to its data cache. At most one access leaves per
cycle. Writes are posted; every other access holds an outstanding slot until its answer
comes back, and an access finds no slot when the core already has its maximum number
outstanding. Each access carries a fresh opcode number, counted from 1. The latencies of
the answers are summed in a word, which may overflow.
-/

namespace CacheHierarchy

/-- The list without its element at `i`, the last element moved into its place. A core
keeps its outstanding accesses this way, so an answer reorders them. -/
def swapRemove {α : Type} (xs : List α) (i : Nat) : List α :=
  match xs.getLast? with
  | some last => if i + 1 < xs.length then xs.dropLast.set i last else xs.take i
  | none => xs

example : swapRemove [1, 2, 3, 4] 1 = [1, 4, 3] := by decide
example : swapRemove [1, 2, 3] 2 = [1, 2] := by decide

theorem length_swapRemove {α : Type} (xs : List α) (i : Nat) (h : i < xs.length) :
    (swapRemove xs i).length = xs.length - 1 := by
  unfold swapRemove
  cases hl : xs.getLast? with
  | none => simp_all
  | some last =>
    simp only
    split
    · rw [List.length_set, List.length_dropLast]
    · rw [List.length_take]; omega

structure CoreStat where
  issued : PerOperation := {}
  answers : Nat := 0
  /-- Cycles in which the first-level cache refused the next access. -/
  rejected : Nat := 0
  /-- Cycles in which a read waited for an outstanding slot. -/
  outstandingFull : Nat := 0
  latency : Durations := {}
  deriving DecidableEq, Repr, Inhabited

/-- A core replaying its trace. -/
structure Core where
  id : Nat
  label : String
  dataCache : Nat
  instCache : Nat
  /-- The accesses not yet issued. -/
  pending : List Trace.Entry
  /-- The number of accesses issued. -/
  issuedCount : Nat := 0
  /-- The length of the whole trace. -/
  traceLength : Nat
  /-- The opcode number of the next access. -/
  opcode : Nat := 1
  maxOutstanding : Nat
  /-- Opcode number and issue cycle of each access waiting for its answer. -/
  outstanding : List (Nat × Nat) := []
  stat : CoreStat := {}
  deriving Repr, Inhabited

namespace Core

/-- A core at the start of its trace. A limit of zero outstanding accesses counts as one. -/
def new (id : Nat) (label : String) (dataCache instCache maxOutstanding : Nat)
    (trace : Trace) : Core :=
  { id, label, dataCache, instCache, pending := trace.entries,
    traceLength := trace.entries.length, maxOutstanding := Nat.max maxOutstanding 1 }

/-- The access the core wants to issue at `now`, addressed to its cache, if it has one and
a slot for it; a read without a slot is counted as a stall. -/
def nextRequest (c : Core) (now : Nat) : Option Packet × Core :=
  match c.pending with
  | [] => (none, c)
  | e :: _ =>
    if e.op != .write && c.outstanding.length ≥ c.maxOutstanding then
      (none, { c with stat := { c.stat with outstandingFull := c.stat.outstandingFull + 1 } })
    else
      let dst := if e.op == .inst then c.instCache else c.dataCache
      (some ((Packet.request c.id c.opcode e.pc 0 e.addr e.size e.op now).route c.id dst), c)

/-- The cache admitted the access `p` at `now`. -/
def requestSent (c : Core) (p : Packet) (now : Nat) : Core :=
  { c with
    stat := { c.stat with issued := c.stat.issued.bump p.op }
    outstanding := if p.op != .write then c.outstanding ++ [(p.opcode, now)] else c.outstanding
    pending := c.pending.drop 1
    issuedCount := c.issuedCount + 1
    opcode := c.opcode + 1 }

/-- The cache refused the access this cycle. -/
def requestRejected (c : Core) : Core :=
  { c with stat := { c.stat with rejected := c.stat.rejected + 1 } }

/-- Take an answer at `now`: it must be an answer addressed to this core for an access
still outstanding. -/
def receive (c : Core) (p : Packet) (now : Nat) : Except Fault Core := do
  let some i := c.outstanding.findIdx? (·.1 == p.opcode)
    | throw (.protocol (.unwantedAnswer c.id p))
  unless p.isAnswer && p.dst == c.id do throw (.protocol (.unwantedAnswer c.id p))
  let issued := (c.outstanding.getD i (0, 0)).2
  let latency ← Fault.check (c.stat.latency.add (now - issued))
  pure { c with
    outstanding := swapRemove c.outstanding i
    stat := { c.stat with answers := c.stat.answers + 1, latency } }

/-- The whole trace is issued and every answer is back. -/
def isFinished (c : Core) : Bool := c.pending.isEmpty && c.outstanding.isEmpty

end Core

end CacheHierarchy
