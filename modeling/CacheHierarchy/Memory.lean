import CacheHierarchy.Config.Basic
import CacheHierarchy.Durations
import CacheHierarchy.Error

set_option autoImplicit false

/-! # Memory controllers

A memory controller is a fixed-latency channel behind the last-level caches. It answers
requests in arrival order, each once its latency has passed, and at most one answer per
`sendLatency` cycles. Writebacks are absorbed on arrival. A full queue refuses a request,
which is then retried by the cache. A cycle past the last word stops the machine.
-/

namespace CacheHierarchy

structure MemoryStat where
  requests : PerOperation := {}
  answers : Nat := 0
  fullQueue : Nat := 0
  /-- The age of each transaction when its answer leaves. -/
  age : Durations := {}
  deriving DecidableEq, Repr, Inhabited

/-- A memory controller. -/
structure Memory where
  id : Nat
  label : String
  latency : Nat
  /-- The most requests queued at once, at least one. -/
  capacity : Nat
  sendLatency : Nat
  /-- The first cycle at which the next answer may leave. -/
  sendReady : Nat := 0
  /-- Requests waiting for their answer, oldest first. -/
  queue : List Packet := []
  stat : MemoryStat := {}
  deriving Repr, Inhabited

namespace Memory

/-- A controller with an empty queue. -/
def new (id : Nat) (label : String) (cfg : MemoryConfig) : Memory :=
  { id, label, latency := cfg.latency, capacity := Nat.max cfg.bufferSize 1,
    sendLatency := cfg.sendLatency }

/-- Take a request arriving at `now` over a link of `linkLatency` cycles: `false` when the
queue is full. The packet must be addressed to this controller and not be an answer. -/
def receive (m : Memory) (p : Packet) (now linkLatency : Nat) : Except Fault (Bool × Memory) := do
  if p.dst != m.id then throw (.protocol (.wrongDestination m.id p))
  if p.isAnswer then throw (.protocol (.unwantedAnswer m.id p))
  if p.op == .writeback then
    return (true, { m with stat := { m.stat with requests := m.stat.requests.bump p.op } })
  if m.queue.length ≥ m.capacity then
    return (false, { m with stat := { m.stat with fullQueue := m.stat.fullQueue + 1 } })
  let stall ← Fault.check (Word.add linkLatency m.latency)
  let q ← Fault.check (p.enter .waiting now stall)
  pure (true, { m with
    queue := m.queue ++ [q]
    stat := { m.stat with requests := m.stat.requests.bump p.op } })

/-- The answer due at `now`, if the channel is free and the oldest request is ready: it goes
back to the request's source. -/
def readyAnswer (m : Memory) (now : Nat) : Option Packet :=
  if m.sendReady > now then none
  else
    match m.queue with
    | p :: _ =>
      if p.isReadyAt now then some { p with isAnswer := true, src := m.id, dst := p.src,
                                            phase := .transmit }
      else none
    | [] => none

/-- The answer of the oldest request was accepted at `now`; the channel is free again
`sendLatency` cycles later. -/
def answerSent (m : Memory) (now : Nat) : Except Overflow Memory := do
  match m.queue with
  | p :: rest =>
    let age ← m.stat.age.add (now - p.born)
    let sendReady ← Word.add now m.sendLatency
    pure { m with queue := rest, sendReady,
                  stat := { m.stat with answers := m.stat.answers + 1, age } }
  | [] => pure m

/-- No request is waiting. -/
def isIdle (m : Memory) : Bool := m.queue.isEmpty

end Memory

end CacheHierarchy
