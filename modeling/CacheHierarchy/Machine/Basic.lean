import CacheHierarchy.Cache.Cycle
import CacheHierarchy.Directory.Drain
import CacheHierarchy.Memory
import CacheHierarchy.Trace.Core

set_option autoImplicit false

/-! # Machines

A machine is a cache hierarchy with its memory controllers and the cores that replay the
traces, and a clock. Component ids are laid out as the caches first (so a cache's id is its
place in the hierarchy), then the memory controllers, then the cores.

A machine also remembers whether it is draining (with the drain's cursor), whether it has
drained, and the protocol error that stopped it, if any: after such an error it cannot go
on.
-/

namespace CacheHierarchy

/-- Why a machine cannot be set up. -/
inductive SetupError where
  /-- The number of traces is not the number of cores. -/
  | traceCount (traces cores : Nat)
  | build (e : BuildError)
  deriving DecidableEq, Repr

def SetupError.message : SetupError → String
  | .traceCount t c => toString t ++ " traces given for " ++ toString c ++ " cores"
  | .build e => e.message

/-- The memory controllers and the cores: the components outside the hierarchy. -/
structure Outside where
  memories : Array Memory
  cores : Array Core
  deriving Repr, Inhabited

structure Machine where
  cycle : Nat := 0
  /-- Cycles a packet takes between two components. -/
  latency : Nat
  hierarchy : Hierarchy
  outside : Outside
  drain : Option DrainCursor := none
  drained : Bool := false
  failure : Option ProtocolError := none
  deriving Repr, Inhabited

namespace Outside

/-- Deliver `p` at `now` to the memory controller or core it is for. -/
def deliver (latency : Nat) (p : Packet) (now : Nat) (o : Outside) :
    Except Fault (Bool × Outside) :=
  match o.memories.findIdx? (·.id == p.dst) with
  | some i => do
    let (ok, m) ← (o.memories.getD i default).receive p now latency
    pure (ok, { o with memories := o.memories.set! i m })
  | none =>
    match o.cores.findIdx? (·.id == p.dst) with
    | some i => do
      let c ← (o.cores.getD i default).receive p now
      pure (true, { o with cores := o.cores.set! i c })
    | none => .error (.protocol (.unknownComponent p.dst))

/-- The outside as a sink for the caches. -/
def sink (latency : Nat) : Sink Outside := ⟨latency, deliver latency⟩

end Outside

namespace Machine

/-- Set up the machine of `cfg` with one trace per core, in order. -/
def new (cfg : Config) (traces : List Trace) : Except SetupError Machine := do
  if traces.length != cfg.cores.length then
    throw (.traceCount traces.length cfg.cores.length)
  let caches ← cfg.buildCaches.mapError .build
  let firstMemory := caches.size
  let memories := (List.range cfg.memory.controllers).map fun i =>
    Memory.new (firstMemory + i) ("mem" ++ toString i) cfg.memory
  let firstCore := firstMemory + memories.length
  let cores ← (cfg.cores.zip traces).zipIdx.mapM fun ((core, trace), i) => do
    let data ← (cfg.cacheId core.dataCache).mapError (.build ∘ .config)
    let inst ← match core.instCache with
      | some l => (cfg.cacheId l).mapError (.build ∘ .config)
      | none => pure data
    pure (Core.new (firstCore + i) core.label data inst core.maxOutstanding trace)
  -- the directory's line mask is one less than the line size, a word
  let _ ← (Word.sub cfg.lineSize 1).mapError (.build ∘ .overflow)
  pure { latency := cfg.interconnectLatency,
         hierarchy := Hierarchy.new cfg.directory cfg.lineSize caches (memories.map (·.id)),
         outside := ⟨memories.toArray, cores.toArray⟩ }

def caches (m : Machine) : Array Cache := m.hierarchy.caches

/-- The label of component `id`, if there is one. -/
def componentLabel (m : Machine) (id : Nat) : Option String :=
  match m.caches[id]? with
  | some c => some c.label
  | none =>
    ((m.outside.memories.toList.map fun x => (x.id, x.label)) ++
      (m.outside.cores.toList.map fun x => (x.id, x.label))).lookup id

def cacheLabelled (m : Machine) (label : String) : Option Cache :=
  m.caches.find? (·.label == label)

/-- The machine with its drain started, unless it is draining or drained already. -/
def startDrain (m : Machine) : Machine :=
  if m.drain.isNone && !m.drained then { m with drain := some {} } else m

end Machine

end CacheHierarchy
