import CacheHierarchy.Machine.Basic

set_option autoImplicit false

/-! # One cycle of a machine

A cycle runs the components in a fixed order:

1. unless the machine drains, each core in turn offers its next request to its cache, and
   learns whether it was taken;
2. each cache runs its cycle, in id order;
3. each memory controller offers its oldest finished answer to the cache it goes to;
4. when every core has finished its trace, the drain starts; while draining, the drain
   takes its step, and the machine has drained once the hierarchy is clean and every memory
   controller idle.

A packet for a component id that does not exist stops the cycle with an error.
-/

namespace CacheHierarchy

/-- A step of a machine: it may stop at a fault, keeping the changes made before it. -/
abbrev Run := ExceptT Fault (StateM Machine)

namespace Run

/-- Run a step of the caches and the outside. -/
def tick {α : Type} (t : Tick Outside α) : Run α := do
  let m ← get
  let (r, (h, o)) := Id.run (t.run.run (m.hierarchy, m.outside))
  set { m with hierarchy := h, outside := o }
  match r with
  | .ok x => pure x
  | .error f => throw f

/-- Offer packet `p` at `now` to the cache it is for: whether it was taken. -/
def offer (p : Packet) (now : Nat) : Run Bool := do
  let m ← get
  let some c := m.caches[p.dst]? | throw (.protocol (.unknownComponent p.dst))
  let (r, c) := (Cache.receive p now m.latency).runOn c
  set { m with hierarchy := m.hierarchy.setCache c }
  match r with
  | .ok b => pure b
  | .error f => throw f

def updateCore (i : Nat) (f : Core → Core) : Run Unit :=
  modify fun m => { m with outside.cores := m.outside.cores.modify i f }

def updateMemory (i : Nat) (f : Memory → Memory) : Run Unit :=
  modify fun m => { m with outside.memories := m.outside.memories.modify i f }

/-- Core `i` issues its next request, if it has one, at `now`. -/
def issue (now i : Nat) : Run Unit := do
  let some core := (← get).outside.cores[i]? | return
  let (next, core) := core.nextRequest now
  updateCore i fun _ => core
  let some p := next | return
  if ← offer p now then updateCore i (·.requestSent p now) else updateCore i (·.requestRejected)

/-- Memory controller `i` offers its finished answer, if it has one, at `now`. -/
def answer (now i : Nat) : Run Unit := do
  let some mem := (← get).outside.memories[i]? | return
  let some a := mem.readyAnswer now | return
  if ← offer a now then
    let mem ← Fault.check (((← get).outside.memories.getD i mem).answerSent now)
    updateMemory i fun _ => mem

/-- One step of the drain at `now`: whether the hierarchy is clean. -/
def drainStep (now : Nat) (cur : DrainCursor) : Run Bool := do
  let m ← get
  let (r, (h, cur)) := Id.run ((Drain.step now).run.run (m.hierarchy, cur))
  set { m with hierarchy := h, drain := some cur }
  match r with
  | .ok b => pure b
  | .error f => throw f

def cycle (now : Nat) : Run Unit := do
  let m ← get
  if m.drain.isNone then (List.range m.outside.cores.size).forM (issue now)
  let m ← get
  (List.range m.caches.size).forM fun id => tick (Tick.clock (Outside.sink m.latency) id now)
  (List.range (← get).outside.memories.size).forM (answer now)
  let m ← get
  if m.drain.isNone && !m.drained && m.outside.cores.all (·.isFinished) then
    set m.startDrain
  if let some cur := (← get).drain then
    if (← drainStep now cur) && (← get).outside.memories.all (·.isIdle) then
      modify fun m => { m with drain := none, drained := true }

end Run

end CacheHierarchy
