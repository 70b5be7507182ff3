import CacheHierarchy.Cache.Admit
import CacheHierarchy.Directory.Request
import CacheHierarchy.Directory.Answer

set_option autoImplicit false

/-! # One cycle of a cache

In each cycle a cache that has work first retires its finished packets, then handles at
most one packet of each class, the oldest eligible one, in this order:

1. an answer to send: once delivered it is done after the send-answer gap;
2. a request to send: once delivered the directory says whether it waits for an answer
   (after the send-request gap) or is done;
3. an answer to treat, given to the directory; one it sends back to retry is reborn;
4. a request to treat, likewise;

and last it moves the oldest generated prefetch into its MSHR, if a slot is free.

A packet for another cache is offered to that cache; any other destination is a **sink**
(memory controllers and cores), which may also refuse it. A send passes the cache's send
throttle of its class, and a delivered packet closes that throttle for the gap.
-/

namespace CacheHierarchy

/-- Where packets for components that are not caches go: the link latency, and the
delivery into a state `σ`, which may refuse the packet. -/
structure Sink (σ : Type) where
  latency : Nat
  deliver : Packet → Nat → σ → Except Fault (Bool × σ)

/-- A step of the caches and a sink: it may stop at a fault, keeping the changes made before
it. -/
abbrev Tick (σ : Type) := ExceptT Fault (StateM (Hierarchy × σ))

namespace Tick

variable {σ : Type}

/-- Run a coherence action on the hierarchy. -/
def lift {α : Type} (a : Action α) : Tick σ α := do
  let (h, s) ← get
  let (r, h) := Id.run (a.run.run h)
  set (h, s)
  match r with
  | .ok x => pure x
  | .error f => throw f

/-- Offer the packet in `slot` of cache `id` to its destination at `now`: whether it was
delivered. -/
def send (sink : Sink σ) (id slot now : Nat) : Tick σ Bool := do
  let c ← lift (Action.cache id)
  let some p := c.mshr.get? slot | return false
  let gate := if p.isAnswer then c.gates.sendAnswer else c.gates.sendRequest
  if !gate.isOpen now then return false
  let (h, s) ← get
  let delivered ← match h.caches[p.dst]? with
    | some dst =>
      let (r, dst) := (Cache.receive p now sink.latency).runOn dst
      set (h.setCache dst, s)
      match r with
      | .ok b => pure b
      | .error f => throw f
    | none =>
      match sink.deliver p now s with
      | .ok (b, s) => set (h, s); pure b
      | .error f => throw f
  if delivered then
    lift (Action.onCache id do
      let c ← get
      if p.isAnswer then
        let gate ← Fault.check (c.gates.sendAnswer.pass now)
        set { c with gates.sendAnswer := gate }
      else
        let gate ← Fault.check (c.gates.sendRequest.pass now)
        set { c with gates.sendRequest := gate })
  pure delivered

/-- The oldest packet of cache `id` that may move at `now` in phase `phase`, answer or not. -/
def eligible (id now : Nat) (phase : Phase) (answer : Bool) : Tick σ (Option Nat) := do
  let c ← lift (Action.cache id)
  pure (c.mshr.firstEligible now fun p => p.phase == phase && p.isAnswer == answer)

/-- Store the packet treated from `slot` back; one sent back to retry is reborn at `now`. -/
def store (id slot now : Nat) (p : Packet) (retry : Bool) : Tick σ Unit :=
  lift (Action.updateCache id fun c =>
    let m := c.mshr.put slot p
    { c with mshr := if retry then m.rebirth slot now else m })

/-- Send the oldest answer that is ready to go, if any: once delivered it is done after the
send-answer gap. -/
def sendAnswer (sink : Sink σ) (id now : Nat) : Tick σ Unit := do
  if let some slot ← eligible id now .transmit true then
    if ← send sink id slot now then
      lift (Action.onCache id do
        let c ← get
        if let some p := c.mshr.get? slot then
          let p ← Fault.check (p.enter .ready now c.gates.sendAnswer.gap)
          set { c with mshr := c.mshr.put slot p })

/-- Send the oldest request that is ready to go, if any: once delivered the directory says
whether it waits for an answer (after the send-request gap) or is done. -/
def sendRequest (sink : Sink σ) (id now : Nat) : Tick σ Unit := do
  if let some slot ← eligible id now .transmit false then
    if ← send sink id slot now then
      if let some p := (← lift (Action.cache id)).mshr.get? slot then
        let phase ← lift (Action.sent id p)
        let c ← lift (Action.cache id)
        let p ← Fault.check
          (p.enter (if phase == .waiting then .waiting else .ready) now c.gates.sendRequest.gap)
        store id slot now p false

/-- Give the oldest answer to treat to the directory, if any; one it sends back is reborn. -/
def treatAnswer (id now : Nat) : Tick σ Unit := do
  if let some slot ← eligible id now .untreated true then
    if let some p := (← lift (Action.cache id)).mshr.get? slot then
      let q ← lift (Action.answer id p now)
      store id slot now q (q.phase == .untreated)

/-- Give the oldest request to treat to the directory, if any; one it sends back to retry is
reborn. -/
def treatRequest (id now : Nat) : Tick σ Unit := do
  if let some slot ← eligible id now .untreated false then
    if let some p := (← lift (Action.cache id)).mshr.get? slot then
      let q ← lift (Action.request id p now)
      store id slot now q (q.phase == .untreated && !q.isAnswer)

/-- Move the oldest generated prefetch into the MSHR, if a slot is free. -/
def takePrefetch (id now : Nat) : Tick σ Unit := do
  let c ← lift (Action.cache id)
  if let some front := c.prefetcher.buffer.front? then
    match c.allocatePrefetch front now with
    | (some _, c) => lift (Action.putCache id { c with prefetcher := c.prefetcher.pop.2 })
    | (none, c) => lift (Action.putCache id c)

/-- One cycle of cache `id` at `now`. -/
def clock (sink : Sink σ) (id now : Nat) : Tick σ Unit := do
  if (← lift (Action.cache id)).isIdle then return
  lift (Action.onCache id (Cache.retireFinished now))
  sendAnswer sink id now
  sendRequest sink id now
  treatAnswer id now
  treatRequest id now
  takePrefetch id now

end Tick

end CacheHierarchy
