import CacheHierarchy.Cache.Basic

set_option autoImplicit false

/-! # Admitting packets

A packet sent to a cache is admitted or refused; refusal is not an error, the sender tries
again later. A packet for another component or, in a banked cache, for another bank is a
protocol error.

* An answer passes the answer throttle and wakes the MSHR packet that waits for it: the
  first in slot order of the same transaction on the same line. It takes the answer's size
  and route, and is handled one cycle after the link latency. An answer nobody waits for is
  an error.
* A request passes the read or the write throttle and takes a slot of the request range,
  to be handled after the link latency. The prefetcher trains on every admitted request
  but a writeback.
-/

namespace CacheHierarchy

namespace Cache

/-- Whether MSHR packet `w` waits for the answer `a`. -/
def awaits (c : Cache) (a w : Packet) : Bool :=
  w.phase == .waiting && w.opcode == a.opcode && w.uop == a.uop && w.owner == a.owner &&
    c.fields.sameLine w.addr a.addr

/-- Take in an answer: whether it was admitted. The waiting packet takes the answer's size
and route before its cycle is set, which may overflow. -/
def admitAnswer (a : Packet) (now latency : Nat) : CacheStep Bool := do
  let c ← get
  if !c.gates.recvAnswer.isOpen now then return false
  let some slot := c.mshr.slots.findIdx? (fun o => o.any (c.awaits a))
    | throw (.protocol (.unwantedAnswer c.id a))
  let some w := c.mshr.get? slot | throw (.protocol (.unwantedAnswer c.id a))
  let w := { w with isAnswer := a.isAnswer, size := a.size }.route a.src a.dst
  set { c with mshr := c.mshr.put slot w }
  let stall ← Fault.check (Word.add latency 1)
  let w ← Fault.check (w.enter .untreated now stall)
  modify fun c => { c with mshr := c.mshr.put slot w }
  let gate ← Fault.check ((← get).gates.recvAnswer.pass now)
  modify fun c => { c with gates.recvAnswer := gate }
  pure true

/-- Take in a request: whether it was admitted. A full request range refuses it and is
counted. The gate closes, and the prefetcher trains, after the request is admitted. -/
def admitRequest (p : Packet) (now latency : Nat) : CacheStep Bool := do
  let c ← get
  let gate := if p.op.isRead then c.gates.recvRead else c.gates.recvWrite
  if !gate.isOpen now then return false
  let q ← Fault.check (p.enter .untreated now latency)
  let (slot, c) := c.allocate .request q
  set c
  if slot.isNone then return false
  let gate ← Fault.check (gate.pass now)
  modify fun c => if p.op.isRead then { c with gates.recvRead := gate }
    else { c with gates.recvWrite := gate }
  if p.op != .writeback then
    let (pf, stop) := (← get).prefetcher.train p now
    modify fun c => { c with prefetcher := pf }
    if let some o := stop then throw (.overflow o)
  pure true

/-- Take in a packet sent to this cache at `now` over a link of `latency` cycles: whether it
was admitted. -/
def receive (p : Packet) (now latency : Nat) : CacheStep Bool := do
  let c ← get
  if p.dst != c.id then throw (.protocol (.wrongDestination c.id p))
  if !c.ownsBank p.addr then throw (.protocol (.wrongBank c.id p))
  if p.isAnswer then admitAnswer p now latency else admitRequest p now latency

end Cache

end CacheHierarchy
