import CacheHierarchy.Directory.Coherence

set_option autoImplicit false

/-! # Answers

How the directory treats an answer a cache takes from its MSHR, and a request the cache has
just sent.

An answer first wakes every packet of the cache waiting on the same line: they take the
answer's size and route and are handled at once. Then it walks down the chain of its
transaction's entry.

* At the owner of the transaction the entry is closed and the answer retires.
* Elsewhere the cache must be the latest in the chain; it leaves the chain. If it was the
  first, the entry is closed and the answer, restored to the operation, address and size
  the transaction started with, goes to the owner (a write retires here instead). Otherwise
  it goes to the cache before it in the chain.

Each time, the operation is applied to the cache's line, which must still be there.

A sent request waits for its answer, except a writeback, which is done once sent; a
last-level cache also closes the writeback's entry, since memory does not answer.
-/

namespace CacheHierarchy

namespace Action

/-- Apply the operation of answer `p` to the line of its address in cache `id`. -/
def answerOperation (id : Nat) (p : Packet) (now : Nat) : Action Unit := do
  let c ← cache id
  match c.findLine p.addr with
  | some (index, way) => applyOperation id index way p false now
  | none => fail (.lineVanished id p.addr)

/-- Treat the answer `p` that cache `id` took from its MSHR at `now`. -/
def answer (id : Nat) (p : Packet) (now : Nat) : Action Packet := do
  let d ← directory
  let some k := d.findEntry p | fail (.missingDirectoryLine id p)
  updateCache id fun c => c.updateWaiting p.addr fun w =>
    ({ w with isAnswer := p.isAnswer, size := p.size }.route p.src p.dst).enterNow .untreated now
  let penalty := (← cache id).penaltyWrite
  let e := d.entries.getD k default
  if e.owner == id then
    updateDirectory (·.close k)
    answerOperation id p now
    return ← Fault.check (p.enter .ready now penalty)
  if e.orderOf id != e.requested then fail (.wrongRequestOrder id (e.orderOf id) e.requested)
  let e := { e with requested := e.requested - 1, order := e.order.set id 0 }
  updateDirectory (·.modifyEntry k fun _ => e)
  if e.requested == 0 then
    updateDirectory (·.close k)
    let p := { p.route id e.owner with op := e.op, addr := e.addr, size := e.size }
    answerOperation id p now
    return ← Fault.check (p.enter (if e.op == .write then .ready else .transmit) now penalty)
  let some next := e.requesterAt e.requested | fail (.lostRequester id e.requested)
  let p := p.route id next
  answerOperation id p now
  Fault.check (p.enter .transmit now penalty)

/-- What cache `id` does with request `p` it has just sent: wait for the answer, or, for a
writeback, retire it. -/
def sent (id : Nat) (p : Packet) : Action Phase := do
  if p.op != .writeback then return .waiting
  if (← cache id).isLastLevel then
    let some k := (← directory).findEntry p | fail (.missingDirectoryLine id p)
    updateDirectory (·.close k)
  pure .ready

end Action

end CacheHierarchy
