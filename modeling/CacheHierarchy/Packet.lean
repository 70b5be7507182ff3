import CacheHierarchy.Operation
import CacheHierarchy.Word

set_option autoImplicit false

/-! # Packets

A packet is one memory transaction as a single component holds it: who started it (the
owner, with its opcode and micro-op numbers and the program counter of the access), the
address, size and operation, where it travels (source and destination component ids),
whether it is the answer coming back, and its phase in the component with the cycle from
which it may move on. Packets are compared by their transaction: owner, opcode and micro-op.

That cycle is a word: a packet whose stall would carry it past the last cycle stops the
machine (`enter`).
-/

namespace CacheHierarchy

/-- Where a packet stands inside a component. -/
inductive Phase where
  /-- Waiting to be handled by the component. -/
  | untreated
  /-- Sent on; waiting for the answer from below. -/
  | waiting
  /-- To be sent to its destination. -/
  | transmit
  /-- Done; leaves the component at its ready cycle. -/
  | ready
  deriving DecidableEq, Repr, Inhabited

/-- The name of a phase in upper case. -/
def Phase.name : Phase → String
  | .untreated => "UNTREATED"
  | .waiting => "WAIT"
  | .transmit => "TRANSMIT"
  | .ready => "READY"

/-- One memory transaction as a component holds it. -/
structure Packet where
  owner : Nat := 0
  opcode : Nat := 0
  pc : UInt64 := 0
  uop : Nat := 0
  addr : UInt64 := 0
  size : Nat := 0
  op : Operation := .read
  phase : Phase := .untreated
  isAnswer : Bool := false
  src : Nat := 0
  dst : Nat := 0
  ready : Nat := 0
  born : Nat := 0
  deriving DecidableEq, Repr, Inhabited

namespace Packet

/-- A fresh request leaving `owner` at cycle `now`, addressed to the owner itself. -/
def request (owner opcode : Nat) (pc : UInt64) (uop : Nat) (addr : UInt64) (size : Nat)
    (op : Operation) (now : Nat) : Packet :=
  { owner, opcode, pc, uop, addr, size, op, src := owner, dst := owner, ready := now,
    born := now }

def route (p : Packet) (src dst : Nat) : Packet := { p with src, dst }

/-- The packet in phase `phase`, able to move on `stall` cycles after `now`; the cycle must
be a word. -/
def enter (p : Packet) (phase : Phase) (now stall : Nat) : Except Overflow Packet := do
  let ready ← Word.add now stall
  pure { p with phase, ready }

/-- The packet in phase `phase`, able to move on at once. -/
def enterNow (p : Packet) (phase : Phase) (now : Nat) : Packet := { p with phase, ready := now }

/-- Whether the packet may move on at cycle `now`. -/
def isReadyAt (p : Packet) (now : Nat) : Bool := p.ready ≤ now

/-- Whether the packet was born within `maxAge` cycles before `now`. -/
def isYoung (p : Packet) (now maxAge : Nat) : Bool := now - maxAge ≤ p.born

/-- Two packets of one transaction: same owner, opcode and micro-op. -/
def sameTransaction (p q : Packet) : Bool :=
  p.owner == q.owner && p.opcode == q.opcode && p.uop == q.uop

/-- The one-line description of a packet used in messages and views. -/
def render (p : Packet) : String :=
  "OWNER:" ++ toString p.owner ++ " OPCODE:#" ++ toString p.opcode ++ "(" ++
    Text.hex p.pc.toNat ++ ") UOP:#" ++ toString p.uop ++ " | " ++ p.op.name ++ " " ++
    Text.hex p.addr.toNat ++ " size:" ++ toString p.size ++ " | " ++ p.phase.name ++
    " answer:" ++ Text.boolWord p.isAnswer ++ " | " ++ toString p.src ++ "->" ++
    toString p.dst ++ " | ready:" ++ toString p.ready ++ " born:" ++ toString p.born

theorem enter_eq_ok (p : Packet) (phase : Phase) {now stall : Nat}
    (h : now + stall < wordSize) :
    p.enter phase now stall = .ok { p with phase, ready := now + stall } := by
  rw [enter, Word.add_eq_ok h]
  rfl

@[simp] theorem enterNow_phase (p : Packet) (phase : Phase) (now : Nat) :
    (p.enterNow phase now).phase = phase := rfl

@[simp] theorem enterNow_ready (p : Packet) (phase : Phase) (now : Nat) :
    (p.enterNow phase now).ready = now := rfl

end Packet

end CacheHierarchy
