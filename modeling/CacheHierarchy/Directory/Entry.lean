import CacheHierarchy.Packet
import CacheHierarchy.Text.Layout

set_option autoImplicit false

/-! # Directory entries

The directory keeps one entry per transaction that crosses cache levels. An entry names the
transaction (owner, opcode and micro-op), the lock it holds on its line, the operation,
address and size it started with, its birth cycle, and the **chain** of caches it went
through: the `k`-th cache the request reached is stamped with order `k`, and `requested` is
the latest order. Answers come back down the chain in reverse: the cache of order
`requested` takes the answer, then hands it to the cache of the order below.
-/

namespace CacheHierarchy

/-- The lock a transaction holds on its line. Read locks of two transactions may overlap. -/
inductive Lock where
  | free
  | read
  | write
  deriving DecidableEq, Repr, Inhabited

/-- The name of a lock in upper case. -/
def Lock.name : Lock → String
  | .free => "FREE"
  | .read => "READ"
  | .write => "WRITE"

/-- The directory entry of one transaction. -/
structure Entry where
  owner : Nat
  opcode : Nat
  pc : UInt64
  uop : Nat
  lock : Lock
  /-- The order of each cache in the chain, by cache id; `0` for a cache not in it. -/
  order : List Nat
  requested : Nat := 0
  op : Operation
  addr : UInt64
  size : Nat
  born : Nat
  deriving DecidableEq, Repr, Inhabited

namespace Entry

/-- The entry of the transaction of `p` in a hierarchy of `caches` caches, started at
`now`, with an empty chain. -/
def new (p : Packet) (lock : Lock) (caches now : Nat) : Entry :=
  { owner := p.owner, opcode := p.opcode, pc := p.pc, uop := p.uop, lock,
    order := List.replicate caches 0, op := p.op, addr := p.addr, size := p.size, born := now }

/-- Put cache `cache` on top of the chain. -/
def stamp (e : Entry) (cache : Nat) : Entry :=
  { e with requested := e.requested + 1, order := e.order.set cache (e.requested + 1) }

/-- The order of cache `cache` in the chain, `0` if it is not in it. -/
def orderOf (e : Entry) (cache : Nat) : Nat := e.order.getD cache 0

/-- The number of caches in the chain. -/
def requesters (e : Entry) : Nat := (e.order.filter (· != 0)).length

/-- The cache whose place in the chain is `k`. -/
def requesterAt (e : Entry) (k : Nat) : Option Nat := e.order.findIdx? (· == k)

/-- Whether `p` belongs to the entry's transaction. -/
def hasTransaction (e : Entry) (p : Packet) : Bool :=
  e.owner == p.owner && e.opcode == p.opcode && e.uop == p.uop

/-- Whether the entry was made within `maxAge` cycles before `now`. -/
def isYoung (e : Entry) (now maxAge : Nat) : Bool := now - maxAge ≤ e.born

/-- The one-line description of an entry used in views. -/
def render (e : Entry) : String :=
  "OWNER:" ++ toString e.owner ++ " OPCODE:#" ++ toString e.opcode ++ "(" ++
    Text.hex e.pc.toNat ++ ") UOP:#" ++ toString e.uop ++ " LOCK:" ++ e.lock.name ++ " | " ++
    e.op.name ++ " " ++ Text.hex e.addr.toNat ++ " size:" ++ toString e.size ++
    " | requested:" ++ toString e.requested ++ " order:" ++ Text.bracketList e.order ++
    " born:" ++ toString e.born

@[simp] theorem requested_stamp (e : Entry) (cache : Nat) :
    (e.stamp cache).requested = e.requested + 1 := rfl

theorem orderOf_stamp_self (e : Entry) (cache : Nat) (h : cache < e.order.length) :
    (e.stamp cache).orderOf cache = e.requested + 1 := by
  simp [stamp, orderOf, List.getD_eq_getElem?_getD, h]

end Entry

end CacheHierarchy
