import CacheHierarchy.Packet

set_option autoImplicit false

/-! # Prefetch requests

Prefetchers put the requests they generate into a bounded buffer, from which the cache takes
them, oldest first, as room appears in its prefetch MSHR range. A request pushed into a full
buffer is lost and counted.
-/

namespace CacheHierarchy

structure PrefetchStat where
  created : Nat := 0
  dropped : Nat := 0
  fullBuffer : Nat := 0
  upstride : Nat := 0
  downstride : Nat := 0
  strideMatches : Nat := 0
  nextLine : Nat := 0
  steady : Nat := 0
  deriving DecidableEq, Repr, Inhabited

/-- A bounded queue of generated requests, oldest first. -/
structure RequestBuffer where
  items : List Packet := []
  capacity : Nat := 0
  deriving Repr, Inhabited

namespace RequestBuffer

/-- Whether no more request fits. -/
def isFull (b : RequestBuffer) : Bool := b.items.length ≥ b.capacity

/-- Append a request; `false` and no change when the buffer is full. -/
def push (b : RequestBuffer) (p : Packet) : Bool × RequestBuffer :=
  if b.isFull then (false, b) else (true, { b with items := b.items ++ [p] })

/-- The oldest request. -/
def front? (b : RequestBuffer) : Option Packet := b.items.head?

/-- Remove the oldest request. -/
def pop (b : RequestBuffer) : Option Packet × RequestBuffer :=
  match b.items with
  | p :: rest => (some p, { b with items := rest })
  | [] => (none, b)

end RequestBuffer

/-- A generated prefetch of the line at `addr`, for the access at program counter `pc`. -/
def Packet.prefetch (pc addr : UInt64) (lineSize : Nat) : Packet :=
  { pc, addr, size := lineSize, op := .prefetch }

end CacheHierarchy
