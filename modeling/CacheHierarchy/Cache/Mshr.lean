import CacheHierarchy.Packet
import CacheHierarchy.Error

set_option autoImplicit false

/-! # Miss status holding registers

The MSHR of a cache holds the packets it is working on, one per slot. Its slots are split
into three consecutive ranges: requests from above, writebacks the cache sends, and
prefetches. A new packet takes the lowest free slot of its range.

Besides the slots, the MSHR keeps the occupied slots in **born order**: sorted by the
packets' birth cycles, oldest first, and in arrival order among packets born in the same
cycle. A cache handles its packets in this order.
-/

namespace CacheHierarchy

/-- Insert `x` right after the last element of `l` that satisfies `p`, or in front when
none does. -/
def insertAfterLast {α : Type} (p : α → Bool) (x : α) : List α → List α
  | [] => [x]
  | y :: ys => if p y || ys.any p then y :: insertAfterLast p x ys else x :: y :: ys

theorem insertAfterLast_perm {α : Type} (p : α → Bool) (x : α) (l : List α) :
    (insertAfterLast p x l).Perm (x :: l) := by
  induction l with
  | nil => exact List.Perm.refl _
  | cons y ys ih =>
    simp only [insertAfterLast]
    split
    · exact (ih.cons y).trans (List.Perm.swap x y ys)
    · exact List.Perm.refl _

/-- The slots of a cache and the born order of the occupied ones. -/
structure Mshr where
  slots : Array (Option Packet)
  requestSize : Nat
  writebackSize : Nat
  prefetchSize : Nat
  /-- The occupied slots, oldest packet first. -/
  order : List Nat := []
  deriving Repr, Inhabited

namespace Mshr

/-- The bytes one slot takes in memory: a packet's nine word fields, its sub-block list of
three words, and its size, operation, phase and answer flag packed into one more word. -/
def slotBytes : Nat := 104

/-- Whether an MSHR of `slots` slots can be laid out in memory: its bytes stay within the
largest size of an array (`maxArrayBytes`). -/
def fitsMemory (slots : Nat) : Bool := slots * slotBytes ≤ maxArrayBytes

/-- An empty MSHR with ranges of the given sizes. -/
def empty (request writeback prefetch : Nat) : Mshr :=
  { slots := Array.replicate (request + writeback + prefetch) none, requestSize := request,
    writebackSize := writeback, prefetchSize := prefetch }

def capacity (m : Mshr) : Nat := m.slots.size

/-- The number of packets held. -/
def count (m : Mshr) : Nat := m.order.length

/-- The slots of a range, lowest first. -/
def range (m : Mshr) : MshrRange → List Nat
  | .request => List.range' 0 m.requestSize
  | .writeback => List.range' m.requestSize m.writebackSize
  | .prefetch => List.range' (m.requestSize + m.writebackSize) m.prefetchSize

def get? (m : Mshr) (slot : Nat) : Option Packet := (m.slots[slot]?).getD none

/-- The birth cycle of the packet in a slot. -/
def bornOf (m : Mshr) (slot : Nat) : Option Nat := (m.get? slot).map (·.born)

/-- Place `slot` in the born order after every packet born no later than its own. -/
def placeBorn (m : Mshr) (slot : Nat) : Mshr :=
  match m.bornOf slot with
  | none => m
  | some born =>
    { m with order := insertAfterLast (fun s => (m.bornOf s).any (· ≤ born)) slot m.order }

/-- Store `p` in a free slot of `r`: the slot, or `none` when the range is full. -/
def allocate (m : Mshr) (r : MshrRange) (p : Packet) : Option (Nat × Mshr) :=
  match (m.range r).find? (fun s => (m.get? s).isNone) with
  | none => none
  | some slot => some (slot, placeBorn { m with slots := m.slots.setIfInBounds slot (some p) } slot)

/-- Replace the packet of an occupied slot, keeping its place in the born order. -/
def put (m : Mshr) (slot : Nat) (p : Packet) : Mshr :=
  { m with slots := m.slots.setIfInBounds slot (some p) }

/-- Change every held packet by `f`, in place. -/
def mapPackets (m : Mshr) (f : Packet → Packet) : Mshr :=
  { m with slots := m.slots.map (Option.map f) }

/-- Empty a slot: its packet, and the MSHR without it. -/
def release (m : Mshr) (slot : Nat) : Option Packet × Mshr :=
  (m.get? slot, { m with slots := m.slots.setIfInBounds slot none,
                         order := m.order.filter (· != slot) })

/-- Give the packet of `slot` the birth cycle `now`, which moves it behind every packet
born no later. -/
def rebirth (m : Mshr) (slot : Nat) (now : Nat) : Mshr :=
  match m.get? slot with
  | none => { m with order := m.order.filter (· != slot) }
  | some p =>
    placeBorn { m with slots := m.slots.setIfInBounds slot (some { p with born := now }),
                       order := m.order.filter (· != slot) } slot

/-- The held packets with their slots, in born order. -/
def entries (m : Mshr) : List (Nat × Packet) :=
  m.order.filterMap fun s => (m.get? s).map (s, ·)

/-- The held packets, in slot order. -/
def packets (m : Mshr) : List Packet := m.slots.toList.filterMap id

/-- The first slot in born order whose packet may move at `now` and satisfies `want`. -/
def firstEligible (m : Mshr) (now : Nat) (want : Packet → Bool) : Option Nat :=
  m.order.find? fun s => (m.get? s).any fun p => p.isReadyAt now && want p

/-- The slots in born order whose packets are done and may leave at `now`. -/
def finished (m : Mshr) (now : Nat) : List Nat :=
  m.order.filter fun s => (m.get? s).any fun p => p.phase == .ready && p.isReadyAt now

/-- The packets born more than `maxAge` cycles before `now`, in slot order. -/
def stale (m : Mshr) (now maxAge : Nat) : List Packet :=
  m.packets.filter fun p => !p.isYoung now maxAge

theorem count_empty (r w p : Nat) : (empty r w p).count = 0 := rfl

theorem capacity_empty (r w p : Nat) : (empty r w p).capacity = r + w + p := by
  simp [empty, capacity]

end Mshr

end CacheHierarchy
