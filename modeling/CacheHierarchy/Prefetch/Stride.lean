import CacheHierarchy.Prefetch.Buffer
import CacheHierarchy.Error

set_option autoImplicit false

/-! # The stride prefetcher

A table of recent program counters, each with the last address it accessed, the last
difference between two of its addresses (the stride) and a state. A program counter whose
stride repeats (within `distance` lines, and not zero) becomes steady; a steady one issues up
to `degree` prefetches ahead along its stride, skipping those on the line of the access or of
the previous prefetch. Independently, when `nextLines` is not zero and an access lands at most
one line after the previous access, the next lines are prefetched, never going back below the
last line prefetched this way.

A program counter not in the table replaces the entry activated longest ago (the first of
them). Address arithmetic wraps around, except where noted: an overflow there stops the
machine, with the prefetcher as far as it got (`Training`).
-/

namespace CacheHierarchy

/-- How far a table entry trusts its stride. -/
inductive StrideState where
  | init
  | transient
  | steady
  | noPred
  deriving DecidableEq, Repr, Inhabited

def StrideState.name : StrideState → String
  | .init => "Init"
  | .transient => "Transient"
  | .steady => "Steady"
  | .noPred => "NoPred"

/-- One program counter in the stride table. -/
structure StrideEntry where
  pc : UInt64 := 0
  lastAddr : UInt64 := 0
  /-- The last difference between two addresses, a signed 64-bit number. -/
  stride : Int := 0
  /-- How many prefetches along the stride are already issued. -/
  ahead : Nat := 0
  lastActive : Nat := 0
  state : StrideState := .init
  deriving DecidableEq, Repr, Inhabited

structure Stride where
  lineSize : Nat
  table : Array StrideEntry
  degree : Nat
  distance : Nat
  nextLines : Nat
  lastRequest : UInt64 := 0
  lastPrefetch : UInt64 := 0
  buffer : RequestBuffer
  stat : PrefetchStat := {}
  deriving Repr, Inhabited

/-- The signed 64-bit reading of a word. -/
def UInt64.signed (w : UInt64) : Int :=
  if w.toNat < Nat.pow 2 63 then w.toNat else (w.toNat : Int) - Int.pow 2 64

/-- A signed 64-bit product, or an overflow. A signed word has a magnitude below `2 ^ 63`,
or is the one negative number of magnitude `2 ^ 63`. -/
def mulSigned (a b : Int) : Except Overflow Int :=
  let p := a * b
  if p.natAbs < Nat.pow 2 63 ∨ p = -(Int.pow 2 63) then .ok p else .error .multiply

/-- An unsigned 64-bit sum, or an overflow. -/
def addWord (a b : Nat) : Except Overflow UInt64 :=
  if a + b < Nat.pow 2 64 then .ok (UInt64.ofNat (a + b)) else .error .add

namespace Stride

/-- A prefetcher with an empty table of `tableSize` entries. -/
def new (lineSize tableSize degree distance nextLines bufferSize : Nat) : Stride :=
  { lineSize, table := Array.replicate tableSize {}, degree, distance, nextLines,
    buffer := { capacity := bufferSize } }

def sameLine (s : Stride) (a b : UInt64) : Bool :=
  let mask := ~~~(UInt64.ofNat s.lineSize - 1)
  a &&& mask == b &&& mask

def modifyEntry (s : Stride) (i : Nat) (f : StrideEntry → StrideEntry) : Stride :=
  { s with table := s.table.modify i f }

/-- Entry `i` records the access to `addr` at `now` and moves to `state`. -/
def moveTo (s : Stride) (i : Nat) (state : StrideState) (now : Nat) (addr : UInt64) : Stride :=
  let s := s.modifyEntry i fun e => { e with lastAddr := addr, lastActive := now, state }
  if state = .steady then { s with stat := { s.stat with steady := s.stat.steady + 1 } } else s

/-- Queue a prefetch, counting it as created or as lost to a full buffer. -/
def pushPrefetch (s : Stride) (p : Packet) (count : PrefetchStat → PrefetchStat) : Stride :=
  match s.buffer.push p with
  | (true, b) => { s with buffer := b, stat := count { s.stat with created := s.stat.created + 1 } }
  | (false, b) => { s with buffer := b, stat := { s.stat with fullBuffer := s.stat.fullBuffer + 1 } }

/-- Training a stride prefetcher: it may stop at an overflow, keeping the changes made
before it. -/
abbrev Training := ExceptT Overflow (StateM Stride)

/-- Issue up to `degree` prefetches along the stride of entry `i`, for an access to `addr`;
returns the address of the last one considered (`0` if none). -/
def emitStrides (i : Nat) (addr : UInt64) : Training UInt64 :=
  let rec go : Nat → UInt64 → Training UInt64
    | 0, last => pure last
    | fuel + 1, newAddr => do
      let s ← get
      let e := s.table[i]?.getD {}
      if e.ahead ≥ s.degree then return newAddr
      let offset ← MonadExcept.ofExcept (mulSigned e.ahead e.stride)
      let last := addr + UInt64.ofInt offset
      let next := last + UInt64.ofInt e.stride
      if !s.sameLine addr next && !s.sameLine last next then
        set (s.pushPrefetch (Packet.prefetch e.pc next s.lineSize) fun st =>
          if e.stride > 0 then { st with upstride := st.upstride + 1 }
          else { st with downstride := st.downstride + 1 })
      else set { s with stat := { s.stat with dropped := s.stat.dropped + 1 } }
      modify (·.modifyEntry i fun e => { e with ahead := e.ahead + 1 })
      go fuel next
  do go (← get).degree 0

/-- The entry to replace: the first of those activated longest ago. -/
def oldestEntry (s : Stride) : Nat :=
  (s.table.foldl (fun (best, bestCycle, i) e =>
      if e.lastActive < bestCycle then (i, e.lastActive, i + 1) else (best, bestCycle, i + 1))
    (0, Nat.pow 2 64 - 1, 0)).1

/-- Prefetch the lines after `addr`, at most `nextLines`, stopping below the last one. -/
def nextLinePrefetches (pc addr : UInt64) : Training Unit :=
  let rec go : Nat → Nat → Training Unit
    | 0, _ => pure ()
    | fuel + 1, k => do
      let s ← get
      let step ← MonadExcept.ofExcept (if k * s.lineSize < wordSize then .ok (k * s.lineSize)
        else .error .multiply : Except Overflow Nat)
      let next ← MonadExcept.ofExcept (addWord addr.toNat step)
      if next < s.lastPrefetch then return
      set ({ s with lastPrefetch := next }.pushPrefetch (Packet.prefetch pc next s.lineSize)
        fun st => { st with upstride := st.upstride + 1, nextLine := st.nextLine + 1 })
      go fuel (k + 1)
  do go (← get).nextLines 1

/-- Entry `i`, on a stride that matched or not, moves on after an access to `addr` at
`now`; a steady entry that matched issues its prefetches. The address of the last stride
prefetch considered (`0` if none). -/
def advanceEntry (i : Nat) (e : StrideEntry) (isMatch : Bool) (diff : Int) (addr : UInt64)
    (now : Nat) : Training UInt64 := do
  match e.state, isMatch with
  | .init, true | .transient, true =>
    modify fun s => (s.modifyEntry i fun e => { e with ahead := 0 }).moveTo i .steady now addr
    pure 0
  | .init, false =>
    modify fun s => (s.modifyEntry i fun e => { e with stride := diff, ahead := 0 }).moveTo i
      .transient now addr
    pure 0
  | .transient, false | .noPred, false =>
    modify fun s => (s.modifyEntry i fun e => { e with stride := diff, ahead := 0 }).moveTo i
      .noPred now addr
    pure 0
  | .steady, true =>
    modify fun s => (s.modifyEntry i fun e => { e with ahead := e.ahead - 1 }).moveTo i
      .steady now addr
    emitStrides i addr
  | .steady, false =>
    modify fun s => (s.modifyEntry i fun e => { e with ahead := 0 }).moveTo i .init now addr
    pure 0
  | .noPred, true =>
    modify fun s => (s.modifyEntry i fun e => { e with ahead := 0 }).moveTo i .transient now addr
    pure 0

/-- Train on an access at program counter `pc` to `addr`, admitted at `now`. -/
def train (pc addr : UInt64) (now : Nat) : Training Unit := do
  let s ← get
  let window ← MonadExcept.ofExcept (mulSigned s.distance s.lineSize)
  let found := s.table.findIdx? (·.pc == pc)
  let newAddr ← match found with
    | none => pure (0 : UInt64)
    | some i => do
      let e := s.table[i]?.getD {}
      let diff := UInt64.signed (addr - e.lastAddr)
      let isMatch ← if diff == e.stride && diff != 0 then
          (if diff = -(Int.pow 2 63) then throw .negate else pure (decide (diff.natAbs ≤ window)))
        else pure false
      if isMatch then
        modify fun s => { s with stat := { s.stat with strideMatches := s.stat.strideMatches + 1 } }
      advanceEntry i e isMatch diff addr now
  let s ← get
  if s.nextLines > 0 && (addr - s.lastRequest).toNat ≤ s.lineSize then
    let following ← MonadExcept.ofExcept (addWord addr.toNat s.lineSize)
    if newAddr != following then nextLinePrefetches pc addr
  modify fun s => { s with lastRequest := addr }
  if found.isNone then
    modify fun s =>
      let i := s.oldestEntry
      (s.modifyEntry i fun _ => { pc }).moveTo i .init now addr

end Stride

end CacheHierarchy
