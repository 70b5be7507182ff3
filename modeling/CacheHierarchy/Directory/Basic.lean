import CacheHierarchy.Directory.Entry
import CacheHierarchy.Config.Basic
import CacheHierarchy.Status

set_option autoImplicit false

/-! # The directory

The directory is the single coherence authority of the hierarchy. It holds the policy
(inclusion and whether victims are written back), the line size, the ids of the
last-level caches and of the memory controllers, the entries of the transactions in flight
in creation order, and its counters.

A line is **locked** while some entry's starting address is on it. Addresses are compared
on whole lines of the directory's line size.
-/

namespace CacheHierarchy

structure DirectoryStat where
  hit : PerOperation := {}
  miss : PerOperation := {}
  subBlockMiss : Nat := 0
  parallelRequest : Nat := 0
  lockConflict : Nat := 0
  earlyWriteback : Nat := 0
  finalWriteback : Nat := 0
  finalEviction : Nat := 0
  deriving DecidableEq, Repr, Inhabited

structure Directory where
  inclusion : Inclusion
  llcWriteback : Bool
  nonLlcWriteback : Bool
  lineSize : Nat
  cacheCount : Nat
  /-- The last-level caches, in id order. -/
  llc : List Nat
  memories : List Nat
  /-- The transactions in flight, oldest first. -/
  entries : List Entry := []
  stat : DirectoryStat := {}
  deriving Repr, Inhabited

namespace Directory

/-- The word that clears the offset bits of an address. -/
def lineMask (d : Directory) : UInt64 := ~~~(d.lineSize - 1).toUInt64

def sameLine (d : Directory) (a b : UInt64) : Bool := a &&& d.lineMask == b &&& d.lineMask

/-- Whether a transaction in flight holds the line of `addr`. -/
def isLocked (d : Directory) (addr : UInt64) : Bool := d.entries.any fun e => d.sameLine e.addr addr

/-- The position of the entry of `p`'s transaction on `p`'s line. -/
def findEntry (d : Directory) (p : Packet) : Option Nat :=
  d.entries.findIdx? fun e => e.hasTransaction p && d.sameLine e.addr p.addr

/-- Open an entry for `p`'s transaction at `now`: a read lock for an operation that reads,
else a write lock. Its position, and the directory with it at the end. -/
def openEntry (d : Directory) (p : Packet) (now : Nat) : Nat × Directory :=
  let lock := if p.op.isRead then Lock.read else Lock.write
  (d.entries.length, { d with entries := d.entries ++ [Entry.new p lock d.cacheCount now] })

def modifyEntry (d : Directory) (k : Nat) (f : Entry → Entry) : Directory :=
  { d with entries := d.entries.modify k f }

/-- The directory without the entry at `k`. -/
def close (d : Directory) (k : Nat) : Directory := { d with entries := d.entries.eraseIdx k }

def count (d : Directory) (f : DirectoryStat → DirectoryStat) : Directory :=
  { d with stat := f d.stat }

/-- A hit and a miss are decided only for a line that is present; a writeback always hits,
anything else hits a valid line. -/
def isHit (st : Option Status) (o : Operation) : Bool :=
  match st, o with
  | none, _ => false
  | some _, .writeback => true
  | some st, _ => st != .i

/-- The entries made more than `maxAge` cycles before `now`. -/
def stale (d : Directory) (now maxAge : Nat) : List Entry :=
  d.entries.filter fun e => !e.isYoung now maxAge

/-- The entries, one per line after a header with their number. -/
def view (d : Directory) : String :=
  toString d.entries.length ++ " directory lines\n" ++
    String.join (d.entries.map fun e => "  " ++ e.render ++ "\n")

theorem isLocked_iff (d : Directory) (addr : UInt64) :
    d.isLocked addr = true ↔ ∃ e ∈ d.entries, d.sameLine e.addr addr = true := by
  simp [isLocked]

end Directory

end CacheHierarchy
