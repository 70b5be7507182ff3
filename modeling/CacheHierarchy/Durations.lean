import CacheHierarchy.Word

set_option autoImplicit false

/-! # Durations

A running summary of durations in cycles: the shortest, the longest, their total and their
number. Waiting times in caches, ages of memory requests and core latencies are kept this
way. The shortest is the largest 64-bit word while nothing has been counted.

The total is a word. Counting a duration first widens the range of shortest and longest,
then adds to the total; when the total would overflow, the machine stops with the range
already widened (`widen`, then `accumulate`).
-/

namespace CacheHierarchy

/-- A summary of durations in cycles. -/
structure Durations where
  min : Nat := wordMax
  max : Nat := 0
  total : Nat := 0
  count : Nat := 0
  deriving DecidableEq, Repr, Inhabited

namespace Durations

/-- The summary with its shortest and longest widened to take `cycles` in. -/
def widen (d : Durations) (cycles : Nat) : Durations :=
  { d with min := Nat.min d.min cycles, max := Nat.max d.max cycles }

/-- The summary with `cycles` added to the total and counted, if the total stays a word. -/
def accumulate (d : Durations) (cycles : Nat) : Except Overflow Durations := do
  let total ← Word.add d.total cycles
  pure { d with total, count := d.count + 1 }

/-- The summary with one more duration counted. -/
def add (d : Durations) (cycles : Nat) : Except Overflow Durations :=
  (d.widen cycles).accumulate cycles

/-- The four numbers: shortest, longest, total, count. -/
def toList (d : Durations) : List Nat := [d.min, d.max, d.total, d.count]

@[simp] theorem total_widen (d : Durations) (c : Nat) : (d.widen c).total = d.total := rfl

theorem add_eq_ok (d : Durations) {c : Nat} (h : d.total + c < wordSize) :
    d.add c = .ok { min := Nat.min d.min c, max := Nat.max d.max c, total := d.total + c,
                    count := d.count + 1 } := by
  rw [add, accumulate, total_widen, Word.add_eq_ok h]
  rfl

end Durations

end CacheHierarchy
