set_option autoImplicit false

/-! # Words

Cycles, latencies, sizes and counters are 64-bit unsigned words, hierarchy levels 32-bit ones.
An addition whose sum does not fit a word does not wrap around: it stops the machine, with a
message that names the operation. So do a subtraction below zero and a shift by as many
places as a word has bits. This module holds the overflows and the checked addition and
subtraction; the signed arithmetic of the stride prefetcher adds its own checks
(`Prefetch/Stride`).

The main statements: `add_eq_ok` and `add_eq_error` say exactly when an addition overflows.
-/

namespace CacheHierarchy

/-- An arithmetic operation whose result does not fit its word: the machine stops. -/
inductive Overflow where
  | add
  | subtract
  | multiply
  | negate
  | shiftLeft
  /-- An array whose bytes would pass the largest size an object may have. -/
  | capacity
  deriving DecidableEq, Repr

def Overflow.message : Overflow → String
  | .add => "attempt to add with overflow"
  | .subtract => "attempt to subtract with overflow"
  | .multiply => "attempt to multiply with overflow"
  | .negate => "attempt to negate with overflow"
  | .shiftLeft => "attempt to shift left with overflow"
  | .capacity => "capacity overflow"

/-- The number of 64-bit words. -/
def wordSize : Nat := Nat.pow 2 64

/-- The number of 32-bit words: a hierarchy level is one. -/
def word32Size : Nat := Nat.pow 2 32

/-- The largest 64-bit word. -/
def wordMax : Nat := wordSize - 1

/-- The number of bits of a word: a shift by this many places or more overflows. -/
def wordBits : Nat := 64

/-- The most bytes an array of word-aligned elements may take: the largest signed word,
rounded down to a whole number of words. -/
def maxArrayBytes : Nat := Nat.pow 2 63 - 8

namespace Word

/-- The sum of two words, if it is a word. -/
def add (a b : Nat) : Except Overflow Nat :=
  if a + b < wordSize then .ok (a + b) else .error .add

theorem add_eq_ok {a b : Nat} (h : a + b < wordSize) : add a b = .ok (a + b) := by
  simp [add, h]

theorem add_eq_error {a b : Nat} (h : wordSize ≤ a + b) : add a b = .error .add := by
  simp only [add]
  split
  · omega
  · rfl

example : add wordMax 1 = .error .add := rfl
example : add (wordMax - 1) 1 = .ok wordMax := rfl

/-- The difference of two words, if it is a word: it is not when `b` is the larger. -/
def sub (a b : Nat) : Except Overflow Nat :=
  if b ≤ a then .ok (a - b) else .error .subtract

example : sub 0 1 = .error .subtract := rfl
example : sub 64 1 = .ok 63 := rfl

end Word

end CacheHierarchy
