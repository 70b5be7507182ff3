set_option autoImplicit false

/-! # Cache policies

The choices a cache is configured with: how a victim way is chosen, which levels must hold
what the levels above them hold, and in which order the bits of an address name the byte in
the line, the set and the bank.
-/

namespace CacheHierarchy

/-- How a cache picks the way a new line replaces. -/
inductive Replacement where
  /-- The least recently used way; of equal ones the highest-numbered. -/
  | lru
  /-- A dead line first, else as `lru`. No predictor reports dead lines, so this is `lru`. -/
  | deadOrLru
  /-- An invalid way first, else as `lru`. -/
  | invalidOrLru
  /-- A way drawn from the cache's random generator. -/
  | random
  /-- First in, first out: named, not supported. -/
  | fifo
  /-- Least recently filled: named, not supported. -/
  | lrf
  deriving DecidableEq, Repr, Inhabited

def Replacement.name : Replacement → String
  | .lru => "LRU"
  | .deadOrLru => "DEAD_OR_LRU"
  | .invalidOrLru => "INVALID_OR_LRU"
  | .random => "RANDOM"
  | .fifo => "FIFO"
  | .lrf => "LRF"

/-- Which caches must hold a copy of every line held above them. -/
inductive Inclusion where
  | nonInclusive
  /-- The last-level caches. -/
  | inclusiveLlc
  /-- Every cache with caches above it. -/
  | inclusiveAll
  deriving DecidableEq, Repr, Inhabited

/-- The order of the fields of an address, from the high bits down. -/
inductive Layout where
  /-- Tag, set index, offset in the line; the cache has a single bank. -/
  | tagIndexOffset
  /-- Tag, set index, bank, offset. -/
  | tagIndexBankOffset
  /-- Tag, bank, set index, offset. -/
  | tagBankIndexOffset
  deriving DecidableEq, Repr, Inhabited

end CacheHierarchy
