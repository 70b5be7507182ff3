import CacheHierarchy.Random.ChaCha

set_option autoImplicit false

/-! # Seeded random streams

A cache that replaces a random way draws from its own stream of 32-bit words: the
twelve-round ChaCha key stream of a key made from the cache's 64-bit seed. The key is eight
outputs of a PCG32 generator started from the seed (`keyOfSeed`). A stream is the key and
the position of the next word, so it has one view, `word`, and drawing moves the position.

A draw below `n` (`below`) multiplies a word by `n` and keeps the high half. When the low
half lands in the last `2^32 mod n`-wide zone where that answer may be biased, a second word
decides whether the carry into the high half happens.
-/

namespace CacheHierarchy.Random

/-- The multiplier of the seeding generator. -/
def pcgMultiplier : UInt64 := 6364136223846793005

/-- The increment of the seeding generator. -/
def pcgIncrement : UInt64 := 11634580027462260723

/-- One step of the seeding generator: the next state and its 32-bit output. -/
def pcgStep (state : UInt64) : UInt64 × UInt32 :=
  let s := state * pcgMultiplier + pcgIncrement
  let shifted := (((s >>> 18) ^^^ s) >>> 27).toUInt32
  let rot := (s >>> 59).toUInt32
  (s, (shifted >>> rot) ||| (shifted <<< ((32 - rot) % 32)))

/-- The first `n` outputs of the seeding generator from `state`. -/
def pcgOutputs : Nat → UInt64 → List UInt32
  | 0, _ => []
  | n + 1, state => let (s, x) := pcgStep state; x :: pcgOutputs n s

/-- The key of the stream seeded with `seed`. -/
def keyOfSeed (seed : UInt64) : List UInt32 := pcgOutputs 8 seed

/-- A position in the twelve-round key stream of a key. -/
structure Stream where
  key : List UInt32
  position : Nat := 0
  deriving DecidableEq, Repr, Inhabited

namespace Stream

/-- The stream seeded with `seed`, at its start. -/
def ofSeed (seed : UInt64) : Stream := { key := keyOfSeed seed }

/-- The next word of the stream. -/
def peek (s : Stream) : UInt32 := word 6 s.key s.position

/-- The next word and the stream after it. -/
def next (s : Stream) : UInt32 × Stream := (s.peek, { s with position := s.position + 1 })

/-- A number below `n`, for `0 < n < 2^32`, and the stream after the words it took. -/
def below (s : Stream) (n : Nat) : Nat × Stream :=
  let (x, s) := s.next
  let wide := x.toNat * n
  let high := wide / Nat.pow 2 32
  let low := wide % Nat.pow 2 32
  if low > (Nat.pow 2 32 - n) % Nat.pow 2 32 then
    let (y, s) := s.next
    let carry := (low + y.toNat * n / Nat.pow 2 32) ≥ Nat.pow 2 32
    (if carry then high + 1 else high, s)
  else (high, s)

@[simp] theorem position_next (s : Stream) : s.next.2.position = s.position + 1 := rfl

@[simp] theorem key_next (s : Stream) : s.next.2.key = s.key := rfl

end Stream

end CacheHierarchy.Random
