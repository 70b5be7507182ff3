set_option autoImplicit false

/-! # The ChaCha block function

ChaCha turns a 256-bit key, a 64-bit block counter and a 64-bit stream number into a block
of sixteen 32-bit words. The state is four constant words, the eight key words, the two
counter words (low first) and the two stream words. A round mixes it with four quarter
rounds, on the columns in even rounds and on the diagonals in odd ones; the block is the
mixed state added word by word to the state it started from.

The key stream of a key is its blocks for the counters `0, 1, 2, …`, word by word
(`word`). With twelve rounds this is the generator that seeds random replacement.
-/

namespace CacheHierarchy.Random

/-- The constant words, the text "expand 32-byte k" read in little-endian words. -/
def constants : List UInt32 := [0x61707865, 0x3320646e, 0x79622d32, 0x6b206574]

/-- Rotate a word left by `k` bits, `0 < k < 32`. -/
def rotateLeft (x : UInt32) (k : UInt32) : UInt32 := (x <<< k) ||| (x >>> (32 - k))

def wordAt (s : Array UInt32) (i : Nat) : UInt32 := s.getD i 0

/-- The quarter round on the words at positions `a`, `b`, `c` and `d`. -/
def quarterRound (s : Array UInt32) (a b c d : Nat) : Array UInt32 :=
  let xa := wordAt s a + wordAt s b
  let xd := rotateLeft (wordAt s d ^^^ xa) 16
  let xc := wordAt s c + xd
  let xb := rotateLeft (wordAt s b ^^^ xc) 12
  let ya := xa + xb
  let yd := rotateLeft (xd ^^^ ya) 8
  let yc := xc + yd
  let yb := rotateLeft (xb ^^^ yc) 7
  ((((s.setIfInBounds a ya).setIfInBounds b yb).setIfInBounds c yc).setIfInBounds d yd)

/-- Two rounds: the four columns, then the four diagonals. -/
def doubleRound (s : Array UInt32) : Array UInt32 :=
  let s := quarterRound s 0 4 8 12
  let s := quarterRound s 1 5 9 13
  let s := quarterRound s 2 6 10 14
  let s := quarterRound s 3 7 11 15
  let s := quarterRound s 0 5 10 15
  let s := quarterRound s 1 6 11 12
  let s := quarterRound s 2 7 8 13
  quarterRound s 3 4 9 14

/-- The state a block starts from. -/
def initial (key : List UInt32) (counter stream : Nat) : Array UInt32 :=
  (constants ++ key ++
    [counter.toUInt32, (counter / Nat.pow 2 32).toUInt32, stream.toUInt32,
      (stream / Nat.pow 2 32).toUInt32]).toArray

/-- The block of `key` at `counter` on stream `stream` after `2 * doubles` rounds. -/
def block (doubles : Nat) (key : List UInt32) (counter stream : Nat) : Array UInt32 :=
  let start := initial key counter stream
  let mixed := Nat.repeat doubleRound doubles start
  Array.zipWith (· + ·) mixed start

/-- Word `n` of the key stream of `key` on stream `0` with `2 * doubles` rounds. -/
def word (doubles : Nat) (key : List UInt32) (n : Nat) : UInt32 :=
  wordAt (block doubles key (n / 16) 0) (n % 16)

/-- The first word of the twenty-round stream of the all-zero key is `0xade0b876`. -/
example : word 10 (List.replicate 8 0) 0 = 0xade0b876 := by decide +kernel

end CacheHierarchy.Random
