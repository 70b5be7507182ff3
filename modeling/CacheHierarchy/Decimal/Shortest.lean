import CacheHierarchy.Decimal.Binary64

set_option autoImplicit false

/-! # Shortest decimal digits

The fewest decimal digits that read back as a given double. A decimal reads back as the
double `x` when it lies in the interval of reals that round to `x`: half a unit in the last
place on either side (less below a power of two, where the spacing halves), ends included
when the significand of `x` is even. For one, two, … digits, the two neighbours of `x` on the
grid of that many significant digits are tested; the first grid with a neighbour in the
interval wins, of two the nearer one, and of two equally near the one with the even last
digit.
-/

namespace CacheHierarchy.Binary64

/-- Whether `10^e ≤ s` units, for an integer `e`. -/
def powTenLe (s : Nat) (e : Int) : Bool :=
  if 0 ≤ e then Nat.pow 10 e.toNat * Nat.pow 2 unitShift ≤ s
  else Nat.pow 2 unitShift ≤ s * Nat.pow 10 (-e).toNat

/-- The decimal exponent of a positive magnitude `s`: the `e` with
`10^e ≤ s units < 10^(e+1)`, searched downwards from 309. -/
def decimalExponent (s : Nat) : Int :=
  let rec go : Nat → Int
    | 0 => -324
    | k + 1 => let e : Int := (k : Int) - 324; if powTenLe s e then e else go k
  go 634

/-- The value `c * 10^k` compared with a magnitude in half units, as numerators over a common
denominator: the pair `(c * 10^k * 2^1075 * 10^j, h * 10^j)` with `j = max 0 (-k)`. -/
def crossScale (c : Nat) (k : Int) (h : Nat) : Nat × Nat :=
  if 0 ≤ k then (c * Nat.pow 10 k.toNat * Nat.pow 2 (unitShift + 1), h)
  else (c * Nat.pow 2 (unitShift + 1), h * Nat.pow 10 (-k).toNat)

/-- Whether `c * 10^k` rounds to the positive double of magnitude `s`. -/
def readsBack (s : Nat) (c : Nat) (k : Int) : Bool :=
  let p := ulpExponent s 1
  let m := s / Nat.pow 2 p
  let below := if m = Nat.pow 2 52 ∧ 0 < p then Nat.pow 2 (p - 1) else Nat.pow 2 p
  let lo := crossScale c k (2 * s - below)
  let hi := crossScale c k (2 * s + Nat.pow 2 p)
  if m % 2 = 0 then lo.2 ≤ lo.1 ∧ hi.1 ≤ hi.2 else lo.2 < lo.1 ∧ hi.1 < hi.2

/-- The grid neighbours `(c, c + 1)` of the magnitude `s` at spacing `10^k`: `c * 10^k`
is at most `s` units and `(c + 1) * 10^k` is more. -/
def gridFloor (s : Nat) (k : Int) : Nat :=
  if 0 ≤ k then s / (Nat.pow 10 k.toNat * Nat.pow 2 unitShift)
  else s * Nat.pow 10 (-k).toNat / Nat.pow 2 unitShift

/-- Drop trailing zeros of `c * 10^k`, raising `k`. -/
def trimZeros : Nat → Nat → Int → Nat × Int
  | 0, c, k => (c, k)
  | fuel + 1, c, k => if c ≠ 0 ∧ c % 10 = 0 then trimZeros fuel (c / 10) (k + 1) else (c, k)

/-- The nearer of `c * 10^k` and `(c + 1) * 10^k` to `s` units; `true` picks the upper. -/
def upperIsNearer (s c : Nat) (k : Int) : Bool :=
  let lowGap := crossScale c k (2 * s)
  let highGap := crossScale (c + 1) k (2 * s)
  -- distances in common units: s - low and high - s
  let dLow := lowGap.2 - lowGap.1
  let dHigh := highGap.1 - highGap.2
  dHigh < dLow ∨ (dHigh = dLow ∧ (c + 1) % 2 = 0)

/-- The shortest digits `c` and exponent `k` with `c * 10^k` reading back as the positive
magnitude `s`, without trailing zeros; searches one to seventeen digits. -/
def shortestOfScaled (s : Nat) : Nat × Int :=
  let e := decimalExponent s
  let rec go : Nat → Nat → Nat × Int
    | 0, _ => (gridFloor s (e - 16), e - 16)
    | fuel + 1, n =>
      let k := e - (n : Int) + 1
      let c := gridFloor s k
      let lowOk := readsBack s c k
      let highOk := readsBack s (c + 1) k
      if lowOk ∧ highOk then
        if upperIsNearer s c k then trimZeros 20 (c + 1) k else trimZeros 20 c k
      else if lowOk then trimZeros 20 c k
      else if highOk then trimZeros 20 (c + 1) k
      else go fuel (n + 1)
  go 17 1

/-- The shortest digits and exponent of a double: `(0, 0)` for zero. -/
def shortest (x : Binary64) : Nat × Int :=
  if x.scaled = 0 then (0, 0) else shortestOfScaled x.scaled

end CacheHierarchy.Binary64
