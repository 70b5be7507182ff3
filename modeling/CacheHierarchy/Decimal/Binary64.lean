set_option autoImplicit false

/-! # Binary64 numbers

A finite binary64 (double precision) number, kept exactly: its magnitude is an integer
multiple of `2^-1074`, the smallest positive double, so it is stored as that integer. Every
operation here is the exact result rounded once to the nearest double, a tie going to the
even significand, and a result beyond the largest double is an overflow.

A magnitude is a double when it is `m * 2^p` units with `m < 2^53`, `m ≥ 2^52` unless
`p = 0`, and `p ≤ 2045`.
-/

namespace CacheHierarchy

/-- A finite double: a sign and a magnitude in units of `2^-1074`. -/
structure Binary64 where
  negative : Bool := false
  scaled : Nat := 0
  deriving DecidableEq, Repr, Inhabited

namespace Binary64

/-- The number of units in one. -/
def unitShift : Nat := 1074

/-- The quotient `a / d` rounded to the nearest integer, a tie going to the even one. -/
def roundHalfEven (a d : Nat) : Nat :=
  let q := a / d
  let r := a % d
  if 2 * r < d then q else if d < 2 * r then q + 1 else q + q % 2

/-- The exponent `p` of the unit in the last place of a double near `a / d` units: zero
below `2^53` units, else such that `2^(52+p) ≤ a / d < 2^(53+p)`. -/
def ulpExponent (a d : Nat) : Nat :=
  if a < d * Nat.pow 2 53 then 0
  else
    let l0 := Nat.log2 a - Nat.log2 d
    let l := if a < d * Nat.pow 2 l0 then l0 - 1 else l0
    l - 52

/-- The magnitude of the double nearest `a / d` units, or `none` when that is beyond the
largest double. -/
def roundScaled (a d : Nat) : Option Nat :=
  let p := ulpExponent a d
  let v := roundHalfEven a (d * Nat.pow 2 p) * Nat.pow 2 p
  if v < Nat.pow 2 (1024 + unitShift) then some v else none

/-- The double nearest `a / d` (with `d > 0`), with the given sign; `none` on overflow. -/
def ofRatio (negative : Bool) (a d : Nat) : Option Binary64 :=
  (roundScaled a d).map fun s => ⟨negative, s⟩

/-- The double nearest the natural number `n`. -/
def ofNat (n : Nat) : Binary64 :=
  ((ofRatio false (n * Nat.pow 2 unitShift) 1).getD ⟨false, 0⟩)

/-- The double nearest the quotient, `none` on overflow; a zero divisor gives `none` too. -/
def div (x y : Binary64) : Option Binary64 :=
  if y.scaled = 0 then none
  else ofRatio (x.negative != y.negative) (x.scaled * Nat.pow 2 unitShift) y.scaled

/-- The double nearest the product, `none` on overflow. -/
def mul (x y : Binary64) : Option Binary64 :=
  ofRatio (x.negative != y.negative) (x.scaled * y.scaled) (Nat.pow 2 unitShift)

def neg (x : Binary64) : Binary64 := { x with negative := !x.negative }

/-- Whether the number is zero, of either sign. -/
def isZero (x : Binary64) : Bool := x.scaled == 0

/-- The double nearest `10^k`. -/
def powTen (k : Nat) : Binary64 := ofNat (Nat.pow 10 k)

example : roundHalfEven 5 2 = 2 ∧ roundHalfEven 7 2 = 4 ∧ roundHalfEven 7 3 = 2 := by decide

end Binary64

end CacheHierarchy
