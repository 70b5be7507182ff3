import CacheHierarchy.Decimal.Binary64
import CacheHierarchy.Text.Layout

set_option autoImplicit false

/-! # Fixed-point decimal text

A double written with a fixed number of digits after the point: its exact value rounded to
that many places, a tie going to the even last digit. Averages and percentages in the report
are written this way.
-/

namespace CacheHierarchy.Binary64

/-- The digits of `n`, with zeros in front up to `width`. -/
def zeroPadded (width n : Nat) : String :=
  let s := toString n
  Text.fillWith '0' (width - s.length) ++ s

/-- The value of `x` scaled by `10^places` and rounded half to even. -/
def scaledDigits (x : Binary64) (places : Nat) : Nat :=
  roundHalfEven (x.scaled * Nat.pow 10 places) (Nat.pow 2 unitShift)

/-- The double `x` with `places` digits after the point; a negative number has a leading
minus. -/
def toFixed (x : Binary64) (places : Nat) : String :=
  let d := x.scaledDigits places
  let whole := toString (d / Nat.pow 10 places)
  let sign := if x.negative then "-" else ""
  if places = 0 then sign ++ whole
  else sign ++ whole ++ "." ++ zeroPadded places (d % Nat.pow 10 places)

end CacheHierarchy.Binary64
