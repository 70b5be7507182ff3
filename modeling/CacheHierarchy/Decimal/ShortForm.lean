import CacheHierarchy.Decimal.Shortest

set_option autoImplicit false

/-! # Short double text

A double written with its shortest digits: positionally when the decimal exponent is small
(`100.0`, `1.5`, `0.001234`), in scientific form otherwise (`1e+30`, `1.5e-6`,
`1.8446744073709552e+19`), the exponent always signed; a whole number in positional form
keeps `.0`. Messages about unexpected numbers write doubles this way.
-/

namespace CacheHierarchy.Binary64

/-- The exponent of the scientific form, with its sign. -/
def exponentText (e : Int) : String := if 0 ≤ e then "+" ++ toString e else toString e

/-- The text of the digits `c` scaled by `10^k`, with `c` free of trailing zeros. -/
def shortText (c : Nat) (k : Int) : String :=
  let ds := toString c
  let len : Int := ds.length
  let kk := len + k
  if 0 ≤ k ∧ kk ≤ 16 then ds ++ String.ofList (List.replicate k.toNat '0') ++ ".0"
  else if 0 < kk ∧ kk ≤ 16 then
    String.ofList (ds.toList.take kk.toNat) ++ "." ++ String.ofList (ds.toList.drop kk.toNat)
  else if -5 < kk ∧ kk ≤ 0 then "0." ++ String.ofList (List.replicate (-kk).toNat '0') ++ ds
  else if len = 1 then ds ++ "e" ++ exponentText (kk - 1)
  else
    String.ofList (ds.toList.take 1) ++ "." ++ String.ofList (ds.toList.drop 1) ++ "e" ++
      exponentText (kk - 1)

/-- The short text of a double, with a minus sign when it is negative. -/
def toShortString (x : Binary64) : String :=
  let sign := if x.negative then "-" else ""
  if x.scaled = 0 then sign ++ "0.0"
  else
    let (c, k) := x.shortest
    sign ++ shortText c k

example : shortText 15 (-1) = "1.5" ∧ shortText 1 2 = "100.0" ∧ shortText 1 30 = "1e+30" := by
  decide
example : shortText 18446744073709552 3 = "1.8446744073709552e+19" := by decide
example : shortText 15 (-7) = "1.5e-6" := by decide
example : shortText 1234 (-6) = "0.001234" := by decide

end CacheHierarchy.Binary64
