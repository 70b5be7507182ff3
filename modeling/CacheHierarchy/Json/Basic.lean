import CacheHierarchy.Decimal.Binary64

set_option autoImplicit false

/-! # JSON values

Configuration files and the requests of the test protocol are JSON. A value remembers where
it stood in its text, so that a message about it can name the line and column; the members
of an object keep the order and the repetitions of the text.

Columns count bytes from the start of the line. The place of a value is taken as a reader
that streams the text sees it: `start` once it has looked at the value's first character,
`stop` once the value has been read, which for a number includes looking at the character
after it.
-/

namespace CacheHierarchy

namespace Json

/-- A place in a text: the line, from 1, and the number of bytes of that line before it. -/
structure Pos where
  line : Nat := 1
  column : Nat := 0
  deriving DecidableEq, Repr, Inhabited

/-- Where a value stands in its text. -/
structure Span where
  start : Pos := {}
  stop : Pos := {}
  deriving DecidableEq, Repr, Inhabited

/-- A JSON number as a reader classifies it: a natural number below `2^64`, a negative
integer not below `-2^63`, or else a double. -/
inductive Number where
  | nat (n : Nat)
  /-- The integer `-n`, with `0 < n ≤ 2^63`. -/
  | negative (n : Nat)
  | float (x : Binary64)
  deriving DecidableEq, Repr, Inhabited

end Json

/-- A JSON value with its place in the text. An object member records where its key ends. -/
inductive Json where
  | null (span : Json.Span)
  | bool (b : Bool) (span : Json.Span)
  | number (n : Json.Number) (span : Json.Span)
  | string (s : String) (span : Json.Span)
  | array (items : List Json) (span : Json.Span)
  | object (members : List (String × Json.Pos × Json)) (span : Json.Span)
  deriving Repr, Inhabited

namespace Json

def span : Json → Span
  | .null s | .bool _ s | .number _ s | .string _ s | .array _ s | .object _ s => s

/-- The value of the last member named `key`, if the value is an object. Later members
replace earlier ones of the same name, as in a map built from the text. -/
def field? (v : Json) (key : String) : Option Json :=
  match v with
  | .object members _ => (members.reverse.find? (·.1 == key)).map (·.2.2)
  | _ => none

/-- The members of an object as a map sorted by key: one member per key, the last of its
name, in increasing order of the keys. -/
def sortedMembers (members : List (String × Pos × Json)) : List (String × Pos × Json) :=
  let lastOfEach := members.reverse.foldl
    (fun acc m => if acc.any (·.1 == m.1) then acc else m :: acc) []
  lastOfEach.mergeSort (fun a b => decide (a.1 ≤ b.1))

end Json

end CacheHierarchy
