import CacheHierarchy.Json.Reader
import CacheHierarchy.Decimal.ShortForm
import CacheHierarchy.Text.Quoted

set_option autoImplicit false

/-! # Decoding JSON values into records

Typed reading of JSON values already in memory, with the messages of a schema-driven decoder:

* a value of the wrong kind gives `invalid type: <what it is>, expected <what was wanted>`;
* an integer out of range gives `invalid value: integer <n>, expected u32` and the like;
* a record lacking a field without default gives ``missing field `name` ``, the first such
  field in declaration order, once all members are read; members of unknown names are
  ignored;
* a unit variant of unknown name gives ``unknown variant `X`, expected one of `A`, `B`, `C` ``.

A value is either a map read from a whole document, whose members are visited sorted by key
with one member per key (`Order.sorted`), or a value buffered while a document was read,
whose members are visited in the order of the text, repetitions included (`Order.buffered`).
The two differ only in a few messages. A record may also be written as an array of its
fields in declaration order.

Decoding a document while it is read, with the places of errors, is `Json.Stream`.
-/

namespace CacheHierarchy.Json

/-- How the members of an object are visited. -/
inductive Order where
  /-- Sorted by key, one member per key (the last of its name). -/
  | sorted
  /-- In the order of the text, repetitions included. -/
  | buffered
  deriving DecidableEq, Repr

structure DecodeError where
  message : String
  deriving DecidableEq, Repr

abbrev Decode (α : Type) := Except DecodeError α

/-- How a message names a number that was not expected. -/
def Number.describe : Number → String
  | .nat n => "integer `" ++ toString n ++ "`"
  | .negative n => "integer `-" ++ toString n ++ "`"
  | .float x => "floating point `" ++ x.toShortString ++ "`"

/-- How a message names a value that was not expected. -/
def describe : Json → String
  | .null _ => "null"
  | .bool b _ => "boolean `" ++ Text.boolWord b ++ "`"
  | .number n _ => n.describe
  | .string s _ => "string " ++ Text.quote s
  | .array _ _ => "sequence"
  | .object _ _ => "map"

/-- The message for a value of the wrong kind. -/
def invalidTypeText (what expected : String) : String :=
  "invalid type: " ++ what ++ ", expected " ++ expected

/-- The message for a value of the right kind but out of range. -/
def invalidValueText (what expected : String) : String :=
  "invalid value: " ++ what ++ ", expected " ++ expected

def invalidType {α : Type} (v : Json) (expected : String) : Decode α :=
  .error ⟨invalidTypeText (describe v) expected⟩

def invalidValue {α : Type} (v : Json) (expected : String) : Decode α :=
  .error ⟨invalidValueText (describe v) expected⟩

def missingFieldText (name : String) : String := "missing field `" ++ name ++ "`"

def duplicateFieldText (name : String) : String := "duplicate field `" ++ name ++ "`"

/-! ## Scalars -/

/-- Whether a number is a natural number of `bits` bits; otherwise the message refusing it,
for a type called `name`. -/
def Number.toUnsigned (bits : Nat) (name : String) : Number → Except String Nat
  | .nat n =>
    if n < Nat.pow 2 bits then .ok n else .error (invalidValueText (Number.describe (.nat n)) name)
  | .negative n => .error (invalidValueText (Number.describe (.negative n)) name)
  | .float x => .error (invalidTypeText (Number.describe (.float x)) name)

/-- An unsigned integer of `bits` bits, called `name` in messages. -/
def unsigned (bits : Nat) (name : String) (v : Json) : Decode Nat :=
  match v with
  | .number n _ => (n.toUnsigned bits name).mapError (⟨·⟩)
  | _ => invalidType v name

def u64 : Json → Decode Nat := unsigned 64 "u64"

def u32 : Json → Decode Nat := unsigned 32 "u32"

/-- A machine-word count (64 bits). -/
def usize : Json → Decode Nat := unsigned 64 "usize"

def str (v : Json) : Decode String :=
  match v with
  | .string s _ => .ok s
  | _ => invalidType v "a string"

def boolean (v : Json) : Decode Bool :=
  match v with
  | .bool b _ => .ok b
  | _ => invalidType v "a boolean"

/-- An array, each element decoded by `item`. -/
def list {α : Type} (item : Json → Decode α) (v : Json) : Decode (List α) :=
  match v with
  | .array items _ => items.mapM item
  | _ => invalidType v "a sequence"

/-- A value that may be `null`. -/
def optional {α : Type} (item : Json → Decode α) (v : Json) : Decode (Option α) :=
  match v with
  | .null _ => .ok none
  | _ => some <$> item v

/-! ## Variants -/

/-- The names a message offers: "`A`", "`A` or `B`", "one of `A`, `B`, `C`". -/
def oneOf (names : List String) : String :=
  let tick (n : String) := "`" ++ n ++ "`"
  match names with
  | [a] => tick a
  | [a, b] => tick a ++ " or " ++ tick b
  | _ => "one of " ++ ", ".intercalate (names.map tick)

/-- The message for a variant of unknown name. -/
def unknownVariantText (name : String) (names : List String) : String :=
  if names.isEmpty then "unknown variant `" ++ name ++ "`, there are no variants"
  else "unknown variant `" ++ name ++ "`, expected " ++ oneOf names

/-- The variant named `name`, or the message refusing the name. -/
def variantNamed {α : Type} (variants : List (String × α)) (name : String) :
    Except String α :=
  match variants.find? (·.1 == name) with
  | some (_, a) => .ok a
  | none => .error (unknownVariantText name (variants.map (·.1)))

/-- A variant without data: its name as a string, or an object with its name as single key
and `null` as value (a buffered value also takes an empty object there). -/
def unitVariant {α : Type} (order : Order) (variants : List (String × α)) (v : Json) :
    Decode α :=
  match v with
  | .string s _ => (variantNamed variants s).mapError (⟨·⟩)
  | .object [(k, _, x)] _ => do
    let a ← (variantNamed variants k).mapError (⟨·⟩)
    match x, order with
    | .null _, _ => pure a
    | .object [] _, .buffered => pure a
    | _, _ => invalidType x "unit"
  | .object _ _ => invalidValue v "map with a single key"
  | _ => invalidType v "string or map"

/-! ## Records -/

/-- One field of a record decoded into `α`. -/
structure RecordField (α : Type) where
  name : String
  /-- A field that may be left out keeps the value of the starting record. -/
  optional : Bool
  put : Json → α → Decode α

/-- The members visited, in the order `order` gives. -/
def visitOrder (order : Order) (members : List (String × Pos × Json)) :
    List (String × Pos × Json) :=
  match order with
  | .buffered => members
  | .sorted => sortedMembers members

/-- Decode the members of an object into the record `start`: known fields in visiting order,
a repeated field being an error, then the first required field left out. -/
def fieldsOf {α : Type} (order : Order) (fields : List (RecordField α)) (start : α)
    (members : List (String × Pos × Json)) : Decode α := do
  let step (acc : Decode (α × List String)) (m : String × Pos × Json) :
      Decode (α × List String) := do
    let (a, seen) ← acc
    match fields.find? (·.name == m.1) with
    | none => pure (a, seen)
    | some f =>
      if seen.contains f.name then .error ⟨duplicateFieldText f.name⟩
      else pure (← f.put m.2.2 a, f.name :: seen)
  let (a, seen) ← (visitOrder order members).foldl step (pure (start, []))
  match fields.find? (fun f => !f.optional && !seen.contains f.name) with
  | some f => .error ⟨missingFieldText f.name⟩
  | none => pure a

/-- The message for a record given as an array too short for it. -/
def shortRecordText (expecting : String) (index count : Nat) : String :=
  "invalid length " ++ toString index ++ ", expected " ++ expecting ++ " with " ++
    toString count ++ " elements"

/-- The message for an array with elements left over once a buffered value has taken
`taken` of them. -/
def leftOverText (total taken : Nat) : String :=
  "invalid length " ++ toString total ++ ", expected " ++
    (if taken = 1 then "1 element in sequence" else toString taken ++ " elements in sequence")

/-- Decode the elements of an array as the fields in declaration order; elements left over
are refused. -/
def positionalOf {α : Type} (order : Order) (expecting : String) (count : Nat) :
    Nat → List (RecordField α) → List Json → α → Decode α
  | _, [], [], a => .ok a
  | i, [], rest, _ =>
    match order with
    | .sorted => .error ⟨"invalid length " ++ toString (i + rest.length) ++
        ", expected fewer elements in array"⟩
    | .buffered => .error ⟨leftOverText (i + rest.length) i⟩
  | i, f :: fs, x :: xs, a => do
    let a ← f.put x a
    positionalOf order expecting count (i + 1) fs xs a
  | i, f :: fs, [], a =>
    if f.optional then positionalOf order expecting count (i + 1) fs [] a
    else .error ⟨shortRecordText expecting i count⟩

/-- A record with the given fields, starting from `start`; `expecting` names it in
messages (`struct Name`). -/
def record {α : Type} (order : Order) (expecting : String) (fields : List (RecordField α))
    (start : α) (v : Json) : Decode α :=
  match v with
  | .object members _ => fieldsOf order fields start members
  | .array items _ => positionalOf order expecting fields.length 0 fields items start
  | _ => invalidType v expecting

/-- The index of the variant named by a tag value: a string naming one of `names`. -/
def tagIndex (names : List String) (v : Json) : Decode Nat :=
  match v with
  | .string s _ =>
    (variantNamed (((List.range names.length).zip names).map fun (i, n) => (n, i)) s).mapError (⟨·⟩)
  | _ => invalidType v "variant identifier"

/-- A variant of an enumeration tagged inside the value by the member `tag`: the tag names
the variant, and the rest of the value, buffered, is that variant's content. An object keeps
its other members; an array names the variant in its first element and keeps the others. -/
def tagged {α : Type} (order : Order) (enumName tag : String)
    (variants : List (String × (Json → Decode α))) (v : Json) : Decode α :=
  let names := variants.map (·.1)
  let content (i : Nat) (rest : Json) : Decode α :=
    match variants[i]? with
    | some (_, decodeVariant) => decodeVariant rest
    | none => .error ⟨missingFieldText tag⟩
  match v with
  | .object members sp => do
    let step (acc : Decode (Option Nat × List (String × Pos × Json)))
        (m : String × Pos × Json) : Decode (Option Nat × List (String × Pos × Json)) := do
      let (found, rest) ← acc
      if m.1 == tag then
        match found with
        | some _ => .error ⟨duplicateFieldText tag⟩
        | none => pure (some (← tagIndex names m.2.2), rest)
      else pure (found, rest ++ [m])
    let (found, rest) ← (visitOrder order members).foldl step (pure (none, []))
    match found with
    | none => .error ⟨missingFieldText tag⟩
    | some i => content i (.object rest sp)
  | .array items sp =>
    match items with
    | [] => .error ⟨missingFieldText tag⟩
    | t :: rest => do content (← tagIndex names t) (.array rest sp)
  | _ => invalidType v ("internally tagged enum " ++ enumName)

/-- The content of a variant without data in an enumeration tagged inside the value: any
members are ignored, but an array must have nothing left after the tag. -/
def emptyContent (v : Json) : Decode Unit :=
  match v with
  | .array items _ => if items.isEmpty then .ok () else .error ⟨leftOverText items.length 0⟩
  | _ => .ok ()

end CacheHierarchy.Json
