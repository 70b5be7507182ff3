import CacheHierarchy.Json.Decode

set_option autoImplicit false

/-! # Decoding JSON text as it is read

A document is decoded in one pass over its text. Each decoder reads its own value, so the
first error in the text wins, whether it is a syntax error or a value that does not decode.
An error names the line and column the reader had reached when it found the error, as in
`Json.Reader`:

* a scalar of the wrong kind or out of range stands after the scalar, a number only ending
  once the character after it has been looked at;
* an array or object of the wrong kind stands at its opening bracket, before its content is
  read;
* an error of a record as a whole (a missing or repeated field, an array too short for it,
  the content of a tagged variant) stands where the reader is once it has gone past the
  blanks after the place where the error arose and looked at the next character, to close
  the record: after the closing brace for a missing field, after the colon for a repeated
  field name;
* a variant of unknown name stands right after its string.

Members of unknown names are skipped with their syntax checked, but their numbers are not
evaluated, their escapes not decoded, and no depth limit applies to them. Elsewhere at most
127 arrays and objects may be open at once.
-/

namespace CacheHierarchy.Json

/-- An error met while a document is read and decoded. -/
inductive StreamError where
  /-- An error whose place is known. -/
  | placed (message : String) (pos : Pos)
  /-- An error of a record as a whole, with the cursor where it arose; the container that
  holds it gives it its place when it closes. -/
  | loose (message : String) (here : Cursor)

namespace StreamError

def ofSyntax (e : SyntaxError) : StreamError := .placed e.code.text e.pos

/-- The message, with its place if it has one. -/
def message : StreamError → String
  | .placed m p => m ++ p.suffix
  | .loose m _ => m

/-- Give a loose error the place that `close` finds from its cursor. -/
def settle (close : Cursor → Pos) : StreamError → StreamError
  | .placed m p => .placed m p
  | .loose m c => .placed m (close c)

end StreamError

/-- A decoder that reads its value from the text: given how many more arrays and objects may
open and the cursor before the value (blanks included), the value and the cursor after it. -/
abbrev TextDecoder (α : Type) := Nat → Cursor → Except StreamError (α × Cursor)

namespace Stream

/-- A syntax result as a decoding result. -/
def lift {α : Type} (r : Except SyntaxError α) : Except StreamError α :=
  r.mapError StreamError.ofSyntax

/-- A syntax error at the place reached. -/
def fail {α : Type} (c : Cursor) (code : SyntaxCode) : Except StreamError α :=
  .error (.ofSyntax ⟨code, c.pos⟩)

/-- A syntax error after the next character, which was looked at. -/
def failAhead {α : Type} (c : Cursor) (code : SyntaxCode) : Except StreamError α :=
  .error (.ofSyntax ⟨code, c.ahead⟩)

/-- A value of the wrong kind, the cursor on its first character: a scalar is read and
refused after it, an array or object is refused at its bracket. -/
def wrongKind {α : Type} (expected : String) (c : Cursor) : Except StreamError α :=
  let refuse (what : String) (pos : Pos) : Except StreamError α :=
    .error (.placed (invalidTypeText what expected) pos)
  match c.peek? with
  | some 'n' => do refuse "null" (← lift (readWord ['u', 'l', 'l'] c.advance)).pos
  | some 't' => do refuse "boolean `true`" (← lift (readWord ['r', 'u', 'e'] c.advance)).pos
  | some 'f' => do
    refuse "boolean `false`" (← lift (readWord ['a', 'l', 's', 'e'] c.advance)).pos
  | some '-' => do
    let (n, d) ← lift (readNumber false c.advance)
    refuse n.describe d.ahead
  | some '"' => do
    let (s, d) ← lift (readString c.advance)
    refuse ("string " ++ Text.quote s) d.pos
  | some '[' => refuse "sequence" c.ahead
  | some '{' => refuse "map" c.ahead
  | some ch =>
    if ch.isDigit then do
      let (n, d) ← lift (readNumber true c)
      refuse n.describe d.ahead
    else failAhead c .expectedSomeValue
  | none => failAhead c .expectedSomeValue

/-! ## Scalars -/

/-- An unsigned integer of `bits` bits, called `name` in messages. -/
def unsigned (bits : Nat) (name : String) : TextDecoder Nat := fun _ c =>
  let c := c.skipBlanks
  let visit (r : Number × Cursor) : Except StreamError (Nat × Cursor) :=
    match r.1.toUnsigned bits name with
    | .ok n => .ok (n, r.2)
    | .error m => .error (.placed m r.2.ahead)
  match c.peek? with
  | none => failAhead c .eofWhileParsingValue
  | some '-' => do visit (← lift (readNumber false c.advance))
  | some ch => if ch.isDigit then do visit (← lift (readNumber true c)) else wrongKind name c

def u64 : TextDecoder Nat := unsigned 64 "u64"

def u32 : TextDecoder Nat := unsigned 32 "u32"

def usize : TextDecoder Nat := unsigned 64 "usize"

def str : TextDecoder String := fun _ c =>
  let c := c.skipBlanks
  match c.peek? with
  | none => failAhead c .eofWhileParsingValue
  | some '"' => lift (readString c.advance)
  | some _ => wrongKind "a string" c

def boolean : TextDecoder Bool := fun _ c =>
  let c := c.skipBlanks
  match c.peek? with
  | none => failAhead c .eofWhileParsingValue
  | some 't' => do pure (true, ← lift (readWord ['r', 'u', 'e'] c.advance))
  | some 'f' => do pure (false, ← lift (readWord ['a', 'l', 's', 'e'] c.advance))
  | some _ => wrongKind "a boolean" c

def optional {α : Type} (item : TextDecoder α) : TextDecoder (Option α) := fun depth c =>
  let c := c.skipBlanks
  match c.peek? with
  | some 'n' => do pure (none, ← lift (readWord ['u', 'l', 'l'] c.advance))
  | _ => do
    let (a, d) ← item depth c
    pure (some a, d)

/-- A unit: `null`. -/
def unit : TextDecoder Unit := fun _ c =>
  let c := c.skipBlanks
  match c.peek? with
  | none => failAhead c .eofWhileParsingValue
  | some 'n' => do pure ((), ← lift (readWord ['u', 'l', 'l'] c.advance))
  | some _ => wrongKind "unit" c

/-! ## Skipping a value -/

/-- Skip an exponent, the cursor on `e` or `E`. -/
def skipExponent (c : Cursor) : Except StreamError Cursor :=
  let c := c.advance
  let c := match c.peek? with
    | some '+' | some '-' => c.advance
    | _ => c
  match c.peek? with
  | some ch => if ch.isDigit then .ok c.advance.skipDigits else failAhead c .invalidNumber
  | none => fail c .invalidNumber

/-- Skip a fraction and what follows it, the cursor on the point. -/
def skipFraction (c : Cursor) : Except StreamError Cursor :=
  let c := c.advance
  let d := c.skipDigits
  if d.pos = c.pos then failAhead d .invalidNumber
  else
    match d.peek? with
    | some 'e' | some 'E' => skipExponent d
    | _ => .ok d

/-- Skip what may follow the integer part of a number. -/
def skipNumberEnd (c : Cursor) : Except StreamError Cursor :=
  match c.peek? with
  | some '.' => skipFraction c
  | some 'e' | some 'E' => skipExponent c
  | _ => .ok c

/-- Skip a number, after its minus sign if it has one. -/
def skipNumber (c : Cursor) : Except StreamError Cursor :=
  match c.peek? with
  | some '0' =>
    let d := c.advance
    match d.peek? with
    | some ch => if ch.isDigit then failAhead d .invalidNumber else skipNumberEnd d
    | none => .ok d
  | some ch => if ch.isDigit then skipNumberEnd c.advance.skipDigits else failAhead c .invalidNumber
  | none => fail c .invalidNumber

/-- Skip the rest of a string, the cursor after its opening quote; escapes are checked but
not decoded. -/
def skipString : Nat → Cursor → Except StreamError Cursor
  | 0, c => fail c .eofWhileParsingString
  | fuel + 1, c =>
    match c.peek? with
    | none => fail c .eofWhileParsingString
    | some '"' => .ok c.advance
    | some '\\' =>
      let c := c.advance
      match c.peek? with
      | none => fail c .eofWhileParsingString
      | some e =>
        if ['"', '\\', '/', 'b', 'f', 'n', 'r', 't'].contains e then skipString fuel c.advance
        else if e == 'u' then do
          let (_, d) ← lift (hexEscape c.advance)
          skipString fuel d
        else failAhead c .invalidEscape
    | some ch =>
      if ch.toNat < 0x20 then fail c.advance .controlCharacterWhileParsingString
      else skipString fuel c.advance

/-- The colon after a member name. -/
def colon (c : Cursor) : Except StreamError Cursor :=
  let c := c.skipBlanks
  match c.peek? with
  | some ':' => .ok c.advance
  | some _ => failAhead c .expectedColon
  | none => failAhead c .eofWhileParsingObject

/-- Where a skipping reader stands: before a value, or inside the array or object opened by
`frame`, after one of its values or right after its bracket. -/
inductive SkipState where
  | value
  | inside (frame : Char) (afterValue : Bool)

/-- Skip values, `opened` holding the arrays and objects entered around the current one,
innermost first, until the outermost value is done. -/
def skipRun : Nat → SkipState → List Char → Cursor → Except StreamError Cursor
  | 0, _, _, c => failAhead c .recursionLimitExceeded
  | fuel + 1, .value, opened, c =>
    let c := c.skipBlanks
    let done (d : Cursor) : Except StreamError Cursor :=
      match opened with
      | [] => .ok d
      | f :: outer => skipRun fuel (.inside f true) outer d
    match c.peek? with
    | none => failAhead c .eofWhileParsingValue
    | some 'n' => do done (← lift (readWord ['u', 'l', 'l'] c.advance))
    | some 't' => do done (← lift (readWord ['r', 'u', 'e'] c.advance))
    | some 'f' => do done (← lift (readWord ['a', 'l', 's', 'e'] c.advance))
    | some '-' => do done (← skipNumber c.advance)
    | some '"' => do done (← skipString (c.rest.length + 1) c.advance)
    | some '[' => skipRun fuel (.inside '[' false) opened c.advance
    | some '{' => skipRun fuel (.inside '{' false) opened c.advance
    | some ch => if ch.isDigit then do done (← skipNumber c) else failAhead c .expectedSomeValue
  | fuel + 1, .inside frame afterValue, opened, c =>
    let c := c.skipBlanks
    let isObject := frame == '{'
    let entry (d : Cursor) : Except StreamError Cursor :=
      if isObject then
        let d := d.skipBlanks
        match d.peek? with
        | some '"' => do
          let e ← colon (← skipString (d.rest.length + 1) d.advance)
          skipRun fuel .value (frame :: opened) e
        | some _ => failAhead d .keyMustBeAString
        | none => failAhead d .eofWhileParsingObject
      else skipRun fuel .value (frame :: opened) d
    match c.peek? with
    | none => failAhead c (if isObject then .eofWhileParsingObject else .eofWhileParsingList)
    | some ch =>
      if ch == ',' && afterValue then entry c.advance
      else if ch == (if isObject then '}' else ']') then
        match opened with
        | [] => .ok c.advance
        | f :: outer => skipRun fuel (.inside f true) outer c.advance
      else if afterValue then
        failAhead c (if isObject then .expectedObjectCommaOrEnd else .expectedListCommaOrEnd)
      else entry c

/-- Skip one value with blanks before it. -/
def skipValue (c : Cursor) : Except StreamError Cursor :=
  skipRun (2 * c.rest.length + 2) .value [] c

/-! ## Arrays and objects -/

/-- Where an error of an object as a whole stands: the reader goes past the blanks after the
place where it arose and looks at the next character, to close the object. -/
def objectEnd (c : Cursor) : Pos := c.skipBlanks.ahead

/-- Where an error of an array as a whole stands: as for an object, but a comma there is
consumed, and the character after the blanks that follow it is looked at. -/
def arrayEnd (c : Cursor) : Pos :=
  let d := c.skipBlanks
  match d.peek? with
  | some ',' => d.advance.skipBlanks.ahead
  | _ => d.ahead

/-- Close an object once its members are read, the cursor at its closing brace. -/
def closeObject {α : Type} (r : Except StreamError (α × Cursor)) :
    Except StreamError (α × Cursor) :=
  match r with
  | .error e => .error (e.settle objectEnd)
  | .ok (a, c) =>
    let d := c.skipBlanks
    match d.peek? with
    | some '}' => .ok (a, d.advance)
    | some ',' => failAhead d .trailingComma
    | some _ => failAhead d .trailingCharacters
    | none => failAhead d .eofWhileParsingObject

/-- Close an array once its elements are read, the cursor at its closing bracket. -/
def closeArray {α : Type} (r : Except StreamError (α × Cursor)) :
    Except StreamError (α × Cursor) :=
  match r with
  | .error e => .error (e.settle arrayEnd)
  | .ok (a, c) =>
    let d := c.skipBlanks
    match d.peek? with
    | some ']' => .ok (a, d.advance)
    | some ',' =>
      let e := d.advance.skipBlanks
      if e.peek? == some ']' then failAhead e .trailingComma else failAhead e .trailingCharacters
    | some _ => failAhead d .trailingCharacters
    | none => failAhead d .eofWhileParsingList

/-- Whether an array has one more element, the cursor after the opening bracket (`first`) or
after the previous element. The cursor comes back at the closing bracket or at the element. -/
def nextElement (first : Bool) (c : Cursor) : Except StreamError (Bool × Cursor) :=
  let c := c.skipBlanks
  match c.peek? with
  | none => failAhead c .eofWhileParsingList
  | some ']' => .ok (false, c)
  | some ch =>
    if first then .ok (true, c)
    else if ch == ',' then
      let d := c.advance.skipBlanks
      match d.peek? with
      | some ']' => failAhead d .trailingComma
      | some _ => .ok (true, d)
      | none => failAhead d .eofWhileParsingValue
    else failAhead c .expectedListCommaOrEnd

/-- The name of the next member of an object, the cursor after the opening brace (`first`)
or after the previous member: `none` with the cursor at the closing brace, or the name with
the cursor after it. -/
def nextKey (first : Bool) (c : Cursor) : Except StreamError (Option String × Cursor) :=
  let c := c.skipBlanks
  let key (d : Cursor) : Except StreamError (Option String × Cursor) := do
    let (k, e) ← lift (readString d.advance)
    pure (some k, e)
  match c.peek? with
  | none => failAhead c .eofWhileParsingObject
  | some '}' => .ok (none, c)
  | some ch =>
    if first then (if ch == '"' then key c else failAhead c .keyMustBeAString)
    else if ch == ',' then
      let d := c.advance.skipBlanks
      match d.peek? with
      | some '"' => key d
      | some '}' => failAhead d .trailingComma
      | some _ => failAhead d .keyMustBeAString
      | none => failAhead d .eofWhileParsingValue
    else failAhead c .expectedObjectCommaOrEnd

/-- The elements of an array, each decoded by `item`, up to its closing bracket. -/
def listItems {α : Type} (item : TextDecoder α) (depth : Nat) :
    Nat → Bool → List α → Cursor → Except StreamError (List α × Cursor)
  | 0, _, _, c => failAhead c .recursionLimitExceeded
  | fuel + 1, first, acc, c => do
    match ← nextElement first c with
    | (true, d) =>
      let (a, e) ← item depth d
      listItems item depth fuel false (a :: acc) e
    | (false, d) => pure (acc.reverse, d)

def list {α : Type} (item : TextDecoder α) : TextDecoder (List α) := fun depth c =>
  let c := c.skipBlanks
  match c.peek? with
  | none => failAhead c .eofWhileParsingValue
  | some '[' =>
    if depth ≤ 1 then failAhead c .recursionLimitExceeded
    else closeArray (listItems item (depth - 1) (c.rest.length + 1) true [] c.advance)
  | some _ => wrongKind "a sequence" c

/-! ## Records -/

/-- One field of a record read from the text. -/
structure TextField (α : Type) where
  name : String
  /-- A field that may be left out keeps the value of the starting record. -/
  optional : Bool
  put : α → TextDecoder α

/-- The members of an object read into a record, up to the closing brace, with the names of
the fields met; a repeated field is refused after its name. -/
def recordMembers {α : Type} (fields : List (TextField α)) (depth : Nat) :
    Nat → Bool → α × List String → Cursor → Except StreamError ((α × List String) × Cursor)
  | 0, _, _, c => failAhead c .recursionLimitExceeded
  | fuel + 1, first, (a, seen), c => do
    match ← nextKey first c with
    | (none, d) => pure ((a, seen), d)
    | (some key, d) =>
      match fields.find? (·.name == key) with
      | some f =>
        if seen.contains key then .error (.loose (duplicateFieldText key) d)
        else
          let (a, e) ← f.put a depth (← colon d)
          recordMembers fields depth fuel false (a, key :: seen) e
      | none =>
        let e ← skipValue (← colon d)
        recordMembers fields depth fuel false (a, seen) e

/-- The elements of an array read as the fields of a record in declaration order, `i` being
the index of the next field. -/
def recordElements {α : Type} (expecting : String) (count depth : Nat) :
    Nat → List (TextField α) → Bool → α → Cursor → Except StreamError (α × Cursor)
  | _, [], _, a, c => .ok (a, c)
  | i, f :: fs, first, a, c => do
    match ← nextElement first c with
    | (true, d) =>
      let (a, e) ← f.put a depth d
      recordElements expecting count depth (i + 1) fs false a e
    | (false, d) =>
      if f.optional then recordElements expecting count depth (i + 1) fs first a d
      else .error (.loose (shortRecordText expecting i count) d)

/-- A record with the given fields, starting from `start`; `expecting` names it in
messages (`struct Name`). Once all members are read, the first required field left out is
refused. -/
def record {α : Type} (expecting : String) (fields : List (TextField α)) (start : α) :
    TextDecoder α := fun depth c =>
  let c := c.skipBlanks
  match c.peek? with
  | none => failAhead c .eofWhileParsingValue
  | some '{' =>
    if depth ≤ 1 then failAhead c .recursionLimitExceeded
    else closeObject do
      let ((a, seen), d) ←
        recordMembers fields (depth - 1) (c.rest.length + 1) true (start, []) c.advance
      match fields.find? (fun f => !f.optional && !seen.contains f.name) with
      | some f => .error (.loose (missingFieldText f.name) d)
      | none => pure (a, d)
  | some '[' =>
    if depth ≤ 1 then failAhead c .recursionLimitExceeded
    else closeArray (recordElements expecting fields.length (depth - 1) 0 fields true start c.advance)
  | some _ => wrongKind expecting c

/-! ## Variants -/

/-- A variant named by a string. -/
def variantName {α : Type} (variants : List (String × α)) : TextDecoder α := fun _ c =>
  let c := c.skipBlanks
  match c.peek? with
  | none => failAhead c .eofWhileParsingValue
  | some '"' => do
    let (s, d) ← lift (readString c.advance)
    match variantNamed variants s with
    | .ok a => pure (a, d)
    | .error m => .error (.placed m d.pos)
  | some _ => wrongKind "variant identifier" c

/-- A variant without data: its name as a string, or an object with its name as single key
and `null` as value. -/
def unitVariant {α : Type} (variants : List (String × α)) : TextDecoder α := fun depth c =>
  let c := c.skipBlanks
  match c.peek? with
  | none => failAhead c .eofWhileParsingValue
  | some '"' => variantName variants depth c
  | some '{' =>
    if depth ≤ 1 then failAhead c .recursionLimitExceeded
    else do
      let (a, d) ← variantName variants (depth - 1) c.advance
      let ((), e) ← unit (depth - 1) (← colon d)
      let e := e.skipBlanks
      match e.peek? with
      | some '}' => pure (a, e.advance)
      | some _ => failAhead e .expectedSomeValue
      | none => failAhead e .eofWhileParsingObject
  | some _ => failAhead c .expectedSomeValue

/-- The tag and the other members of an object tagged inside by the member `tag`, up to the
closing brace. The other members are read whole, with their numbers evaluated. -/
def taggedMembers (names : List (String × Nat)) (tag : String) (depth : Nat) :
    Nat → Bool → Option Nat × List (String × Pos × Json) → Cursor →
    Except StreamError ((Option Nat × List (String × Pos × Json)) × Cursor)
  | 0, _, _, c => failAhead c .recursionLimitExceeded
  | fuel + 1, first, (found, rest), c => do
    match ← nextKey first c with
    | (none, d) => pure ((found, rest.reverse), d)
    | (some key, d) =>
      if key == tag then
        match found with
        | some _ => .error (.loose (duplicateFieldText tag) d)
        | none =>
          let (i, e) ← variantName names depth (← colon d)
          taggedMembers names tag depth fuel false (some i, rest) e
      else
        let e ← colon d
        let (v, e) ← lift (readValue (e.rest.length + 1) depth e)
        taggedMembers names tag depth fuel false (found, (key, d.pos, v) :: rest) e

/-- The elements of an array after the one naming the variant, read whole, up to the
closing bracket. -/
def contentElements (depth : Nat) :
    Nat → List Json → Cursor → Except StreamError (List Json × Cursor)
  | 0, _, c => failAhead c .recursionLimitExceeded
  | fuel + 1, acc, c => do
    match ← nextElement false c with
    | (true, d) =>
      let (v, e) ← lift (readValue (d.rest.length + 1) depth d)
      contentElements depth fuel (v :: acc) e
    | (false, d) => pure (acc.reverse, d)

/-- A variant of an enumeration tagged inside the value by the member `tag`. The whole value
is read first: an object's other members, or an array's elements after the first, which
names the variant. That content is then decoded by the variant, and an error there stands
where the enclosing record closes. -/
def tagged {α : Type} (enumName tag : String) (variants : List (String × (Json → Decode α))) :
    TextDecoder α := fun depth c =>
  let c := c.skipBlanks
  let names := (variants.map (·.1)).zipIdx
  let finish (r : Except StreamError ((Nat × Json) × Cursor)) : Except StreamError (α × Cursor) := do
    let ((i, content), d) ← r
    match variants[i]? with
    | some (_, decodeVariant) =>
      match decodeVariant content with
      | .ok a => pure (a, d)
      | .error e => .error (.loose e.message d)
    | none => .error (.loose (missingFieldText tag) d)
  match c.peek? with
  | none => failAhead c .eofWhileParsingValue
  | some '{' =>
    if depth ≤ 1 then failAhead c .recursionLimitExceeded
    else finish <| closeObject do
      let ((found, rest), d) ←
        taggedMembers names tag (depth - 1) (c.rest.length + 1) true (none, []) c.advance
      match found with
      | none => .error (.loose (missingFieldText tag) d)
      | some i => pure ((i, .object rest ⟨c.ahead, d.ahead⟩), d)
  | some '[' =>
    if depth ≤ 1 then failAhead c .recursionLimitExceeded
    else finish <| closeArray do
      match ← nextElement true c.advance with
      | (false, d) => .error (.loose (missingFieldText tag) d)
      | (true, d) =>
        let (i, e) ← variantName names (depth - 1) d
        let (rest, e) ← contentElements (depth - 1) (e.rest.length + 1) [] e
        pure ((i, .array rest ⟨c.ahead, e.ahead⟩), e)
  | some _ => wrongKind ("internally tagged enum " ++ enumName) c

/-! ## Documents -/

/-- Decode a whole text as one value with blanks around it; an error's message names its
place. -/
def document {α : Type} (decoder : TextDecoder α) (text : String) : Except String α :=
  match decoder 128 ⟨text.toList, {}⟩ with
  | .error e => .error e.message
  | .ok (a, d) =>
    let d := d.skipBlanks
    if d.rest.isEmpty then .ok a else .error (SyntaxError.message ⟨.trailingCharacters, d.ahead⟩)

end Stream

end CacheHierarchy.Json
