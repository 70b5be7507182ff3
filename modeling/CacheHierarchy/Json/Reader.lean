import CacheHierarchy.Json.Basic

set_option autoImplicit false

/-! # Reading JSON text

The reader takes a text to a `Json` value, or to the first syntax error, named with its line
and column. It reads one value with blanks (space, tab, line feed, carriage return) around
it. Numbers keep their class: an integer literal that fits is a natural number below `2^64`
or a negative integer not below `-2^63`; any other number is a double, built from its first
nineteen or so significant digits and a power of ten from a table of doubles, one rounding
at a time, and a double that overflows is an error. At most 127 arrays and objects may be
open at once. A member name must be a string; repeated names are all kept.

An error stands where the reader was when it found it: after the character it consumed, or,
when it only looked at the next character, after that one.
-/

namespace CacheHierarchy.Json

/-- Why a text is not JSON. -/
inductive SyntaxCode where
  | eofWhileParsingList
  | eofWhileParsingObject
  | eofWhileParsingString
  | eofWhileParsingValue
  | expectedColon
  | expectedListCommaOrEnd
  | expectedObjectCommaOrEnd
  | expectedSomeIdent
  | expectedSomeValue
  | invalidEscape
  | invalidNumber
  | numberOutOfRange
  | controlCharacterWhileParsingString
  | keyMustBeAString
  | loneLeadingSurrogateInHexEscape
  | trailingComma
  | trailingCharacters
  | unexpectedEndOfHexEscape
  | recursionLimitExceeded
  deriving DecidableEq, Repr

def SyntaxCode.text : SyntaxCode → String
  | .eofWhileParsingList => "EOF while parsing a list"
  | .eofWhileParsingObject => "EOF while parsing an object"
  | .eofWhileParsingString => "EOF while parsing a string"
  | .eofWhileParsingValue => "EOF while parsing a value"
  | .expectedColon => "expected `:`"
  | .expectedListCommaOrEnd => "expected `,` or `]`"
  | .expectedObjectCommaOrEnd => "expected `,` or `\x7d`"
  | .expectedSomeIdent => "expected ident"
  | .expectedSomeValue => "expected value"
  | .invalidEscape => "invalid escape"
  | .invalidNumber => "invalid number"
  | .numberOutOfRange => "number out of range"
  | .controlCharacterWhileParsingString =>
    "control character (\\u0000-\\u001F) found while parsing a string"
  | .keyMustBeAString => "key must be a string"
  | .loneLeadingSurrogateInHexEscape => "lone leading surrogate in hex escape"
  | .trailingComma => "trailing comma"
  | .trailingCharacters => "trailing characters"
  | .unexpectedEndOfHexEscape => "unexpected end of hex escape"
  | .recursionLimitExceeded => "recursion limit exceeded"

/-- A syntax error and where it was found. -/
structure SyntaxError where
  code : SyntaxCode
  pos : Pos
  deriving DecidableEq, Repr

/-- The place as messages name it: ` at line L column C`. -/
def Pos.suffix (p : Pos) : String :=
  " at line " ++ toString p.line ++ " column " ++ toString p.column

def SyntaxError.message (e : SyntaxError) : String := e.code.text ++ e.pos.suffix

/-! ## The cursor -/

/-- The text still to read and the place reached. -/
structure Cursor where
  rest : List Char
  pos : Pos := {}
  deriving Repr, Inhabited

namespace Cursor

def peek? (c : Cursor) : Option Char := c.rest.head?

/-- The place once the next character is consumed. -/
def ahead (c : Cursor) : Pos :=
  match c.rest with
  | '\n' :: _ => ⟨c.pos.line + 1, 0⟩
  | _ :: _ => ⟨c.pos.line, c.pos.column + 1⟩
  | [] => c.pos

def advance (c : Cursor) : Cursor :=
  match c.rest with
  | '\n' :: r => ⟨r, ⟨c.pos.line + 1, 0⟩⟩
  | ch :: r => ⟨r, ⟨c.pos.line, c.pos.column + ch.utf8Size⟩⟩
  | [] => c

/-- An error at the place reached. -/
def fail {α : Type} (c : Cursor) (code : SyntaxCode) : Except SyntaxError α :=
  .error ⟨code, c.pos⟩

/-- An error at the place after the next character, which was looked at. -/
def failAhead {α : Type} (c : Cursor) (code : SyntaxCode) : Except SyntaxError α :=
  .error ⟨code, c.ahead⟩

/-- Whether JSON counts the character as a blank. -/
def isBlank (ch : Char) : Bool := ch == ' ' || ch == '\n' || ch == '\t' || ch == '\r'

def skipBlanks (c : Cursor) : Cursor :=
  let rec go : List Char → Pos → Cursor
    | ch :: r, p =>
      if isBlank ch then go r (if ch == '\n' then ⟨p.line + 1, 0⟩ else ⟨p.line, p.column + 1⟩)
      else ⟨ch :: r, p⟩
    | [], p => ⟨[], p⟩
  go c.rest c.pos

/-- The place after the next `n` bytes of the text, or at its end if it has fewer. The
reader takes the text byte by byte, so it may stop inside a character. -/
def bytesAhead (n : Nat) (c : Cursor) : Pos :=
  let rec go : List Char → Nat → Pos → Pos
    | _, 0, p => p
    | [], _, p => p
    | ch :: r, k + 1, p =>
      if ch == '\n' then go r k ⟨p.line + 1, 0⟩
      else if ch.utf8Size ≤ k + 1 then go r (k + 1 - ch.utf8Size) ⟨p.line, p.column + ch.utf8Size⟩
      else ⟨p.line, p.column + k + 1⟩
  go c.rest n c.pos

def skipDigits (c : Cursor) : Cursor :=
  let rec go : List Char → Nat → Cursor
    | ch :: r, col => if ch.isDigit then go r (col + 1) else ⟨ch :: r, ⟨c.pos.line, col⟩⟩
    | [], col => ⟨[], ⟨c.pos.line, col⟩⟩
  go c.rest c.pos.column

end Cursor

/-! ## Numbers -/

/-- The largest 64-bit word. -/
def wordLimit : Nat := Nat.pow 2 64 - 1

/-- Whether `10 * s + d` goes beyond a 64-bit word. -/
def overflows (s d : Nat) : Bool :=
  s ≥ wordLimit / 10 && (s > wordLimit / 10 || d > wordLimit % 10)

/-- The double `significand * 10^exponent`, built as `significand` rounded to a double and
then multiplied or divided by a double power of ten, dividing by `10^308` first while the
power is beyond the table; `none` when a product overflows. -/
def doubleOfParts (positive : Bool) (significand : Nat) (exponent : Int) : Option Binary64 :=
  let rec go : Nat → Binary64 → Int → Option Binary64
    | 0, f, _ => some f
    | fuel + 1, f, e =>
      if e.natAbs ≤ 308 then
        if 0 ≤ e then Binary64.mul f (Binary64.powTen e.natAbs)
        else Binary64.div f (Binary64.powTen e.natAbs)
      else if f.isZero then some f
      else if 0 ≤ e then none
      else (Binary64.div f (Binary64.powTen 308)).bind fun g => go fuel g (e + 308)
  (go 16 (Binary64.ofNat significand) exponent).map fun f =>
    if positive then f else f.neg

/-- The 32-bit clamp of an exponent. -/
def clampExponent (e : Int) : Int := max (-(Int.pow 2 31)) (min e (Int.pow 2 31 - 1))

/-- Finish a double once its significand and exponent are known. A double out of range is
reported once the character after the number has been looked at. -/
def finishDouble (positive : Bool) (significand : Nat) (exponent : Int) (c : Cursor) :
    Except SyntaxError (Number × Cursor) :=
  match doubleOfParts positive significand exponent with
  | some f => .ok (.float f, c)
  | none => c.failAhead .numberOutOfRange

/-- The digits of an exponent, after `e` and its sign. -/
def exponentDigits (positive positiveExp : Bool) (significand : Nat) (start : Int) :
    Nat → Nat → Cursor → Except SyntaxError (Number × Cursor)
  | 0, _, c => c.fail .numberOutOfRange
  | fuel + 1, exp, c =>
    match c.peek? with
    | some ch =>
      if ch.isDigit then
        let d := ch.toNat - '0'.toNat
        let c := c.advance
        if exp * 10 + d > Nat.pow 2 31 - 1 then
          if significand ≠ 0 ∧ positiveExp then c.fail .numberOutOfRange
          else
            let zero : Binary64 := ⟨!positive, 0⟩
            .ok (.float zero, c.skipDigits)
        else exponentDigits positive positiveExp significand start fuel (exp * 10 + d) c
      else
        finishDouble positive significand
          (clampExponent (if positiveExp then start + exp else start - exp)) c
    | none =>
      finishDouble positive significand
        (clampExponent (if positiveExp then start + exp else start - exp)) c

/-- An exponent part, the cursor standing on `e` or `E`. -/
def exponentPart (positive : Bool) (significand : Nat) (start : Int) (c : Cursor) :
    Except SyntaxError (Number × Cursor) :=
  let c := c.advance
  let (positiveExp, c) := match c.peek? with
    | some '+' => (true, c.advance)
    | some '-' => (false, c.advance)
    | _ => (true, c)
  match c.peek? with
  | none => c.fail .eofWhileParsingValue
  | some ch =>
    let c1 := c.advance
    if ch.isDigit then
      exponentDigits positive positiveExp significand start (c1.rest.length + 1)
        (ch.toNat - '0'.toNat) c1
    else c.failAhead .invalidNumber

/-- What follows the digits read so far: a fraction, an exponent, or the end. -/
def afterDigits (positive : Bool) (significand : Nat) (exponent : Int) (c : Cursor) :
    Except SyntaxError (Number × Cursor) :=
  match c.peek? with
  | some 'e' | some 'E' => exponentPart positive significand exponent c
  | _ => finishDouble positive significand exponent c

/-- The digits of a fraction, the significand growing until it would overflow. -/
def fractionDigits (positive : Bool) (before : Int) :
    Nat → Nat → Int → Cursor → Except SyntaxError (Number × Cursor)
  | 0, s, e, c => afterDigits positive s (before + e) c
  | fuel + 1, s, e, c =>
    match c.peek? with
    | some ch =>
      if ch.isDigit then
        let d := ch.toNat - '0'.toNat
        if overflows s d then afterDigits positive s (before + e) c.skipDigits
        else fractionDigits positive before fuel (10 * s + d) (e - 1) c.advance
      else if e = 0 then c.failAhead .invalidNumber
      else afterDigits positive s (before + e) c
    | none =>
      if e = 0 then c.failAhead .eofWhileParsingValue
      else afterDigits positive s (before + e) c

/-- A fraction, the cursor standing on the point. -/
def fractionPart (positive : Bool) (significand : Nat) (before : Int) (c : Cursor) :
    Except SyntaxError (Number × Cursor) :=
  let c := c.advance
  fractionDigits positive before (c.rest.length + 1) significand 0 c

/-- What follows an integer literal: a fraction, an exponent, or the end of the number. -/
def integerEnd (positive : Bool) (significand : Nat) (c : Cursor) :
    Except SyntaxError (Number × Cursor) :=
  match c.peek? with
  | some '.' => fractionPart positive significand 0 c
  | some 'e' | some 'E' => exponentPart positive significand 0 c
  | _ =>
    if positive then .ok (.nat significand, c)
    else if 0 < significand ∧ significand ≤ Nat.pow 2 63 then .ok (.negative significand, c)
    else .ok (.float (Binary64.ofNat significand).neg, c)

/-- Digits beyond what a 64-bit significand holds: each raises the exponent. -/
def longInteger (positive : Bool) (significand : Nat) :
    Nat → Int → Cursor → Except SyntaxError (Number × Cursor)
  | 0, e, c => finishDouble positive significand e c
  | fuel + 1, e, c =>
    match c.peek? with
    | some '.' => fractionPart positive significand e c
    | some 'e' | some 'E' => exponentPart positive significand e c
    | some ch =>
      if ch.isDigit then longInteger positive significand fuel (e + 1) c.advance
      else finishDouble positive significand e c
    | none => finishDouble positive significand e c

/-- The digits of an integer literal after its first. -/
def integerDigits (positive : Bool) : Nat → Nat → Cursor → Except SyntaxError (Number × Cursor)
  | 0, s, c => integerEnd positive s c
  | fuel + 1, s, c =>
    match c.peek? with
    | some ch =>
      if ch.isDigit then
        let d := ch.toNat - '0'.toNat
        if overflows s d then longInteger positive s (c.rest.length + 1) 0 c
        else integerDigits positive fuel (10 * s + d) c.advance
      else integerEnd positive s c
    | none => integerEnd positive s c

/-- A number, after its minus sign if it has one. -/
def readNumber (positive : Bool) (c : Cursor) : Except SyntaxError (Number × Cursor) :=
  match c.peek? with
  | none => c.fail .eofWhileParsingValue
  | some '0' =>
    let c := c.advance
    match c.peek? with
    | some ch => if ch.isDigit then c.failAhead .invalidNumber else integerEnd positive 0 c
    | none => integerEnd positive 0 c
  | some ch =>
    if ch.isDigit then
      integerDigits positive (c.rest.length + 1) (ch.toNat - '0'.toNat) c.advance
    else c.failAhead .invalidNumber

/-! ## Strings -/

/-- The value of an ASCII hexadecimal digit. -/
def hexValue? (ch : Char) : Option Nat :=
  if ch.isDigit then some (ch.toNat - '0'.toNat)
  else if 'a' ≤ ch ∧ ch ≤ 'f' then some (ch.toNat - 'a'.toNat + 10)
  else if 'A' ≤ ch ∧ ch ≤ 'F' then some (ch.toNat - 'A'.toNat + 10)
  else none

/-- Four hexadecimal digits of a `\u` escape. The reader takes four bytes before it looks at
them, so a refused escape stands after four bytes, and a text with fewer left ends the
string. -/
def hexEscape (c : Cursor) : Except SyntaxError (Nat × Cursor) :=
  let four := c.rest.take 4
  match four.map hexValue? with
  | [some a, some b, some d, some e] =>
    .ok (((a * 16 + b) * 16 + d) * 16 + e, c.advance.advance.advance.advance)
  | _ =>
    let bytes := four.foldl (fun n ch => n + ch.utf8Size) 0
    if 4 ≤ bytes then .error ⟨.invalidEscape, c.bytesAhead 4⟩
    else .error ⟨.eofWhileParsingString, c.bytesAhead 4⟩

/-- The character of a `\u` escape, the cursor after `\u`; a leading surrogate must be
followed by the escape of a trailing one. -/
def unicodeEscape (c : Cursor) : Except SyntaxError (Char × Cursor) := do
  let (n, c) ← hexEscape c
  if 0xDC00 ≤ n ∧ n ≤ 0xDFFF then c.fail .loneLeadingSurrogateInHexEscape
  else if n < 0xD800 ∨ 0xDBFF < n then .ok (Char.ofNat n, c)
  else
    match c.peek? with
    | none => c.fail .eofWhileParsingString
    | some '\\' =>
      let c := c.advance
      match c.peek? with
      | none => c.fail .eofWhileParsingString
      | some 'u' =>
        let (n2, c) ← hexEscape c.advance
        if n2 < 0xDC00 ∨ 0xDFFF < n2 then c.fail .loneLeadingSurrogateInHexEscape
        else .ok (Char.ofNat ((((n - 0xD800) <<< 10) ||| (n2 - 0xDC00)) + 0x10000), c)
      | some _ => c.failAhead .unexpectedEndOfHexEscape
    | some _ => c.failAhead .unexpectedEndOfHexEscape

/-- The characters of a string up to its closing quote, the cursor after the opening one. -/
def stringBody : Nat → List Char → Cursor → Except SyntaxError (String × Cursor)
  | 0, _, c => c.fail .eofWhileParsingString
  | fuel + 1, acc, c =>
    match c.peek? with
    | none => c.fail .eofWhileParsingString
    | some '"' => .ok (String.ofList acc.reverse, c.advance)
    | some '\\' =>
      let c := c.advance
      match c.peek? with
      | none => c.fail .eofWhileParsingString
      | some e =>
        let d := c.advance
        let simple : Option Char := match e with
          | '"' => some '"' | '\\' => some '\\' | '/' => some '/' | 'b' => some '\x08'
          | 'f' => some '\x0c' | 'n' => some '\n' | 'r' => some '\r' | 't' => some '\t'
          | _ => none
        match simple with
        | some ch => stringBody fuel (ch :: acc) d
        | none =>
          if e == 'u' then
            match unicodeEscape d with
            | .ok (ch, d) => stringBody fuel (ch :: acc) d
            | .error err => .error err
          else c.failAhead .invalidEscape
    | some ch =>
      if ch.toNat < 0x20 then c.advance.fail .controlCharacterWhileParsingString
      else stringBody fuel (ch :: acc) c.advance

/-- A string, the cursor after its opening quote. -/
def readString (c : Cursor) : Except SyntaxError (String × Cursor) :=
  stringBody (c.rest.length + 1) [] c

/-! ## Values -/

/-- The rest of a literal word such as `rue` after `t`. -/
def readWord (w : List Char) (c : Cursor) : Except SyntaxError Cursor :=
  match w with
  | [] => .ok c
  | x :: more =>
    match c.peek? with
    | none => c.fail .eofWhileParsingValue
    | some ch => if ch == x then readWord more c.advance else c.failAhead .expectedSomeIdent

mutual

/-- A value after optional blanks; `depth` arrays and objects may still open. -/
def readValue (fuel depth : Nat) (c : Cursor) : Except SyntaxError (Json × Cursor) :=
  match fuel with
  | 0 => c.fail .recursionLimitExceeded
  | fuel + 1 =>
    let c := c.skipBlanks
    let start := c.ahead
    match c.peek? with
    | none => c.failAhead .eofWhileParsingValue
    | some 'n' => do
      let d ← readWord ['u', 'l', 'l'] c.advance
      .ok (.null ⟨start, d.pos⟩, d)
    | some 't' => do
      let d ← readWord ['r', 'u', 'e'] c.advance
      .ok (.bool true ⟨start, d.pos⟩, d)
    | some 'f' => do
      let d ← readWord ['a', 'l', 's', 'e'] c.advance
      .ok (.bool false ⟨start, d.pos⟩, d)
    | some '-' => do
      let (n, d) ← readNumber false c.advance
      .ok (.number n ⟨start, d.ahead⟩, d)
    | some '"' => do
      let (s, d) ← readString c.advance
      .ok (.string s ⟨start, d.pos⟩, d)
    | some '[' =>
      if depth ≤ 1 then c.failAhead .recursionLimitExceeded
      else do
        let (items, d) ← readElements fuel (depth - 1) true [] c.advance
        .ok (.array items ⟨start, d.pos⟩, d)
    | some '{' =>
      if depth ≤ 1 then c.failAhead .recursionLimitExceeded
      else do
        let (members, d) ← readMembers fuel (depth - 1) true [] c.advance
        .ok (.object members ⟨start, d.pos⟩, d)
    | some ch =>
      if ch.isDigit then do
        let (n, d) ← readNumber true c
        .ok (.number n ⟨start, d.ahead⟩, d)
      else c.failAhead .expectedSomeValue

/-- The elements of an array up to and with its closing bracket. -/
def readElements (fuel depth : Nat) (first : Bool) (acc : List Json) (c : Cursor) :
    Except SyntaxError (List Json × Cursor) :=
  match fuel with
  | 0 => c.fail .recursionLimitExceeded
  | fuel + 1 =>
    let c := c.skipBlanks
    match c.peek? with
    | some ']' => .ok (acc.reverse, c.advance)
    | none => c.failAhead .eofWhileParsingList
    | some ch =>
      if !first && ch != ',' then c.failAhead .expectedListCommaOrEnd
      else
        let c := if first then c else c.advance.skipBlanks
        match c.peek? with
        | some ']' => c.failAhead .trailingComma
        | none => c.failAhead .eofWhileParsingValue
        | some _ => do
          let (v, d) ← readValue fuel depth c
          readElements fuel depth false (v :: acc) d

/-- The members of an object up to and with its closing brace. -/
def readMembers (fuel depth : Nat) (first : Bool) (acc : List (String × Pos × Json)) (c : Cursor) :
    Except SyntaxError (List (String × Pos × Json) × Cursor) :=
  match fuel with
  | 0 => c.fail .recursionLimitExceeded
  | fuel + 1 =>
    let c := c.skipBlanks
    match c.peek? with
    | some '}' => .ok (acc.reverse, c.advance)
    | none => c.failAhead .eofWhileParsingObject
    | some ch =>
      if !first && ch != ',' then c.failAhead .expectedObjectCommaOrEnd
      else
        let c := if first then c else c.advance.skipBlanks
        match c.peek? with
        | some '"' => do
          let (key, d) ← readString c.advance
          let keyEnd := d.pos
          let d := d.skipBlanks
          match d.peek? with
          | some ':' => do
            let (v, e) ← readValue fuel depth d.advance
            readMembers fuel depth false ((key, keyEnd, v) :: acc) e
          | some _ => d.failAhead .expectedColon
          | none => d.failAhead .eofWhileParsingObject
        | some '}' => c.failAhead .trailingComma
        | some _ => c.failAhead .keyMustBeAString
        | none => c.failAhead .eofWhileParsingValue

end

end CacheHierarchy.Json

namespace CacheHierarchy.Json

/-- Read a whole text as one JSON value with blanks around it. -/
def parse (text : String) : Except SyntaxError Json := do
  let c : Cursor := ⟨text.toList, {}⟩
  let (v, d) ← readValue (c.rest.length + 1) 128 c
  let d := d.skipBlanks
  if d.rest.isEmpty then .ok v else d.failAhead .trailingCharacters

end CacheHierarchy.Json
