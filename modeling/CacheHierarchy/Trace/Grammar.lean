import CacheHierarchy.Operation
import CacheHierarchy.Text.Blank
import CacheHierarchy.Text.Quoted

set_option autoImplicit false

/-! # Trace text

A trace is a text with one access per line:

    [blanks] OP blanks ADDRESS [blanks SIZE [blanks PC]] [blanks]

where blanks are spaces and tabs, `OP` is one of `R`, `W`, `I`, `P` in either case (read,
write, instruction fetch, prefetch), and each number is `0x` or `0X` followed by hexadecimal
digits, or decimal digits, of value below 2^64. The size must also be below 2^32; a number in
its place that is too large is read as the pc instead. The size defaults to 8 and the pc to 0.
A `#` starts a comment that runs to the end of the line, and a line that holds only
White_Space characters before it is skipped. Lines end at a line feed, and a carriage return
right before it belongs to the line ending.

A line that does not match is reported with its number (counting every line from 1), the
part of it that could not be read, and what was expected there.
-/

namespace CacheHierarchy.Trace

/-- One access of a trace. -/
structure Entry where
  op : Operation
  addr : UInt64
  size : Nat
  pc : UInt64
  deriving DecidableEq, Repr, Inhabited

/-- What a trace line lacks at the point where reading it stopped. -/
inductive Fault where
  /-- The first character is not an operation letter. -/
  | operation
  /-- No space or tab follows the operation letter. -/
  | space
  /-- No number stands where the address should be. -/
  | digit
  /-- Text remains after the last field. -/
  | trailing
  deriving DecidableEq, Repr

/-- The name an error message gives to each fault. -/
def Fault.code : Fault → String
  | .operation => "MapOpt"
  | .space => "Space"
  | .digit => "Digit"
  | .trailing => "Eof"

/-- A trace line that could not be read. -/
structure Error where
  /-- The line number, counted from 1 over all lines. -/
  line : Nat
  /-- The part of the line, after its comment is cut, that was not read. -/
  rest : String
  fault : Fault
  deriving DecidableEq, Repr

def Error.message (e : Error) : String :=
  "failed to parse line " ++ toString e.line ++ ": Parsing Error: Error \x7b input: " ++
    Text.quote e.rest ++ ", code: " ++ e.fault.code ++ " \x7d"

/-! ## Lines -/

/-- The lines of a text: it is cut at each line feed, a carriage return right before a line
feed is dropped with it, and a final line feed does not start an empty last line. -/
def lines (s : String) : List (List Char) :=
  let pieces := s.toList.splitOn '\n'
  let ended := pieces.dropLast.map fun p => if p.getLast? = some '\r' then p.dropLast else p
  match pieces.getLast? with
  | some last => if last.isEmpty then ended else ended ++ [last]
  | none => ended

/-- The part of a line before its first `#`. -/
def uncommented (line : List Char) : List Char := line.takeWhile (· ≠ '#')

/-- A line that holds only White_Space characters. -/
def isBlankLine (line : List Char) : Bool := line.all Text.isBlank

/-! ## Fields -/

/-- Spaces and tabs separate the fields. -/
def isSeparator (c : Char) : Bool := c == ' ' || c == '\t'

/-- An ASCII hexadecimal digit. -/
def isHexDigit (c : Char) : Bool :=
  c.isDigit || ('a' ≤ c && c ≤ 'f') || ('A' ≤ c && c ≤ 'F')

/-- The value of an ASCII hexadecimal digit. -/
def hexDigitValue (c : Char) : Nat :=
  if c.isDigit then c.toNat - '0'.toNat
  else if 'a' ≤ c && c ≤ 'f' then c.toNat - 'a'.toNat + 10
  else c.toNat - 'A'.toNat + 10

/-- The value of a numeral in base `b`, most significant digit first. -/
def numeralValue (b : Nat) (digit : Char → Nat) (ds : List Char) : Nat :=
  ds.foldl (fun n d => b * n + digit d) 0

/-- Hexadecimal digits after `0x` or `0X`, if they are present and their value fits in
64 bits, with the text after them. -/
def hexNumber? : List Char → Option (Nat × List Char)
  | '0' :: x :: rest =>
    if x == 'x' || x == 'X' then
      let ds := rest.takeWhile isHexDigit
      let v := numeralValue 16 hexDigitValue ds
      if !ds.isEmpty && v < Nat.pow 2 64 then some (v, rest.drop ds.length) else none
    else none
  | _ => none

/-- Decimal digits, if they are present and their value fits in 64 bits, with the text
after them. -/
def decimalNumber? (cs : List Char) : Option (Nat × List Char) :=
  let ds := cs.takeWhile Char.isDigit
  let v := numeralValue 10 (fun d => d.toNat - '0'.toNat) ds
  if !ds.isEmpty && v < Nat.pow 2 64 then some (v, cs.drop ds.length) else none

/-- A number at the front of the text: hexadecimal if that reads, decimal otherwise. A
hexadecimal numeral that is too large is thus read as the decimal `0` before its `x`. -/
def number? (cs : List Char) : Option (Nat × List Char) :=
  (hexNumber? cs).or (decimalNumber? cs)

/-- A separator followed by a number. -/
def spacedNumber? (cs : List Char) : Option (Nat × List Char) :=
  match cs with
  | c :: _ => if isSeparator c then number? (cs.dropWhile isSeparator) else none
  | [] => none

/-- The size after the address: a separator and a number below 2^32, with the text after it.
A number of 2^32 or more is left in place, to be read as the pc; without a number the size
is 8. -/
def sizeField (afterAddr : List Char) : Nat × List Char :=
  match spacedNumber? afterAddr with
  | some (n, r) => if n < Nat.pow 2 32 then (n, r) else (8, afterAddr)
  | none => (8, afterAddr)

/-- The pc after the size: a separator and a number, with the text after it; without a
number the pc is 0. -/
def pcField (afterSize : List Char) : Nat × List Char :=
  match spacedNumber? afterSize with
  | some (n, r) => (n, r)
  | none => (0, afterSize)

/-- The operation an operation letter stands for. -/
def operationOf? (c : Char) : Option Operation :=
  match c.toUpper with
  | 'R' => some .read
  | 'W' => some .write
  | 'I' => some .inst
  | 'P' => some .prefetch
  | _ => none

/-- The access on one line (its comment cut), or the fault and the text where reading
stopped. -/
def entry (line : List Char) : Except (Fault × List Char) Entry :=
  match line.dropWhile isSeparator with
  | [] => .error (.trailing, [])
  | c :: afterOp =>
    match operationOf? c with
    | none => .error (.operation, c :: afterOp)
    | some op =>
      match afterOp with
      | [] => .error (.space, [])
      | s :: _ =>
        if !isSeparator s then .error (.space, afterOp) else
        let atAddress := afterOp.dropWhile isSeparator
        match number? atAddress with
        | none => .error (.digit, atAddress)
        | some (addr, afterAddr) =>
          let (size, afterSize) := sizeField afterAddr
          let (pc, afterPc) := pcField afterSize
          match afterPc.dropWhile isSeparator with
          | [] => .ok ⟨op, .ofNat addr, size, .ofNat pc⟩
          | junk => .error (.trailing, junk)

end CacheHierarchy.Trace

namespace CacheHierarchy

/-- The accesses of one core, in program order. -/
structure Trace where
  entries : List Trace.Entry
  deriving DecidableEq, Repr, Inhabited

namespace Trace

/-- Read the lines from number `n` on. -/
def parseLines : Nat → List (List Char) → Except Error (List Entry)
  | _, [] => .ok []
  | n, line :: more =>
    let body := uncommented line
    if isBlankLine body then parseLines (n + 1) more
    else
      match entry body with
      | .error (fault, rest) => .error ⟨n, String.ofList rest, fault⟩
      | .ok e => (parseLines (n + 1) more).map (e :: ·)

def parse (s : String) : Except Error Trace :=
  (parseLines 1 (lines s)).map (⟨·⟩)

example : (parse "R 0x10 8 0x4 junk").toOption = none := by decide

end Trace

end CacheHierarchy
