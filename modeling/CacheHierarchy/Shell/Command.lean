import CacheHierarchy.Machine.Run

set_option autoImplicit false

/-! # Shell commands

The interactive shell reads one line at a time and understands

    run | drain | step [N]                 run the machine (an empty line runs it again)
    watch T | unwatch T                    T is dir, directory, cycle or an address
    show stat | cache L | mshr L | dir | directory | cycle | watchings | watch
    exit

with blanks (space, tab, carriage return, line feed) around and between the words. Numbers
are decimal, or hexadecimal after `0x`; both must fit in 64 bits. A label is made of ASCII
letters, digits, `_` and `-`.

The grammar is read as a parsing expression grammar: alternatives are tried in order and
the first that matches wins, repetitions are greedy, and a line is accepted only when the
command matched reaches its end. When a line is refused, the error names the place farthest
into the line where some part of the grammar failed, with everything the grammar expected
there: words in quotes, and the names `whitespace`, `decimal`, `hexadecimal`, `label` and
`EOF` (the end of the line). A number that does not fit fails where its digits end.
-/

namespace CacheHierarchy

namespace Shell

/-- What `watch` and `unwatch` name. -/
inductive Target where
  | directory
  | cycle
  | line (addr : Nat)
  deriving DecidableEq, Repr

/-- What `show` prints. -/
inductive View where
  | stat
  | cache (label : String)
  | mshr (label : String)
  | directory
  | cycle
  | watchings
  deriving DecidableEq, Repr

/-- One shell command. -/
inductive Directive where
  /-- Run the machine in a new mode, or (for `none`) in the current one. -/
  | go (mode : Option Mode)
  | watch (t : Target)
  | unwatch (t : Target)
  | show (v : View)
  | exit
  deriving DecidableEq, Repr

/-- The farthest place where the grammar failed, and what it expected there. -/
structure Farthest where
  pos : Nat := 0
  expected : List String := []
  deriving DecidableEq, Repr

/-- Record that the grammar expected `what` at `pos`. -/
def Farthest.mark (f : Farthest) (pos : Nat) (what : String) : Farthest :=
  if f.pos < pos then { pos, expected := [what] }
  else if pos = f.pos ∧ what ∉ f.expected then { f with expected := f.expected ++ [what] }
  else f

/-- What a rule of the grammar read at a place of the line: the value and the place after
it, if it matched. A rule runs in `StateM Farthest`, recording its failures as it goes. -/
abbrev Found (α : Type) := Option (α × Nat)

/-- Fail at `pos`, expecting `what`. -/
def expect {α : Type} (pos : Nat) (what : String) : StateM Farthest (Option α) := do
  modify (·.mark pos what)
  pure none

/-- The first rule of `rules` that matches. -/
def firstOf {α : Type} : List (StateM Farthest (Found α)) → StateM Farthest (Found α)
  | [] => pure none
  | r :: rs => do
    match ← r with
    | some x => pure (some x)
    | none => firstOf rs

/-- The number of characters from `pos` on that satisfy `p`. -/
def runOf (p : Char → Bool) (s : Array Char) (pos : Nat) : Nat :=
  ((s.toList.drop pos).takeWhile p).length

/-- The characters of `s` from `pos`, `n` of them. -/
def slice (s : Array Char) (pos n : Nat) : List Char := (s.toList.drop pos).take n

/-- The exact word `w`. -/
def word (s : Array Char) (w : String) (pos : Nat) : StateM Farthest (Found Unit) :=
  if slice s pos w.length = w.toList then pure (some ((), pos + w.length))
  else expect pos ("\"" ++ w ++ "\"")

def isSpace (c : Char) : Bool := c == ' ' || c == '\t' || c == '\r' || c == '\n'

/-- Blanks, maybe none; the first character that is not one is where a blank was expected. -/
def spaces (s : Array Char) (pos : Nat) : StateM Farthest Nat := do
  let stop := pos + runOf isSpace s pos
  modify (·.mark stop "whitespace")
  pure stop

/-- At least one blank. -/
def spaces1 (s : Array Char) (pos : Nat) : StateM Farthest (Found Unit) :=
  if (s[pos]?).any isSpace then do pure (some ((), ← spaces s (pos + 1)))
  else expect pos "whitespace"

/-- The value of the digits `ds` in base `b`. -/
def digitsValue (b : Nat) (ds : List Char) : Nat :=
  ds.foldl (fun n c => n * b + Trace.hexDigitValue c) 0

def isDigit (c : Char) : Bool := '0' ≤ c && c ≤ '9'

/-- A decimal number that fits in 64 bits. -/
def decimal (s : Array Char) (pos : Nat) : StateM Farthest (Found Nat) := do
  let n := runOf isDigit s pos
  if 0 < n then
    let v := digitsValue 10 (slice s pos n)
    if v < Nat.pow 2 64 then return some (v, pos + n)
    modify (·.mark (pos + n) "decimal")
  expect pos "decimal"

/-- A number that fits in 64 bits: hexadecimal after `0x` or `0X`, else decimal. -/
def radix (s : Array Char) (pos : Nat) : StateM Farthest (Found Nat) := do
  if s[pos]? = some '0' ∧ (s[pos + 1]? = some 'x' ∨ s[pos + 1]? = some 'X') then
    let n := runOf Trace.isHexDigit s (pos + 2)
    if 0 < n then
      let v := digitsValue 16 (slice s (pos + 2) n)
      if v < Nat.pow 2 64 then return some (v, pos + 2 + n)
      modify (·.mark (pos + 2 + n) "hexadecimal")
  decimal s pos

/-- Whether a character may stand in a label. -/
def isLabelChar (c : Char) : Bool :=
  (c.isAlphanum && c.toNat < 128) || c == '_' || c == '-'

def label (s : Array Char) (pos : Nat) : StateM Farthest (Found String) :=
  let n := runOf isLabelChar s pos
  if 0 < n then pure (some (String.ofList (slice s pos n), pos + n)) else expect pos "label"

/-- Read `rule` after the word `w`. -/
def after {α : Type} (s : Array Char) (w : String) (pos : Nat)
    (rule : Nat → StateM Farthest (Found α)) : StateM Farthest (Found α) := do
  let some ((), p) ← word s w pos | pure none
  rule p

/-- Read `rule` after the word `w` and blanks. -/
def afterSpaced {α : Type} (s : Array Char) (w : String) (pos : Nat)
    (rule : Nat → StateM Farthest (Found α)) :
    StateM Farthest (Found α) :=
  after s w pos fun p => do
    let some ((), q) ← spaces1 s p | pure none
    rule q

/-- The word `w`, read as `x`. -/
def wordAs {α : Type} (s : Array Char) (w : String) (x : α) (pos : Nat) :
    StateM Farthest (Found α) :=
  after s w pos fun p => pure (some (x, p))

/-- The word `directory` or `dir`. -/
def dir {α : Type} (s : Array Char) (x : α) (pos : Nat) : StateM Farthest (Found α) :=
  firstOf [wordAs s "directory" x pos, wordAs s "dir" x pos]

/-- A mode of running: `run`, `drain`, or `step` with an optional count (one by default). -/
def mode (s : Array Char) (pos : Nat) : StateM Farthest (Found Mode) :=
  firstOf [wordAs s "run" .run pos, wordAs s "drain" .drain pos,
    after s "step" pos fun p => do
      let count ← do
        let some ((), q) ← spaces1 s p | pure none
        radix s q
      pure (some (count.elim (.steps 1, p) fun (n, r) => (.steps n, r)))]

def target (s : Array Char) (pos : Nat) : StateM Farthest (Found Target) :=
  firstOf [dir s .directory pos, wordAs s "cycle" .cycle pos,
    do pure ((← radix s pos).map fun (a, p) => (.line a, p))]

def view (s : Array Char) (pos : Nat) : StateM Farthest (Found View) :=
  firstOf [wordAs s "stat" .stat pos,
    afterSpaced s "cache" pos fun p => do pure ((← label s p).map fun (l, q) => (.cache l, q)),
    afterSpaced s "mshr" pos fun p => do pure ((← label s p).map fun (l, q) => (.mshr l, q)),
    dir s .directory pos, wordAs s "cycle" .cycle pos,
    wordAs s "watchings" .watchings pos, wordAs s "watch" .watchings pos]

/-- A command that changes no state of the machine. -/
def static (s : Array Char) (pos : Nat) : StateM Farthest (Found Directive) :=
  firstOf [
    afterSpaced s "watch" pos fun p => do pure ((← target s p).map fun (t, q) => (.watch t, q)),
    afterSpaced s "unwatch" pos fun p => do
      pure ((← target s p).map fun (t, q) => (.unwatch t, q)),
    afterSpaced s "show" pos fun p => do pure ((← view s p).map fun (v, q) => (.show v, q))]

/-- Read `rule` between blanks. -/
def padded {α : Type} (s : Array Char) (pos : Nat) (rule : Nat → StateM Farthest (Found α)) :
    StateM Farthest (Found α) := do
  let p ← spaces s pos
  let some (x, q) ← rule p | pure none
  pure (some (x, ← spaces s q))

/-- A command, with blanks around it; the last alternative matches always. -/
def directive (s : Array Char) (pos : Nat) : StateM Farthest (Found Directive) :=
  firstOf [padded s pos (static s), padded s pos (wordAs s "exit" .exit),
    padded s pos fun p => do
      match ← mode s p with
      | some (m, q) => pure (some (.go (some m), q))
      | none => pure (some (.go none, p))]

/-- What a refused line expected: one name, or several sorted after `one of`. -/
def expectedText (what : List String) : String :=
  match what.mergeSort (fun a b => !decide (b < a)) with
  | [w] => w
  | ws => "one of " ++ ", ".intercalate ws

/-- Read a command line (with its line feed, if it has one); a refused line gives what was
expected where it failed. -/
def parse (line : String) : Except String Directive :=
  let s := line.toList.toArray
  match (directive s 0).run {} with
  | (some (d, p), f) =>
    if p = s.size then .ok d else .error (expectedText (f.mark p "EOF").expected)
  | (none, f) => .error (expectedText f.expected)

end Shell

end CacheHierarchy
