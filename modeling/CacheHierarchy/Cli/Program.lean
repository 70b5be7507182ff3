import CacheHierarchy.Cli.Args
import CacheHierarchy.Shell.Session
import CacheHierarchy.Config.Decode

set_option autoImplicit false

/-! # The program

What the program does with its arguments, its files and its input, as a function: the exit
status and the text of standard output and standard error.

A run reads the configuration (a JSON text, read as a stream: an error names its line and
column), then each trace in turn, and sets up the machine; the first fault ends the program
with `Error: …` on standard error (status 1), and an overflow while the caches are laid out
stops it at once (see below). Then

* by default the machine runs until it drains (status 0, nothing printed), fails, or has used
  the cycles `--max-cycles` allows (both: status 1 with the reason);
* with `--interactive`, the shell reads the input line by line (each line with its line
  feed), until it is told to exit, the machine drains, or the input ends.

An arithmetic overflow stops the program at once (status 101).
-/

namespace CacheHierarchy

namespace Cli

/-- What a run of the program shows. -/
structure Outcome where
  status : Nat
  stdout : String := ""
  stderr : String := ""
  deriving DecidableEq, Repr

def missingFile : String := "No such file or directory (os error 2)"

/-- The message of an arithmetic overflow that stops the program. -/
def panicText (o : Overflow) : String :=
  "thread \x27main\x27 panicked:\n" ++ o.message ++ "\n"

def panicStatus : Nat := 101

def failure (message : String) : Outcome := { status := 1, stderr := "Error: " ++ message ++ "\n" }

/-- The outcome of an overflow that stops the program. -/
def crash (o : Overflow) : Outcome := { status := panicStatus, stderr := panicText o }

/-- Set up the machine of a run, reading the files with `read`; a fault gives the outcome of
the program. -/
def setup (a : RunArgs) (read : String → Except String String) : Except Outcome Machine := do
  let cfg ← (do Config.read (← read a.config)).mapError failure
  let traces ← (a.traces.mapM fun path => do
    (Trace.parse (← read path)).mapError Trace.Error.message).mapError failure
  match Machine.new cfg traces with
  | .ok m => pure m
  | .error (.build (.overflow o)) => throw (crash o)
  | .error e => throw (failure e.message)

/-- Run the machine until it drains, fails or has used `maxCycles` cycles. -/
def batch (m : Machine) (maxCycles : Option Nat) : Outcome :=
  match m.advance { mode := .run, maxCycles } with
  | .error o => crash o
  | .ok (flow, m) =>
    match flow.outcome with
    | some true => { status := 0 }
    | some false =>
      failure ("simulator returns an error: " ++ (m.failure.map (·.message)).getD "" ++
        ". try executing process with --interactive to debug.")
    | none => failure ("gave up at cycle #" ++ toString m.cycle ++ " before the hierarchy drained")

/-- The lines of an input, each with its line feed (the last one may lack it). -/
def inputLines (input : String) : List String :=
  let parts := input.splitOn "\n"
  let last := parts.getLastD ""
  parts.dropLast.map (· ++ "\n") ++ (if last.isEmpty then [] else [last])

/-- Feed `lines` to a session: what it prints, and the overflow that stopped it, if any. -/
def converse (s : Shell.Session) : List String → String × Option Overflow
  | [] => (Shell.goodbye, none)
  | l :: ls =>
    match s.feed l with
    | .more t s => let (u, o) := converse s ls; (t ++ u, o)
    | .done t => (t, none)
    | .crash t o => (t, some o)

def interactive (m : Machine) (input : String) : Outcome :=
  let s : Shell.Session := { machine := m }
  match converse s (inputLines input) with
  | (t, none) => { status := 0, stdout := s.opening ++ t }
  | (t, some o) => { status := panicStatus, stdout := s.opening ++ t, stderr := panicText o }

/-- The program on `args`, reading files with `read` and `input` as its input. -/
def program (args : List String) (read : String → Except String String) (input : String) :
    Outcome :=
  match request args with
  | .print t => { status := 0, stdout := t }
  | .refuse t => { status := 2, stderr := t }
  | .run a =>
    match setup a read with
    | .error out => out
    | .ok m => if a.interactive then interactive m input else batch m a.maxCycles

end Cli

end CacheHierarchy
