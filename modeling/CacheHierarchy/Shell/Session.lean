import CacheHierarchy.Shell.Command
import CacheHierarchy.Cache.View
import CacheHierarchy.Report

set_option autoImplicit false

/-! # The interactive shell

A session holds a machine, the mode of running (one step at first) and what is watched:
line addresses, in the order they were added, and whether the cycle and the directory are
shown after each run.

The shell greets, then prompts with its mode (`step 1 > `) and reads a line:

* a line it cannot read gets `parse error: expected …`;
* `show` prints its view, `watch` and `unwatch` change the watch list and print it;
* `exit` leaves;
* `run`, `drain` and `step N` make the mode current (saying `mode: …`); they, and an empty
  line, run the machine in the current mode. A run that drains the machine ends the
  session; a run that pauses prints why (unless its steps were done), then the cycle and the
  directory if they are watched, then the status of each watched line, by address.

It says goodbye when it leaves or when its input ends. Every reply to a line ends with the
next prompt, unless the session has ended.
-/

namespace CacheHierarchy

/-- The mode as the shell writes it. -/
def Mode.text : Mode → String
  | .run => "run"
  | .steps n => "step " ++ toString n
  | .drain => "drain"

namespace Shell

/-- The state of a shell. -/
structure Session where
  machine : Machine
  mode : Mode := .steps 1
  /-- Watched line addresses, in the order they were added. -/
  lines : List UInt64 := []
  watchDirectory : Bool := false
  watchCycle : Bool := false
  deriving Repr

/-- What the shell does after a line. -/
inductive Turn where
  /-- It prints `text` and reads the next line. -/
  | more (text : String) (s : Session)
  /-- It prints `text` and the session ends. -/
  | done (text : String)
  /-- It prints `text`, then an arithmetic overflow stops the program. -/
  | crash (text : String) (o : Overflow)

def greeting : String := "entering interactive.\n"

def goodbye : String := "exiting interactive.\n"

namespace Session

def prompt (s : Session) : String := s.mode.text ++ " > "

/-- The first words of a session: the greeting and the first prompt. -/
def opening (s : Session) : String := greeting ++ s.prompt

/-- The watch list as `show watchings` prints it. -/
def watchings (s : Session) : String :=
  let items :=
    (if s.lines.isEmpty then []
     else ["\tlines: " ++ ", ".intercalate (s.lines.map fun a => Text.hex a.toNat) ++ "\n"]) ++
    (if s.watchDirectory then ["\tdirectory\n"] else []) ++
    (if s.watchCycle then ["\tcycle\n"] else [])
  if items.isEmpty then "nothing to watch.\n" else "watching these values:\n" ++ String.join items

def view (s : Session) : View → String
  | .cycle => "cycle #" ++ toString s.machine.cycle ++ "\n"
  | .stat => s.machine.report 60 ++ "\n"
  | .cache l => match s.machine.cacheLabelled l with
    | some c => c.linesView ++ "\n"
    | none => "no cache labelled " ++ l ++ "\n"
  | .mshr l => match s.machine.cacheLabelled l with
    | some c => c.mshrView ++ "\n"
    | none => "no cache labelled " ++ l ++ "\n"
  | .directory => s.machine.hierarchy.directory.view ++ "\n"
  | .watchings => s.watchings

def watch (s : Session) : Target → Session
  | .directory => { s with watchDirectory := true }
  | .cycle => { s with watchCycle := true }
  | .line a =>
    let a := UInt64.ofNat a
    if a ∈ s.lines then s else { s with lines := s.lines ++ [a] }

def unwatch (s : Session) : Target → Session
  | .directory => { s with watchDirectory := false }
  | .cycle => { s with watchCycle := false }
  | .line a => { s with lines := s.lines.erase (UInt64.ofNat a) }

/-- The message of the error that stopped the machine. -/
def failureText (s : Session) : String := (s.machine.failure.map (·.message)).getD ""

/-- What a pause prints: its reason, the watched cycle and directory, the watched lines. -/
def pauseText (s : Session) (reason : Reason) (watched : List (UInt64 × List (String × Status))) :
    String :=
  (match reason with
   | .stepEnded => ""
   | .cycleLimit => "cycle limit reached\n"
   | .cannotRestart => "cannot restart simulator due to previous error: " ++ s.failureText ++ "\n"
   | .failed => "failed at #" ++ toString s.machine.cycle ++ ": " ++ s.failureText ++ "\n") ++
  (if s.watchCycle then s.view .cycle else "") ++
  (if s.watchDirectory then s.view .directory else "") ++
  String.join (watched.map fun (a, holders) =>
    Text.hex a.toNat ++ ": " ++
      (if holders.isEmpty then "I everywhere"
       else ", ".intercalate (holders.map fun (l, st) => l ++ ":" ++ st.name)) ++ "\n")

/-- Run the machine in the current mode; `said` is what was printed before. -/
def run (s : Session) (said : String) : Turn :=
  match s.machine.advance { mode := s.mode, watch := s.lines } with
  | .error o => .crash said o
  | .ok (.exit, _) => .done (said ++ "hierarchy drained\n" ++ goodbye)
  | .ok (.pause reason watched, m) =>
    let s := { s with machine := m }
    .more (said ++ s.pauseText reason watched ++ s.prompt) s

/-- Answer one line of input (with its line feed, if it has one). -/
def feed (s : Session) (line : String) : Turn :=
  match parse line with
  | .error e => .more ("parse error: expected " ++ e ++ "\n" ++ s.prompt) s
  | .ok .exit => .done goodbye
  | .ok (.show v) => .more (s.view v ++ s.prompt) s
  | .ok (.watch t) => let s := s.watch t; .more (s.watchings ++ s.prompt) s
  | .ok (.unwatch t) => let s := s.unwatch t; .more (s.watchings ++ s.prompt) s
  | .ok (.go none) => s.run ""
  | .ok (.go (some m)) => { s with mode := m }.run ("mode: " ++ m.text ++ "\n")

end Session

end Shell

end CacheHierarchy
