import CacheHierarchy.Cli.Program

set_option autoImplicit false

/-! # The executable

The thin layer around `Cli.program`: it reads the files the arguments name, prints what the
program prints, and, in a session, reads standard input one line at a time, answering each
line as it comes.
-/

namespace CacheHierarchy

namespace Cli

/-- The text of a file, or the message of why it cannot be read. -/
def readText (path : String) : IO (Except String String) := do
  try
    pure (.ok (← IO.FS.readFile path))
  catch e =>
    match e with
    | .noFileOrDirectory .. => pure (.error missingFile)
    | e => pure (.error (toString e))

/-- Print on standard output at once. -/
def say (text : String) : IO Unit := do
  let out ← IO.getStdout
  out.putStr text
  out.flush

/-- Answer the lines of standard input until the session ends: the exit status. -/
partial def serve (input : IO.FS.Stream) (s : Shell.Session) : IO UInt32 := do
  let line ← input.getLine
  if line.isEmpty then
    say Shell.goodbye
    return 0
  match s.feed line with
  | .more t s => say t; serve input s
  | .done t => say t; return 0
  | .crash t o =>
    say t
    IO.eprint (panicText o)
    return panicStatus.toUInt32

/-- Run the program on the command line's arguments. -/
def start (args : List String) : IO UInt32 := do
  match Cli.request args with
  | .print t => Cli.say t; return 0
  | .refuse t => IO.eprint t; return 2
  | .run a =>
    let files ← (a.config :: a.traces).mapM fun p => do pure (p, ← Cli.readText p)
    let read := fun p => (files.lookup p).getD (.error Cli.missingFile)
    match Cli.setup a read with
    | .error o =>
      Cli.say o.stdout
      IO.eprint o.stderr
      return o.status.toUInt32
    | .ok m =>
      if a.interactive then
        let s : Shell.Session := { machine := m }
        Cli.say s.opening
        Cli.serve (← IO.getStdin) s
      else
        let o := Cli.batch m a.maxCycles
        Cli.say o.stdout
        IO.eprint o.stderr
        return o.status.toUInt32

end Cli

end CacheHierarchy

def main (args : List String) : IO UInt32 := CacheHierarchy.Cli.start args
