import CacheHierarchy.Machine.Cycle

set_option autoImplicit false

/-! # Running a machine

A run advances the clock cycle by cycle until something makes it stop:

* the machine has drained: the run is over (`Flow.exit`);
* the requested number of steps is done (`stepEnded`);
* the run has used its cycle budget (`cycleLimit`);
* a cycle fails with a protocol error (`failed`); the error is kept, and every later run
  stops at once (`cannotRestart`).

The checks are made in this order before each cycle. A drain run first starts the drain.
When a run pauses it reports the status of each watched line in every cache holding it
valid, by ascending address.

An arithmetic overflow in a component is no pause: it ends the machine.
-/

namespace CacheHierarchy

/-- How far a run goes. -/
inductive Mode where
  /-- Until the machine has drained. -/
  | run
  /-- A number of cycles. -/
  | steps (n : Nat)
  /-- Stop the cores and flush every cache, until drained. -/
  | drain
  deriving DecidableEq, Repr, Inhabited

/-- One request to run the machine. -/
structure Command where
  mode : Mode
  /-- Line addresses whose statuses are reported when the run pauses. -/
  watch : List UInt64 := []
  /-- The most cycles this run may take. -/
  maxCycles : Option Nat := none
  deriving DecidableEq, Repr, Inhabited

/-- Whether a run of `cmd` has done its steps after `done` cycles. -/
def Command.stepsDone (cmd : Command) (done : Nat) : Bool :=
  match cmd.mode with
  | .steps n => n ≤ done
  | _ => false

/-- Why a run paused. -/
inductive Reason where
  | cannotRestart
  | failed
  | stepEnded
  | cycleLimit
  deriving DecidableEq, Repr, Inhabited

def Reason.name : Reason → String
  | .cannotRestart => "CannotRestart"
  | .failed => "Failed"
  | .stepEnded => "StepEnded"
  | .cycleLimit => "CycleLimit"

/-- How a run ended. -/
inductive Flow where
  /-- The machine has drained. -/
  | exit
  /-- The run paused, with the statuses of the watched lines. -/
  | pause (reason : Reason) (watched : List (UInt64 × List (String × Status)))
  deriving DecidableEq, Repr, Inhabited

/-- Whether the flow reports success (`some true`), failure (`some false`) or neither. -/
def Flow.outcome : Flow → Option Bool
  | .exit => some true
  | .pause .cannotRestart _ | .pause .failed _ => some false
  | .pause _ _ => none

/-- Insert `x` into a list sorted by key, replacing an entry of the same key. -/
def insertByKey {β : Type} (k : UInt64) (x : β) : List (UInt64 × β) → List (UInt64 × β)
  | [] => [(k, x)]
  | (k', y) :: rest =>
    if k < k' then (k, x) :: (k', y) :: rest
    else if k == k' then (k, x) :: rest
    else (k', y) :: insertByKey k x rest

namespace Machine

/-- The statuses of the watched lines, by ascending address. -/
def watched (m : Machine) (addrs : List UInt64) : List (UInt64 × List (String × Status)) :=
  addrs.foldl (fun acc a => insertByKey a (m.hierarchy.statusesOf a) acc) []

/-- The pause of command `cmd` for `reason`. -/
def pause (m : Machine) (cmd : Command) (reason : Reason) : Flow :=
  .pause reason (m.watched cmd.watch)

/-- The cycles a run may take at most before a check stops it. -/
def budget (cmd : Command) : Nat :=
  let bound := match cmd.mode with
    | .steps n => some n
    | _ => none
  match bound, cmd.maxCycles with
  | some a, some b => Nat.min a b + 1
  | some a, none => a + 1
  | none, some b => b + 1
  | none, none => Nat.pow 2 64

/-- Run cycles from cycle `begin`, with `done` cycles done so far, for at most `fuel` more
checks. -/
def runFrom (cmd : Command) (begin : Nat) : Nat → Nat → Machine → Except Overflow (Flow × Machine)
  | 0, _, m => .ok (m.pause cmd .cycleLimit, m)
  | fuel + 1, done, m =>
    if m.drained then .ok (.exit, m)
    else if cmd.stepsDone done then .ok (m.pause cmd .stepEnded, m)
    else if (cmd.maxCycles.any fun b => m.cycle - begin ≥ b) then .ok (m.pause cmd .cycleLimit, m)
    else
      match Id.run ((Run.cycle m.cycle).run.run m) with
      | (.ok (), m) => runFrom cmd begin fuel (done + 1) { m with cycle := m.cycle + 1 }
      | (.error (.protocol e), m) =>
        let m := { m with failure := some e }
        .ok (m.pause cmd .failed, m)
      | (.error (.overflow o), _) => .error o

/-- Run the machine as `cmd` asks. -/
def advance (m : Machine) (cmd : Command) : Except Overflow (Flow × Machine) :=
  if m.failure.isSome then .ok (m.pause cmd .cannotRestart, m)
  else
    let m := if cmd.mode == .drain then m.startDrain else m
    runFrom cmd m.cycle (budget cmd) 0 m

end Machine

end CacheHierarchy
