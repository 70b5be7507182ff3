import CacheHierarchy.Directory.Answer
import CacheHierarchy.Directory.Drain

set_option autoImplicit false

/-! # Calls on the directory

The directory is driven from outside through four entry points: a cache hands it a request
or an answer it took from its MSHR, tells it of a request it has just sent, or, at the end of
a run, asks for one cycle of the drain. A call acts on the hierarchy and, for the drain, on
its cursor. A call that stops at a fault keeps the changes it made before the fault, and the
next call starts from there.
-/

namespace CacheHierarchy

inductive DirectoryCall where
  /-- Cache `id` hands over the request `p` it took from its MSHR at `now`. -/
  | request (id : Nat) (p : Packet) (now : Nat)
  /-- Cache `id` hands over the answer `p` it took from its MSHR at `now`. -/
  | answer (id : Nat) (p : Packet) (now : Nat)
  /-- Cache `id` has just sent the request `p`. -/
  | sent (id : Nat) (p : Packet)
  /-- One cycle of the drain at `now`. -/
  | evictAll (now : Nat)
  deriving Repr, Inhabited

namespace DirectoryCall

/-- The hierarchy and the drain cursor after a call. -/
def apply : DirectoryCall → Hierarchy × DrainCursor → Hierarchy × DrainCursor
  | request id p now, (h, cur) => ((Id.run ((Action.request id p now).run.run h)).2, cur)
  | answer id p now, (h, cur) => ((Id.run ((Action.answer id p now).run.run h)).2, cur)
  | sent id p, (h, cur) => ((Id.run ((Action.sent id p).run.run h)).2, cur)
  | evictAll now, s => (Id.run ((Drain.step now).run.run s)).2

/-- The hierarchy and the drain cursor after the calls, in order. -/
def run (calls : List DirectoryCall) (s : Hierarchy × DrainCursor) : Hierarchy × DrainCursor :=
  calls.foldl (fun s c => c.apply s) s

@[simp] theorem run_nil (s : Hierarchy × DrainCursor) : run [] s = s := rfl

@[simp] theorem run_cons (c : DirectoryCall) (calls : List DirectoryCall)
    (s : Hierarchy × DrainCursor) : run (c :: calls) s = run calls (c.apply s) := rfl

end DirectoryCall

end CacheHierarchy
