import Mathlib
import CacheHierarchy.Proofs.LockInvariant
import CacheHierarchy.Directory.Call
import CacheHierarchy.Proofs.Setup

open Std.Do

set_option autoImplicit false
set_option mvcgen.warning false

/-! # Lock exclusivity along any run of the directory

The drain keeps the lock invariant too: it flushes set after set, and writes back only lines
no transaction holds, so `Action.writeBack_exclusive` applies. Its recursions are on a list
of ways, a list of caches and two fuels; each gets one induction, whose step is the
verification condition of its own body.

With a spec for each of the four calls (`DirectoryCall`), the invariant holds after any
sequence of calls from a well-built hierarchy whose directory has no entry
(`DirectoryCall.exclusive_run`), and so does the per-line form of lock exclusivity. Every
machine that is set up starts so (`Machine.exclusive_of_new`), so its directory keeps its locks
exclusive whatever calls it takes.
-/

namespace CacheHierarchy

/-- What a triple whose pre- and postconditions are one invariant promises of a run. -/
theorem run_of_triple {σ α : Type} {x : ExceptT Fault (StateM σ) α} {I : σ → Prop}
    (hx : ⦃fun s => ⌜I s⌝⦄ x ⦃post⟨fun _ s => ⌜I s⌝, fun _ s => ⌜I s⌝⟩⦄) {s : σ} (hs : I s) :
    I (Id.run (x.run.run s)).2 := by
  have hw := hx s hs
  simp only [wp, PredTrans.apply_pushExcept, PredTrans.apply_pushArg, PredTrans.apply_Pure_pure,
    Id.run] at hw
  generalize x.run.run s = out at hw ⊢
  obtain ⟨r, s'⟩ := out
  cases r <;> exact hw

namespace Action

theorem cache_exclusive (id : Nat) :
    ⦃fun h => ⌜h.Exclusive⌝⦄ Action.cache id
    ⦃post⟨fun _ h => ⌜h.Exclusive⌝, fun _ h => ⌜h.Exclusive⌝⟩⦄ := by
  mvcgen [Action.cache]

/-- Flushing ways keeps the invariant: a locked line is skipped, so a line written back is
unlocked. -/
@[spec] theorem flushWays_exclusive (id index now : Nat) (ways : List Nat) (clean : Bool) :
    ⦃fun h => ⌜h.Exclusive⌝⦄ Action.flushWays id index now ways clean
    ⦃post⟨fun _ h => ⌜h.Exclusive⌝, fun _ h => ⌜h.Exclusive⌝⟩⦄ := by
  induction ways generalizing clean with
  | nil => mvcgen [Action.flushWays]
  | cons way rest ih =>
    mvcgen [Action.flushWays, Action.cache, Action.directory, Action.fail, Action.updateCache,
      Action.updateDirectory, ih]
    all_goals simp_all +zetaDelta [Hierarchy.tagAt, WroteBack]

end Action

/-! ## The drain -/

namespace Drain

@[spec] theorem lift_exclusive {α : Type} {a : Action α}
    (ha : ⦃fun h => ⌜h.Exclusive⌝⦄ a ⦃post⟨fun _ h => ⌜h.Exclusive⌝, fun _ h => ⌜h.Exclusive⌝⟩⦄) :
    ⦃fun s => ⌜s.1.Exclusive⌝⦄ Drain.lift a
    ⦃post⟨fun _ s => ⌜s.1.Exclusive⌝, fun _ s => ⌜s.1.Exclusive⌝⟩⦄ := by
  mvcgen [Drain.lift]
  all_goals exact run_of_triple ha ‹_›

@[spec] theorem flushSets_exclusive (id now fuel : Nat) :
    ⦃fun s => ⌜s.1.Exclusive⌝⦄ Drain.flushSets id now fuel
    ⦃post⟨fun _ s => ⌜s.1.Exclusive⌝, fun _ s => ⌜s.1.Exclusive⌝⟩⦄ := by
  induction fuel with
  | zero =>
    mvcgen [Drain.flushSets]
    exact Action.cache_exclusive id
  | succ fuel ih =>
    mvcgen [Drain.flushSets, Drain.cursor, Drain.moveCursor, ih]
    exact Action.cache_exclusive id

@[spec] theorem flushLevel_exclusive (level now : Nat) (ids : List Nat) :
    ⦃fun s => ⌜s.1.Exclusive⌝⦄ Drain.flushLevel level now ids
    ⦃post⟨fun _ s => ⌜s.1.Exclusive⌝, fun _ s => ⌜s.1.Exclusive⌝⟩⦄ := by
  induction ids with
  | nil => mvcgen [Drain.flushLevel]
  | cons id ids ih =>
    mvcgen [Drain.flushLevel, ih]
    exact Action.cache_exclusive id

@[spec] theorem flushLevels_exclusive (now maxLevel fuel : Nat) :
    ⦃fun s => ⌜s.1.Exclusive⌝⦄ Drain.flushLevels now maxLevel fuel
    ⦃post⟨fun _ s => ⌜s.1.Exclusive⌝, fun _ s => ⌜s.1.Exclusive⌝⟩⦄ := by
  induction fuel with
  | zero => mvcgen [Drain.flushLevels]
  | succ fuel ih => mvcgen [Drain.flushLevels, Drain.cursor, Drain.moveCursor, ih]

/-- A cycle of the drain keeps the locks exclusive; restarting it resets only the cursor. -/
theorem step_exclusive (now : Nat) :
    ⦃fun s => ⌜s.1.Exclusive⌝⦄ Drain.step now
    ⦃post⟨fun _ s => ⌜s.1.Exclusive⌝, fun _ s => ⌜s.1.Exclusive⌝⟩⦄ := by
  mvcgen [Drain.step]

end Drain

/-! ## Runs -/

namespace DirectoryCall

theorem exclusive_apply (c : DirectoryCall) (s : Hierarchy × DrainCursor)
    (hx : s.1.Exclusive) : (c.apply s).1.Exclusive := by
  obtain ⟨h, cur⟩ := s
  cases c with
  | request id p now => exact run_of_triple (Action.request_exclusive id p now) hx
  | answer id p now => exact run_of_triple (Action.answer_exclusive id p now) hx
  | sent id p => exact run_of_triple (Action.sent_exclusive id p) hx
  | evictAll now =>
    exact @run_of_triple _ _ _ (fun s : Hierarchy × DrainCursor => s.1.Exclusive)
      (Drain.step_exclusive now) _ hx

theorem exclusive_run (calls : List DirectoryCall) (s : Hierarchy × DrainCursor)
    (hx : s.1.Exclusive) : (run calls s).1.Exclusive := by
  induction calls generalizing s with
  | nil => exact hx
  | cons c calls ih => exact ih (c.apply s) (c.exclusive_apply s hx)

/-- From a well-built hierarchy whose directory has no entry, after any calls, the entries on
each line are all read-locked or are one write-locked entry. -/
theorem lockExclusive_run (h : Hierarchy) (hw : h.WellBuilt) (he : h.directory.entries = [])
    (cur : DrainCursor) (calls : List DirectoryCall) :
    (run calls (h, cur)).1.directory.LockExclusive :=
  (Directory.exclusive_iff _).1
    (exclusive_run calls (h, cur) (Hierarchy.exclusive_of_entries_eq_nil hw he)).locks

end DirectoryCall

/-- Two first-level caches of two direct-mapped lines, `L1a` and `L1b`, over one
second-level cache `L2`, each core reading through its own first-level cache. -/
def Config.sharedSecondLevel : Config :=
  { lineSize := 64,
    caches := [{ label := "L1a", lineNumber := 2, associativity := 1, lowerLevel := ["L2"] },
      { label := "L1b", lineNumber := 2, associativity := 1, lowerLevel := ["L2"] },
      { label := "L2", level := 2, lineNumber := 2, associativity := 1 }],
    memory := { latency := 5 },
    cores := [{ label := "core0", dataCache := "L1a" }, { label := "core1", dataCache := "L1b" }] }

namespace DirectoryCall

/-- Both first-level caches read line `0x0`, then `L1b` asks to write into it. -/
def readersThenWriter : List DirectoryCall :=
  [.request 0 { owner := 4, opcode := 1, addr := 0, size := 8, op := .read } 1,
   .request 1 { owner := 5, opcode := 1, addr := 0, size := 8, op := .read, src := 1, dst := 1 } 1,
   .request 1 { owner := 5, opcode := 2, addr := 8, size := 8, op := .write, src := 1, dst := 1 } 2]

/-- On the hierarchy of a set-up machine, the two reads lock line `0x0` for reading twice, and
the write on that line locks nothing. -/
theorem lockExclusive_run_readers_then_writer :
    ∃ m₀, Machine.new Config.sharedSecondLevel [⟨[]⟩, ⟨[]⟩] = .ok m₀ ∧
      (run readersThenWriter (m₀.hierarchy, default)).1.directory.entries.map
        (fun e => (e.lock, e.addr)) = [(.read, 0), (.read, 0)] ∧
      (run readersThenWriter (m₀.hierarchy, default)).1.directory.LockExclusive := by
  have hcheck : (match Machine.new Config.sharedSecondLevel [⟨[]⟩, ⟨[]⟩] with
      | .ok m₀ => (run readersThenWriter (m₀.hierarchy, default)).1.directory.entries.map
          (fun e => (e.lock, e.addr)) == [(.read, 0), (.read, 0)]
      | .error _ => false) = true := by
    decide +kernel
  split at hcheck
  · rename_i m₀ hnew
    obtain ⟨hw, he⟩ := Machine.wellBuilt_new hnew
    exact ⟨m₀, hnew, beq_iff_eq.1 hcheck, lockExclusive_run _ hw he _ _⟩
  · cases hcheck

end DirectoryCall

namespace Machine

/-- Every machine that is set up starts with its locks exclusive. -/
theorem exclusive_of_new {cfg : Config} {traces : List Trace} {m : Machine}
    (h : Machine.new cfg traces = .ok m) : m.hierarchy.Exclusive :=
  have ⟨hw, he⟩ := wellBuilt_new h
  Hierarchy.exclusive_of_entries_eq_nil hw he

/-- The directory of a machine as set up keeps its locks exclusive along any calls. -/
theorem lockExclusive_of_new {cfg : Config} {traces : List Trace} {m : Machine}
    (h : Machine.new cfg traces = .ok m) (cur : DrainCursor) (calls : List DirectoryCall) :
    (DirectoryCall.run calls (m.hierarchy, cur)).1.directory.LockExclusive :=
  (Directory.exclusive_iff _).1 (DirectoryCall.exclusive_run calls _ (exclusive_of_new h)).locks

end Machine

end CacheHierarchy
