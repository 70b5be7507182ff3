import Mathlib
import CacheHierarchy.Proofs.PinnedLines

open Std.Do

set_option autoImplicit false
set_option mvcgen.warning false

/-! # The chains are held along every run

Each action of the directory keeps `Hierarchy.Pinned`, one triple per action, tagged so that
each caller's proof runs `mvcgen` over its own body only. A request stamps a chain only once
its cache holds the line: a request that joins a transaction hits its line, and a request that
misses installs its line first, in a way that has room for it (`Hierarchy.Room`): the way of
its own line, or a victim. An answer takes caches off the chain and closes the entry, and the
drain writes back only unlocked lines.

The frame lemmas of `Hierarchy.Pinned` are simp lemmas, so a step that changes statuses,
counters or a chain it may change closes by `simp_all`; what is left installs a line or stamps
a chain, and is closed by the lemma for that.
-/

namespace CacheHierarchy

@[simp] theorem Cache.changeAddress_countUsage (c : Cache) (f : LineUsage → LineUsage)
    (i w : Nat) (x : UInt64) :
    (c.countUsage f).changeAddress i w x = (c.changeAddress i w x).countUsage f := rfl

namespace Action

/-! ## Requests -/

@[spec high] theorem stampEntry_pinned (id : Nat) (p : Packet) (entry : Option Nat) (now : Nat) :
    ⦃fun h => ⌜h.Pinned ∧ h.directory.EntryOn p entry ∧ h.Holds id p.addr⌝⦄
    Action.stampEntry id p entry now
    ⦃post⟨fun _ h => ⌜h.Pinned⌝, fun _ h => ⌜h.Pinned⌝⟩⦄ := by
  unfold Action.stampEntry
  mvcgen [Action.directory, Action.updateDirectory]
  all_goals
    try dsimp +zetaDelta only at *
    obtain ⟨hx, hon, hholds⟩ := ‹_ ∧ _ ∧ _›
  -- the chain of the entry the request came with, or of a new entry
  all_goals first
    | exact hx.stampOn hon hholds
    | exact hx.openStamp p now id fun _ => hholds

@[spec high] theorem applyOperation_pinned (id index way : Nat) (p : Packet) (received : Bool)
    (now : Nat) :
    ⦃fun h => ⌜h.Pinned⌝⦄ Action.applyOperation id index way p received now
    ⦃post⟨fun _ h => ⌜h.Pinned⌝, fun _ h => ⌜h.Pinned⌝⟩⦄ := by
  unfold Action.applyOperation
  mvcgen [Action.cache, Action.putCache, Action.fail]
  all_goals (try dsimp +zetaDelta only at *)
  all_goals
    exact ‹Hierarchy.Pinned _›.of_frame (by simp [*, apply_ite]) (by simp [*, apply_ite])
      (by simp)

/-- Making room for the line of `p` keeps the invariant and the entry the request came with,
and a way it frees has room for the line. -/
theorem makeRoom_installable (id : Nat) (p : Packet) (entry : Option Nat) (now : Nat) :
    ⦃fun h => ⌜h.Pinned ∧ h.directory.EntryOn p entry⌝⦄ Action.makeRoom id p.addr now
    ⦃post⟨fun r h => ⌜h.Pinned ∧ h.directory.EntryOn p entry ∧
        ∀ place, r = some place → h.Room id p.addr place⌝,
      fun _ h => ⌜h.Pinned⌝⟩⦄ := by
  apply triple_of_pointwise
  rintro h₀ ⟨hx, hon⟩
  refine triple_conseq (makeRoom_evicted id p.addr now h₀) (fun _ hs => ⟨hs, hx⟩) ?_
    (fun _ _ hev => hx.of_evicted hev)
  rintro r h ⟨hev, hroom⟩
  exact ⟨hx.of_evicted hev, hev.entryOn hon, fun place hr => (hroom place hr).of_evicted hev⟩

@[spec high] theorem absorbWriteback_pinned (id : Nat) (p : Packet) (entry : Option Nat)
    (now : Nat) :
    ⦃fun h => ⌜h.Pinned⌝⦄ Action.absorbWriteback id p entry now
    ⦃post⟨fun _ h => ⌜h.Pinned⌝, fun _ h => ⌜h.Pinned⌝⟩⦄ := by
  unfold Action.absorbWriteback
  have hroom := makeRoom_installable id p none now
  mvcgen [Action.cache, Action.fail, Action.countAccess, Action.updateCache,
    Action.updateDirectory, Fault.check, -makeRoom_evicted, -makeRoom_exclusive, hroom]
  all_goals
    try dsimp +zetaDelta only at *
    subst_vars
    -- the way of the line found has room for it
    try have := Hierarchy.room_of_findLine ‹_› ‹Cache.findLine _ _ = some _›
  all_goals simp_all
  -- what is left installs the line at a way with room for it, after counters changed
  all_goals
    try casesm* _ ∧ _
    exact (Hierarchy.Pinned.install_of_evicted ‹_› ‹_› (by simp [Hierarchy.evicted_iff])
      fun c => ⟨by simp, by simp⟩).1

@[spec high] theorem serve_pinned (id : Nat) (c : Cache) (p : Packet) (index way now : Nat) :
    ⦃fun h => ⌜h.Pinned⌝⦄ Action.serve id c p index way now
    ⦃post⟨fun _ h => ⌜h.Pinned⌝, fun _ h => ⌜h.Pinned⌝⟩⦄ := by
  unfold Action.serve
  mvcgen [Action.countAccess, Action.countLineHit, Action.updateCache, Action.updateDirectory,
    Fault.check]
  all_goals (try dsimp +zetaDelta only at *)
  all_goals exact ‹Hierarchy.Pinned _›.of_frame (by simp) (by simp) (by simp)

@[spec high] theorem passOn_pinned (id : Nat) (p : Packet) (index way now : Nat) :
    ⦃fun h => ⌜h.Pinned⌝⦄ Action.passOn id p index way now
    ⦃post⟨fun _ h => ⌜h.Pinned⌝, fun _ h => ⌜h.Pinned⌝⟩⦄ := by
  unfold Action.passOn
  mvcgen [Action.cache, Action.ofExcept, Fault.check]

@[spec high] theorem install_pinned (id : Nat) (c : Cache) (p : Packet) (entry : Option Nat)
    (index way now : Nat) :
    ⦃fun h => ⌜h.Pinned ∧ h.Room id p.addr (index, way) ∧ h.directory.EntryOn p entry⌝⦄
    Action.install id c p entry index way now
    ⦃post⟨fun _ h => ⌜h.Pinned⌝, fun _ h => ⌜h.Pinned⌝⟩⦄ := by
  unfold Action.install
  mvcgen [Action.updateCache, Action.ownerAbove, Action.countLineHit]
  all_goals simp_all +zetaDelta
  -- the line goes in first, so the cache holds it when the chain is stamped
  all_goals
    try casesm* _ ∧ _
    exact Hierarchy.Pinned.install_of_evicted ‹_› ‹_› (.refl _) fun c => ⟨by simp, by simp⟩

@[spec high] theorem miss_pinned (id : Nat) (c : Cache) (p : Packet) (entry : Option Nat)
    (found : Option (Nat × Nat)) (now : Nat) :
    ⦃fun h => ⌜h.Pinned ∧ h.directory.EntryOn p entry ∧
      ∀ place, found = some place → h.Room id p.addr place⌝⦄
    Action.miss id c p entry found now
    ⦃post⟨fun _ h => ⌜h.Pinned⌝, fun _ h => ⌜h.Pinned⌝⟩⦄ := by
  unfold Action.miss
  have hroom := makeRoom_installable id p entry now
  mvcgen [Action.countAccess, Action.updateCache, Action.updateDirectory, Fault.check,
    -makeRoom_evicted, -makeRoom_exclusive, hroom]
  all_goals
    try dsimp +zetaDelta only at *
    subst_vars
  all_goals simp_all

@[spec high] theorem proceed_pinned (id : Nat) (c : Cache) (d : Directory) (p : Packet)
    (entry : Option Nat) (now : Nat) :
    ⦃fun h => ⌜h.Pinned ∧ h.caches[id]? = some c ∧ h.directory.EntryOn p entry⌝⦄
    Action.proceed id c d p entry now
    ⦃post⟨fun _ h => ⌜h.Pinned⌝, fun _ h => ⌜h.Pinned⌝⟩⦄ := by
  unfold Action.proceed
  -- a cache that finds the line holds it, and the way it finds it at has room for it
  have hholds : ∀ h : Hierarchy, h.caches[id]? = some c → (c.findLine p.addr).isSome →
      h.Holds id p.addr := fun _ hc hf => ⟨c, hc, hf⟩
  mvcgen [Action.countLineHit, Action.updateCache, Action.updateDirectory, Fault.check]
  all_goals
    try dsimp +zetaDelta only at *
    subst_vars
  all_goals simp_all [Hierarchy.room_of_findLine]

/-- A request keeps the chains held. -/
theorem request_pinned (id : Nat) (p : Packet) (now : Nat) :
    ⦃fun h => ⌜h.Pinned⌝⦄ Action.request id p now
    ⦃post⟨fun _ h => ⌜h.Pinned⌝, fun _ h => ⌜h.Pinned⌝⟩⦄ := by
  unfold Action.request
  mvcgen [Action.cache, Action.directory, Action.updateDirectory, Fault.check, Action.fail]
  all_goals simp_all +zetaDelta

/-! ## Answers -/

@[spec high] theorem answerOperation_pinned (id : Nat) (p : Packet) (now : Nat) :
    ⦃fun h => ⌜h.Pinned⌝⦄ Action.answerOperation id p now
    ⦃post⟨fun _ h => ⌜h.Pinned⌝, fun _ h => ⌜h.Pinned⌝⟩⦄ := by
  unfold Action.answerOperation
  mvcgen [Action.cache, Action.fail]

/-- An answer keeps the chains held. -/
theorem answer_pinned (id : Nat) (p : Packet) (now : Nat) :
    ⦃fun h => ⌜h.Pinned⌝⦄ Action.answer id p now
    ⦃post⟨fun _ h => ⌜h.Pinned⌝, fun _ h => ⌜h.Pinned⌝⟩⦄ := by
  unfold Action.answer
  mvcgen [Action.cache, Action.directory, Action.fail, Action.updateCache,
    Action.updateDirectory, Fault.check]
  all_goals
    try dsimp +zetaDelta only at *
    subst_vars
  all_goals simp_all [Hierarchy.modifyDirectory_modifyCache]

/-- A sent request keeps the chains held. -/
theorem sent_pinned (id : Nat) (p : Packet) :
    ⦃fun h => ⌜h.Pinned⌝⦄ Action.sent id p
    ⦃post⟨fun _ h => ⌜h.Pinned⌝, fun _ h => ⌜h.Pinned⌝⟩⦄ := by
  unfold Action.sent
  mvcgen [Action.cache, Action.directory, Action.fail, Action.updateDirectory]
  -- a writeback sent from a last-level cache is done: its entry is closed
  exact ‹Hierarchy.Pinned _›.close _

/-! ## The drain -/

theorem cache_keeps {J : Hierarchy → Prop} (id : Nat) :
    ⦃fun h => ⌜J h⌝⦄ Action.cache id ⦃post⟨fun _ h => ⌜J h⌝, fun _ h => ⌜J h⌝⟩⦄ := by
  mvcgen [Action.cache, Action.fail]

/-- Writing a way back keeps the chains held: it opens a writeback transaction only. -/
theorem writeBack_pinned (id index way now : Nat) :
    ⦃fun h => ⌜h.Pinned⌝⦄ Action.writeBack id index way now
    ⦃post⟨fun _ h => ⌜h.Pinned⌝, fun _ h => ⌜h.Pinned⌝⟩⦄ := by
  apply triple_of_pointwise
  intro h₀ hx
  exact triple_conseq (writeBack_evicted id index way now h₀) (fun _ hs => hs)
    (fun _ _ hev => hx.of_evicted hev) (fun _ _ hev => hx.of_evicted hev)

/-- Flushing ways keeps the chains held: a line is dropped by its status only, and its
writeback opens a writeback transaction. -/
@[spec high] theorem flushWays_pinned (id index now : Nat) (ways : List Nat) (clean : Bool) :
    ⦃fun h => ⌜h.Pinned⌝⦄ Action.flushWays id index now ways clean
    ⦃post⟨fun _ h => ⌜h.Pinned⌝, fun _ h => ⌜h.Pinned⌝⟩⦄ := by
  induction ways generalizing clean with
  | nil =>
    unfold Action.flushWays
    mvcgen
  | cons way rest ih =>
    unfold Action.flushWays
    -- the rest of the ways is flushed by a call whose only spec is `ih`
    generalize Action.flushWays id index now rest = flushRest at ih ⊢
    mvcgen [Action.cache, Action.directory, Action.fail, Action.updateCache,
      Action.updateDirectory, ih, -writeBack_evicted, -writeBack_exclusive, writeBack_pinned]
    all_goals simp_all +zetaDelta

end Action

namespace Drain

@[spec high] theorem lift_pinned {α : Type} {a : Action α}
    (ha : ⦃fun h => ⌜h.Pinned⌝⦄ a ⦃post⟨fun _ h => ⌜h.Pinned⌝, fun _ h => ⌜h.Pinned⌝⟩⦄) :
    ⦃fun s => ⌜s.1.Pinned⌝⦄ Drain.lift a
    ⦃post⟨fun _ s => ⌜s.1.Pinned⌝, fun _ s => ⌜s.1.Pinned⌝⟩⦄ := by
  unfold Drain.lift
  mvcgen
  all_goals exact run_of_triple ha ‹_›

@[spec high] theorem flushSets_pinned (id now fuel : Nat) :
    ⦃fun s => ⌜s.1.Pinned⌝⦄ Drain.flushSets id now fuel
    ⦃post⟨fun _ s => ⌜s.1.Pinned⌝, fun _ s => ⌜s.1.Pinned⌝⟩⦄ := by
  induction fuel with
  | zero =>
    unfold Drain.flushSets
    mvcgen
    exact Action.cache_keeps id
  | succ fuel ih =>
    unfold Drain.flushSets
    generalize Drain.flushSets id now fuel = flushRest at ih ⊢
    mvcgen [Drain.cursor, Drain.moveCursor, ih]
    exact Action.cache_keeps id

@[spec high] theorem flushLevel_pinned (level now : Nat) (ids : List Nat) :
    ⦃fun s => ⌜s.1.Pinned⌝⦄ Drain.flushLevel level now ids
    ⦃post⟨fun _ s => ⌜s.1.Pinned⌝, fun _ s => ⌜s.1.Pinned⌝⟩⦄ := by
  induction ids with
  | nil =>
    unfold Drain.flushLevel
    mvcgen
  | cons id ids ih =>
    unfold Drain.flushLevel
    generalize Drain.flushLevel level now ids = flushRest at ih ⊢
    mvcgen [ih]
    exact Action.cache_keeps id

@[spec high] theorem flushLevels_pinned (now maxLevel fuel : Nat) :
    ⦃fun s => ⌜s.1.Pinned⌝⦄ Drain.flushLevels now maxLevel fuel
    ⦃post⟨fun _ s => ⌜s.1.Pinned⌝, fun _ s => ⌜s.1.Pinned⌝⟩⦄ := by
  induction fuel with
  | zero =>
    unfold Drain.flushLevels
    mvcgen
  | succ fuel ih =>
    unfold Drain.flushLevels
    generalize Drain.flushLevels now maxLevel fuel = flushRest at ih ⊢
    mvcgen [Drain.cursor, Drain.moveCursor, ih]

/-- A cycle of the drain keeps the chains held; restarting it resets only the cursor. -/
theorem step_pinned (now : Nat) :
    ⦃fun s => ⌜s.1.Pinned⌝⦄ Drain.step now
    ⦃post⟨fun _ s => ⌜s.1.Pinned⌝, fun _ s => ⌜s.1.Pinned⌝⟩⦄ := by
  unfold Drain.step
  mvcgen

end Drain

/-! ## Runs -/

theorem DirectoryCall.pinned_apply (c : DirectoryCall) (s : Hierarchy × DrainCursor)
    (hx : s.1.Pinned) : (c.apply s).1.Pinned := by
  obtain ⟨h, cur⟩ := s
  cases c with
  | request id p now => exact run_of_triple (Action.request_pinned id p now) hx
  | answer id p now => exact run_of_triple (Action.answer_pinned id p now) hx
  | sent id p => exact run_of_triple (Action.sent_pinned id p) hx
  | evictAll now =>
    exact @run_of_triple _ _ _ (fun s : Hierarchy × DrainCursor => s.1.Pinned)
      (Drain.step_pinned now) _ hx

/-- The chains held are an invariant the cycles of a machine keep. -/
theorem Hierarchy.durable_pinned : Hierarchy.Durable Hierarchy.Pinned where
  call := DirectoryCall.pinned_apply
  restatus hr hx := hx.of_restatus hr
  slotIds hx := hx.slotIds

namespace Machine

/-- A machine as set up has no transaction, and its caches fit the directory. -/
theorem pinned_new {cfg : Config} {traces : List Trace} {m : Machine}
    (h : Machine.new cfg traces = .ok m) : m.hierarchy.Pinned := by
  obtain ⟨hw, he⟩ := wellBuilt_new h
  obtain ⟨ha, hs⟩ := aligned_new h
  refine ⟨hw, ha, hs, fun e hmem => ?_⟩
  rw [he] at hmem
  cases hmem

/-- Along every session of a machine as set up, every cache in the chain of a demand or
prefetch transaction holds the transaction's line: it finds a way for the address the
transaction started with. -/
theorem chain_holds_line {cfg : Config} {traces : List Trace} {m₀ m : Machine}
    (hnew : Machine.new cfg traces = .ok m₀) (hr : m₀.Reaches m) :
    ∀ e ∈ m.hierarchy.directory.entries, e.op ≠ .writeback → ∀ id, e.orderOf id ≠ 0 →
      ∃ c, m.hierarchy.caches[id]? = some c ∧ (c.findLine e.addr).isSome :=
  (hr.keeps Hierarchy.durable_pinned (pinned_new hnew)).chains

end Machine

/-- Reads of lines `0x0` and `0x40`, one after the other. -/
def Trace.twoReads : Trace := ⟨[⟨.read, 0, 8, 0⟩, ⟨.read, 0x40, 8, 0⟩]⟩

namespace Machine

/-- Five cycles into two reads through `L1a` over `L2`, both transactions are stamped at both
caches, and each of the two caches holds both lines. -/
theorem chain_holds_line_two_reads :
    ∃ m₀ m, Machine.new Config.sharedSecondLevel [Trace.twoReads, ⟨[]⟩] = .ok m₀ ∧
      m₀.Reaches m ∧
      m.hierarchy.directory.entries.map (fun e => (e.order, e.addr)) =
        [([1, 0, 2], 0), ([1, 0, 2], 0x40)] ∧
      ∀ e ∈ m.hierarchy.directory.entries, e.op ≠ .writeback → ∀ id, e.orderOf id ≠ 0 →
        ∃ c, m.hierarchy.caches[id]? = some c ∧ (c.findLine e.addr).isSome := by
  obtain ⟨m₀, m, hnew, hr, hq⟩ := exists_reaches_of_sessionPasses
    (by decide +kernel : sessionPasses Config.sharedSecondLevel [Trace.twoReads, ⟨[]⟩]
      [{ mode := .steps 5 }] (fun m => m.hierarchy.directory.entries.map (fun e => (e.order, e.addr))
        == [([1, 0, 2], 0), ([1, 0, 2], 0x40)]) = true)
  exact ⟨m₀, m, hnew, hr, beq_iff_eq.1 hq, chain_holds_line hnew hr⟩

end Machine

end CacheHierarchy
