import Mathlib
import CacheHierarchy.Proofs.BornOrder
import CacheHierarchy.Proofs.AnswerChain

open Std.Do

set_option autoImplicit false
set_option mvcgen.warning false

/-! # What the calls on the directory do to MSHRs

A call on the directory changes MSHRs in two places only: a writeback takes a free slot of the
writeback range of its cache (`Action.writeBack`), and an answer wakes the packets of its cache
that wait on its line (`Action.answer`), changing their phase and route but not their age.
Every other change it makes touches statuses, tags, counters and the directory, never an MSHR.

So a call takes the MSHR of every cache through a run of changes that keep birth cycles, and
leaves each packet in its slot, as old as it was (`Mshr.Extends`), while the shape of every
cache stays (`Hierarchy.MshrsBy`). Each action of the directory gets one triple saying so, from
any hierarchy `h₀` it is compared with; a caller's proof runs `mvcgen` over its own body with
the triples of the actions it calls.
-/

namespace CacheHierarchy

namespace Hierarchy

/-- `h'` is `h` with the shape of every cache kept and the MSHRs of each cache related by `R`. -/
structure MshrsBy (R : Mshr → Mshr → Prop) (h h' : Hierarchy) : Prop where
  shapes : h'.shapes = h.shapes
  mshrs : ∀ (j : Nat) (c c' : Cache), h.caches[j]? = some c → h'.caches[j]? = some c' →
    R c.mshr c'.mshr

section MshrsBy

variable {R : Mshr → Mshr → Prop}

theorem MshrsBy.refl (hR : ∀ m, R m m) (h : Hierarchy) : h.MshrsBy R h :=
  ⟨rfl, fun _ c c' hc hc' => by
    obtain rfl := Option.some.inj (hc.symm.trans hc')
    exact hR c.mshr⟩

theorem MshrsBy.trans (hR : ∀ {m₁ m₂ m₃}, R m₁ m₂ → R m₂ m₃ → R m₁ m₃) {h₁ h₂ h₃ : Hierarchy}
    (h₁₂ : h₁.MshrsBy R h₂) (h₂₃ : h₂.MshrsBy R h₃) : h₁.MshrsBy R h₃ := by
  refine ⟨h₂₃.shapes.trans h₁₂.shapes, fun j c₁ c₃ hc₁ hc₃ => ?_⟩
  -- the cache is there all along, since the shapes stay
  obtain ⟨c₂, hc₂, -⟩ := exists_of_shapes h₂₃.shapes hc₃
  exact hR (h₁₂.mshrs j c₁ c₂ hc₁ hc₂) (h₂₃.mshrs j c₂ c₃ hc₂ hc₃)

/-- A change that keeps the shapes and the workloads, level and MSHR of every cache. -/
theorem MshrsBy.of_frame (hR : ∀ m, R m m) {h h' : Hierarchy} (hs : h'.shapes = h.shapes)
    (hw : h'.workloads = h.workloads) : h.MshrsBy R h' := by
  refine ⟨hs, fun j c c' hc hc' => ?_⟩
  have hj := workload_of_workloads hw j
  rw [hc, hc'] at hj
  have hm := congrArg Prod.snd (Option.some.inj hj)
  simp only [Cache.workload] at hm
  rw [hm]
  exact hR c.mshr

theorem MshrsBy.setCacheAt {h : Hierarchy} {id : Nat} {c c' : Cache} (hc : h.caches[id]? = some c)
    (hshape : c'.shape = c.shape) (hR : ∀ m, R m m) (hm : R c.mshr c'.mshr) :
    h.MshrsBy R (h.setCacheAt id c') := by
  refine ⟨shapes_setCacheAt _ _ _ fun c₀ hc₀ => ?_, fun j c₁ c₂ hc₁ hc₂ => ?_⟩
  · rw [Option.some.inj (hc₀.symm.trans hc)]
    exact hshape
  · by_cases hj : j = id
    · subst hj
      obtain rfl := Option.some.inj (hc₁.symm.trans hc)
      rw [caches_setCacheAt_self (Array.getElem?_eq_some_iff.1 hc₁).1] at hc₂
      obtain rfl := Option.some.inj hc₂
      exact hm
    · rw [caches_setCacheAt_of_ne h hj, hc₁] at hc₂
      obtain rfl := Option.some.inj hc₂
      exact hR c₁.mshr

theorem MshrsBy.modifyCache (h : Hierarchy) (id : Nat) {f : Cache → Cache}
    (hshape : ∀ c, (f c).shape = c.shape) (hR : ∀ m, R m m) (hm : ∀ c, R c.mshr (f c).mshr) :
    h.MshrsBy R (h.modifyCache id f) := by
  refine ⟨shapes_modifyCache h id f hshape, fun j c₁ c₂ hc₁ hc₂ => ?_⟩
  by_cases hj : j = id
  · subst hj
    rw [caches_modifyCache_self hc₁] at hc₂
    obtain rfl := Option.some.inj hc₂
    exact hm c₁
  · rw [caches_modifyCache_of_ne h hj, hc₁] at hc₂
    obtain rfl := Option.some.inj hc₂
    exact hR c₁.mshr

end MshrsBy

/-- What the calls on the directory do to MSHRs, from `h` to `h'`. -/
abbrev Grows (h h' : Hierarchy) : Prop := h.MshrsBy Mshr.Extends h'

theorem Grows.refl (h : Hierarchy) : h.Grows h := MshrsBy.refl Mshr.Extends.refl h

theorem Grows.trans {h₁ h₂ h₃ : Hierarchy} (h₁₂ : h₁.Grows h₂) (h₂₃ : h₂.Grows h₃) :
    h₁.Grows h₃ :=
  MshrsBy.trans (R := Mshr.Extends) (fun h₁₂ h₂₃ => h₁₂.trans h₂₃) h₁₂ h₂₃

/-- A change that touches no MSHR and no shape, after a run of calls. -/
theorem Grows.frame {h₀ h h' : Hierarchy} (hg : h₀.Grows h) (hs : h'.shapes = h.shapes)
    (hw : h'.workloads = h.workloads) : h₀.Grows h' :=
  hg.trans (MshrsBy.of_frame Mshr.Extends.refl hs hw)

theorem Grows.modifyDirectory {h₀ h : Hierarchy} (hg : h₀.Grows h) {f : Directory → Directory}
    (hf : (f h.directory).setup = h.directory.setup) : h₀.Grows (h.modifyDirectory f) :=
  hg.frame (shapes_modifyDirectory _ _ hf) (by simp)

/-- Storing back the cache that gave up a victim: only its random stream changed. -/
theorem Grows.setCacheAt_victim {h₀ h : Hierarchy} (hg : h₀.Grows h) {id : Nat} {c : Cache}
    (hc : h.caches[id]? = some c) {addr : UInt64} {locked : UInt64 → Bool}
    {v : Option (Nat × Nat) × Cache} (hv : c.victim addr locked = .ok v) :
    h₀.Grows (h.setCacheAt id v.2) := by
  obtain ⟨r, hr⟩ := Cache.victim_cache c v.2 addr locked v.1 hv
  refine hg.trans (MshrsBy.setCacheAt hc ?_ Mshr.Extends.refl ?_)
  · rw [hr]
    rfl
  · rw [hr]
    exact .refl _

/-- Storing back a cache that took a packet into a free slot, or found none, with its counters
changed. -/
theorem Grows.setCacheAt_allocate {h₀ h : Hierarchy} (hg : h₀.Grows h) {id : Nat}
    {c c' c'' : Cache} (hc : h.caches[id]? = some c) {r : MshrRange} {p : Packet}
    {slot : Option Nat} (ha : c.allocate r p = (slot, c')) (hm : c''.mshr = c'.mshr)
    (hs : c''.shape = c'.shape) : h₀.Grows (h.setCacheAt id c'') := by
  have hext : c.mshr.Extends c'.mshr := by
    cases slot with
    | none =>
      rw [(Cache.allocate_none ha).1]
      exact .refl _
    | some slot => exact Mshr.extends_allocate (Cache.allocate_some ha).1
  refine hg.trans (MshrsBy.setCacheAt hc ?_ Mshr.Extends.refl (hm ▸ hext))
  rw [hs]
  exact (Cache.allocate_frame c c' r p slot ha).1

/-- Waking the packets that wait on a line, each keeping its age. -/
theorem Grows.updateWaiting {h₀ h : Hierarchy} (hg : h₀.Grows h) (id : Nat) (addr : UInt64)
    {f : Packet → Packet} (hf : ∀ w, (f w).born = w.born) :
    h₀.Grows (h.modifyCache id fun c => c.updateWaiting addr f) := by
  refine hg.trans (MshrsBy.modifyCache h id (fun c => Cache.shape_updateWaiting c addr f)
    Mshr.Extends.refl fun c => Mshr.extends_mapPackets c.mshr fun w => ?_)
  split
  · exact hf w
  · rfl

end Hierarchy

namespace Packet

@[simp] theorem born_route (p : Packet) (src dst : Nat) : (p.route src dst).born = p.born := rfl

@[simp] theorem born_enterNow (p : Packet) (phase : Phase) (now : Nat) :
    (p.enterNow phase now).born = p.born := rfl

theorem born_of_enter {p q : Packet} {phase : Phase} {now stall : Nat}
    (h : p.enter phase now stall = .ok q) : q.born = p.born := by
  rw [eq_of_enter h]

end Packet

namespace Action

variable (h₀ : Hierarchy)

/-! ## Requests -/

theorem writeBack_grows (id index way now : Nat) :
    ⦃fun h => ⌜h₀.Grows h⌝⦄ Action.writeBack id index way now
    ⦃post⟨fun _ h => ⌜h₀.Grows h⌝, fun _ h => ⌜h₀.Grows h⌝⟩⦄ := by
  unfold Action.writeBack
  mvcgen [Action.cache, Action.directory, Action.ofExcept, Action.putCache,
    Action.updateDirectory, Action.fail]
  all_goals (try dsimp +zetaDelta only at *)
  -- the writeback range is full and the cache is stored back as it was, or the writeback took
  -- a free slot
  all_goals first
    | exact ‹h₀.Grows _›.setCacheAt_allocate ‹_› ‹Cache.allocate _ _ _ = _› (by rfl) (by rfl)
    | exact (‹h₀.Grows _›.setCacheAt_allocate ‹_› ‹Cache.allocate _ _ _ = _› (by rfl)
        (by simp)).modifyDirectory (by simp)

theorem makeRoom_grows (id : Nat) (addr : UInt64) (now : Nat) :
    ⦃fun h => ⌜h₀.Grows h⌝⦄ Action.makeRoom id addr now
    ⦃post⟨fun _ h => ⌜h₀.Grows h⌝, fun _ h => ⌜h₀.Grows h⌝⟩⦄ := by
  have hwb := writeBack_grows h₀
  unfold Action.makeRoom
  mvcgen -trivial [-Action.writeBack_exclusive, -Action.writeBack_evicted, hwb, Action.cache,
    Action.directory, Action.ofExcept, Action.putCache, Action.updateCache, Action.fail,
    Action.writebackOwner, Action.evictAbove]
  all_goals (try dsimp +zetaDelta only at *)
  -- each state is the one the last writeback left, or else the one the choice of the victim
  -- left, with only statuses, copies and counters changed since
  all_goals first
    | (refine ‹h₀.Grows _›.frame ?_ ?_ <;> simp <;> done)
    | refine (‹h₀.Grows _›.setCacheAt_victim ‹_› ‹Cache.victim _ _ _ = _›).frame ?_ ?_ <;> simp

theorem stampEntry_grows (id : Nat) (p : Packet) (entry : Option Nat) (now : Nat) :
    ⦃fun h => ⌜h₀.Grows h⌝⦄ Action.stampEntry id p entry now
    ⦃post⟨fun _ h => ⌜h₀.Grows h⌝, fun _ h => ⌜h₀.Grows h⌝⟩⦄ := by
  unfold Action.stampEntry
  mvcgen [Action.directory, Action.updateDirectory]
  all_goals (try dsimp +zetaDelta only at *)
  all_goals exact ‹h₀.Grows _›.frame (by simp) (by simp)

theorem applyOperation_grows (id index way : Nat) (p : Packet) (received : Bool) (now : Nat) :
    ⦃fun h => ⌜h₀.Grows h⌝⦄ Action.applyOperation id index way p received now
    ⦃post⟨fun _ h => ⌜h₀.Grows h⌝, fun _ h => ⌜h₀.Grows h⌝⟩⦄ := by
  unfold Action.applyOperation
  mvcgen [Action.cache, Action.putCache, Action.fail]
  all_goals (try dsimp +zetaDelta only at *)
  all_goals exact ‹h₀.Grows _›.frame (by simp [*, apply_ite]) (by simp [*, apply_ite])

theorem absorbWriteback_grows (id : Nat) (p : Packet) (entry : Option Nat) (now : Nat) :
    ⦃fun h => ⌜h₀.Grows h⌝⦄ Action.absorbWriteback id p entry now
    ⦃post⟨fun q h => ⌜h₀.Grows h ∧ q.born = p.born⌝, fun _ h => ⌜h₀.Grows h⌝⟩⦄ := by
  have hmakeRoom := makeRoom_grows h₀
  have happly := applyOperation_grows h₀
  unfold Action.absorbWriteback
  mvcgen [-Action.makeRoom_exclusive, -Action.makeRoom_evicted, -Action.applyOperation_exclusive,
    -Action.applyOperation_pinned, hmakeRoom, happly, Action.cache,
    Action.fail, Action.countAccess, Action.updateCache, Action.updateDirectory, Fault.check]
  all_goals (try dsimp +zetaDelta only at *)
  -- the writeback goes on as it came, only in another phase
  all_goals first
    | (refine ‹h₀.Grows _›.frame ?_ ?_ <;> simp)
    | refine ⟨‹h₀.Grows _›.frame ?_ ?_, Packet.born_of_enter ‹_›⟩ <;> simp

theorem serve_grows (id : Nat) (c : Cache) (p : Packet) (index way now : Nat) :
    ⦃fun h => ⌜h₀.Grows h⌝⦄ Action.serve id c p index way now
    ⦃post⟨fun q h => ⌜h₀.Grows h ∧ q.born = p.born⌝, fun _ h => ⌜h₀.Grows h⌝⟩⦄ := by
  have happly := applyOperation_grows h₀
  unfold Action.serve
  mvcgen [-Action.applyOperation_exclusive, -Action.applyOperation_pinned, happly,
    Action.countAccess, Action.countLineHit, Action.updateCache, Action.updateDirectory,
    Fault.check]
  all_goals (try dsimp +zetaDelta only at *)
  all_goals first
    | exact ‹h₀.Grows _›.frame (by simp) (by simp)
    | -- the packet goes on as it came, or turned into an answer: as old either way
      refine ⟨‹h₀.Grows _›, ?_⟩
      have hq := ‹(if _ then _ else _) = Except.ok _›
      split at hq <;> (try split at hq) <;> simp [Packet.born_of_enter hq]

theorem passOn_grows (id : Nat) (p : Packet) (index way now : Nat) :
    ⦃fun h => ⌜h₀.Grows h⌝⦄ Action.passOn id p index way now
    ⦃post⟨fun q h => ⌜h₀.Grows h ∧ q.born = p.born⌝, fun _ h => ⌜h₀.Grows h⌝⟩⦄ := by
  unfold Action.passOn
  mvcgen [Action.cache, Action.ofExcept, Fault.check]
  all_goals first
    | exact ‹h₀.Grows _›
    | exact ⟨‹h₀.Grows _›, by simp [Packet.born_of_enter ‹_›]⟩

theorem install_grows (id : Nat) (c : Cache) (p : Packet) (entry : Option Nat)
    (index way now : Nat) :
    ⦃fun h => ⌜h₀.Grows h⌝⦄ Action.install id c p entry index way now
    ⦃post⟨fun q h => ⌜h₀.Grows h ∧ q.born = p.born⌝, fun _ h => ⌜h₀.Grows h⌝⟩⦄ := by
  have hstamp := stampEntry_grows h₀
  have hpassOn := passOn_grows h₀
  unfold Action.install
  mvcgen [-Action.stampEntry_exclusive, -Action.stampEntry_pinned, -Action.passOn_exclusive,
    -Action.passOn_pinned, hstamp, hpassOn, Action.updateCache, Action.ownerAbove,
    Action.countLineHit]
  all_goals (try dsimp +zetaDelta only at *)
  all_goals first
    | refine ‹h₀.Grows _›.frame ?_ ?_ <;> simp
    | -- a write goes on as a read, and a line missing everywhere above is asked for whole: the
      -- request stays as old
      intro hg hborn
      exact ⟨hg, hborn.trans (by split <;> rfl)⟩

theorem miss_grows (id : Nat) (c : Cache) (p : Packet) (entry : Option Nat)
    (found : Option (Nat × Nat)) (now : Nat) :
    ⦃fun h => ⌜h₀.Grows h⌝⦄ Action.miss id c p entry found now
    ⦃post⟨fun q h => ⌜h₀.Grows h ∧ q.born = p.born⌝, fun _ h => ⌜h₀.Grows h⌝⟩⦄ := by
  have hmakeRoom := makeRoom_grows h₀
  have hinstall := install_grows h₀
  unfold Action.miss
  mvcgen [-Action.makeRoom_exclusive, -Action.makeRoom_evicted, -Action.install_exclusive,
    -Action.install_pinned, hmakeRoom, hinstall, Action.countAccess, Action.updateCache,
    Action.updateDirectory, Fault.check]
  all_goals (try dsimp +zetaDelta only at *)
  all_goals first
    | refine ‹h₀.Grows _›.frame ?_ ?_ <;> simp
    | -- no way is free: the request is sent back to retry
      exact ⟨‹h₀.Grows _›, Packet.born_of_enter ‹_›⟩

theorem proceed_grows (id : Nat) (c : Cache) (d : Directory) (p : Packet) (entry : Option Nat)
    (now : Nat) :
    ⦃fun h => ⌜h₀.Grows h⌝⦄ Action.proceed id c d p entry now
    ⦃post⟨fun q h => ⌜h₀.Grows h ∧ q.born = p.born⌝, fun _ h => ⌜h₀.Grows h⌝⟩⦄ := by
  have habsorb := absorbWriteback_grows h₀
  have hstamp := stampEntry_grows h₀
  have hserve := serve_grows h₀
  have hmiss := miss_grows h₀
  unfold Action.proceed
  mvcgen [-Action.absorbWriteback_exclusive, -Action.absorbWriteback_pinned,
    -Action.stampEntry_exclusive, -Action.stampEntry_pinned, -Action.serve_exclusive,
    -Action.serve_pinned, -Action.miss_exclusive, -Action.miss_pinned, habsorb, hstamp, hserve,
    hmiss, Action.countLineHit, Action.updateCache, Action.updateDirectory, Fault.check]
  all_goals (try dsimp +zetaDelta only at *)
  all_goals first
    | refine ‹h₀.Grows _›.frame ?_ ?_ <;> simp
    | -- a request joining a transaction on its line waits
      exact ⟨‹h₀.Grows _›.frame (by simp) (by simp), rfl⟩
    | -- a request meeting a transaction it cannot join retries
      exact ⟨‹h₀.Grows _›, Packet.born_of_enter ‹_›⟩

/-- A request leaves every packet in its slot, as old as it was, and takes slots of writeback
ranges only; the packet it gives back is as old as the request. -/
theorem request_grows (id : Nat) (p : Packet) (now : Nat) :
    ⦃fun h => ⌜h₀.Grows h⌝⦄ Action.request id p now
    ⦃post⟨fun q h => ⌜h₀.Grows h ∧ q.born = p.born⌝, fun _ h => ⌜h₀.Grows h⌝⟩⦄ := by
  have hproceed := proceed_grows h₀
  unfold Action.request
  mvcgen [-Action.proceed_exclusive, -Action.proceed_pinned, hproceed, Action.cache,
    Action.directory, Action.updateDirectory, Fault.check, Action.fail]
  all_goals (try dsimp +zetaDelta only at *)
  all_goals first
    | refine ‹h₀.Grows _›.frame ?_ ?_ <;> simp
    | -- a request that meets a lock on its line retries
      exact ⟨‹h₀.Grows _›.frame (by simp) (by simp), Packet.born_of_enter ‹_›⟩

/-! ## Answers -/

theorem answerOperation_grows (id : Nat) (p : Packet) (now : Nat) :
    ⦃fun h => ⌜h₀.Grows h⌝⦄ Action.answerOperation id p now
    ⦃post⟨fun _ h => ⌜h₀.Grows h⌝, fun _ h => ⌜h₀.Grows h⌝⟩⦄ := by
  have happly := applyOperation_grows h₀
  unfold Action.answerOperation
  mvcgen [-Action.applyOperation_exclusive, -Action.applyOperation_pinned, happly, Action.cache,
    Action.fail]

theorem updateWaiting_grows (id : Nat) (addr : UInt64) {f : Packet → Packet}
    (hf : ∀ w, (f w).born = w.born) :
    ⦃fun h => ⌜h₀.Grows h⌝⦄ Action.updateCache id (fun c => c.updateWaiting addr f)
    ⦃post⟨fun _ h => ⌜h₀.Grows h⌝, fun _ h => ⌜h₀.Grows h⌝⟩⦄ := by
  mvcgen [Action.updateCache]
  exact ‹h₀.Grows _›.updateWaiting id addr hf

/-- An answer wakes the packets waiting on its line, each as old as it was, and takes no slot;
the packet it gives back is as old as the answer. -/
theorem answer_grows (id : Nat) (p : Packet) (now : Nat) :
    ⦃fun h => ⌜h₀.Grows h⌝⦄ Action.answer id p now
    ⦃post⟨fun q h => ⌜h₀.Grows h ∧ q.born = p.born⌝, fun _ h => ⌜h₀.Grows h⌝⟩⦄ := by
  have hoperation := answerOperation_grows h₀
  have hwait := @updateWaiting_grows h₀ id p.addr
  unfold Action.answer
  mvcgen [-Action.answerOperation_exclusive, -Action.answerOperation_pinned, hoperation, hwait,
    Action.cache, Action.directory, Action.fail, Action.updateDirectory, Fault.check]
  all_goals (try dsimp +zetaDelta only at *)
  all_goals first
    | refine ‹h₀.Grows _›.frame ?_ ?_ <;> simp
    | exact ⟨‹h₀.Grows _›, by simp [Packet.born_of_enter ‹_›]⟩
    | -- a woken packet takes the answer's size and route, and keeps its age
      intro w
      rfl

/-- A sent request changes the directory only. -/
theorem sent_grows (id : Nat) (p : Packet) :
    ⦃fun h => ⌜h₀.Grows h⌝⦄ Action.sent id p
    ⦃post⟨fun _ h => ⌜h₀.Grows h⌝, fun _ h => ⌜h₀.Grows h⌝⟩⦄ := by
  unfold Action.sent
  mvcgen [Action.cache, Action.directory, Action.fail, Action.updateDirectory]
  -- a writeback sent from a last-level cache is done: its entry is closed
  dsimp +zetaDelta only at *
  exact ‹h₀.Grows _›.modifyDirectory (by simp)

/-! ## The drain -/

/-- Flushing ways takes slots of the writeback range for the dirty lines, and changes
statuses and counters otherwise. -/
theorem flushWays_grows (id index now : Nat) (ways : List Nat) (clean : Bool) :
    ⦃fun h => ⌜h₀.Grows h⌝⦄ Action.flushWays id index now ways clean
    ⦃post⟨fun _ h => ⌜h₀.Grows h⌝, fun _ h => ⌜h₀.Grows h⌝⟩⦄ := by
  induction ways generalizing clean with
  | nil =>
    unfold Action.flushWays
    mvcgen
  | cons way rest ih =>
    have hwb := writeBack_grows h₀
    unfold Action.flushWays
    -- the rest of the ways is flushed by a call whose only spec is `ih`
    generalize Action.flushWays id index now rest = flushRest at ih ⊢
    mvcgen [-Action.writeBack_exclusive, -Action.writeBack_evicted, hwb, Action.cache,
      Action.directory, Action.fail, Action.updateCache, Action.updateDirectory, ih]
    all_goals (try dsimp +zetaDelta only at *)
    all_goals refine ‹h₀.Grows _›.frame ?_ ?_ <;> simp

end Action

namespace Drain

variable (h₀ : Hierarchy)

theorem lift_grows {α : Type} {a : Action α}
    (ha : ⦃fun h => ⌜h₀.Grows h⌝⦄ a ⦃post⟨fun _ h => ⌜h₀.Grows h⌝, fun _ h => ⌜h₀.Grows h⌝⟩⦄) :
    ⦃fun s => ⌜h₀.Grows s.1⌝⦄ Drain.lift a
    ⦃post⟨fun _ s => ⌜h₀.Grows s.1⌝, fun _ s => ⌜h₀.Grows s.1⌝⟩⦄ := by
  unfold Drain.lift
  mvcgen
  all_goals exact run_of_triple ha ‹_›

theorem flushSets_grows (id now fuel : Nat) :
    ⦃fun s => ⌜h₀.Grows s.1⌝⦄ Drain.flushSets id now fuel
    ⦃post⟨fun _ s => ⌜h₀.Grows s.1⌝, fun _ s => ⌜h₀.Grows s.1⌝⟩⦄ := by
  have hcache := lift_grows h₀ (Action.cache_keeps id)
  have hflush := fun index ways clean =>
    lift_grows h₀ (Action.flushWays_grows h₀ id index now ways clean)
  induction fuel with
  | zero =>
    unfold Drain.flushSets
    mvcgen [-Drain.lift_exclusive, -Drain.lift_pinned, hcache]
  | succ fuel ih =>
    unfold Drain.flushSets
    generalize Drain.flushSets id now fuel = flushRest at ih ⊢
    mvcgen [-Drain.lift_exclusive, -Drain.lift_pinned, hcache, hflush, Drain.cursor,
      Drain.moveCursor, ih]

theorem flushLevel_grows (level now : Nat) (ids : List Nat) :
    ⦃fun s => ⌜h₀.Grows s.1⌝⦄ Drain.flushLevel level now ids
    ⦃post⟨fun _ s => ⌜h₀.Grows s.1⌝, fun _ s => ⌜h₀.Grows s.1⌝⟩⦄ := by
  induction ids with
  | nil =>
    unfold Drain.flushLevel
    mvcgen
  | cons id ids ih =>
    have hcache := lift_grows h₀ (Action.cache_keeps id)
    have hsets := flushSets_grows h₀ id now
    unfold Drain.flushLevel
    generalize Drain.flushLevel level now ids = flushRest at ih ⊢
    mvcgen [-Drain.lift_exclusive, -Drain.lift_pinned, -Drain.flushSets_exclusive,
      -Drain.flushSets_pinned, hcache, hsets, ih]

theorem flushLevels_grows (now maxLevel fuel : Nat) :
    ⦃fun s => ⌜h₀.Grows s.1⌝⦄ Drain.flushLevels now maxLevel fuel
    ⦃post⟨fun _ s => ⌜h₀.Grows s.1⌝, fun _ s => ⌜h₀.Grows s.1⌝⟩⦄ := by
  have hlevel := flushLevel_grows h₀
  induction fuel with
  | zero =>
    unfold Drain.flushLevels
    mvcgen
  | succ fuel ih =>
    unfold Drain.flushLevels
    generalize Drain.flushLevels now maxLevel fuel = flushRest at ih ⊢
    mvcgen [-Drain.flushLevel_exclusive, -Drain.flushLevel_pinned, hlevel, Drain.cursor,
      Drain.moveCursor, ih]

/-- A cycle of the drain takes slots of writeback ranges only; restarting it resets only the
cursor. -/
theorem step_grows (now : Nat) :
    ⦃fun s => ⌜h₀.Grows s.1⌝⦄ Drain.step now
    ⦃post⟨fun _ s => ⌜h₀.Grows s.1⌝, fun _ s => ⌜h₀.Grows s.1⌝⟩⦄ := by
  have hlevels := flushLevels_grows h₀ now
  unfold Drain.step
  mvcgen [-Drain.flushLevels_exclusive, -Drain.flushLevels_pinned, hlevels]

end Drain

end CacheHierarchy
