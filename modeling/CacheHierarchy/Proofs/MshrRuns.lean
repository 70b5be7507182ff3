import Mathlib
import CacheHierarchy.Proofs.MshrCalls

open Std.Do

set_option autoImplicit false
set_option mvcgen.warning false

/-! # The born order along every run

An MSHR keeps its occupied slots in born order (`Mshr.Arrived`) as long as every change it
goes through keeps the birth cycles of the packets it does not place (`Mshr.Steps`). Every MSHR
of a machine is in that case: it starts empty when its cache is built, and every change a
cycle makes to it is such a change (`Mshr.Built`).

A cycle changes an MSHR in three ways. The cache changes alone when it admits a packet,
retires finished ones, sends one or takes in a prefetch. A call on the directory takes slots of
writeback ranges and wakes waiting packets (`Hierarchy.Grows`). And a packet the directory
treated is stored back into the slot it was taken from, as old as it was, or reborn. For that
last store the slot must still hold a packet as old: the call on the directory left it there
(`Hierarchy.Grows.bornOf`).
-/

namespace CacheHierarchy

namespace Mshr

/-- `m` is reached from an empty MSHR by changes that keep the birth cycles of the packets they
do not place. -/
def Built (m : Mshr) : Prop := ∃ r w p, (empty r w p).Steps m

theorem built_empty (r w p : Nat) : (empty r w p).Built := ⟨r, w, p, .refl _⟩

@[simp] theorem put_put (m : Mshr) (slot : Nat) (p q : Packet) :
    (m.put slot p).put slot q = m.put slot q := by
  simp [put]

namespace Built

variable {m : Mshr}

theorem steps (hm : m.Built) {m' : Mshr} (hs : m.Steps m') : m'.Built := by
  obtain ⟨r, w, p, h⟩ := hm
  exact ⟨r, w, p, h.trans hs⟩

theorem op (hm : m.Built) {o : Op} (h : o.KeepsBorn m) : (o.apply m).Built :=
  hm.steps (Op.steps h)

theorem allocate (hm : m.Built) {r : MshrRange} {p : Packet} {slot : Nat} {m' : Mshr}
    (h : m.allocate r p = some (slot, m')) : m'.Built :=
  hm.steps (extends_allocate h).1

/-- A packet put back into a slot that holds one as old. -/
theorem put (hm : m.Built) {slot : Nat} {p : Packet} (h : m.bornOf slot = some p.born) :
    (m.put slot p).Built := by
  obtain ⟨q, hq, hb⟩ := Option.map_eq_some_iff.1 h
  exact hm.op (o := .put slot p) ⟨q, hq, hb⟩

theorem release (hm : m.Built) (slot : Nat) : (m.release slot).2.Built :=
  hm.op (o := .release slot) trivial

theorem rebirth (hm : m.Built) (slot now : Nat) : (m.rebirth slot now).Built :=
  hm.op (o := .rebirth slot now) trivial

/-- A built MSHR holds its slots in born order, where the arrivals are those of the changes
that built it. -/
theorem bornOrdered (hm : m.Built) :
    ∃ r w p ops, KeepsBorn ops (empty r w p) ∧ run ops (empty r w p) = m ∧
      m.BornOrdered (arrivals ops (empty r w p) []) := by
  obtain ⟨r, w, p, ops, hk, rfl⟩ := hm
  exact ⟨r, w, p, ops, hk, rfl, ((arrived_empty r w p).run ops hk).bornOrdered⟩

end Built

end Mshr

/-! ## A cache alone -/

namespace Cache

theorem built_allocate {c : Cache} (hc : c.mshr.Built) (r : MshrRange) (p : Packet) :
    (c.allocate r p).2.mshr.Built := by
  cases h : c.allocate r p with
  | mk slot c' =>
    cases slot with
    | none => simpa [(allocate_none h).1] using hc
    | some slot => exact hc.allocate (allocate_some h).1

theorem built_of_allocatePrefetch {c c' : Cache} {p : Packet} {now : Nat} {slot : Option Nat}
    (hc : c.mshr.Built) (h : c.allocatePrefetch p now = (slot, c')) : c'.mshr.Built := by
  dsimp only [allocatePrefetch] at h
  split at h <;> rename_i halloc <;> cases h
  all_goals
    have hm := congrArg (fun r => r.2.mshr) halloc
    simp only at hm
    exact hm ▸ built_allocate hc _ _

/-- A step of a cache alone that keeps its MSHR built. -/
def KeepsBuilt {α : Type} (s : CacheStep α) : Prop :=
  ⦃fun c => ⌜c.mshr.Built⌝⦄ s ⦃post⟨fun _ c => ⌜c.mshr.Built⌝, fun _ c => ⌜c.mshr.Built⌝⟩⦄

theorem KeepsBuilt.runOn {α : Type} {s : CacheStep α} (hs : KeepsBuilt s) {c : Cache}
    (hc : c.mshr.Built) : (s.runOn c).2.mshr.Built :=
  @run_of_triple _ _ _ (fun c : Cache => c.mshr.Built) hs c hc

theorem keepsBuilt_retire (now slot : Nat) : KeepsBuilt (retire now slot) := by
  unfold KeepsBuilt
  mvcgen [retire, Fault.check]
  all_goals (try dsimp +zetaDelta only at *)
  all_goals
    have hb := ‹Mshr.Built _›.release slot
    rw [‹Mshr.release _ _ = _›] at hb
    exact hb

theorem keepsBuilt_retireFinished (now : Nat) : KeepsBuilt (retireFinished now) := by
  have hloop := forM_keeps fun slot => keepsBuilt_retire now slot
  unfold KeepsBuilt
  mvcgen [retireFinished, hloop]

/-- An answer wakes the packet that waits for it, in its slot and as old as it was. -/
theorem keepsBuilt_admitAnswer (a : Packet) (now latency : Nat) :
    KeepsBuilt (admitAnswer a now latency) := by
  unfold KeepsBuilt
  mvcgen [admitAnswer, Fault.check]
  all_goals (try dsimp +zetaDelta only at *)
  all_goals first
    | refine ‹Mshr.Built _›.put ?_
      simp [Mshr.bornOf, ‹Mshr.get? _ _ = some _›]
    | -- the packet is put back twice, the second time once its cycle is set
      rw [Mshr.put_put]
      refine ‹Mshr.Built _›.put ?_
      simp [Mshr.bornOf, ‹Mshr.get? _ _ = some _›,
        Packet.born_of_enter ‹Packet.enter _ _ _ _ = _›]

theorem keepsBuilt_admitRequest (p : Packet) (now latency : Nat) :
    KeepsBuilt (admitRequest p now latency) := by
  unfold KeepsBuilt
  mvcgen [admitRequest, Fault.check]
  all_goals (try dsimp +zetaDelta only at *)
  -- the request takes a slot of the request range, if one is free; the rest changes gates and
  -- the prefetcher
  all_goals (try split) <;> exact built_allocate ‹_› _ _

theorem keepsBuilt_receive (p : Packet) (now latency : Nat) :
    KeepsBuilt (receive p now latency) := by
  have hanswer := keepsBuilt_admitAnswer p now latency
  have hrequest := keepsBuilt_admitRequest p now latency
  unfold KeepsBuilt at hanswer hrequest ⊢
  mvcgen [receive, hanswer, hrequest]

end Cache

/-! ## Every MSHR of a hierarchy -/

namespace Hierarchy

/-- Every MSHR of the hierarchy is built. -/
def MshrsBuilt (h : Hierarchy) : Prop :=
  ∀ (j : Nat) (c : Cache), h.caches[j]? = some c → c.mshr.Built

/-- The birth cycle of the packet in `slot` of cache `id`, if there is one. -/
def bornOf (h : Hierarchy) (id slot : Nat) : Option Nat :=
  (h.caches[id]?).bind fun c => c.mshr.bornOf slot

theorem bornOf_of_get? {h : Hierarchy} {id slot : Nat} {c : Cache} {p : Packet}
    (hc : h.caches[id]? = some c) (hp : c.mshr.get? slot = some p) :
    h.bornOf id slot = some p.born := by
  simp [bornOf, Mshr.bornOf, hc, hp]

/-- The calls on the directory leave every packet in its slot, as old as it was. -/
theorem Grows.bornOf {h h' : Hierarchy} (hg : h.Grows h') {id slot b : Nat}
    (hb : h.bornOf id slot = some b) : h'.bornOf id slot = some b := by
  obtain ⟨c, hc, hcb⟩ := Option.bind_eq_some_iff.1 hb
  obtain ⟨q, hq, rfl⟩ := Option.map_eq_some_iff.1 hcb
  obtain ⟨c', hc', -⟩ := exists_of_shapes hg.shapes.symm hc
  obtain ⟨q', hq', hborn⟩ := (hg.mshrs id c c' hc hc').2 slot q hq
  rw [bornOf_of_get? hc' hq', hborn]

namespace MshrsBuilt

variable {h : Hierarchy}

theorem of_grows (hb : h.MshrsBuilt) {h' : Hierarchy} (hg : h.Grows h') : h'.MshrsBuilt := by
  intro j c' hc'
  obtain ⟨c, hc, -⟩ := exists_of_shapes hg.shapes hc'
  exact (hb j c hc).steps (hg.mshrs j c c' hc hc').1

/-- A packet taken from a slot before calls on the directory can be stored back after them. -/
theorem storable (hb : h.MshrsBuilt) {id slot : Nat} {c : Cache} {p : Packet}
    (hc : h.caches[id]? = some c) (hp : c.mshr.get? slot = some p) {h' : Hierarchy}
    (hg : h.Grows h') : h'.MshrsBuilt ∧ h'.bornOf id slot = some p.born :=
  ⟨hb.of_grows hg, hg.bornOf (bornOf_of_get? hc hp)⟩

theorem setCacheAt (hb : h.MshrsBuilt) (id : Nat) {c : Cache} (hc : c.mshr.Built) :
    (h.setCacheAt id c).MshrsBuilt := by
  intro j c' hc'
  by_cases hj : j = id
  · subst hj
    have hlt : j < h.caches.size := by
      by_contra hge
      simp [Hierarchy.setCacheAt, hge] at hc'
    rw [caches_setCacheAt_self hlt] at hc'
    obtain rfl := Option.some.inj hc'
    exact hc
  · rw [caches_setCacheAt_of_ne h hj] at hc'
    exact hb j c' hc'

theorem modifyCache (hb : h.MshrsBuilt) (id : Nat) {f : Cache → Cache}
    (hf : ∀ c, h.caches[id]? = some c → (f c).mshr.Built) : (h.modifyCache id f).MshrsBuilt := by
  intro j c' hc'
  by_cases hj : j = id
  · subst hj
    cases hc : h.caches[j]? with
    | none => simp [Hierarchy.modifyCache, Array.getElem?_modify, hc] at hc'
    | some c =>
      rw [caches_modifyCache_self hc] at hc'
      obtain rfl := Option.some.inj hc'
      exact hf c hc
  · rw [caches_modifyCache_of_ne h hj] at hc'
    exact hb j c' hc'

end MshrsBuilt

end Hierarchy

/-! ## Actions of one cache -/

namespace Action

theorem onCache_built {α : Type} (id : Nat) {s : CacheStep α} (hs : Cache.KeepsBuilt s) :
    ⦃fun h => ⌜h.MshrsBuilt⌝⦄ Action.onCache id s
    ⦃post⟨fun _ h => ⌜h.MshrsBuilt⌝, fun _ h => ⌜h.MshrsBuilt⌝⟩⦄ := by
  have hcache := cache_spec (J := Hierarchy.MshrsBuilt) id
  mvcgen [Action.onCache, Action.putCache, hcache]
  all_goals
    obtain ⟨hb, hc⟩ := ‹Hierarchy.MshrsBuilt _ ∧ _›
    exact hb.setCacheAt id (hs.runOn (hb id _ hc))

theorem putCache_built (id : Nat) (c : Cache) :
    ⦃fun h => ⌜h.MshrsBuilt ∧ c.mshr.Built⌝⦄ Action.putCache id c
    ⦃post⟨fun _ h => ⌜h.MshrsBuilt⌝, fun _ h => ⌜h.MshrsBuilt⌝⟩⦄ := by
  mvcgen [Action.putCache]
  obtain ⟨hb, hc⟩ := ‹Hierarchy.MshrsBuilt _ ∧ _›
  exact hb.setCacheAt id hc

end Action

/-! ## A cycle of the caches -/

namespace Tick

variable {σ : Type}

/-- A call on the directory from the hierarchy it starts from. -/
theorem lift_from {α : Type} {a : Action α} {R : Hierarchy → α → Hierarchy → Prop}
    (ha : ∀ h₀ : Hierarchy, ⦃fun h => ⌜h₀.Grows h⌝⦄ a
      ⦃post⟨fun r h => ⌜R h₀ r h⌝, fun _ h => ⌜h₀.Grows h⌝⟩⦄) (h₀ : Hierarchy) :
    ⦃fun s : Hierarchy × σ => ⌜s.1 = h₀⌝⦄ Tick.lift a
    ⦃post⟨fun r s => ⌜R h₀ r s.1⌝, fun _ s => ⌜h₀.Grows s.1⌝⟩⦄ :=
  lift_spec (P := fun h => h = h₀) (by
    intro h hh
    subst hh
    exact ha h h (Hierarchy.Grows.refl h))

/-- Reading a cache leaves the state as it was. -/
theorem lift_cache_at (id : Nat) (s₀ : Hierarchy × σ) :
    ⦃fun s => ⌜s = s₀⌝⦄ Tick.lift (Action.cache id)
    ⦃post⟨fun c s => ⌜s = s₀ ∧ s₀.1.caches[id]? = some c⌝, fun _ s => ⌜s = s₀⌝⟩⦄ := by
  have hcache := Action.cache_spec (J := fun h => h = s₀.1) id
  mvcgen [Tick.lift]
  -- the read ends with the cache or a fault, as its triple says, and changes nothing
  all_goals
    subst ‹_ = s₀›
    have hrun := run_of_triple_post hcache rfl
    first
      | obtain ⟨hs, hc⟩ := hrun.1 _ ‹_›
        exact ⟨Prod.ext hs rfl, hs ▸ hc⟩
      | exact Prod.ext (hrun.2 _ ‹_›) rfl

/-- Storing back a treated packet into a slot that holds one as old, and rebirth. -/
theorem store_built (id slot now : Nat) (p : Packet) (retry : Bool) :
    ⦃fun s : Hierarchy × σ => ⌜s.1.MshrsBuilt ∧ s.1.bornOf id slot = some p.born⌝⦄
    Tick.store id slot now p retry
    ⦃post⟨fun _ s => ⌜s.1.MshrsBuilt⌝, fun _ s => ⌜s.1.MshrsBuilt⌝⟩⦄ := by
  refine lift_spec (P := fun h => h.MshrsBuilt ∧ h.bornOf id slot = some p.born) ?_
  mvcgen [Action.updateCache]
  obtain ⟨hb, hborn⟩ := ‹_ ∧ _›
  refine hb.modifyCache id fun c hc => ?_
  have hput : (c.mshr.put slot p).Built :=
    (hb id c hc).put (by simpa [Hierarchy.bornOf, hc] using hborn)
  split
  · exact hput.rebirth slot now
  · exact hput

theorem lift_onCache_built {α : Type} (id : Nat) (st : CacheStep α) (hst : Cache.KeepsBuilt st) :
    ⦃fun s : Hierarchy × σ => ⌜s.1.MshrsBuilt⌝⦄ Tick.lift (Action.onCache id st)
    ⦃post⟨fun _ s => ⌜s.1.MshrsBuilt⌝, fun _ s => ⌜s.1.MshrsBuilt⌝⟩⦄ :=
  lift_keeps (Action.onCache_built id hst)

/-- Offering a packet: a cache that admits it changes alone, and passing a throttle changes
the gates only. -/
theorem send_built (sink : Sink σ) (id slot now : Nat) :
    ⦃fun s : Hierarchy × σ => ⌜s.1.MshrsBuilt⌝⦄ Tick.send sink id slot now
    ⦃post⟨fun _ s => ⌜s.1.MshrsBuilt⌝, fun _ s => ⌜s.1.MshrsBuilt⌝⟩⦄ := by
  have hcache := lift_cache (σ := σ) (J := Hierarchy.MshrsBuilt) id
  have honCache := lift_onCache_built (σ := σ) (α := Unit) id
  mvcgen [Tick.send, hcache, honCache]
  all_goals first
    | exact ‹Hierarchy.MshrsBuilt _ ∧ _›.1
    | -- passing a throttle changes the cache's gates only
      unfold Cache.KeepsBuilt
      mvcgen [Fault.check]
    | -- the cache that took the packet is stored back in its slot
      have hb := ‹Hierarchy.MshrsBuilt _ ∧ _›.1
      exact hb.setCacheAt _ ((Cache.keepsBuilt_receive _ _ _).runOn
        (hb _ _ ‹(_ : Hierarchy).caches[_]? = some _›))

/-- A delivered answer is done: it is put back into its slot with its new phase, as old. -/
theorem sendAnswer_built (sink : Sink σ) (id now : Nat) :
    ⦃fun s : Hierarchy × σ => ⌜s.1.MshrsBuilt⌝⦄ Tick.sendAnswer sink id now
    ⦃post⟨fun _ s => ⌜s.1.MshrsBuilt⌝, fun _ s => ⌜s.1.MshrsBuilt⌝⟩⦄ := by
  have heligible := eligible_keeps (σ := σ) (J := Hierarchy.MshrsBuilt) id now
  have hsend := send_built sink id
  have honCache := lift_onCache_built (σ := σ) (α := Unit) id
  mvcgen [Tick.sendAnswer, heligible, hsend, honCache]
  intro _ _
  unfold Cache.KeepsBuilt
  mvcgen [Fault.check]
  refine ‹Mshr.Built _›.put ?_
  simp [Mshr.bornOf, ‹Mshr.get? _ _ = some _›, Packet.born_of_enter ‹_›]

theorem sendRequest_built (sink : Sink σ) (id now : Nat) :
    ⦃fun s : Hierarchy × σ => ⌜s.1.MshrsBuilt⌝⦄ Tick.sendRequest sink id now
    ⦃post⟨fun _ s => ⌜s.1.MshrsBuilt⌝, fun _ s => ⌜s.1.MshrsBuilt⌝⟩⦄ := by
  have heligible := eligible_keeps (σ := σ) (J := Hierarchy.MshrsBuilt) id now
  have hsend := send_built sink id
  have hcache := lift_cache_at (σ := σ) id
  have hsent := fun p h₀ => lift_from (σ := σ) (fun h₀ => Action.sent_grows h₀ id p) h₀
  have hstore := store_built (σ := σ) id
  mvcgen [Tick.sendRequest, Fault.check, heligible, hsend, hcache, hsent, hstore]
  all_goals (try intro (_ : (_ : Hierarchy × σ) = _))
  all_goals (try intro (_ : Hierarchy.Grows _ _))
  all_goals (try casesm* _ ∧ _)
  all_goals (try subst_vars)
  all_goals first
    | exact ‹Hierarchy.MshrsBuilt _›
    | exact ‹Hierarchy.MshrsBuilt _›.of_grows ‹_›
    | -- the request goes back into its slot, which the call on the directory left as old
      rw [Packet.born_of_enter ‹_›]
      exact ‹Hierarchy.MshrsBuilt _›.storable ‹_› ‹_› ‹_›

/-- Treating a packet: the oldest one of its class goes to the directory, and what comes back
is stored into its slot, which the call left as old. Answers and requests are treated alike. -/
theorem treat_built (id now : Nat) (answer : Bool) {a : Packet → Action Packet}
    (ha : ∀ (p : Packet) (h₀ : Hierarchy), ⦃fun h => ⌜h₀.Grows h⌝⦄ a p
      ⦃post⟨fun q h => ⌜h₀.Grows h ∧ q.born = p.born⌝, fun _ h => ⌜h₀.Grows h⌝⟩⦄)
    (retry : Packet → Bool) :
    ⦃fun s : Hierarchy × σ => ⌜s.1.MshrsBuilt⌝⦄
    (do
      if let some slot ← eligible id now .untreated answer then
        if let some p := (← Tick.lift (Action.cache id)).mshr.get? slot then
          let q ← Tick.lift (a p)
          store id slot now q (retry q) : Tick σ Unit)
    ⦃post⟨fun _ s => ⌜s.1.MshrsBuilt⌝, fun _ s => ⌜s.1.MshrsBuilt⌝⟩⦄ := by
  have heligible := eligible_keeps (σ := σ) (J := Hierarchy.MshrsBuilt) id now
  have hcache := lift_cache_at (σ := σ) id
  have htreat := fun p h₀ => lift_from (σ := σ) (ha p) h₀
  have hstore := store_built (σ := σ) id
  mvcgen [heligible, hcache, htreat, hstore]
  all_goals (try intro (_ : (_ : Hierarchy × σ) = _))
  all_goals (try intro (_ : Hierarchy.Grows _ _))
  all_goals (try casesm* _ ∧ _)
  all_goals (try subst_vars)
  all_goals first
    | exact ‹Hierarchy.MshrsBuilt _›
    | exact ‹Hierarchy.MshrsBuilt _›.of_grows ‹_›
    | -- what comes back goes into the slot of the packet treated, as old
      rw [‹(_ : Packet).born = _›]
      exact ‹Hierarchy.MshrsBuilt _›.storable ‹_› ‹_› ‹_›

theorem treatAnswer_built (id now : Nat) :
    ⦃fun s : Hierarchy × σ => ⌜s.1.MshrsBuilt⌝⦄ Tick.treatAnswer (σ := σ) id now
    ⦃post⟨fun _ s => ⌜s.1.MshrsBuilt⌝, fun _ s => ⌜s.1.MshrsBuilt⌝⟩⦄ :=
  treat_built id now true (fun p h₀ => Action.answer_grows h₀ id p now)
    fun q => q.phase == .untreated

theorem treatRequest_built (id now : Nat) :
    ⦃fun s : Hierarchy × σ => ⌜s.1.MshrsBuilt⌝⦄ Tick.treatRequest (σ := σ) id now
    ⦃post⟨fun _ s => ⌜s.1.MshrsBuilt⌝, fun _ s => ⌜s.1.MshrsBuilt⌝⟩⦄ :=
  treat_built id now false (fun p h₀ => Action.request_grows h₀ id p now)
    fun q => q.phase == .untreated && !q.isAnswer

/-- A prefetch takes a free slot of the prefetch range, born now. -/
theorem takePrefetch_built (id now : Nat) :
    ⦃fun s : Hierarchy × σ => ⌜s.1.MshrsBuilt⌝⦄ Tick.takePrefetch (σ := σ) id now
    ⦃post⟨fun _ s => ⌜s.1.MshrsBuilt⌝, fun _ s => ⌜s.1.MshrsBuilt⌝⟩⦄ := by
  have hcache := lift_cache (σ := σ) (J := Hierarchy.MshrsBuilt) id
  have hput := fun c => lift_spec (σ := σ) (Action.putCache_built id c)
  mvcgen [Tick.takePrefetch, hcache, hput]
  all_goals
    obtain ⟨hb, hc⟩ := ‹Hierarchy.MshrsBuilt _ ∧ _›
    first
      | exact hb
      | -- the cache stored back took the prefetch into its MSHR
        exact ⟨hb, Cache.built_of_allocatePrefetch (hb id _ hc) ‹_›⟩

/-- A cycle of one cache keeps every MSHR built. -/
theorem clock_built (sink : Sink σ) (id now : Nat) :
    ⦃fun s : Hierarchy × σ => ⌜s.1.MshrsBuilt⌝⦄ Tick.clock sink id now
    ⦃post⟨fun _ s => ⌜s.1.MshrsBuilt⌝, fun _ s => ⌜s.1.MshrsBuilt⌝⟩⦄ := by
  have hcache := lift_cache (σ := σ) (J := Hierarchy.MshrsBuilt) id
  have hretire := lift_onCache_built (σ := σ) id _ (Cache.keepsBuilt_retireFinished now)
  have hsendAnswer := sendAnswer_built sink id now
  have hsendRequest := sendRequest_built sink id now
  have htreatAnswer := treatAnswer_built (σ := σ) id now
  have htreatRequest := treatRequest_built (σ := σ) id now
  have htakePrefetch := takePrefetch_built (σ := σ) id now
  mvcgen [Tick.clock, hcache, hretire, hsendAnswer, hsendRequest, htreatAnswer, htreatRequest,
    htakePrefetch]
  all_goals exact ‹Hierarchy.MshrsBuilt _ ∧ _›.1

end Tick

/-! ## A cycle of the machine -/

namespace Run

/-- Offering a packet to a cache: the cache admits it alone. -/
theorem offer_built (p : Packet) (now : Nat) :
    ⦃fun m : Machine => ⌜m.hierarchy.MshrsBuilt⌝⦄ Run.offer p now
    ⦃post⟨fun _ m => ⌜m.hierarchy.MshrsBuilt⌝, fun _ m => ⌜m.hierarchy.MshrsBuilt⌝⟩⦄ := by
  mvcgen [Run.offer]
  all_goals
    have hb := ‹Hierarchy.MshrsBuilt (_ : Machine).hierarchy›
    exact hb.setCacheAt _ ((Cache.keepsBuilt_receive _ _ _).runOn
      (hb _ _ ‹(_ : Machine).caches[_]? = some _›))

theorem issue_built (now i : Nat) :
    ⦃fun m : Machine => ⌜m.hierarchy.MshrsBuilt⌝⦄ Run.issue now i
    ⦃post⟨fun _ m => ⌜m.hierarchy.MshrsBuilt⌝, fun _ m => ⌜m.hierarchy.MshrsBuilt⌝⟩⦄ := by
  have hcore := updateCore_keeps (J := Hierarchy.MshrsBuilt) i
  have hoffer := offer_built
  mvcgen [Run.issue, hcore, hoffer]

theorem answer_built (now i : Nat) :
    ⦃fun m : Machine => ⌜m.hierarchy.MshrsBuilt⌝⦄ Run.answer now i
    ⦃post⟨fun _ m => ⌜m.hierarchy.MshrsBuilt⌝, fun _ m => ⌜m.hierarchy.MshrsBuilt⌝⟩⦄ := by
  have hmemory := updateMemory_keeps (J := Hierarchy.MshrsBuilt) i
  have hoffer := offer_built
  mvcgen [Run.answer, Fault.check, hmemory, hoffer]

/-- A step of the drain takes slots of writeback ranges only. -/
theorem drainStep_built (now : Nat) (cur : DrainCursor) :
    ⦃fun m : Machine => ⌜m.hierarchy.MshrsBuilt⌝⦄ Run.drainStep now cur
    ⦃post⟨fun _ m => ⌜m.hierarchy.MshrsBuilt⌝, fun _ m => ⌜m.hierarchy.MshrsBuilt⌝⟩⦄ := by
  mvcgen [Run.drainStep]
  all_goals
    exact ‹Hierarchy.MshrsBuilt _›.of_grows (@run_of_triple _ _ _
      (fun s : Hierarchy × DrainCursor => (_ : Hierarchy).Grows s.1)
      (Drain.step_grows _ now) _ (Hierarchy.Grows.refl _))

/-- A cycle of the machine keeps every MSHR built, whether or not it ends at a fault. -/
theorem cycle_built (now : Nat) :
    ⦃fun m : Machine => ⌜m.hierarchy.MshrsBuilt⌝⦄ Run.cycle now
    ⦃post⟨fun _ m => ⌜m.hierarchy.MshrsBuilt⌝, fun _ m => ⌜m.hierarchy.MshrsBuilt⌝⟩⦄ := by
  have hissue := forM_keeps (issue_built now)
  have hclock := fun latency => forM_keeps fun id =>
    tick_keeps (Tick.clock_built (Outside.sink latency) id now)
  have hanswer := forM_keeps (answer_built now)
  have hdrain := drainStep_built now
  mvcgen [Run.cycle, hissue, hclock, hanswer, hdrain]
  -- starting the drain sets the cursor and leaves the hierarchy alone
  all_goals
    rw [Machine.hierarchy_startDrain]
    assumption

end Run

/-! ## Runs and sessions -/

namespace Machine

/-- A machine as set up has every MSHR empty. -/
theorem mshrsBuilt_new {cfg : Config} {traces : List Trace} {m : Machine}
    (h : Machine.new cfg traces = .ok m) : m.hierarchy.MshrsBuilt := by
  obtain ⟨caches, memories, hbuilt, hm⟩ := hierarchy_of_new h
  rw [hm]
  -- linking caches sets the caches above and below, never the MSHR
  exact Config.buildCaches_all (fun c => c.mshr.Built)
    (fun hb => (Cache.mshr_of_build hb) ▸ Mshr.built_empty _ _ _) (fun _ _ _ hc => hc) hbuilt

/-- Along every session of a machine as set up, the MSHR of every cache holds its occupied slots
in born order. The order lists each occupied slot once and no other, oldest packet first, and
packets born in one cycle in the order they arrived; the arrivals are those of the changes that
built the MSHR from its empty start (`Mshr.arrivals`): a packet that takes a slot arrives last,
one reborn arrives again, one released leaves. And the MSHR counts its occupied slots. -/
theorem mshrs_born_ordered {cfg : Config} {traces : List Trace} {m₀ m : Machine}
    (hnew : Machine.new cfg traces = .ok m₀) (hr : m₀.Reaches m) {j : Nat} {c : Cache}
    (hc : m.hierarchy.caches[j]? = some c) :
    ∃ r w p ops, Mshr.KeepsBorn ops (Mshr.empty r w p) ∧ Mshr.run ops (Mshr.empty r w p) = c.mshr ∧
      c.mshr.BornOrdered (Mshr.arrivals ops (Mshr.empty r w p) []) :=
  (hr.keeps_of_cycle Run.cycle_built (mshrsBuilt_new hnew) j c hc).bornOrdered

/-- Five cycles into two reads through `L1a` over `L2`, the MSHR of `L2` holds both requests,
in slots `0` and `1`, the first read first. -/
theorem mshrs_born_ordered_two_reads :
    ∃ m₀ m c, Machine.new Config.sharedSecondLevel [Trace.twoReads, ⟨[]⟩] = .ok m₀ ∧
      m₀.Reaches m ∧ m.hierarchy.caches[2]? = some c ∧ c.mshr.order = [0, 1] ∧
      ∃ r w p ops, Mshr.KeepsBorn ops (Mshr.empty r w p) ∧
        Mshr.run ops (Mshr.empty r w p) = c.mshr ∧
        c.mshr.BornOrdered (Mshr.arrivals ops (Mshr.empty r w p) []) := by
  obtain ⟨m₀, m, hnew, hr, hq⟩ := exists_reaches_of_sessionPasses
    (by decide +kernel : sessionPasses Config.sharedSecondLevel [Trace.twoReads, ⟨[]⟩]
      [{ mode := .steps 5 }] (fun m => m.hierarchy.caches[2]?.map (·.mshr.order) == some [0, 1]) = true)
  obtain ⟨c, hc, horder⟩ := Option.map_eq_some_iff.1 (beq_iff_eq.1 hq)
  exact ⟨m₀, m, c, hnew, hr, hc, horder, mshrs_born_ordered hnew hr hc⟩

end Machine

end CacheHierarchy
