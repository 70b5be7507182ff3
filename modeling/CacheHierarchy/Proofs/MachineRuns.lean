import Mathlib
import CacheHierarchy.Proofs.LineAlignment
import CacheHierarchy.Proofs.LockExclusivity
import CacheHierarchy.Machine.Run

open Std.Do

set_option autoImplicit false
set_option mvcgen.warning false

/-! # What the cycles of a machine keep of its hierarchy

A machine changes its hierarchy in two ways only. The directory acts through its four calls
(`DirectoryCall`): a cache hands it a request or an answer, tells it of a request sent, or the
drain takes a step. Everything else a cycle does is a cache changing alone: admitting a packet,
retiring finished ones, passing a throttle, taking in a prefetch. Such a change touches the
cache's MSHR, throttles, prefetcher and counters, never its id, ways, address map or tag array
(`Cache.array`).

So an invariant of hierarchies that every call keeps, that only the shapes, the tags and the
directory decide, and that puts every cache in the slot of its id (`Hierarchy.Durable`) holds
along every run of a machine: after each cycle, whether or not it ends at a fault
(`Run.cycle_keeps`), after every run of a command, and so in every machine a session reaches
(`Machine.Reaches.keeps`). The slot of its id matters because a cache that admits a packet is
stored back by its id. The runs of commands keep any invariant that every cycle keeps
(`Machine.Reaches.keeps_of_cycle`).
-/

namespace CacheHierarchy

/-- A loop of steps that each keep an invariant keeps it. -/
theorem forM_keeps {ε σ α : Type} {I : σ → Prop} {f : α → ExceptT ε (StateM σ) PUnit}
    (hf : ∀ x, ⦃fun s => ⌜I s⌝⦄ f x ⦃post⟨fun _ s => ⌜I s⌝, fun _ s => ⌜I s⌝⟩⦄) :
    ∀ xs : List α, ⦃fun s => ⌜I s⌝⦄ xs.forM f ⦃post⟨fun _ s => ⌜I s⌝, fun _ s => ⌜I s⌝⟩⦄
  | [] => by mvcgen
  | x :: xs => by
    have hx := hf x
    have hrest := forM_keeps hf xs
    rw [List.forM]
    mvcgen [hx, hrest]

/-! ## What a cache changes alone -/

namespace Cache

/-- The id, the ways, the address map, the links above and the tag array of a cache. -/
def array (c : Cache) : Nat × Nat × AddressMap × List Nat × TagArray :=
  (c.id, c.ways, c.fields, c.higher, c.lines)

theorem shape_eq_of_array {c c' : Cache} (h : c'.array = c.array) : c'.shape = c.shape := by
  simp only [array, Prod.mk.injEq] at h
  obtain ⟨hid, hways, hfields, hhigher, hlines⟩ := h
  simp only [shape, hid, hways, hfields, hhigher, hlines]

theorem tags_eq_of_array {c c' : Cache} (h : c'.array = c.array) : c'.tags = c.tags := by
  simp only [array, Prod.mk.injEq] at h
  simp only [tags, h.2.2.2.2]

theorem id_eq_of_array {c c' : Cache} (h : c'.array = c.array) : c'.id = c.id :=
  (Prod.mk.inj h).1

/-! Taking a slot of the MSHR changes the MSHR, or counts a full range. -/

@[simp] theorem id_allocate (c : Cache) (r : MshrRange) (p : Packet) :
    (c.allocate r p).2.id = c.id := by
  unfold allocate
  split <;> rfl

@[simp] theorem ways_allocate (c : Cache) (r : MshrRange) (p : Packet) :
    (c.allocate r p).2.ways = c.ways := by
  unfold allocate
  split <;> rfl

@[simp] theorem fields_allocate (c : Cache) (r : MshrRange) (p : Packet) :
    (c.allocate r p).2.fields = c.fields := by
  unfold allocate
  split <;> rfl

@[simp] theorem lines_allocate (c : Cache) (r : MshrRange) (p : Packet) :
    (c.allocate r p).2.lines = c.lines := by
  unfold allocate
  split <;> rfl

@[simp] theorem higher_allocate (c : Cache) (r : MshrRange) (p : Packet) :
    (c.allocate r p).2.higher = c.higher := by
  unfold allocate
  split <;> rfl

@[simp] theorem array_allocate (c : Cache) (r : MshrRange) (p : Packet) :
    (c.allocate r p).2.array = c.array := by
  simp [array]

@[simp] theorem array_allocatePrefetch (c : Cache) (p : Packet) (now : Nat) :
    (c.allocatePrefetch p now).2.array = c.array := by
  dsimp only [allocatePrefetch]
  split <;> rename_i h
  all_goals
    have harray := congrArg (fun r => r.2.array) h
    simp only [array_allocate] at harray
    exact harray.symm

theorem array_of_allocatePrefetch {c c' : Cache} {p : Packet} {now : Nat} {slot : Option Nat}
    (h : c.allocatePrefetch p now = (slot, c')) : c'.array = c.array := by
  rw [← array_allocatePrefetch c p now, h]

/-- A step of a cache alone keeps its array. -/
def KeepsArray {α : Type} (s : CacheStep α) : Prop :=
  ∀ a, ⦃fun c => ⌜c.array = a⌝⦄ s ⦃post⟨fun _ c => ⌜c.array = a⌝, fun _ c => ⌜c.array = a⌝⟩⦄

theorem KeepsArray.runOn {α : Type} {s : CacheStep α} (hs : KeepsArray s) (c : Cache) :
    (s.runOn c).2.array = c.array :=
  @run_of_triple _ _ _ (fun c' : Cache => c'.array = c.array) (hs c.array) c rfl

theorem keepsArray_retire (now slot : Nat) : KeepsArray (retire now slot) := by
  intro a
  mvcgen [retire, Fault.check]

theorem keepsArray_retireFinished (now : Nat) : KeepsArray (retireFinished now) := by
  intro a
  have hloop := forM_keeps fun slot => keepsArray_retire now slot a
  mvcgen [retireFinished, hloop]

theorem keepsArray_admitAnswer (p : Packet) (now latency : Nat) :
    KeepsArray (admitAnswer p now latency) := by
  intro a
  mvcgen [admitAnswer, Fault.check]

theorem keepsArray_admitRequest (p : Packet) (now latency : Nat) :
    KeepsArray (admitRequest p now latency) := by
  intro a
  mvcgen [admitRequest, Fault.check]
  all_goals simp_all +zetaDelta [array, apply_ite]

theorem keepsArray_receive (p : Packet) (now latency : Nat) :
    KeepsArray (receive p now latency) := by
  intro a
  have hanswer := keepsArray_admitAnswer p now latency a
  have hrequest := keepsArray_admitRequest p now latency a
  mvcgen [receive, hanswer, hrequest]

end Cache

/-- A triple whose pre- and postconditions are one invariant, from what each run keeps. -/
theorem triple_of_run {σ α : Type} {x : ExceptT Fault (StateM σ) α} {I : σ → Prop}
    (hx : ∀ s, I s → I (Id.run (x.run.run s)).2) :
    ⦃fun s => ⌜I s⌝⦄ x ⦃post⟨fun _ s => ⌜I s⌝, fun _ s => ⌜I s⌝⟩⦄ := by
  intro s hs
  have hkeep := hx s hs
  simp only [wp, PredTrans.apply_pushExcept, PredTrans.apply_pushArg, PredTrans.apply_Pure_pure,
    Id.run] at hkeep ⊢
  generalize x.run.run s = out at hkeep ⊢
  obtain ⟨r, s'⟩ := out
  cases r <;> exact hkeep

/-- What a triple promises of a run, by outcome. -/
theorem run_of_triple_post {σ α ε : Type} {x : ExceptT ε (StateM σ) α} {P : σ → Prop}
    {Q : α → σ → Prop} {E : ε → σ → Prop}
    (hx : ⦃fun s => ⌜P s⌝⦄ x ⦃post⟨fun r s => ⌜Q r s⌝, fun e s => ⌜E e s⌝⟩⦄) {s : σ} (hs : P s) :
    (∀ r, (Id.run (x.run.run s)).1 = .ok r → Q r (Id.run (x.run.run s)).2) ∧
      (∀ e, (Id.run (x.run.run s)).1 = .error e → E e (Id.run (x.run.run s)).2) := by
  have hw := hx s hs
  simp only [wp, PredTrans.apply_pushExcept, PredTrans.apply_pushArg, PredTrans.apply_Pure_pure,
    Id.run] at hw ⊢
  generalize x.run.run s = out at hw ⊢
  obtain ⟨r, s'⟩ := out
  refine ⟨fun r₀ hr => ?_, fun e₀ he => ?_⟩
  · cases hr
    exact hw
  · cases he
    exact hw

/-! ## Storing back a cache that changed alone -/

namespace Hierarchy

theorem restatus_setCacheAt_of_array {h : Hierarchy} {i : Nat} {c c' : Cache}
    (hc : h.caches[i]? = some c) (ha : c'.array = c.array) : Restatus h (h.setCacheAt i c') := by
  have hslot : ∀ c₀, h.caches[i]? = some c₀ → c₀ = c := fun c₀ hc₀ =>
    Option.some.inj (hc₀.symm.trans hc)
  refine ⟨shapes_setCacheAt _ _ _ fun c₀ hc₀ => ?_, tags_setCacheAt _ _ _ fun c₀ hc₀ => ?_, rfl⟩
  · rw [hslot c₀ hc₀]
    exact Cache.shape_eq_of_array ha
  · rw [hslot c₀ hc₀]
    exact Cache.tags_eq_of_array ha

/-- A cache stored back by its id goes to its own slot when every cache sits in the slot of
its id. -/
theorem restatus_setCache_of_array {h : Hierarchy} (hslot : h.SlotIds) {i : Nat} {c c' : Cache}
    (hc : h.caches[i]? = some c) (ha : c'.array = c.array) : Restatus h (h.setCache c') := by
  have hid : c'.id = i := (Cache.id_eq_of_array ha).trans (hslot i c hc)
  rw [setCache, hid]
  exact restatus_setCacheAt_of_array hc ha

theorem restatus_modifyCache_of_array (h : Hierarchy) (id : Nat) {f : Cache → Cache}
    (hf : ∀ c, (f c).array = c.array) : Restatus h (h.modifyCache id f) :=
  restatus_modifyCache h id f (fun c => Cache.shape_eq_of_array (hf c))
    (fun c => Cache.tags_eq_of_array (hf c))

/-- An invariant of hierarchies that the cycles of a machine keep: every call on the directory
keeps it, only the shapes, the tags and the directory decide it, and every cache sits in the
slot of its id. -/
structure Durable (J : Hierarchy → Prop) : Prop where
  call : ∀ (c : DirectoryCall) (s : Hierarchy × DrainCursor), J s.1 → J (c.apply s).1
  restatus : ∀ {h h' : Hierarchy}, Restatus h h' → J h → J h'
  slotIds : ∀ {h : Hierarchy}, J h → h.SlotIds

end Hierarchy

section Lift

variable {J : Hierarchy → Prop}

/-! ## Actions of one cache, and the calls -/

namespace Action

theorem cache_spec (id : Nat) :
    ⦃fun h => ⌜J h⌝⦄ Action.cache id
    ⦃post⟨fun c h => ⌜J h ∧ h.caches[id]? = some c⌝, fun _ h => ⌜J h⌝⟩⦄ := by
  mvcgen [Action.cache, Action.fail]

variable (hJ : Hierarchy.Durable J)
include hJ

theorem onCache_keeps {α : Type} (id : Nat) {s : CacheStep α} (hs : Cache.KeepsArray s) :
    ⦃fun h => ⌜J h⌝⦄ Action.onCache id s ⦃post⟨fun _ h => ⌜J h⌝, fun _ h => ⌜J h⌝⟩⦄ := by
  have hcache := cache_spec (J := J) id
  mvcgen [Action.onCache, Action.putCache, hcache]
  all_goals
    obtain ⟨hh, hc⟩ := ‹J _ ∧ _›
    exact hJ.restatus (Hierarchy.restatus_setCacheAt_of_array hc (hs.runOn _)) hh

theorem updateCache_keeps (id : Nat) {f : Cache → Cache} (hf : ∀ c, (f c).array = c.array) :
    ⦃fun h => ⌜J h⌝⦄ Action.updateCache id f ⦃post⟨fun _ h => ⌜J h⌝, fun _ h => ⌜J h⌝⟩⦄ := by
  mvcgen [Action.updateCache]
  exact hJ.restatus (Hierarchy.restatus_modifyCache_of_array _ id hf) ‹_›

theorem putCache_keeps (id : Nat) (c' : Cache) :
    ⦃fun h => ⌜J h ∧ ∃ c, h.caches[id]? = some c ∧ c'.array = c.array⌝⦄ Action.putCache id c'
    ⦃post⟨fun _ h => ⌜J h⌝, fun _ h => ⌜J h⌝⟩⦄ := by
  mvcgen [Action.putCache]
  obtain ⟨hh, c, hc, ha⟩ := ‹_ ∧ _›
  exact hJ.restatus (Hierarchy.restatus_setCacheAt_of_array hc ha) hh

theorem request_keeps (id : Nat) (p : Packet) (now : Nat) :
    ⦃fun h => ⌜J h⌝⦄ Action.request id p now ⦃post⟨fun _ h => ⌜J h⌝, fun _ h => ⌜J h⌝⟩⦄ :=
  triple_of_run fun h hh => hJ.call (.request id p now) (h, default) hh

theorem answer_keeps (id : Nat) (p : Packet) (now : Nat) :
    ⦃fun h => ⌜J h⌝⦄ Action.answer id p now ⦃post⟨fun _ h => ⌜J h⌝, fun _ h => ⌜J h⌝⟩⦄ :=
  triple_of_run fun h hh => hJ.call (.answer id p now) (h, default) hh

theorem sent_keeps (id : Nat) (p : Packet) :
    ⦃fun h => ⌜J h⌝⦄ Action.sent id p ⦃post⟨fun _ h => ⌜J h⌝, fun _ h => ⌜J h⌝⟩⦄ :=
  triple_of_run fun h hh => hJ.call (.sent id p) (h, default) hh

end Action

/-! ## A cycle of the caches -/

namespace Tick

variable {σ : Type}

/-- A triple of an action holds of it run on the hierarchy of a cycle's state. -/
theorem lift_spec {α : Type} {a : Action α} {P : Hierarchy → Prop} {Q : α → Hierarchy → Prop}
    {E : Fault → Hierarchy → Prop}
    (ha : ⦃fun h => ⌜P h⌝⦄ a ⦃post⟨fun r h => ⌜Q r h⌝, fun e h => ⌜E e h⌝⟩⦄) :
    ⦃fun s : Hierarchy × σ => ⌜P s.1⌝⦄ Tick.lift a
    ⦃post⟨fun r s => ⌜Q r s.1⌝, fun e s => ⌜E e s.1⌝⟩⦄ := by
  mvcgen [Tick.lift]
  -- the action's run ends with a result or a fault, as its triple says
  all_goals
    have hrun := run_of_triple_post ha ‹_›
    first
      | exact hrun.1 _ ‹_›
      | exact hrun.2 _ ‹_›

theorem lift_keeps {α : Type} {a : Action α}
    (ha : ⦃fun h => ⌜J h⌝⦄ a ⦃post⟨fun _ h => ⌜J h⌝, fun _ h => ⌜J h⌝⟩⦄) :
    ⦃fun s : Hierarchy × σ => ⌜J s.1⌝⦄ Tick.lift a
    ⦃post⟨fun _ s => ⌜J s.1⌝, fun _ s => ⌜J s.1⌝⟩⦄ :=
  lift_spec ha

/-- Reading a cache gives the cache in its slot. -/
theorem lift_cache (id : Nat) :
    ⦃fun s : Hierarchy × σ => ⌜J s.1⌝⦄ Tick.lift (Action.cache id)
    ⦃post⟨fun c s => ⌜J s.1 ∧ s.1.caches[id]? = some c⌝, fun _ s => ⌜J s.1⌝⟩⦄ :=
  lift_spec (Action.cache_spec id)

theorem eligible_keeps (id now : Nat) (phase : Phase) (answer : Bool) :
    ⦃fun s : Hierarchy × σ => ⌜J s.1⌝⦄ Tick.eligible id now phase answer
    ⦃post⟨fun _ s => ⌜J s.1⌝, fun _ s => ⌜J s.1⌝⟩⦄ := by
  have hcache := lift_cache (σ := σ) (J := J) id
  mvcgen [Tick.eligible, hcache]
  exact ‹J _ ∧ _›.1

variable (hJ : Hierarchy.Durable J)
include hJ

theorem lift_onCache {α : Type} (id : Nat) (st : CacheStep α) (hst : Cache.KeepsArray st) :
    ⦃fun s : Hierarchy × σ => ⌜J s.1⌝⦄ Tick.lift (Action.onCache id st)
    ⦃post⟨fun _ s => ⌜J s.1⌝, fun _ s => ⌜J s.1⌝⟩⦄ :=
  lift_keeps (Action.onCache_keeps hJ id hst)

/-- Offering a packet: a cache that admits it changes alone and is stored back in its slot;
any other component leaves the hierarchy alone. -/
theorem send_keeps (sink : Sink σ) (id slot now : Nat) :
    ⦃fun s : Hierarchy × σ => ⌜J s.1⌝⦄ Tick.send sink id slot now
    ⦃post⟨fun _ s => ⌜J s.1⌝, fun _ s => ⌜J s.1⌝⟩⦄ := by
  have hcache := lift_cache (σ := σ) (J := J) id
  have honCache := lift_onCache (σ := σ) (α := Unit) hJ id
  mvcgen [Tick.send, hcache, honCache]
  all_goals first
    | exact ‹J _ ∧ _›.1
    | -- passing a throttle changes the cache's gates only
      intro a
      mvcgen [Fault.check]
    | -- the cache that took the packet is stored back in its slot
      have hh := ‹J _ ∧ _›.1
      exact hJ.restatus (Hierarchy.restatus_setCache_of_array (hJ.slotIds hh)
        ‹(_ : Hierarchy).caches[_]? = some _› ((Cache.keepsArray_receive _ _ _).runOn _)) hh

theorem store_keeps (id slot now : Nat) (p : Packet) (retry : Bool) :
    ⦃fun s : Hierarchy × σ => ⌜J s.1⌝⦄ Tick.store id slot now p retry
    ⦃post⟨fun _ s => ⌜J s.1⌝, fun _ s => ⌜J s.1⌝⟩⦄ :=
  lift_keeps (Action.updateCache_keeps hJ id fun _ => rfl)

theorem sendAnswer_keeps (sink : Sink σ) (id now : Nat) :
    ⦃fun s : Hierarchy × σ => ⌜J s.1⌝⦄ Tick.sendAnswer sink id now
    ⦃post⟨fun _ s => ⌜J s.1⌝, fun _ s => ⌜J s.1⌝⟩⦄ := by
  have heligible := eligible_keeps (σ := σ) (J := J) id now
  have hsend := send_keeps hJ sink id
  have honCache := lift_onCache (σ := σ) (α := Unit) hJ id
  mvcgen [Tick.sendAnswer, heligible, hsend, honCache]
  -- the answer delivered is done: its slot changes, in the MSHR only
  intro _ _ a
  mvcgen [Fault.check]

theorem sendRequest_keeps (sink : Sink σ) (id now : Nat) :
    ⦃fun s : Hierarchy × σ => ⌜J s.1⌝⦄ Tick.sendRequest sink id now
    ⦃post⟨fun _ s => ⌜J s.1⌝, fun _ s => ⌜J s.1⌝⟩⦄ := by
  have heligible := eligible_keeps (σ := σ) (J := J) id now
  have hsend := send_keeps hJ sink id
  have hcache := lift_cache (σ := σ) (J := J) id
  have hsent := fun p => lift_keeps (σ := σ) (Action.sent_keeps hJ id p)
  have hstore := store_keeps (σ := σ) hJ id
  mvcgen [Tick.sendRequest, Fault.check, heligible, hsend, hcache, hsent, hstore]
  all_goals exact ‹J _ ∧ _›.1

theorem treatAnswer_keeps (id now : Nat) :
    ⦃fun s : Hierarchy × σ => ⌜J s.1⌝⦄ Tick.treatAnswer (σ := σ) id now
    ⦃post⟨fun _ s => ⌜J s.1⌝, fun _ s => ⌜J s.1⌝⟩⦄ := by
  have heligible := eligible_keeps (σ := σ) (J := J) id now
  have hcache := lift_cache (σ := σ) (J := J) id
  have hanswer := fun p => lift_keeps (σ := σ) (Action.answer_keeps hJ id p now)
  have hstore := store_keeps (σ := σ) hJ id
  mvcgen [Tick.treatAnswer, heligible, hcache, hanswer, hstore]
  all_goals exact ‹J _ ∧ _›.1

theorem treatRequest_keeps (id now : Nat) :
    ⦃fun s : Hierarchy × σ => ⌜J s.1⌝⦄ Tick.treatRequest (σ := σ) id now
    ⦃post⟨fun _ s => ⌜J s.1⌝, fun _ s => ⌜J s.1⌝⟩⦄ := by
  have heligible := eligible_keeps (σ := σ) (J := J) id now
  have hcache := lift_cache (σ := σ) (J := J) id
  have hrequest := fun p => lift_keeps (σ := σ) (Action.request_keeps hJ id p now)
  have hstore := store_keeps (σ := σ) hJ id
  mvcgen [Tick.treatRequest, heligible, hcache, hrequest, hstore]
  all_goals exact ‹J _ ∧ _›.1

theorem takePrefetch_keeps (id now : Nat) :
    ⦃fun s : Hierarchy × σ => ⌜J s.1⌝⦄ Tick.takePrefetch (σ := σ) id now
    ⦃post⟨fun _ s => ⌜J s.1⌝, fun _ s => ⌜J s.1⌝⟩⦄ := by
  have hcache := lift_cache (σ := σ) (J := J) id
  have hput := fun c => lift_spec (σ := σ) (Action.putCache_keeps hJ id c)
  mvcgen [Tick.takePrefetch, hcache, hput]
  all_goals
    obtain ⟨hh, hc⟩ := ‹J _ ∧ _›
    first
      | exact hh
      | -- the cache stored back took the prefetch into its MSHR
        have halloc := Cache.array_of_allocatePrefetch ‹(_ : Cache).allocatePrefetch _ _ = _›
        exact ⟨hh, _, hc, halloc⟩

/-- A cycle of one cache keeps a durable invariant: the calls it makes on the directory keep
it, and the rest changes the cache alone. -/
theorem clock_keeps (sink : Sink σ) (id now : Nat) :
    ⦃fun s : Hierarchy × σ => ⌜J s.1⌝⦄ Tick.clock sink id now
    ⦃post⟨fun _ s => ⌜J s.1⌝, fun _ s => ⌜J s.1⌝⟩⦄ := by
  have hcache := lift_cache (σ := σ) (J := J) id
  have hretire := lift_onCache (σ := σ) hJ id _ (Cache.keepsArray_retireFinished now)
  have hsendAnswer := sendAnswer_keeps hJ sink id now
  have hsendRequest := sendRequest_keeps hJ sink id now
  have htreatAnswer := treatAnswer_keeps (σ := σ) hJ id now
  have htreatRequest := treatRequest_keeps (σ := σ) hJ id now
  have htakePrefetch := takePrefetch_keeps (σ := σ) hJ id now
  mvcgen [Tick.clock, hcache, hretire, hsendAnswer, hsendRequest, htreatAnswer, htreatRequest,
    htakePrefetch]
  all_goals exact ‹J _ ∧ _›.1

end Tick

/-! ## A cycle of the machine -/

@[simp] theorem Machine.hierarchy_startDrain (m : Machine) : m.startDrain.hierarchy = m.hierarchy := by
  unfold Machine.startDrain
  split <;> rfl

namespace Run

theorem tick_keeps {α : Type} {t : Tick Outside α}
    (ht : ⦃fun s => ⌜J s.1⌝⦄ t ⦃post⟨fun _ s => ⌜J s.1⌝, fun _ s => ⌜J s.1⌝⟩⦄) :
    ⦃fun m : Machine => ⌜J m.hierarchy⌝⦄ Run.tick t
    ⦃post⟨fun _ m => ⌜J m.hierarchy⌝, fun _ m => ⌜J m.hierarchy⌝⟩⦄ := by
  mvcgen [Run.tick]
  all_goals exact run_of_triple ht ‹_›

theorem updateCore_keeps (i : Nat) (f : Core → Core) :
    ⦃fun m : Machine => ⌜J m.hierarchy⌝⦄ Run.updateCore i f
    ⦃post⟨fun _ m => ⌜J m.hierarchy⌝, fun _ m => ⌜J m.hierarchy⌝⟩⦄ := by
  mvcgen [Run.updateCore]

theorem updateMemory_keeps (i : Nat) (f : Memory → Memory) :
    ⦃fun m : Machine => ⌜J m.hierarchy⌝⦄ Run.updateMemory i f
    ⦃post⟨fun _ m => ⌜J m.hierarchy⌝, fun _ m => ⌜J m.hierarchy⌝⟩⦄ := by
  mvcgen [Run.updateMemory]

variable (hJ : Hierarchy.Durable J)
include hJ

/-- Offering a packet to a cache: the cache admits it alone and is stored back in its slot. -/
theorem offer_keeps (p : Packet) (now : Nat) :
    ⦃fun m : Machine => ⌜J m.hierarchy⌝⦄ Run.offer p now
    ⦃post⟨fun _ m => ⌜J m.hierarchy⌝, fun _ m => ⌜J m.hierarchy⌝⟩⦄ := by
  mvcgen [Run.offer]
  all_goals
    have hh := ‹J (_ : Machine).hierarchy›
    exact hJ.restatus (Hierarchy.restatus_setCache_of_array (hJ.slotIds hh)
      ‹(_ : Machine).caches[_]? = some _› ((Cache.keepsArray_receive _ _ _).runOn _)) hh

theorem issue_keeps (now i : Nat) :
    ⦃fun m : Machine => ⌜J m.hierarchy⌝⦄ Run.issue now i
    ⦃post⟨fun _ m => ⌜J m.hierarchy⌝, fun _ m => ⌜J m.hierarchy⌝⟩⦄ := by
  have hcore := updateCore_keeps (J := J) i
  have hoffer := offer_keeps hJ
  mvcgen [Run.issue, hcore, hoffer]

theorem answer_keeps (now i : Nat) :
    ⦃fun m : Machine => ⌜J m.hierarchy⌝⦄ Run.answer now i
    ⦃post⟨fun _ m => ⌜J m.hierarchy⌝, fun _ m => ⌜J m.hierarchy⌝⟩⦄ := by
  have hmemory := updateMemory_keeps (J := J) i
  have hoffer := offer_keeps hJ
  mvcgen [Run.answer, Fault.check, hmemory, hoffer]

/-- A step of the drain is a call on the directory. -/
theorem drainStep_keeps (now : Nat) (cur : DrainCursor) :
    ⦃fun m : Machine => ⌜J m.hierarchy⌝⦄ Run.drainStep now cur
    ⦃post⟨fun _ m => ⌜J m.hierarchy⌝, fun _ m => ⌜J m.hierarchy⌝⟩⦄ := by
  mvcgen [Run.drainStep]
  all_goals exact hJ.call (.evictAll now) (_, cur) ‹_›

/-- A cycle of the machine keeps a durable invariant of its hierarchy, whether or not it ends
at a fault. -/
theorem cycle_keeps (now : Nat) :
    ⦃fun m : Machine => ⌜J m.hierarchy⌝⦄ Run.cycle now
    ⦃post⟨fun _ m => ⌜J m.hierarchy⌝, fun _ m => ⌜J m.hierarchy⌝⟩⦄ := by
  have hissue := forM_keeps (issue_keeps hJ now)
  have hclock := fun latency => forM_keeps fun id =>
    tick_keeps (Tick.clock_keeps hJ (Outside.sink latency) id now)
  have hanswer := forM_keeps (answer_keeps hJ now)
  have hdrain := drainStep_keeps hJ now
  mvcgen [Run.cycle, hissue, hclock, hanswer, hdrain]
  -- starting the drain sets the cursor and leaves the hierarchy alone
  all_goals
    rw [Machine.hierarchy_startDrain]
    assumption

end Run

/-! ## Runs and sessions -/

namespace Machine

/-- The machines a session reaches from `m`: each command runs from where the last one
stopped. -/
inductive Reaches (m : Machine) : Machine → Prop
  | refl : Reaches m m
  | advance {m' m'' : Machine} {cmd : Command} {flow : Flow} :
      Reaches m m' → m'.advance cmd = .ok (flow, m'') → Reaches m m''

/-- The machine after the commands of a session, each run from where the last one stopped;
an overflow ends the session. -/
def session (m : Machine) : List Command → Except Overflow Machine
  | [] => .ok m
  | cmd :: cmds =>
    match m.advance cmd with
    | .ok (_, m') => m'.session cmds
    | .error o => .error o

theorem Reaches.trans {m m' m'' : Machine} (h : m.Reaches m') (h' : m'.Reaches m'') :
    m.Reaches m'' := by
  induction h' with
  | refl => exact h
  | advance _ hadv ih => exact .advance ih hadv

/-- A session that ends without overflow reaches the machine it ends with. -/
theorem Reaches.of_session {m m' : Machine} :
    ∀ {cmds : List Command}, m.session cmds = .ok m' → m.Reaches m'
  | [], h => by
    cases h
    exact .refl
  | cmd :: cmds, h => by
    simp only [session] at h
    split at h
    · rename_i flow m₁ hadv
      exact Reaches.trans (.advance .refl hadv) (Reaches.of_session h)
    · cases h

/-- Whether the machine set up from `cfg` and `traces` passes the test `q` at the end of the
session `cmds`. -/
def sessionPasses (cfg : Config) (traces : List Trace) (cmds : List Command)
    (q : Machine → Bool) : Bool :=
  match Machine.new cfg traces with
  | .ok m₀ =>
    match m₀.session cmds with
    | .ok m => q m
    | .error _ => false
  | .error _ => false

/-- A passed session check gives a machine that is set up and a machine its session reaches,
where the test holds. -/
theorem exists_reaches_of_sessionPasses {cfg : Config} {traces : List Trace}
    {cmds : List Command} {q : Machine → Bool} (h : sessionPasses cfg traces cmds q = true) :
    ∃ m₀ m, Machine.new cfg traces = .ok m₀ ∧ m₀.Reaches m ∧ q m = true := by
  unfold sessionPasses at h
  split at h
  · rename_i m₀ hnew
    split at h
    · rename_i m hs
      exact ⟨m₀, m, hnew, .of_session hs, h⟩
    · cases h
  · cases h

section Cycles

variable (hcycle : ∀ now, ⦃fun m : Machine => ⌜J m.hierarchy⌝⦄ Run.cycle now
  ⦃post⟨fun _ m => ⌜J m.hierarchy⌝, fun _ m => ⌜J m.hierarchy⌝⟩⦄)
include hcycle

/-- A run of cycles keeps an invariant of the hierarchy that every cycle keeps: recording a
protocol error or moving the clock leaves the hierarchy alone. -/
theorem runFrom_keeps_of_cycle (cmd : Command) (begin : Nat) :
    ∀ (fuel done : Nat) (m : Machine) {flow : Flow} {m' : Machine}, J m.hierarchy →
      runFrom cmd begin fuel done m = .ok (flow, m') → J m'.hierarchy
  | 0, done, m, flow, m', hm, h => by
    simp only [runFrom, Except.ok.injEq, Prod.mk.injEq] at h
    rw [← h.2]
    exact hm
  | fuel + 1, done, m, flow, m', hm, h => by
    have hrun := @run_of_triple _ _ _ (fun m' : Machine => J m'.hierarchy) (hcycle m.cycle) m hm
    simp only [runFrom] at h
    -- the checks before the cycle stop the run on `m` itself
    split at h
    · cases h
      exact hm
    split at h
    · cases h
      exact hm
    split at h
    · cases h
      exact hm
    split at h
    · rename_i m'' hcycle'
      rw [hcycle'] at hrun
      exact runFrom_keeps_of_cycle cmd begin fuel (done + 1) { m'' with cycle := m''.cycle + 1 }
        hrun h
    · rename_i e m'' hcycle'
      cases h
      rw [hcycle'] at hrun
      exact hrun
    · cases h

theorem advance_keeps_of_cycle {m m' : Machine} {cmd : Command} {flow : Flow}
    (hm : J m.hierarchy) (h : m.advance cmd = .ok (flow, m')) : J m'.hierarchy := by
  unfold advance at h
  split at h
  · cases h
    exact hm
  · refine runFrom_keeps_of_cycle hcycle cmd _ _ 0 _ ?_ h
    split
    · rw [hierarchy_startDrain]
      exact hm
    · exact hm

/-- An invariant of the hierarchy that every cycle keeps holds in every machine a session
reaches. -/
theorem Reaches.keeps_of_cycle {m m' : Machine} (hr : m.Reaches m') (hm : J m.hierarchy) :
    J m'.hierarchy := by
  induction hr with
  | refl => exact hm
  | advance _ hadv ih => exact advance_keeps_of_cycle hcycle ih hadv

end Cycles

variable (hJ : Hierarchy.Durable J)
include hJ

/-- A durable invariant of the hierarchy of a machine holds in every machine a session
reaches from it. -/
theorem Reaches.keeps {m m' : Machine} (hr : m.Reaches m') (hm : J m.hierarchy) :
    J m'.hierarchy :=
  hr.keeps_of_cycle (Run.cycle_keeps hJ) hm

end Machine

end Lift

end CacheHierarchy
