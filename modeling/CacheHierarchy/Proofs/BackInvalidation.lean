import Mathlib
import CacheHierarchy.Proofs.MshrRuns
import CacheHierarchy.Proofs.WalkTermination
import CacheHierarchy.Proofs.MissCounting

open Std.Do

set_option autoImplicit false
set_option mvcgen.warning false

/-! # Back-invalidation along the sessions of a machine

Under an inclusive policy a cache that must hold every line held above it
(`Hierarchy.isInclusiveAt`) evicts a victim by dropping every copy of its line above it
(`Hierarchy.evictAbove`). That is what inclusion asks of the program: a copy above may still be
gained later without the cache below, when a request is served from a copy above
(`Machine.served_line_missing_below`).

Every call keeps the shapes of the caches, their links above included, and the setup of the
directory: its line size, inclusion policy and writeback flags. So along every session of a
machine these stay as the configuration gave them (`Machine.shapes_of_reaches`,
`Machine.setup_of_reaches`). Making room keeps the shapes too, so the eviction's walk runs over
the links of the machine as set up; when they form no cycle, its fuel passes the height of
every cache, and every cache above the evicting one, at any distance, is left without a valid
copy (`Machine.eviction_clears_caches_above`).

The walk that looks for a dirty copy to write back stops at the first valid copy it meets.
When that copy is clean, the victim is not written back, and the eviction still drops every
copy above, a dirty one included: whatever the writeback flags, a dirty line can leave the
hierarchy with no writeback (`Machine.clean_walk_loses_dirty_copies`).
-/

namespace CacheHierarchy

/-! ## The setup of the directory stays -/

namespace DirectoryCall

/-- Every call keeps the shapes of the caches and the setup of the directory. -/
theorem grows_apply (c : DirectoryCall) (s : Hierarchy × DrainCursor) :
    s.1.Grows (c.apply s).1 := by
  obtain ⟨h, cur⟩ := s
  -- a call ends with a result or at a fault, and keeps the growth either way
  have of_post : ∀ {α : Type} {a : Action α} {Q : α → Hierarchy → Prop},
      ⦃fun h' => ⌜h.Grows h'⌝⦄ a ⦃post⟨fun r h' => ⌜Q r h'⌝, fun _ h' => ⌜h.Grows h'⌝⟩⦄ →
      (∀ r h', Q r h' → h.Grows h') → h.Grows (Id.run (a.run.run h)).2 := by
    intro α a Q ha hQ
    obtain ⟨hok, herr⟩ := run_of_triple_post ha (Hierarchy.Grows.refl h)
    cases hr : (Id.run (a.run.run h)).1 with
    | ok r => exact hQ r _ (hok r hr)
    | error e => exact herr e hr
  cases c with
  | request id p now => exact of_post (Action.request_grows h id p now) fun _ _ hq => hq.1
  | answer id p now => exact of_post (Action.answer_grows h id p now) fun _ _ hq => hq.1
  | sent id p => exact of_post (Action.sent_grows h id p) fun _ _ hq => hq
  | evictAll now =>
    exact @run_of_triple _ _ _ (fun s : Hierarchy × DrainCursor => h.Grows s.1)
      (Drain.step_grows h now) _ (Hierarchy.Grows.refl h)

end DirectoryCall

/-- The chains held, and fixed shapes of the caches and setup of the directory, are an
invariant the cycles keep. -/
theorem Hierarchy.durable_shapes (s : List Cache.Shape × Nat × Inclusion × Bool × Bool) :
    Hierarchy.Durable fun h => h.Pinned ∧ h.shapes = s where
  call c s hx := ⟨c.pinned_apply s hx.1, (c.grows_apply s).shapes.trans hx.2⟩
  restatus hr hx := ⟨Hierarchy.durable_pinned.restatus hr hx.1, hr.shapes.trans hx.2⟩
  slotIds hx := hx.1.slotIds

theorem Hierarchy.above_of_shapes {h h' : Hierarchy} (hs : h'.shapes = h.shapes) :
    h'.above = h.above := by
  funext y
  have hy := congrArg (fun s => (s.1[y]?).map Cache.Shape.higher) hs
  simp only [shapes, List.getElem?_map, Array.getElem?_toList, Option.map_map] at hy
  simp only [above]
  exact congrArg (Option.getD · []) hy

theorem Hierarchy.acyclic_of_above_eq {h h' : Hierarchy} (hl : h'.above = h.above)
    (hac : h.Acyclic) : h'.Acyclic := by
  unfold Acyclic
  rw [hl]
  exact hac

namespace Machine

variable {cfg : Config} {traces : List Trace} {m₀ m : Machine}

/-- Along every session of a machine as set up, every cache keeps its shape, its links above
included, and the directory its setup. -/
theorem shapes_of_reaches (hnew : Machine.new cfg traces = .ok m₀) (hr : m₀.Reaches m) :
    m.hierarchy.shapes = m₀.hierarchy.shapes :=
  (hr.keeps (Hierarchy.durable_shapes _) ⟨pinned_new hnew, rfl⟩).2

/-- Along every session of a machine as set up, the directory has the line size, the inclusion
policy and the writeback flags of the configuration. -/
theorem setup_of_reaches (hnew : Machine.new cfg traces = .ok m₀) (hr : m₀.Reaches m) :
    m.hierarchy.directory.setup = (cfg.lineSize, cfg.directory.inclusion,
      cfg.directory.llcWriteback, cfg.directory.nonLlcWriteback) := by
  obtain ⟨caches, memories, -, hm⟩ := hierarchy_of_new hnew
  rw [Hierarchy.setup_of_shapes (shapes_of_reaches hnew hr), hm]
  rfl

end Machine

/-! ## Every cache above -/

namespace Hierarchy

/-- Cache `y` sits above cache `x`: one link up from `x` or more leads to it. -/
def IsAbove (h : Hierarchy) (x y : Nat) : Prop := Relation.TransGen (fun a b => b ∈ h.above a) x y

theorem isAbove_of_above_eq {h h' : Hierarchy} (hl : h'.above = h.above) :
    h'.IsAbove = h.IsAbove := by
  unfold IsAbove
  rw [hl]

theorem Cleared.modifyCache {h : Hierarchy} {y : Nat} {addr : UInt64} (hy : h.Cleared y addr)
    (x : Nat) {f : Cache → Cache} (hf : ∀ c, (f c).statusOf addr = c.statusOf addr) :
    (h.modifyCache x f).Cleared y addr := by
  intro cy hcy
  simp only [Hierarchy.modifyCache, Array.getElem?_modify] at hcy
  split at hcy
  · obtain ⟨c, hc, rfl⟩ := Option.map_eq_some_iff.1 hcy
    rw [hf]
    exact hy c hc
  · exact hy cy hcy

/-- The eviction above a cache, with a fuel past its height, clears every cache above it at any
distance. -/
theorem cleared_evictAbove_of_isAbove (addr : UInt64) :
    ∀ (fuel : Nat) (h : Hierarchy) (id y : Nat),
      h.HeightAtMost id fuel → h.IsAbove id y → (h.evictAbove fuel id addr).Cleared y addr
  | 0, h, id, y, hh, hy => by
    -- nothing is above a cache of height zero
    obtain ⟨x, hx, -⟩ := Relation.TransGen.head'_iff.1 hy
    simp [hh.above_eq_nil] at hx
  | fuel + 1, h, id, y, hh, hy => by
    obtain ⟨x, hx, hxy⟩ := Relation.TransGen.head'_iff.1 hy
    obtain ⟨pre, post, hsplit⟩ := List.append_of_mem hx
    simp only [above] at hsplit
    rw [evictAbove, hsplit, List.foldl_append, List.foldl_cons]
    -- the turns before the one of `x` keep the links
    let dropFrom (h : Hierarchy) (x : Nat) : Hierarchy :=
      (h.evictAbove fuel x addr).modifyCache x (·.evictCopy addr)
    show (post.foldl dropFrom (dropFrom (pre.foldl dropFrom h) x)).Cleared y addr
    have hpre : (pre.foldl dropFrom h).above = h.above :=
      List.foldlRecOn (motive := fun h' => h'.above = h.above) _ _ rfl fun h' hh' x _ =>
        (sameLinks_modifyCache _ x fun c => higher_evictCopy c addr).trans
          ((above_evictAbove h' fuel x addr).trans hh')
    generalize pre.foldl dropFrom h = h₁ at hpre ⊢
    -- the turn of `x` clears `y`: it is `x` itself, or above `x` with one link less
    have hturn : (dropFrom h₁ x).Cleared y addr := by
      refine cleared_modifyCache_evictCopy _ x y addr ?_
      rcases Relation.reflTransGen_iff_eq_or_transGen.1 hxy with rfl | hxy
      · exact .inl rfl
      · refine .inr (cleared_evictAbove_of_isAbove addr fuel _ x y ?_ ?_)
        · exact (hh.of_mem_above hx).of_above_eq hpre
        · rw [isAbove_of_above_eq hpre]
          exact hxy
    -- the turns after it drop copies only
    exact List.foldlRecOn (motive := fun h => h.Cleared y addr) _ _ hturn fun h' hy' x' _ =>
      cleared_modifyCache_evictCopy _ x' y addr (.inr (cleared_evictAbove fuel h' x' y addr hy'))

/-- With no cycle of links, the fuel of the walks passes the height of every cache. -/
theorem heightAtMost_depth {h : Hierarchy} (hac : h.Acyclic) (y : Nat) :
    h.HeightAtMost y h.depth := fun k hk =>
  (climbs_le_size hac hk).trans (by unfold depth; omega)

/-- The eviction run on any hierarchy with the links of an acyclic one clears every cache above,
at any distance. -/
theorem cleared_evictAbove_depth {h X : Hierarchy} (hac : h.Acyclic) (hl : X.above = h.above)
    (id : Nat) (addr : UInt64) (y : Nat) (hy : h.IsAbove id y) :
    (X.evictAbove X.depth id addr).Cleared y addr := by
  refine cleared_evictAbove_of_isAbove addr X.depth X id y
    (heightAtMost_depth (acyclic_of_above_eq hl hac) id) ?_
  rw [isAbove_of_above_eq hl]
  exact hy

/-- Links that each go to a cache of smaller id. -/
def linksDescend (h : Hierarchy) : Bool :=
  (List.range h.caches.size).all fun y => (h.above y).all (· < y)

/-- Links that each go to a cache of smaller id form no cycle. -/
theorem acyclic_of_linksDescend {h : Hierarchy} (hd : h.linksDescend = true) : h.Acyclic := by
  refine acyclic_of_rank (fun y => h.caches.size - y) fun y hy x hx => ?_
  simp only [linksDescend, List.all_eq_true, List.mem_range, decide_eq_true_eq] at hd
  have := hd y hy x hx
  omega

end Hierarchy

/-! ## The random stream of a cache

Choosing a victim may draw from the cache's random stream, and changes nothing else: no shape,
no workload, no line, and nothing the directory reads of the cache. -/

namespace Cache

@[simp] theorem shape_random (c : Cache) (r : Random.Stream) :
    { c with random := r }.shape = c.shape := by rfl

@[simp] theorem workload_random (c : Cache) (r : Random.Stream) :
    { c with random := r }.workload = c.workload := by rfl

@[simp] theorem line_random (c : Cache) (r : Random.Stream) :
    { c with random := r }.line = c.line := rfl

theorem eq_of_victim {c : Cache} {addr : UInt64} {locked : UInt64 → Bool}
    {v : Option (Nat × Nat) × Cache} (h : c.victim addr locked = .ok v) :
    ∃ r, v.2 = { c with random := r } :=
  victim_cache c v.2 addr locked v.1 h

end Cache

namespace Hierarchy

@[simp] theorem needWriteback_setCacheAt_random (h : Hierarchy) (id : Nat) (c : Cache)
    (r : Random.Stream) :
    (h.setCacheAt id { c with random := r }).needWriteback { c with random := r } =
      h.needWriteback c := rfl

@[simp] theorem isInclusiveAt_setCacheAt_random (h : Hierarchy) (id : Nat) (c : Cache)
    (r : Random.Stream) :
    (h.setCacheAt id { c with random := r }).isInclusiveAt { c with random := r } =
      h.isInclusiveAt c := rfl

@[simp] theorem depth_setCacheAt (h : Hierarchy) (id : Nat) (c : Cache) :
    (h.setCacheAt id c).depth = h.depth := by
  simp [depth, setCacheAt]

theorem setCacheAt_eq_modifyCache {h : Hierarchy} {id : Nat} {c : Cache}
    (hc : h.caches[id]? = some c) (f : Cache → Cache) :
    h.setCacheAt id (f c) = h.modifyCache id f := by
  have hcaches : h.caches.setIfInBounds id (f c) = h.caches.modify id f := by
    refine Array.ext_getElem? fun j => ?_
    rw [Array.getElem?_setIfInBounds, Array.getElem?_modify]
    by_cases hj : id = j
    · subst hj
      obtain ⟨hlt, hget⟩ := Array.getElem?_eq_some_iff.1 hc
      simp [hlt, hget]
    · simp [hj]
  simp only [setCacheAt, modifyCache, hcaches]

theorem shapes_setCacheAt_of {h : Hierarchy} {id : Nat} {c c' : Cache}
    (hc : h.caches[id]? = some c) (hs : c'.shape = c.shape) :
    (h.setCacheAt id c').shapes = h.shapes :=
  shapes_setCacheAt h id c' fun c₀ hc₀ => by rw [hs, Option.some.inj (hc₀.symm.trans hc)]

end Hierarchy

/-! ## Making room -/

namespace Action

/-- Reading a cache that is there. -/
theorem cache_eq {id : Nat} {h₀ : Hierarchy} {c₀ : Cache} (hc₀ : h₀.caches[id]? = some c₀) :
    ⦃fun h => ⌜h = h₀⌝⦄ Action.cache id
    ⦃post⟨fun c h => ⌜h = h₀ ∧ c = c₀⌝, fun _ _ => ⌜False⌝⟩⦄ := by
  mvcgen [Action.cache]
  all_goals simp_all

/-- Writing a way back changes no shape. -/
theorem writeBack_shapes (id index way now : Nat)
    (S : List Cache.Shape × Nat × Inclusion × Bool × Bool) :
    ⦃fun h => ⌜h.shapes = S⌝⦄ Action.writeBack id index way now
    ⦃post⟨fun _ h => ⌜h.shapes = S⌝, fun _ h => ⌜h.shapes = S⌝⟩⦄ := by
  unfold Action.writeBack
  mvcgen [Action.cache, Action.directory, Action.ofExcept, Action.putCache,
    Action.updateDirectory, Action.fail]
  -- the cache is stored back with its MSHR and counters changed, and the directory gains an entry
  all_goals
    dsimp +zetaDelta only at *
    rw [← ‹Hierarchy.shapes _ = S›]
    try rw [Hierarchy.shapes_modifyDirectory _ _ (by simp)]
    exact Hierarchy.shapes_setCacheAt_of ‹_›
      (by simp [(Cache.allocate_frame _ _ _ _ _ ‹Cache.allocate _ _ _ = _›).1])

/-- An inclusive cache that frees a way drops every copy above it of the victim's line, last
of all but for its usage count, from a hierarchy with the shapes it started with. -/
theorem makeRoom_evicts_above (id : Nat) (addr : UInt64) (now : Nat) (h₀ : Hierarchy)
    (c₀ : Cache) (hc₀ : h₀.caches[id]? = some c₀) (hincl : h₀.isInclusiveAt c₀ = true) :
    ⦃fun h => ⌜h = h₀⌝⦄ Action.makeRoom id addr now
    ⦃post⟨fun r h => ⌜∀ iw, r = some iw → ∃ X : Hierarchy, X.shapes = h₀.shapes ∧
      h = (X.evictAbove X.depth id (c₀.line iw.1 iw.2).tag).modifyCache id
        (·.countUsage fun u => { u with eviction := u.eviction + 1 })⌝, fun _ _ => ⌜True⌝⟩⦄ := by
  have hwb := fun index way S => writeBack_shapes id index way now S
  have hcache := cache_eq hc₀
  unfold Action.makeRoom
  mvcgen [hcache, Action.directory, Action.ofExcept, Action.putCache, Action.updateCache,
    Action.fail, Action.writebackOwner, Action.evictAbove, -Action.writeBack_exclusive,
    -Action.writeBack_evicted, -Action.writeBack_grows, hwb]
  -- the victim's cache differs from `c₀` in its random stream only; a run that frees no way
  -- promises nothing
  all_goals
    dsimp +zetaDelta only at *
    obtain ⟨hs, hc⟩ := ‹_ = h₀ ∧ _ = c₀›
    subst_vars
    obtain ⟨r, hr⟩ := Cache.eq_of_victim ‹Cache.victim _ _ _ = _›
    simp only [hr] at *
    rintro iw ⟨⟩
  -- the branches of a cache that is not inclusive do not arise
  all_goals simp only [Hierarchy.isInclusiveAt_setCacheAt_random, hincl, not_true_eq_false] at *
  -- the others evict above what the writeback and the walk left, which kept every shape
  all_goals
    refine ⟨_, ?_, rfl⟩
    simp [Hierarchy.shapes_setCacheAt_of hc₀ (Cache.shape_random _ _), *]

theorem run_get (h : Hierarchy) : (get : Action Hierarchy).run.run h = (.ok h, h) := rfl

theorem run_modifyGet {α : Type} (h : Hierarchy) (f : Hierarchy → α × Hierarchy) :
    (modifyGet f : Action α).run.run h = (.ok (f h).1, (f h).2) := rfl

/-- An inclusive cache whose victim is clean, and whose walk above meets a clean copy first,
frees the way with no writeback: no transaction opens, no MSHR changes, and every copy above is
dropped from a hierarchy with the shapes, directory and workloads it started with. -/
theorem run_makeRoom_of_clean_walk {h : Hierarchy} {id : Nat} {c c' : Cache} {addr : UInt64}
    {index way : Nat} (hc : h.caches[id]? = some c)
    (hv : c.victim addr h.directory.isLocked = .ok (some (index, way), c'))
    (hneed : h.needWriteback c (c.line index way).status = false)
    (hincl : h.isInclusiveAt c = true)
    (hwalk : ((h.setCacheAt id c').writebackOwner h.depth id (c.line index way).tag).1 = .s)
    (now : Nat) :
    ∃ X : Hierarchy, X.shapes = h.shapes ∧ X.directory = h.directory ∧
      X.workloads = h.workloads ∧
      (Action.makeRoom id addr now).run.run h = (.ok (some (index, way)),
        (X.evictAbove X.depth id (c.line index way).tag).modifyCache id
          (·.countUsage fun u => { u with eviction := u.eviction + 1 })) := by
  obtain ⟨r, rfl⟩ := Cache.victim_cache c c' addr h.directory.isLocked _ hv
  -- the walk that reports a clean copy takes no ownership
  have hsame := Hierarchy.writebackOwner_eq_of_ne_o _ _ _ _ (by rw [hwalk]; decide)
  have hstays : h.needWriteback c .s = false := rfl
  unfold Action.makeRoom
  simp only [run_bind, run_cache hc, run_directory, hv, run_ofExcept_ok, run_putCache, run_get,
    Cache.line_random, Hierarchy.needWriteback_setCacheAt_random, hneed,
    Hierarchy.isInclusiveAt_setCacheAt_random, hincl, Bool.false_eq_true, if_false, if_true,
    Hierarchy.depth_setCacheAt, run_modifyGet, writebackOwner, hwalk, hsame, run_updateCache,
    hstays]
  rw [Hierarchy.setCacheAt_eq_modifyCache hc fun c => { c with random := r }]
  -- a valid victim also counts an eviction
  split
  all_goals
    simp only [run_bind, run_updateCache, evictAbove, run_modify, run_pure]
    exact ⟨_, by simp, by simp, by simp, rfl⟩

end Action

/-! ## Sessions -/

theorem Except.eq_ok_of_toOption {ε α : Type} {e : Except ε α} {a : α}
    (h : e.toOption = some a) : e = .ok a := by
  cases e <;> simp_all [Except.toOption]

/-- Two first-level caches, for the data and the instructions of one core, each linked to both
banks of a second-level cache, over an inclusive last-level cache of one set of two ways. -/
def Config.bankedSecondLevel : Config :=
  { lineSize := 64, heartbeat := 0, periodicCheck := 0,
    directory := { inclusion := .inclusiveLlc },
    caches := [
      { label := "L1_0", lineNumber := 4, associativity := 2, mshrRequest := 2,
        lowerLevel := ["L2_0", "L2_1"] },
      { label := "L1_1", lineNumber := 4, associativity := 2, mshrRequest := 2,
        lowerLevel := ["L2_0", "L2_1"] },
      { label := "L2_0", level := 2, lineNumber := 4, associativity := 2, mshrRequest := 2,
        lowerLevel := ["LLC"], bankNumber := 0, totalBanks := 2, layout := .tagIndexBankOffset },
      { label := "L2_1", level := 2, lineNumber := 4, associativity := 2, mshrRequest := 2,
        lowerLevel := ["LLC"], bankNumber := 1, totalBanks := 2, layout := .tagIndexBankOffset },
      { label := "LLC", level := 3, lineNumber := 2, associativity := 2, mshrRequest := 2 }],
    memory := { latency := 5, bufferSize := 4 },
    cores := [{ label := "core0", dataCache := "L1_0", instCache := "L1_1", maxOutstanding := 1 }] }

/-- A write and an instruction fetch of line `0x40`, then reads of three other lines. -/
def Trace.writeFetchReads : Trace :=
  ⟨[⟨.write, 0x40, 8, 0⟩, ⟨.inst, 0x40, 8, 0⟩, ⟨.read, 0x80, 8, 0⟩, ⟨.read, 0xc0, 8, 0⟩,
    ⟨.read, 0x100, 8, 0⟩]⟩

namespace Machine

variable {cfg : Config} {traces : List Trace} {m₀ m : Machine}

/-- Under an inclusive policy, a cache the policy applies to is inclusive along every session. -/
theorem isInclusiveAt_of_reaches (hnew : Machine.new cfg traces = .ok m₀) (hr : m₀.Reaches m)
    {c : Cache} (hincl : cfg.directory.inclusion = .inclusiveAll ∨
      cfg.directory.inclusion = .inclusiveLlc ∧ c.isLastLevel = true) :
    m.hierarchy.isInclusiveAt c = true := by
  have hpolicy : m.hierarchy.directory.inclusion = cfg.directory.inclusion :=
    congrArg (fun s => s.2.1) (setup_of_reaches hnew hr)
  unfold Hierarchy.isInclusiveAt
  rcases hincl with hall | ⟨hllc, hlast⟩
  · rw [hpolicy, hall]
  · rw [hpolicy, hllc, hlast]

/-- An eviction run over a hierarchy with the shapes the session keeps, on a machine whose
caches link with no cycle, clears every cache above the evicting one, and counting it after
keeps that. -/
theorem cleared_after_eviction (hnew : Machine.new cfg traces = .ok m₀) (hr : m₀.Reaches m)
    (hac : m₀.hierarchy.Acyclic) {X : Hierarchy} (hX : X.shapes = m.hierarchy.shapes)
    (id : Nat) (tag : UInt64) (y : Nat) (hy : m.hierarchy.IsAbove id y) :
    ((X.evictAbove X.depth id tag).modifyCache id
      (·.countUsage fun u => { u with eviction := u.eviction + 1 })).Cleared y tag := by
  -- the eviction ran over the links of the machine as set up, which form no cycle
  have habove := Hierarchy.above_of_shapes (shapes_of_reaches hnew hr)
  have hXl : X.above = m₀.hierarchy.above := (Hierarchy.above_of_shapes hX).trans habove
  rw [Hierarchy.isAbove_of_above_eq habove] at hy
  exact (Hierarchy.cleared_evictAbove_depth hac hXl id tag y hy).modifyCache id
    fun c => Cache.statusOf_countUsage c _ _

/-- Under an inclusive policy, along every session of a machine whose caches link with no cycle,
a cache the policy makes inclusive that frees a way leaves no valid copy of the victim's line in
any cache above it, at any distance. -/
theorem eviction_clears_caches_above (hnew : Machine.new cfg traces = .ok m₀)
    (hr : m₀.Reaches m) (hac : m₀.hierarchy.Acyclic) {id : Nat} {c : Cache}
    (hc : m.hierarchy.caches[id]? = some c)
    (hincl : cfg.directory.inclusion = .inclusiveAll ∨
      cfg.directory.inclusion = .inclusiveLlc ∧ c.isLastLevel = true)
    {addr : UInt64} {now index way : Nat} {h' : Hierarchy}
    (hrun : (Action.makeRoom id addr now).run.run m.hierarchy = (.ok (some (index, way)), h')) :
    ∀ y, m.hierarchy.IsAbove id y → h'.Cleared y (c.line index way).tag := by
  intro y hy
  obtain ⟨hok, -⟩ := run_of_triple_post (Action.makeRoom_evicts_above id addr now m.hierarchy c hc
    (isInclusiveAt_of_reaches hnew hr hincl)) rfl
  obtain ⟨X, hX, hh'⟩ := hok _ (congrArg Prod.fst hrun) (index, way) rfl
  simp only [hrun, Id.run] at hh'
  subst hh'
  exact cleared_after_eviction hnew hr hac hX id _ y hy

/-- On the banked machine after 56 cycles, the first-level data cache holds line `0x40` shared,
two links above the last-level cache. The last-level cache, making room for line `0xc0`,
evicts its way of line `0x40`, and leaves that copy invalid. -/
theorem eviction_clears_first_level_banked :
    ∃ m₀ m : Machine, Machine.new Config.bankedSecondLevel [Trace.writeFetchReads] = .ok m₀ ∧
      m₀.Reaches m ∧ (m.hierarchy.caches[0]?).map (·.statusOf 0x40) = some .s ∧
      ∃ h', (Action.makeRoom 4 0xc0 m.cycle).run.run m.hierarchy = (.ok (some (0, 1)), h') ∧
        h'.Cleared 0 0x40 := by
  obtain ⟨m₀, m, hnew, hr, hq⟩ := exists_reaches_of_sessionPasses (by decide +kernel :
    sessionPasses Config.bankedSecondLevel [Trace.writeFetchReads] [{ mode := .steps 56 }]
      (fun m => m.hierarchy.linksDescend && 2 ∈ m.hierarchy.above 4 &&
        0 ∈ m.hierarchy.above 2 && (m.hierarchy.caches[0]?).map (·.statusOf 0x40) == some .s &&
        (m.hierarchy.caches[4]?).any fun c => (c.line 0 1).tag == 0x40 && c.isLastLevel &&
          ((Action.makeRoom 4 0xc0 m.cycle).run.run m.hierarchy).1 == .ok (some (0, 1))) = true)
  simp only [Bool.and_eq_true, beq_iff_eq, decide_eq_true_eq, Option.any_eq_true] at hq
  obtain ⟨⟨⟨⟨hd, h2⟩, h0⟩, hs⟩, c, hc, ⟨htag, hlast⟩, hok⟩ := hq
  have hrun : (Action.makeRoom 4 0xc0 m.cycle).run.run m.hierarchy =
      (.ok (some (0, 1)), ((Action.makeRoom 4 0xc0 m.cycle).run.run m.hierarchy).2) :=
    Prod.ext hok rfl
  have hac := Hierarchy.acyclic_of_above_eq
    (Hierarchy.above_of_shapes (shapes_of_reaches hnew hr)).symm
    (Hierarchy.acyclic_of_linksDescend hd)
  -- cache 0 is two links above the last-level cache, through the first bank
  have hcl := eviction_clears_caches_above hnew hr hac hc (.inr ⟨rfl, hlast⟩) hrun 0
    (.tail (.single h2) h0)
  rw [htag] at hcl
  exact ⟨m₀, m, hnew, hr, hs, _, hrun, hcl⟩

/-- Under an inclusive policy, whatever the writeback flags, along every session of a machine
whose caches link with no cycle: a cache the policy makes inclusive that evicts a clean victim,
and whose walk above meets a clean copy before any dirty one, frees the way without a writeback.
No transaction opens, no MSHR changes, and no cache above keeps a valid copy of the line, so a
dirty copy above that the walk did not reach is lost. -/
theorem clean_walk_loses_dirty_copies (hnew : Machine.new cfg traces = .ok m₀)
    (hr : m₀.Reaches m) (hac : m₀.hierarchy.Acyclic) {id : Nat} {c : Cache}
    (hc : m.hierarchy.caches[id]? = some c)
    (hincl : cfg.directory.inclusion = .inclusiveAll ∨
      cfg.directory.inclusion = .inclusiveLlc ∧ c.isLastLevel = true)
    {addr : UInt64} {index way : Nat} {c' : Cache}
    (hv : c.victim addr m.hierarchy.directory.isLocked = .ok (some (index, way), c'))
    (hclean : (c.line index way).status.isDirty = false)
    (hwalk : ((m.hierarchy.setCacheAt id c').writebackOwner m.hierarchy.depth id
      (c.line index way).tag).1 = .s) (now : Nat) :
    ∃ h', (Action.makeRoom id addr now).run.run m.hierarchy = (.ok (some (index, way)), h') ∧
      h'.directory.entries = m.hierarchy.directory.entries ∧
      h'.workloads = m.hierarchy.workloads ∧
      ∀ y, m.hierarchy.IsAbove id y → h'.Cleared y (c.line index way).tag := by
  have hneed : m.hierarchy.needWriteback c (c.line index way).status = false := by
    simp [Hierarchy.needWriteback, hclean]
  obtain ⟨X, hXs, hXd, hXw, hrun⟩ := Action.run_makeRoom_of_clean_walk hc hv hneed
    (isInclusiveAt_of_reaches hnew hr hincl) hwalk now
  exact ⟨_, hrun, by simp [hXd], by simp [hXw], cleared_after_eviction hnew hr hac hXs id _⟩

/-- On the banked machine after 56 cycles, the second bank holds line `0x40` owned while the
first-level data cache holds it shared. The last-level cache, making room for line `0xc0`,
evicts its way of line `0x40`; the walk above meets the shared copy first, so the eviction
queues no writeback, and the owned copy is left invalid. -/
theorem clean_walk_loses_owned_copy_banked :
    ∃ m₀ m : Machine, Machine.new Config.bankedSecondLevel [Trace.writeFetchReads] = .ok m₀ ∧
      m₀.Reaches m ∧ (m.hierarchy.caches[3]?).map (·.statusOf 0x40) = some .o ∧
      ∃ h', (Action.makeRoom 4 0xc0 m.cycle).run.run m.hierarchy = (.ok (some (0, 1)), h') ∧
        h'.directory.entries = m.hierarchy.directory.entries ∧
        h'.workloads = m.hierarchy.workloads ∧ h'.Cleared 3 0x40 := by
  obtain ⟨m₀, m, hnew, hr, hq⟩ := exists_reaches_of_sessionPasses (by decide +kernel :
    sessionPasses Config.bankedSecondLevel [Trace.writeFetchReads] [{ mode := .steps 56 }]
      (fun m => m.hierarchy.linksDescend && 3 ∈ m.hierarchy.above 4 &&
        (m.hierarchy.caches[3]?).map (·.statusOf 0x40) == some .o &&
        (m.hierarchy.caches[4]?).any fun c => (c.line 0 1).tag == 0x40 && c.isLastLevel &&
          (c.victim 0xc0 m.hierarchy.directory.isLocked).toOption.any fun v =>
            v.1 == some (0, 1) && !(c.line 0 1).status.isDirty &&
            ((m.hierarchy.setCacheAt 4 v.2).writebackOwner m.hierarchy.depth 4 0x40).1 == .s) =
        true)
  simp only [Bool.and_eq_true, beq_iff_eq, decide_eq_true_eq, Option.any_eq_true,
    Bool.not_eq_true'] at hq
  obtain ⟨⟨⟨hd, h3⟩, ho⟩, c, hc, ⟨htag, hlast⟩, ⟨iw, c'⟩, hv, ⟨hiw, hclean⟩, hwalk⟩ := hq
  subst hiw
  have hac := Hierarchy.acyclic_of_above_eq
    (Hierarchy.above_of_shapes (shapes_of_reaches hnew hr)).symm
    (Hierarchy.acyclic_of_linksDescend hd)
  rw [← htag] at hwalk
  obtain ⟨h', hrun, hent, hwork, hcl⟩ := clean_walk_loses_dirty_copies hnew hr hac hc
    (.inr ⟨rfl, hlast⟩) (Except.eq_ok_of_toOption hv) hclean hwalk m.cycle
  rw [htag] at hcl
  exact ⟨m₀, m, hnew, hr, ho, h', hrun, hent, hwork, hcl 3 (.single h3)⟩

end Machine

end CacheHierarchy
