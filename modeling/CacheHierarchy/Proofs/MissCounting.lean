import Mathlib
import CacheHierarchy.Proofs.AnswerChain
import CacheHierarchy.Proofs.BornOrder

set_option autoImplicit false

/-! # A miss is counted before a way is found for it

A request that misses at a cache counts the miss, in the cache and in the directory, before the
cache looks for a way to hold the line (`Action.miss`). When no way can be freed, because every
way of the set holds a line that a transaction in flight has locked, the request goes back to
the MSHR untreated, and the clock of the cache gives it to the directory again on a later
cycle. The miss is counted already, and the next try counts it once more.

`Hierarchy.MissesWithoutRoom` names the states in which a request takes that path: it is
admitted at the cache, joins no transaction, misses, and finds every way of its set locked. It
reads only the directory's entries, the request's transaction and line, and the cache's ways
(`MissesWithoutRoom.congr`), so a try, which changes counters, the random stream and the
request's slot, leaves it in place. The clock's request step then counts one miss per try and
puts the request back where it was (`Tick.run_treatRequest_without_room`); along the sessions of
a machine as set up, every cache fits the directory, which the search for a victim needs
(`Machine.retried_miss_counted_each_time`).
-/

namespace CacheHierarchy

namespace Cache

/-- Searching by age over locked ways, none of them on the line asked for, keeps the choice
the search started with. -/
theorem lruWay_of_locked (c : Cache) (addr : UInt64) (locked : UInt64 → Bool) :
    ∀ (ways : List (Nat × Line)) (best : Nat) (choice : Option Nat),
      (∀ wl ∈ ways, locked wl.2.tag = true ∧ c.fields.sameLine wl.2.tag addr = false) →
      c.lruWay addr locked ways best choice = .ok choice := by
  intro ways
  induction ways with
  | nil => intro best choice _; rfl
  | cons wl rest ih =>
    intro best choice hall
    obtain ⟨w, l⟩ := wl
    obtain ⟨hlock, hoff⟩ := hall (w, l) List.mem_cons_self
    simp only [lruWay, hlock, hoff, ↓reduceIte, Bool.false_eq_true]
    exact ih best choice fun x hx => hall x (List.mem_cons_of_mem _ hx)

/-- The set of `addr` is full of locked lines, and none of them is the line of `addr`. -/
def Crowded (c : Cache) (locked : UInt64 → Bool) (addr : UInt64) : Prop :=
  c.findLine addr = none ∧
    ∀ w, w < (c.lines.getD (c.fields.indexOf addr) #[]).size →
      locked (c.line (c.fields.indexOf addr) w).tag = true

/-- A cache whose set is crowded finds no victim under any policy it supports; a random
choice still moves its stream. -/
theorem victim_of_crowded {c : Cache} {locked : UInt64 → Bool} {addr mask : UInt64}
    (hc : c.Crowded locked addr) (hfit : c.shape.Fits mask)
    (hrep : c.replacement ≠ .fifo ∧ c.replacement ≠ .lrf) :
    ∃ r, c.victim addr locked = .ok (none, { c with random := r }) := by
  obtain ⟨hno, hall⟩ := hc
  -- every way of the set is locked and holds another line
  have hways : ∀ wl ∈ c.waysOf (c.fields.indexOf addr),
      locked wl.2.tag = true ∧ c.fields.sameLine wl.2.tag addr = false := by
    rintro ⟨w, l⟩ hmem
    obtain ⟨hw, rfl⟩ := mem_waysOf c _ w l hmem
    exact ⟨hall w hw, sameLine_of_findLine_eq_none c addr hno w hw⟩
  have hlru := c.lruWay_of_locked addr locked _ wordMax none hways
  -- the policy is split off the cache, which the goal keeps whole
  have hpolicy : (c.replacement = .lru ∨ c.replacement = .deadOrLru) ∨
      c.replacement = .invalidOrLru ∨ c.replacement = .random := by
    obtain ⟨hfifo, hlrf⟩ := hrep
    cases hr : c.replacement <;> simp_all
  rcases hpolicy with hr | hr | hr
  · have hv : c.victim addr locked = .ok (none, c) := by
      rcases hr with hr | hr <;> simp [victim, hr, hlru, bind, Except.bind, pure, Except.pure]
    exact ⟨c.random, hv⟩
  · have hfind : (c.waysOf (c.fields.indexOf addr)).find?
        (fun wl => wl.2.status == .i && !locked wl.2.tag) = none :=
      List.find?_eq_none.2 fun wl hwl => by simp [(hways wl hwl).1]
    have hv : c.victim addr locked = .ok (none, c) := by
      simp [victim, hr, hfind, hlru, bind, Except.bind, pure, Except.pure]
    exact ⟨c.random, hv⟩
  · -- the way drawn is a way of the set, which has as many ways as the cache
    have hset := hfit.sets addr
    simp only [shape_fields, shape_ways] at hset
    have hw : (c.random.below c.ways).1 <
        (c.lines.getD (c.fields.indexOf addr) #[]).size := by
      rw [size_getD_lines, hset]
      exact Random.Stream.below_lt _ _ hfit.ways_pos
    have hlocked := hall _ hw
    refine ⟨(c.random.below c.ways).2, ?_⟩
    simp only [line] at hlocked
    simp [victim, hr, line, hlocked, pure, Except.pure]

instance (c : Cache) (locked : UInt64 → Bool) (addr : UInt64) : Decidable (c.Crowded locked addr) :=
  inferInstanceAs (Decidable (_ ∧ _))

end Cache

/-- Request `p` misses at cache `id`, which is `c`, and has no way to free there. The request is
admitted: at the cache it enters, no transaction holds its line against it and it has no entry
yet; at a cache below, its transaction has an entry. It is no writeback, no transaction on its
line has the cache in its chain, the cache lacks the line, and every way of the set holds a
line locked by a transaction in flight. The cache has a policy it supports. -/
@[mk_iff]
structure Hierarchy.MissesWithoutRoom (h : Hierarchy) (id : Nat) (p : Packet) (c : Cache) :
    Prop where
  admitted : c.level = 1 ∨ p.owner = id →
    (∀ e ∈ h.directory.entries, h.directory.sameLine e.addr p.addr = true →
      p.op.isRead = true ∧ e.lock = .read) ∧ h.directory.findEntry p = none
  below : c.level ≠ 1 ∧ p.owner ≠ id → (h.directory.findEntry p).isSome
  op : p.op ≠ .writeback
  apart : ∀ e ∈ h.directory.entries, e.orderOf id ≠ 0 → h.directory.sameLine e.addr p.addr = false
  crowded : c.Crowded h.directory.isLocked p.addr
  replacement : c.replacement ≠ .fifo ∧ c.replacement ≠ .lrf

instance (h : Hierarchy) (id : Nat) (p : Packet) (c : Cache) :
    Decidable (h.MissesWithoutRoom id p c) :=
  decidable_of_iff _ (Hierarchy.missesWithoutRoom_iff h id p c).symm

/-- Whether a request misses with no way to free depends on the entries and the line size of the
directory, on the transaction, line and operation of the request, and on the level, address
map, ways and policy of the cache. -/
theorem Hierarchy.MissesWithoutRoom.congr {h h' : Hierarchy} {id : Nat} {p p' : Packet}
    {c c' : Cache} (hm : h.MissesWithoutRoom id p c)
    (he : h'.directory.entries = h.directory.entries)
    (hsize : h'.directory.lineSize = h.directory.lineSize)
    (hp : p'.owner = p.owner ∧ p'.opcode = p.opcode ∧ p'.uop = p.uop ∧ p'.addr = p.addr ∧
      p'.op = p.op)
    (hc : c'.level = c.level ∧ c'.fields = c.fields ∧ c'.lines = c.lines ∧
      c'.replacement = c.replacement) :
    h'.MissesWithoutRoom id p' c' := by
  obtain ⟨howner, hopcode, huop, haddr, hop⟩ := hp
  obtain ⟨hlevel, hfields, hlines, hrep⟩ := hc
  -- the directory and the cache are read through these, which the changes keep
  have hsame : h'.directory.sameLine = h.directory.sameLine := by
    funext a b
    simp [Directory.sameLine, Directory.lineMask, hsize]
  have hfind : h'.directory.findEntry p' = h.directory.findEntry p := by
    simp [Directory.findEntry, Entry.hasTransaction, he, hsame, howner, hopcode, huop, haddr]
  have hlocked : h'.directory.isLocked = h.directory.isLocked := by
    funext a
    simp [Directory.isLocked, he, hsame]
  have hfindLine : c'.findLine = c.findLine := by
    funext a
    simp [Cache.findLine, hfields, hlines]
  have hline : c'.line = c.line := by
    funext i w
    simp [Cache.line, hlines]
  rw [missesWithoutRoom_iff] at hm ⊢
  simpa [Cache.Crowded, he, hsame, hfind, hlocked, hfindLine, hline, hlines, hfields, hlevel,
    hrep, howner, haddr, hop] using hm

namespace Action

open Hierarchy

theorem run_pure {α : Type} (h : Hierarchy) (a : α) : (pure a : Action α).run.run h = (.ok a, h) :=
  rfl

theorem run_ofExcept_ok {α : Type} (h : Hierarchy) (a : α) :
    (Action.ofExcept (.ok a) : Action α).run.run h = (.ok a, h) := rfl

/-- When the cache finds no victim, making room stores back the cache as the choice left it and
frees nothing. -/
theorem run_makeRoom_of_victim_none {h : Hierarchy} {id : Nat} {c c' : Cache} {addr : UInt64}
    {now : Nat} (hc : h.caches[id]? = some c)
    (hv : c.victim addr h.directory.isLocked = .ok (none, c')) :
    (Action.makeRoom id addr now).run.run h = (.ok none, h.setCacheAt id c') := by
  unfold Action.makeRoom
  simp only [run_bind, run_cache hc, run_directory, hv, run_ofExcept_ok, run_putCache]
  rfl

section WithoutRoom

variable {h : Hierarchy} {id : Nat} {p : Packet} {c : Cache} {now : Nat}
  (hc : h.caches[id]? = some c) (hfit : c.shape.Fits h.directory.lineMask)
  (hm : h.MissesWithoutRoom id p c) (hnow : now + 1 < wordSize)
include hc hfit hm hnow

/-- A request admitted at a cache where it misses with no way to free counts the miss and goes
back untreated. -/
theorem run_proceed_without_room {entry : Option Nat} :
    ∃ r, (Action.proceed id c h.directory p entry now).run.run h =
      (.ok { p with phase := .untreated, ready := now + 1 },
        ((h.modifyCache id (·.count (·.addMiss p.op))).modifyDirectory
          (·.count fun s => { s with miss := s.miss.bump p.op })).setCacheAt id
          { c.count (·.addMiss p.op) with random := r }) := by
  have hwb : (p.op == .writeback) = false := by simpa using hm.op
  have hapart : (h.directory.entries.any fun e =>
      e.orderOf id != 0 && h.directory.sameLine e.addr p.addr) = false := by
    simpa using hm.apart
  simp only [Action.proceed, hwb, hm.crowded.1, hapart, Bool.false_eq_true, ↓reduceIte,
    Option.map_none, Directory.isHit]
  obtain ⟨r, hv⟩ := @Cache.victim_of_crowded (c.count (·.addMiss p.op))
    (h.directory.count fun s => { s with miss := s.miss.bump p.op }).isLocked p.addr _
    hm.crowded hfit hm.replacement
  unfold Action.miss Action.countAccess
  simp only [run_bind, run_updateCache, run_updateDirectory, Bool.false_eq_true, ↓reduceIte]
  rw [run_makeRoom_of_victim_none ?hc ?hv]
  case hc => exact caches_modifyCache_self hc _
  case hv => exact hv
  simp only [run_check_enter _ _ _ hnow]
  exact ⟨r, rfl⟩

/-- One try of a request that misses with no way to free: the miss is counted in the cache and
in the directory, and the request goes back untreated, to be tried again a cycle later. -/
theorem run_request_without_room :
    ∃ r, (Action.request id p now).run.run h =
      (.ok { p with phase := .untreated, ready := now + 1 },
        ((h.modifyCache id (·.count (·.addMiss p.op))).modifyDirectory
          (·.count fun s => { s with miss := s.miss.bump p.op })).setCacheAt id
          { c.count (·.addMiss p.op) with random := r }) := by
  unfold Action.request
  simp only [run_bind, run_cache hc, run_directory]
  by_cases horigin : c.level = 1 ∨ p.owner = id
  · -- the request enters here: nothing holds its line against it, and it has no entry yet
    obtain ⟨hlocks, hnone⟩ := hm.admitted horigin
    have henter : (c.level == 1 || p.owner == id) = true := by simpa using horigin
    have hconflict : (h.directory.entries.any fun e =>
        h.directory.sameLine e.addr p.addr && !(p.op.isRead && e.lock == .read)) = false := by
      simp only [List.any_eq_false, Bool.and_eq_true, Bool.not_eq_true', Bool.and_eq_false_iff,
        not_and]
      intro e he hline
      obtain ⟨hread, hlock⟩ := hlocks e he hline
      simp [hread, hlock]
    simp only [henter, hconflict, hnone, Option.isSome_none, Bool.false_eq_true, ↓reduceIte]
    exact run_proceed_without_room hc hfit hm hnow
  · -- the request comes from above with the entry of its transaction
    have henter : (c.level == 1 || p.owner == id) = false := by simpa using horigin
    obtain ⟨k, hk⟩ := Option.isSome_iff_exists.1 (hm.below (by simpa [not_or] using horigin))
    simp only [henter, hk, Bool.false_eq_true, ↓reduceIte]
    exact run_proceed_without_room hc hfit hm hnow

end WithoutRoom

end Action

/-! ## The clock's retry -/

namespace Mshr

/-- The slot `firstEligible` picks holds a packet that is ready and wanted. -/
theorem firstEligible_spec {m : Mshr} {now : Nat} {want : Packet → Bool} {slot : Nat}
    (h : m.firstEligible now want = some slot) :
    ∃ p, m.get? slot = some p ∧ p.isReadyAt now = true ∧ want p = true := by
  have hs := List.find?_some h
  simp only [Option.any_eq_true, Bool.and_eq_true] at hs
  obtain ⟨p, hp, hready, hwant⟩ := hs
  exact ⟨p, hp, hready, hwant⟩

/-- Putting a packet back in its slot and giving it a new birth cycle leaves it there, born
then. -/
theorem get?_rebirth_put {m : Mshr} {slot : Nat} (hs : slot < m.slots.size) (p : Packet)
    (now : Nat) : ((m.put slot p).rebirth slot now).get? slot = some { p with born := now } := by
  have hput : (m.put slot p).get? slot = some p := by simp [get?_put, hs]
  unfold rebirth
  rw [hput]
  simp [get?, slots_placeBorn, put, hs]

end Mshr

namespace Tick

variable {σ : Type}

theorem run_bind {α β : Type} (x : Tick σ α) (f : α → Tick σ β) (s : Hierarchy × σ) :
    (x >>= f).run.run s = match x.run.run s with
      | (.ok a, s') => (f a).run.run s'
      | (.error e, s') => (.error e, s') := by
  simp only [ExceptT.run_bind, StateT.run_bind]
  rcases x.run.run s with ⟨_ | _, _⟩ <;> rfl

theorem run_pure {α : Type} (a : α) (s : Hierarchy × σ) :
    (pure a : Tick σ α).run.run s = (.ok a, s) := rfl

theorem run_get (s : Hierarchy × σ) : (get : Tick σ (Hierarchy × σ)).run.run s = (.ok s, s) :=
  rfl

theorem run_set (s s' : Hierarchy × σ) : (set s' : Tick σ PUnit).run.run s = (.ok ⟨⟩, s') :=
  rfl

/-- A coherence action run by a cache step leaves the sink alone. -/
theorem run_lift {α : Type} (a : Action α) (h : Hierarchy) (o : σ) :
    (lift a : Tick σ α).run.run (h, o) = ((a.run.run h).1, ((a.run.run h).2, o)) := by
  unfold lift
  simp only [run_bind, run_get, run_set]
  rcases a.run.run h with ⟨_ | _, _⟩ <;> rfl

/-- The clock's request step on a request that misses with no way to free: the miss is
counted, and the request goes back to its slot untreated, reborn at `now`. -/
theorem run_treatRequest_without_room {h : Hierarchy} {id slot now : Nat} {p : Packet}
    {c : Cache} (hc : h.caches[id]? = some c) (hfit : c.shape.Fits h.directory.lineMask)
    (hslot : c.mshr.firstEligible now (fun q => q.phase == .untreated && q.isAnswer == false) =
      some slot)
    (hp : c.mshr.get? slot = some p) (hm : h.MissesWithoutRoom id p c)
    (hnow : now + 1 < wordSize) (o : σ) :
    ∃ r, (treatRequest id now : Tick σ Unit).run.run (h, o) =
      (.ok (), ((((h.modifyCache id (·.count (·.addMiss p.op))).modifyDirectory
          (·.count fun s => { s with miss := s.miss.bump p.op })).setCacheAt id
          { c.count (·.addMiss p.op) with random := r }).modifyCache id fun c' =>
            { c' with mshr := (c'.mshr.put slot
              { p with phase := .untreated, ready := now + 1 }).rebirth slot now }, o)) := by
  -- the slot picked holds a request to treat
  have hanswer : p.isAnswer = false := by
    obtain ⟨q, hq, -, hwant⟩ := Mshr.firstEligible_spec hslot
    rw [hp] at hq
    cases hq
    simp only [Bool.and_eq_true, beq_iff_eq] at hwant
    exact hwant.2
  obtain ⟨r, hrun⟩ := Action.run_request_without_room hc hfit hm hnow
  refine ⟨r, ?_⟩
  simp only [treatRequest, eligible, store, run_bind, run_pure, run_lift, Action.run_cache hc,
    hslot, hp, hrun, hanswer]
  rfl

end Tick

namespace Machine

/-- Whether, at the next cycle of `m`, the clock of cache `id` gives the directory a request for
`addr` that misses with no way to free. -/
def retriesAt (m : Machine) (id : Nat) (addr : UInt64) : Bool :=
  match m.hierarchy.caches[id]? with
  | some c =>
    match c.mshr.firstEligible m.cycle (fun q => q.phase == .untreated && q.isAnswer == false) with
    | some slot =>
      match c.mshr.get? slot with
      | some p => p.addr == addr && decide (m.hierarchy.MissesWithoutRoom id p c) &&
          decide (m.cycle + 1 < wordSize)
      | none => false
    | none => false
  | none => false

theorem retriesAt_spec {m : Machine} {id : Nat} {addr : UInt64} (h : m.retriesAt id addr = true) :
    ∃ c slot p, m.hierarchy.caches[id]? = some c ∧
      c.mshr.firstEligible m.cycle (fun q => q.phase == .untreated && q.isAnswer == false) =
        some slot ∧
      c.mshr.get? slot = some p ∧ p.addr = addr ∧ m.hierarchy.MissesWithoutRoom id p c ∧
      m.cycle + 1 < wordSize := by
  unfold retriesAt at h
  split at h
  · rename_i c hc
    split at h
    · rename_i slot hslot
      split at h
      · rename_i p hp
        simp only [Bool.and_eq_true, beq_iff_eq, decide_eq_true_eq] at h
        exact ⟨c, slot, p, hc, hslot, hp, h.1.1, h.1.2, h.2⟩
      · cases h
    · cases h
  · cases h

/-- Along every session of a machine as set up, when the clock of cache `id` gives the directory
its oldest request to treat and that request misses with no way to free, the cache and the
directory count one more miss of its operation and no hit, no transaction starts, and the
request goes back to its slot untreated and reborn. There it still misses with no way to free,
so each time the clock gives it again, one more miss is counted for the one transaction. -/
theorem retried_miss_counted_each_time {cfg : Config} {traces : List Trace} {m₀ m : Machine}
    (hnew : Machine.new cfg traces = .ok m₀) (hr : m₀.Reaches m) {id slot now : Nat}
    {p : Packet} {c : Cache} (hc : m.hierarchy.caches[id]? = some c)
    (hslot : c.mshr.firstEligible now (fun q => q.phase == .untreated && q.isAnswer == false) =
      some slot)
    (hp : c.mshr.get? slot = some p) (hm : m.hierarchy.MissesWithoutRoom id p c)
    (hnow : now + 1 < wordSize) :
    ∃ h' c', (Tick.treatRequest id now : Tick Outside Unit).run.run (m.hierarchy, m.outside) =
        (.ok (), (h', m.outside)) ∧
      h'.caches[id]? = some c' ∧
      c'.mshr.get? slot = some { p with phase := .untreated, ready := now + 1, born := now } ∧
      c'.stat.miss.get p.op = c.stat.miss.get p.op + 1 ∧ c'.stat.hit = c.stat.hit ∧
      h'.directory.stat.miss.get p.op = m.hierarchy.directory.stat.miss.get p.op + 1 ∧
      h'.directory.stat.hit = m.hierarchy.directory.stat.hit ∧
      h'.directory.entries = m.hierarchy.directory.entries ∧
      h'.MissesWithoutRoom id { p with phase := .untreated, ready := now + 1, born := now } c' := by
  -- every cache of a machine as set up, and along its sessions, fits the directory
  have hfit := (hr.keeps Hierarchy.durable_pinned (pinned_new hnew)).wellBuilt id c hc
  obtain ⟨r, hrun⟩ := Tick.run_treatRequest_without_room hc hfit hslot hp hm hnow m.outside
  have hid : id < m.hierarchy.caches.size := (Array.getElem?_eq_some_iff.1 hc).1
  have hs : slot < c.mshr.slots.size := Mshr.lt_size_of_isSome (by rw [hp]; rfl)
  refine ⟨_, _, hrun, Hierarchy.caches_modifyCache_self
    (Hierarchy.caches_setCacheAt_self (by simpa using hid) _) _,
    Mshr.get?_rebirth_put hs _ now, ?miss, rfl, ?dirMiss, rfl, rfl, ?next⟩
  case next =>
    exact hm.congr rfl rfl ⟨rfl, rfl, rfl, rfl, rfl⟩ ⟨rfl, rfl, rfl, rfl⟩
  case miss => simp [Cache.count, CacheStat.addMiss]
  case dirMiss => simp [Directory.count]

end Machine

/-- One cache `L1` of a single line under a memory of latency 5, with one core. -/
def Config.oneLine : Config :=
  { lineSize := 64, caches := [{ label := "L1", lineNumber := 1, associativity := 1 }],
    memory := { latency := 5 }, cores := [{ label := "core0", dataCache := "L1" }] }

namespace Machine

/-- Three cycles into reads of lines `0x0` and `0x40` through a cache of one line, the read of
`0x40` is the request the clock treats next, and the only way holds `0x0`, whose read is in
flight: the clock's try counts a miss and puts the read back, to miss again. -/
theorem retried_miss_counted_behind_one_line :
    ∃ m₀ m c slot p, Machine.new Config.oneLine [Trace.twoReads] = .ok m₀ ∧ m₀.Reaches m ∧
      m.hierarchy.caches[0]? = some c ∧
      c.mshr.firstEligible m.cycle (fun q => q.phase == .untreated && q.isAnswer == false) =
        some slot ∧
      c.mshr.get? slot = some p ∧ p.addr = 0x40 ∧ m.hierarchy.MissesWithoutRoom 0 p c ∧
      m.cycle + 1 < wordSize ∧
      ∃ h' c', (Tick.treatRequest 0 m.cycle : Tick Outside Unit).run.run (m.hierarchy, m.outside) =
          (.ok (), (h', m.outside)) ∧
        h'.caches[0]? = some c' ∧
        c'.mshr.get? slot =
          some { p with phase := .untreated, ready := m.cycle + 1, born := m.cycle } ∧
        c'.stat.miss.get p.op = c.stat.miss.get p.op + 1 ∧ c'.stat.hit = c.stat.hit ∧
        h'.directory.stat.miss.get p.op = m.hierarchy.directory.stat.miss.get p.op + 1 ∧
        h'.directory.stat.hit = m.hierarchy.directory.stat.hit ∧
        h'.directory.entries = m.hierarchy.directory.entries ∧
        h'.MissesWithoutRoom 0 { p with phase := .untreated, ready := m.cycle + 1, born := m.cycle }
          c' := by
  obtain ⟨m₀, m, hnew, hr, hq⟩ := exists_reaches_of_sessionPasses
    (by decide +kernel : sessionPasses Config.oneLine [Trace.twoReads] [{ mode := .steps 3 }]
      (fun m => m.retriesAt 0 0x40) = true)
  obtain ⟨c, slot, p, hc, hslot, hp, haddr, hm, hnow⟩ := retriesAt_spec hq
  exact ⟨m₀, m, c, slot, p, hnew, hr, hc, hslot, hp, haddr, hm, hnow,
    retried_miss_counted_each_time hnew hr hc hslot hp hm hnow⟩

end Machine

end CacheHierarchy
