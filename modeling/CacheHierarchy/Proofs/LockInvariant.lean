import Mathlib
import CacheHierarchy.Proofs.Locks

open Std.Do

set_option autoImplicit false
set_option mvcgen.warning false

/-! # Every coherence action keeps the locks exclusive

The invariant `Hierarchy.Exclusive` is lock exclusivity of the directory (`Directory.Exclusive`)
together with a well-built tag array (`Hierarchy.WellBuilt`): the second part is what lets the
choice of a victim be reasoned about. Each action of the directory gets one triple
`⦃Exclusive⦄ action ⦃Exclusive⦄`, tagged `@[spec]`, and each caller's proof runs `mvcgen`
over its own body only.

Most actions leave the lock table alone, or close an entry. Two open one:

* a request opens the entry of its transaction once the lock scan has admitted it
  (`Directory.Admits`), after it has made room for its line;
* making room may write a dirty victim back, which opens a write lock on the victim's line.

The second must not break the first: the victim is unlocked, so its write lock stands alone,
and it is off the requested line (`Cache.victim_off_line`), so what the scan admitted stays
admitted (`MadeRoom.admits`). The eviction specs are relational: they pin the state before the
call (`h₀`) and say which locks can be new afterwards (`LocksFrom`).

The verification conditions are closed by what they are, never by where they stand. Steps that
change statuses, copies above or counters leave the invariant as it was, and the simp lemmas
`exclusive_modifyCache`, `exclusive_ownerAbove` and their kin say so; each branch of a writeback
is a lemma of its own (`WroteBack.of_full`, `WroteBack.of_slot`); and `Action.makeRoom_keeps`
says once what making room can do, for any property that status changes do not affect.
-/

namespace CacheHierarchy

/-! ## Triples of plain propositions -/

/-- A triple proved one starting state at a time. -/
theorem triple_of_pointwise {σ α ε : Type} {x : ExceptT ε (StateM σ) α} {P : σ → Prop}
    {Q : α → σ → Prop} {E : ε → σ → Prop}
    (h : ∀ s₀, P s₀ → ⦃fun s => ⌜s = s₀⌝⦄ x ⦃post⟨fun r s => ⌜Q r s⌝, fun e s => ⌜E e s⌝⟩⦄) :
    ⦃fun s => ⌜P s⌝⦄ x ⦃post⟨fun r s => ⌜Q r s⌝, fun e s => ⌜E e s⌝⟩⦄ :=
  fun s hs => h s hs s rfl

/-- The rule of consequence. -/
theorem triple_conseq {σ α ε : Type} {x : ExceptT ε (StateM σ) α} {P P' : σ → Prop}
    {Q Q' : α → σ → Prop} {E E' : ε → σ → Prop}
    (hx : ⦃fun s => ⌜P s⌝⦄ x ⦃post⟨fun r s => ⌜Q r s⌝, fun e s => ⌜E e s⌝⟩⦄)
    (hp : ∀ s, P' s → P s) (hq : ∀ r s, Q r s → Q' r s) (he : ∀ e s, E e s → E' e s) :
    ⦃fun s => ⌜P' s⌝⦄ x ⦃post⟨fun r s => ⌜Q' r s⌝, fun e s => ⌜E' e s⌝⟩⦄ := by
  mvcgen [hx]
  · exact hp _ ‹_›
  · exact hq _ _
  · exact he _ _

namespace Hierarchy

/-- The lock invariant: the directory's locks are exclusive, and every cache fits it. -/
structure Exclusive (h : Hierarchy) : Prop where
  locks : h.directory.Exclusive
  wellBuilt : h.WellBuilt

theorem Exclusive.of_frame {h h' : Hierarchy} (hx : h.Exclusive) (hs : h'.shapes = h.shapes)
    (hl : h'.directory.locks = h.directory.locks) : h'.Exclusive :=
  ⟨hx.locks.of_locks_eq hl, hx.wellBuilt.of_shapes hs⟩

/-- A change of one cache that keeps its shape keeps the invariant. -/
@[simp] theorem exclusive_modifyCache {h : Hierarchy} {id : Nat} {f : Cache → Cache}
    (hf : ∀ c, (f c).shape = c.shape) : (h.modifyCache id f).Exclusive ↔ h.Exclusive :=
  ⟨fun hx => hx.of_frame (shapes_modifyCache h id f hf).symm rfl,
    fun hx => hx.of_frame (shapes_modifyCache h id f hf) rfl⟩

/-- A change of the directory that keeps its setup and its locks keeps the invariant. -/
@[simp] theorem exclusive_modifyDirectory {h : Hierarchy} {f : Directory → Directory}
    (hs : (f h.directory).setup = h.directory.setup)
    (hl : (f h.directory).locks = h.directory.locks) :
    (h.modifyDirectory f).Exclusive ↔ h.Exclusive :=
  ⟨fun hx => hx.of_frame (shapes_modifyDirectory h f hs).symm hl.symm,
    fun hx => hx.of_frame (shapes_modifyDirectory h f hs) hl⟩

/-- A change that keeps the shapes and only drops locks keeps the invariant. -/
theorem Exclusive.of_sublist {h h' : Hierarchy} (hx : h.Exclusive) (hs : h'.shapes = h.shapes)
    (hl : h'.directory.locks.Sublist h.directory.locks) : h'.Exclusive :=
  ⟨hx.locks.of_sublist hl, hx.wellBuilt.of_shapes hs⟩

/-- A walk that changes line statuses only keeps the invariant. -/
theorem Restatus.exclusive_iff {h h' : Hierarchy} (hr : Restatus h h') :
    h'.Exclusive ↔ h.Exclusive :=
  ⟨fun hx => hx.of_frame hr.shapes.symm (by rw [hr.directory]),
    fun hx => hx.of_frame hr.shapes (by rw [hr.directory])⟩

@[simp] theorem exclusive_ownerAbove (h : Hierarchy) (fuel id : Nat) (addr : UInt64) (b : Bool) :
    (h.ownerAbove fuel id addr b).2.Exclusive ↔ h.Exclusive :=
  (ownerAbove_restatus ..).exclusive_iff

@[simp] theorem exclusive_writebackOwner (h : Hierarchy) (fuel id : Nat) (addr : UInt64) :
    (h.writebackOwner fuel id addr).2.Exclusive ↔ h.Exclusive :=
  (writebackOwner_restatus ..).exclusive_iff

@[simp] theorem exclusive_evictAbove (h : Hierarchy) (fuel id : Nat) (addr : UInt64) :
    (h.evictAbove fuel id addr).Exclusive ↔ h.Exclusive :=
  (evictAbove_restatus ..).exclusive_iff

@[simp] theorem Exclusive.close {h : Hierarchy} (hx : h.Exclusive) (k : Nat) :
    (h.modifyDirectory (·.close k)).Exclusive :=
  ⟨hx.locks.of_sublist (by simpa using h.directory.locks_close_sublist k),
    hx.wellBuilt.of_shapes (by simp)⟩

/-- A well-built hierarchy whose directory has no entry satisfies the invariant. -/
theorem exclusive_of_entries_eq_nil {h : Hierarchy} (hw : h.WellBuilt)
    (he : h.directory.entries = []) : h.Exclusive :=
  ⟨⟨by simp [Directory.locks, he], by simp [Directory.locks, he]⟩, hw⟩

/-- The tag of the way at `index`, `way` of cache `id`. -/
def tagAt (h : Hierarchy) (id index way : Nat) : Option UInt64 :=
  (h.caches[id]?).map fun c => (c.line index way).tag

/-- Cache `id` holds no line of `addr`. -/
def Misses (h : Hierarchy) (id : Nat) (addr : UInt64) : Prop :=
  ∀ c, h.caches[id]? = some c → c.findLine addr = none

theorem Misses.of_frame {h h' : Hierarchy} {id : Nat} {addr : UInt64} (hn : h.Misses id addr)
    (hs : h'.shapes = h.shapes) (ht : h'.tags = h.tags) : h'.Misses id addr := by
  intro c' hc'
  obtain ⟨c, hc, hcs⟩ := exists_of_shapes hs hc'
  rw [Cache.findLine_congr hcs.symm (tags_of_tags ht hc hc') addr]
  exact hn c hc

@[simp] theorem misses_modifyCache {h : Hierarchy} {id j : Nat} {addr : UInt64}
    {f : Cache → Cache} (hs : ∀ c, (f c).shape = c.shape) (ht : ∀ c, (f c).tags = c.tags) :
    (h.modifyCache id f).Misses j addr ↔ h.Misses j addr :=
  ⟨fun hn => hn.of_frame (shapes_modifyCache h id f hs).symm (tags_modifyCache h id f ht).symm,
    fun hn => hn.of_frame (shapes_modifyCache h id f hs) (tags_modifyCache h id f ht)⟩

@[simp] theorem misses_modifyDirectory {h : Hierarchy} {j : Nat} {addr : UInt64}
    {f : Directory → Directory} : (h.modifyDirectory f).Misses j addr ↔ h.Misses j addr := by
  simp only [Misses, caches_modifyDirectory]

/-- `h` has the shapes of `h₀`, and each of its locks was a lock of `h₀` or is on a line
`fresh` allows. -/
structure LocksFrom (h₀ h : Hierarchy) (fresh : UInt64 → Prop) : Prop where
  shapes : h.shapes = h₀.shapes
  locks : ∀ x ∈ h.directory.locks, x ∈ h₀.directory.locks ∨ fresh x.2

theorem LocksFrom.refl (h : Hierarchy) (fresh : UInt64 → Prop) : LocksFrom h h fresh :=
  ⟨rfl, fun _ hx => .inl hx⟩

end Hierarchy

/-! ## Eviction -/

/-- What writing back the way at `index`, `way` of cache `id` leaves of `h₀`: the invariant,
the tags, and at most one new lock, on the line of the way's tag. -/
def WroteBack (h₀ : Hierarchy) (id index way : Nat) (h : Hierarchy) : Prop :=
  h.Exclusive ∧ h.tags = h₀.tags ∧
    h₀.LocksFrom h fun l => ∃ t ∈ h₀.tagAt id index way, l = t &&& h₀.directory.lineMask

namespace WroteBack

variable {h : Hierarchy} {id index way : Nat}

theorem refl (hx : h.Exclusive) : WroteBack h id index way h := ⟨hx, rfl, .refl _ _⟩

/-- A writeback that finds the writeback range full takes no slot and opens no lock. -/
theorem of_full (hx : h.Exclusive) {c c' : Cache} {r : MshrRange} {p : Packet}
    (hc : h.caches[id]? = some c) (halloc : c.allocate r p = (none, c')) :
    WroteBack h id index way (h.setCacheAt id c') := by
  obtain ⟨hshape, htags⟩ := Cache.allocate_frame _ _ _ _ _ halloc
  have hs := h.shapes_setCacheAt id c' fun c₀ hc₀ => by simp_all
  exact ⟨hx.of_frame hs rfl, h.tags_setCacheAt id c' fun c₀ hc₀ => by simp_all, hs,
    fun x hx => .inl hx⟩

/-- A writeback that takes a slot opens its transaction, write-locked on the line of the way,
which no transaction held. -/
theorem of_slot (hx : h.Exclusive) (hfree : ∀ t ∈ h.tagAt id index way, h.directory.isLocked t = false)
    {c c' : Cache} {p : Packet} {slot : Nat} (hc : h.caches[id]? = some c)
    (halloc : c.allocate .writeback p = (some slot, c')) (hop : p.op = .writeback)
    (haddr : p.addr = (c.line index way).tag) (f : LineUsage → LineUsage) (g : CacheStat → CacheStat)
    (now : Nat) :
    WroteBack h id index way ((h.setCacheAt id ((c'.countUsage f).count g)).modifyDirectory
      fun _ => (h.directory.openEntry p now).2.modifyEntry (h.directory.openEntry p now).1
        (·.stamp id)) := by
  obtain ⟨hshape, htags⟩ := Cache.allocate_frame _ _ _ _ _ halloc
  have htag : h.tagAt id index way = some (c.line index way).tag := by simp [Hierarchy.tagAt, hc]
  have hs : ((h.setCacheAt id ((c'.countUsage f).count g)).modifyDirectory fun _ =>
      (h.directory.openEntry p now).2.modifyEntry (h.directory.openEntry p now).1
        (·.stamp id)).shapes = h.shapes := by
    rw [Hierarchy.shapes_modifyDirectory _ _ (by simp)]
    exact h.shapes_setCacheAt id _ fun c₀ hc₀ => by simp_all
  -- the one lock opened is a write lock on the line of the way's tag
  have hl : ((h.setCacheAt id ((c'.countUsage f).count g)).modifyDirectory fun _ =>
      (h.directory.openEntry p now).2.modifyEntry (h.directory.openEntry p now).1
        (·.stamp id)).directory.locks =
      h.directory.locks ++ [(.write, (c.line index way).tag &&& h.directory.lineMask)] := by
    simp [Directory.lockOf, hop, haddr, Operation.isRead]
  refine ⟨⟨hx.locks.append_write _ (hfree _ htag) hl, hx.wellBuilt.of_shapes hs⟩, ?_, hs,
    fun x hmem => ?_⟩
  · rw [Hierarchy.tags_modifyDirectory]
    exact h.tags_setCacheAt id _ fun c₀ hc₀ => by simp_all
  · rw [hl, List.mem_append, List.mem_singleton] at hmem
    rcases hmem with hmem | rfl
    · exact .inl hmem
    · exact .inr ⟨_, htag, rfl⟩

end WroteBack

namespace Action

@[spec] theorem writeBack_exclusive (id index way now : Nat) (h₀ : Hierarchy) :
    ⦃fun h => ⌜h = h₀ ∧ h₀.Exclusive ∧
      ∀ t ∈ h₀.tagAt id index way, h₀.directory.isLocked t = false⌝⦄
    Action.writeBack id index way now
    ⦃post⟨fun _ h => ⌜WroteBack h₀ id index way h⌝, fun _ h => ⌜WroteBack h₀ id index way h⌝⟩⦄ := by
  mvcgen [Action.writeBack, Action.cache, Action.directory, Action.ofExcept, Action.putCache,
    Action.updateDirectory, Action.fail]
  all_goals
    try dsimp +zetaDelta only at *
    obtain ⟨rfl, hx, hfree⟩ := ‹_ = h₀ ∧ _›
  -- the writeback range is full, or the writeback takes a slot; a fault changes nothing
  all_goals first
    | exact WroteBack.of_full hx ‹_› ‹_›
    | exact WroteBack.of_slot hx hfree ‹_› ‹_› rfl rfl _ _ _
    | exact WroteBack.refl hx

end Action

/-- What making room for `addr` leaves of `h₀`: the invariant, and no new lock on the line
of `addr`. -/
def MadeRoom (h₀ : Hierarchy) (addr : UInt64) (h : Hierarchy) : Prop :=
  h.Exclusive ∧ h₀.LocksFrom h fun l => l ≠ addr &&& h₀.directory.lineMask

namespace MadeRoom

variable {h₀ h : Hierarchy} {addr : UInt64}

theorem start (hx : h₀.Exclusive) (addr : UInt64) : MadeRoom h₀ addr h₀ := ⟨hx, .refl _ _⟩

theorem frame {h' : Hierarchy} (hp : MadeRoom h₀ addr h) (hs : h'.shapes = h.shapes)
    (hl : h'.directory.locks = h.directory.locks) : MadeRoom h₀ addr h' :=
  ⟨hp.1.of_frame hs hl, hs.trans hp.2.shapes, fun x hx => hp.2.locks x (hl ▸ hx)⟩

/-- Status changes neither make nor undo room. -/
theorem restatus_iff {h' : Hierarchy} (hr : Hierarchy.Restatus h h') :
    MadeRoom h₀ addr h' ↔ MadeRoom h₀ addr h :=
  ⟨fun hp => hp.frame hr.symm.shapes (by rw [hr.directory]),
    fun hp => hp.frame hr.shapes (by rw [hr.directory])⟩

/-- What the lock scan admitted on the line of `p` stays admitted after making room for it. -/
theorem admits {p : Packet} (hr : MadeRoom h₀ p.addr h) (ha : h₀.directory.Admits p) :
    h.directory.Admits p := by
  have hmask := Hierarchy.lineMask_of_shapes hr.2.shapes
  intro x hx hline
  rw [hmask] at hline
  rcases hr.2.locks x hx with hold | hfresh
  · exact ha x hold hline
  · exact absurd hline hfresh

end MadeRoom

section Victim

/-! The victim `v` that cache `c` (in slot `id` of `h₀`) gives up for `addr`, which it misses. -/

variable {h₀ : Hierarchy} {id : Nat} {addr : UInt64} {c : Cache}
  {v : Option (Nat × Nat) × Cache} (hx : h₀.Exclusive) (hno : h₀.Misses id addr)
  (hc : h₀.caches[id]? = some c) (hv : c.victim addr h₀.directory.isLocked = .ok v)
include hx hno hc hv

omit hx hno in
/-- Taking the victim moves the random stream of the cache only. -/
theorem victim_restatus : Hierarchy.Restatus h₀ (h₀.setCacheAt id v.2) := by
  obtain ⟨r, hr⟩ := Cache.victim_cache c v.2 addr _ v.1 hv
  have hslot : ∀ c₀, h₀.caches[id]? = some c₀ → c₀ = c := fun c₀ hc₀ =>
    Option.some.inj (hc₀.symm.trans hc)
  refine ⟨h₀.shapes_setCacheAt id _ fun c₀ hc₀ => ?_,
    h₀.tags_setCacheAt id _ fun c₀ hc₀ => ?_, rfl⟩
  all_goals
    rw [hslot c₀ hc₀, hr]
    rfl

omit hx hno hv in
theorem victim_tagAt {index way : Nat} (X : Hierarchy) (hX : Hierarchy.Restatus h₀ X)
    (t : UInt64) (ht : t ∈ X.tagAt id index way) : t = (c.line index way).tag := by
  obtain ⟨cX, hcX, rfl⟩ := Option.mem_map.1 ht
  exact Cache.tag_line_congr (Hierarchy.tags_of_tags hX.tags hc hcX) index way

/-- The victim way may be written back after status changes: its line is unlocked. -/
theorem victim_unlocked {index way : Nat} (hv1 : v.1 = some (index, way)) (X : Hierarchy)
    (hr : Hierarchy.Restatus h₀ X) :
    X.Exclusive ∧ ∀ t ∈ X.tagAt id index way, X.directory.isLocked t = false := by
  obtain ⟨v1, c'⟩ := v
  dsimp only at hv1
  subst hv1
  refine ⟨hx.of_frame hr.shapes (by rw [hr.directory]), fun t ht => ?_⟩
  rw [victim_tagAt hc X hr t ht, hr.directory]
  exact (Cache.victim_off_line c c' addr _ _ (hx.wellBuilt id c hc) (hno c hc) index way hv).2

/-- Writing the victim back makes room: its lock is off the line of `addr`. -/
theorem madeRoom_of_wroteBack {index way : Nat} (hv1 : v.1 = some (index, way))
    {X h' : Hierarchy} (hw : WroteBack X id index way h') (hr : Hierarchy.Restatus h₀ X) :
    MadeRoom h₀ addr h' := by
  obtain ⟨v1, c'⟩ := v
  dsimp only at hv1
  subst hv1
  obtain ⟨hx', -, hshapes, hlocks⟩ := hw
  refine ⟨hx', hshapes.trans hr.shapes, fun x hmem => ?_⟩
  rcases hlocks x hmem with hold | ⟨t, ht, hline⟩
  · exact .inl (hr.directory ▸ hold)
  · -- the writeback's lock is on the victim's line, which is not the line of `addr`
    right
    rw [hline, victim_tagAt hc X hr t ht, hr.directory]
    exact (Cache.victim_off_line c c' addr _ _ (hx.wellBuilt id c hc) (hno c hc) index way hv).1

end Victim

namespace Action

/-- What making room can do, said once. The cache gives up its victim; then line statuses,
copies above and counters change, and the victim's way may be written back. So a property
of the state that status changes do not affect, and that holds after that writeback, holds
after making room; and a way freed is the victim's. -/
theorem makeRoom_keeps {J : Hierarchy → Prop} (id : Nat) (addr : UInt64) (now : Nat)
    (h₀ : Hierarchy) (h0 : J h₀) (hrs : ∀ h h', Hierarchy.Restatus h h' → (J h' ↔ J h))
    (hwb : ∀ index way Y, ⦃fun h => ⌜h = Y ∧ Hierarchy.Restatus h₀ Y ∧ ∃ c v,
        h₀.caches[id]? = some c ∧ c.victim addr h₀.directory.isLocked = .ok v ∧
        v.1 = some (index, way)⌝⦄
      Action.writeBack id index way now ⦃post⟨fun _ h => ⌜J h⌝, fun _ h => ⌜J h⌝⟩⦄) :
    ⦃fun h => ⌜h = h₀⌝⦄ Action.makeRoom id addr now
    ⦃post⟨fun r h => ⌜J h ∧ ∀ iw, r = some iw → ∃ c v, h₀.caches[id]? = some c ∧
        c.victim addr h₀.directory.isLocked = .ok v ∧ v.1 = some iw⌝,
      fun _ h => ⌜J h⌝⟩⦄ := by
  -- the steps between the victim's choice, the writeback and the end change statuses only
  have hcache : ∀ h j f, (∀ c, (f c).shape = c.shape) → (∀ c, (f c).tags = c.tags) →
      (J (h.modifyCache j f) ↔ J h) := fun h j f hs ht =>
    hrs _ _ (Hierarchy.restatus_modifyCache h j f hs ht)
  have hwalk : ∀ h fuel j a, J (h.writebackOwner fuel j a).2 ↔ J h := fun h fuel j a =>
    hrs _ _ (Hierarchy.writebackOwner_restatus fuel h j a)
  have hevict : ∀ h fuel j a, J (h.evictAbove fuel j a) ↔ J h := fun h fuel j a =>
    hrs _ _ (Hierarchy.evictAbove_restatus fuel h j a)
  have hvictim : ∀ v, (∃ c, h₀.caches[id]? = some c ∧
      c.victim addr h₀.directory.isLocked = .ok v) → Hierarchy.Restatus h₀ (h₀.setCacheAt id v.2) :=
    fun _ ⟨_, hc, hv⟩ => victim_restatus hc hv
  have hvictimJ : ∀ v, (∃ c, h₀.caches[id]? = some c ∧
      c.victim addr h₀.directory.isLocked = .ok v) → (J (h₀.setCacheAt id v.2) ↔ J h₀) :=
    fun v hv => hrs _ _ (hvictim v hv)
  mvcgen -trivial [Action.makeRoom, Action.cache, Action.directory, Action.ofExcept,
    Action.putCache, Action.updateCache, Action.fail, Action.writebackOwner, Action.evictAbove,
    -Action.writeBack_exclusive, hwb]
  all_goals
    try dsimp +zetaDelta only at *
    subst_vars
  all_goals simp_all [Prod.ext_iff]

/-- Writing the victim back, after status changes, makes room for `addr`. -/
theorem writeBack_madeRoom {h₀ : Hierarchy} {id : Nat} {addr : UInt64} (hx : h₀.Exclusive)
    (hno : h₀.Misses id addr) (index way now : Nat) (Y : Hierarchy) :
    ⦃fun h => ⌜h = Y ∧ Hierarchy.Restatus h₀ Y ∧ ∃ c v, h₀.caches[id]? = some c ∧
      c.victim addr h₀.directory.isLocked = .ok v ∧ v.1 = some (index, way)⌝⦄
    Action.writeBack id index way now
    ⦃post⟨fun _ h => ⌜MadeRoom h₀ addr h⌝, fun _ h => ⌜MadeRoom h₀ addr h⌝⟩⦄ := by
  apply triple_of_pointwise
  rintro _ ⟨rfl, hY, c, v, hc, hv, hv1⟩
  have hroom : ∀ h', WroteBack _ id index way h' → MadeRoom h₀ addr h' := fun _ hw =>
    madeRoom_of_wroteBack hx hno hc hv hv1 hw hY
  exact triple_conseq (writeBack_exclusive id index way now _)
    (fun _ hs => ⟨hs, victim_unlocked hx hno hc hv hv1 _ hY⟩) (fun _ => hroom) (fun _ => hroom)

/-- Making room for `addr` in a cache that misses it: the invariant holds, and the only new
lock is the write lock of a victim's writeback, off the line of `addr`. -/
@[spec] theorem makeRoom_exclusive (id : Nat) (addr : UInt64) (now : Nat) (h₀ : Hierarchy) :
    ⦃fun h => ⌜h = h₀ ∧ h₀.Exclusive ∧ h₀.Misses id addr⌝⦄
    Action.makeRoom id addr now
    ⦃post⟨fun _ h => ⌜MadeRoom h₀ addr h⌝, fun _ h => ⌜MadeRoom h₀ addr h⌝⟩⦄ := by
  apply triple_of_pointwise
  rintro _ ⟨rfl, hx, hno⟩
  exact triple_conseq (makeRoom_keeps id addr now _ (.start hx addr)
      (fun _ _ hr => MadeRoom.restatus_iff hr)
      (fun index way => writeBack_madeRoom hx hno index way now))
    (fun _ hs => hs) (fun _ _ hr => hr.1) (fun _ _ hr => hr)

/-! ## Requests -/

@[spec] theorem stampEntry_exclusive (id : Nat) (p : Packet) (entry : Option Nat) (now : Nat) :
    ⦃fun h => ⌜h.Exclusive ∧ (entry = none → h.directory.Admits p)⌝⦄
    Action.stampEntry id p entry now
    ⦃post⟨fun _ h => ⌜h.Exclusive⌝, fun _ h => ⌜h.Exclusive⌝⟩⦄ := by
  mvcgen [Action.stampEntry, Action.directory, Action.updateDirectory]
  all_goals (try dsimp +zetaDelta only at *)
  -- stamping the transaction's entry keeps its lock; a new entry is one the lock scan admitted
  all_goals
    obtain ⟨hx, hadmits⟩ := ‹Hierarchy.Exclusive _ ∧ _›
    first
      | exact ⟨(hx.locks.openEntry p now hadmits).of_locks_eq (by simp),
          hx.wellBuilt.of_shapes (by simp)⟩
      | exact hx.of_frame (by simp) (by simp)

@[spec] theorem applyOperation_exclusive (id index way : Nat) (p : Packet) (received : Bool)
    (now : Nat) :
    ⦃fun h => ⌜h.Exclusive⌝⦄
    Action.applyOperation id index way p received now
    ⦃post⟨fun _ h => ⌜h.Exclusive⌝, fun _ h => ⌜h.Exclusive⌝⟩⦄ := by
  mvcgen [Action.applyOperation, Action.cache, Action.putCache, Action.fail]
  all_goals (try dsimp +zetaDelta only at *)
  all_goals exact ‹Hierarchy.Exclusive _›.of_frame (by simp [*, apply_ite]) (by simp [*])

@[spec] theorem absorbWriteback_exclusive (id : Nat) (p : Packet) (entry : Option Nat)
    (now : Nat) :
    ⦃fun h => ⌜h.Exclusive⌝⦄
    Action.absorbWriteback id p entry now
    ⦃post⟨fun _ h => ⌜h.Exclusive⌝, fun _ h => ⌜h.Exclusive⌝⟩⦄ := by
  mvcgen [Action.absorbWriteback, Action.cache, Action.fail, Action.countAccess,
    Action.updateCache, Action.updateDirectory, Fault.check]
  all_goals simp_all +zetaDelta [MadeRoom, Hierarchy.Misses]

@[spec] theorem serve_exclusive (id : Nat) (c : Cache) (p : Packet) (index way now : Nat) :
    ⦃fun h => ⌜h.Exclusive⌝⦄ Action.serve id c p index way now
    ⦃post⟨fun _ h => ⌜h.Exclusive⌝, fun _ h => ⌜h.Exclusive⌝⟩⦄ := by
  mvcgen [Action.serve, Action.countAccess, Action.countLineHit, Action.updateCache,
    Action.updateDirectory, Fault.check]
  all_goals (try dsimp +zetaDelta only at *)
  all_goals exact ‹Hierarchy.Exclusive _›.of_frame (by simp) (by simp)

@[spec] theorem passOn_exclusive (id : Nat) (p : Packet) (index way now : Nat) :
    ⦃fun h => ⌜h.Exclusive⌝⦄ Action.passOn id p index way now
    ⦃post⟨fun _ h => ⌜h.Exclusive⌝, fun _ h => ⌜h.Exclusive⌝⟩⦄ := by
  mvcgen [Action.passOn, Action.cache, Action.ofExcept, Fault.check]

@[spec] theorem install_exclusive (id : Nat) (c : Cache) (p : Packet) (entry : Option Nat)
    (index way now : Nat) :
    ⦃fun h => ⌜h.Exclusive ∧ (entry = none → h.directory.Admits p)⌝⦄
    Action.install id c p entry index way now
    ⦃post⟨fun _ h => ⌜h.Exclusive⌝, fun _ h => ⌜h.Exclusive⌝⟩⦄ := by
  mvcgen [Action.install, Action.updateCache, Action.ownerAbove, Action.countLineHit]
  all_goals simp_all +zetaDelta

@[spec] theorem miss_exclusive (id : Nat) (c : Cache) (p : Packet) (entry : Option Nat)
    (found : Option (Nat × Nat)) (now : Nat) :
    ⦃fun h => ⌜h.Exclusive ∧ (entry = none → h.directory.Admits p) ∧
      (found = none → h.Misses id p.addr)⌝⦄
    Action.miss id c p entry found now
    ⦃post⟨fun _ h => ⌜h.Exclusive⌝, fun _ h => ⌜h.Exclusive⌝⟩⦄ := by
  mvcgen [Action.miss, Action.countAccess, Action.updateCache, Action.updateDirectory,
    Fault.check]
  all_goals
    dsimp +zetaDelta only at *
    -- where room was made, what the lock scan admitted stays admitted
    try have := ‹MadeRoom _ _ _›.admits
  all_goals simp_all [MadeRoom]

@[spec] theorem proceed_exclusive (id : Nat) (c : Cache) (d : Directory) (p : Packet)
    (entry : Option Nat) (now : Nat) :
    ⦃fun h => ⌜h.Exclusive ∧ (entry = none → h.directory.Admits p) ∧ h.caches[id]? = some c⌝⦄
    Action.proceed id c d p entry now
    ⦃post⟨fun _ h => ⌜h.Exclusive⌝, fun _ h => ⌜h.Exclusive⌝⟩⦄ := by
  mvcgen [Action.proceed, Action.countLineHit, Action.updateCache, Action.updateDirectory,
    Fault.check]
  all_goals simp_all +zetaDelta [Hierarchy.Misses]

/-- A request keeps the locks exclusive. -/
theorem request_exclusive (id : Nat) (p : Packet) (now : Nat) :
    ⦃fun h => ⌜h.Exclusive⌝⦄ Action.request id p now
    ⦃post⟨fun _ h => ⌜h.Exclusive⌝, fun _ h => ⌜h.Exclusive⌝⟩⦄ := by
  mvcgen [Action.request, Action.cache, Action.directory, Action.updateDirectory, Fault.check,
    Action.fail]
  all_goals simp_all +zetaDelta [← Directory.admits_iff_scan]

/-! ## Answers -/

@[spec] theorem answerOperation_exclusive (id : Nat) (p : Packet) (now : Nat) :
    ⦃fun h => ⌜h.Exclusive⌝⦄ Action.answerOperation id p now
    ⦃post⟨fun _ h => ⌜h.Exclusive⌝, fun _ h => ⌜h.Exclusive⌝⟩⦄ := by
  mvcgen [Action.answerOperation, Action.cache, Action.fail]

/-- An answer keeps the locks exclusive. -/
theorem answer_exclusive (id : Nat) (p : Packet) (now : Nat) :
    ⦃fun h => ⌜h.Exclusive⌝⦄ Action.answer id p now
    ⦃post⟨fun _ h => ⌜h.Exclusive⌝, fun _ h => ⌜h.Exclusive⌝⟩⦄ := by
  mvcgen [Action.answer, Action.cache, Action.directory, Action.fail, Action.updateCache,
    Action.updateDirectory, Fault.check]
  -- the answer leaves the chain or ends the transaction: the locks stay, or one goes
  all_goals
    dsimp +zetaDelta only at *
    exact ‹Hierarchy.Exclusive _›.of_sublist (by simp) (by simp [List.eraseIdx_sublist])

/-- A sent request keeps the locks exclusive. -/
theorem sent_exclusive (id : Nat) (p : Packet) :
    ⦃fun h => ⌜h.Exclusive⌝⦄ Action.sent id p
    ⦃post⟨fun _ h => ⌜h.Exclusive⌝, fun _ h => ⌜h.Exclusive⌝⟩⦄ := by
  mvcgen [Action.sent, Action.cache, Action.directory, Action.fail, Action.updateDirectory]
  -- a writeback sent from a last-level cache is done: its entry is closed
  exact ‹Hierarchy.Exclusive _›.close _

end Action

end CacheHierarchy
