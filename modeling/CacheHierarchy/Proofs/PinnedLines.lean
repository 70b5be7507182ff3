import Mathlib
import CacheHierarchy.Proofs.MachineRuns

open Std.Do

set_option autoImplicit false
set_option mvcgen.warning false

/-! # A line is never replaced in the middle of its transaction

Every cache in the chain of a demand or prefetch transaction holds the transaction's line
until the transaction's entry is closed (`Hierarchy.ChainsHold`). A writeback's entry is the
exception: the cache that writes a victim back has just given its way away.

Three things keep the chains held.

* A cache joins a chain only with the line in place: a request that hits joins the
  transaction on its line, and a request that misses installs its line before it stamps the
  chain. An entry found for a request is on the request's line, and a cache that reads lines
  as the directory does finds the two addresses at the same way (`Hierarchy.Aligned`).
* A way changes its line only where a request installs one, and the way it takes is either
  the way of its own line or a victim, and a victim is never on a line some transaction
  holds (`Hierarchy.Room`).
* Eviction and the drain add writeback transactions only, and change statuses
  (`Hierarchy.Evicted`).

The invariant `Hierarchy.Pinned` bundles the chains held with the facts about shapes that the
argument needs; each action of the directory keeps it (one triple per action, as for the
locks), so every call does, and by `Hierarchy.Durable` so does every run of a machine as set
up (`Hierarchy.durable_pinned`, `Machine.pinned_new`).

Its frame lemmas are simp lemmas: `Pinned` is unchanged by steps on counters, statuses and
copies above (`pinned_modifyCache`, `pinned_ownerAbove` and their kin), by closing an entry
(`Pinned.close`) and by taking a cache off a chain (`Pinned.leave`).
-/

namespace CacheHierarchy

/-! ## Chains of entries -/

namespace Entry

theorem orderOf_stamp_of_ne (e : Entry) {id j : Nat} (h : j ≠ id) :
    (e.stamp id).orderOf j = e.orderOf j := by
  simp only [orderOf, stamp, List.getD_eq_getElem?_getD, List.getElem?_set_ne (Ne.symm h)]

/-- A fresh entry has an empty chain. -/
theorem orderOf_new (p : Packet) (lock : Lock) (caches now j : Nat) :
    (new p lock caches now).orderOf j = 0 := by
  simp only [orderOf, new, List.getD_eq_getElem?_getD, List.getElem?_replicate]
  split <;> rfl

@[simp] theorem op_stamp (e : Entry) (id : Nat) : (e.stamp id).op = e.op := rfl

@[simp] theorem op_new (p : Packet) (lock : Lock) (caches now : Nat) :
    (new p lock caches now).op = p.op := rfl

/-- Leaving the chain takes a cache's place out and no other. -/
theorem orderOf_leave (e : Entry) (id j r : Nat)
    (h : ({ e with requested := r, order := e.order.set id 0 } : Entry).orderOf j ≠ 0) :
    e.orderOf j ≠ 0 := by
  by_cases hj : j = id
  · subst hj
    refine absurd ?_ h
    simp only [orderOf, List.getD_eq_getElem?_getD, List.getElem?_set_self']
    cases e.order[j]? <;> rfl
  · simpa only [orderOf, List.getD_eq_getElem?_getD, List.getElem?_set_ne (Ne.symm hj)] using h

end Entry

namespace Directory

@[simp] theorem entries_count (d : Directory) (f : DirectoryStat → DirectoryStat) :
    (d.count f).entries = d.entries := by
  simp only [count]

theorem entries_close (d : Directory) (k : Nat) : (d.close k).entries = d.entries.eraseIdx k := by
  simp only [close]

theorem entries_modifyEntry (d : Directory) (k : Nat) (f : Entry → Entry) :
    (d.modifyEntry k f).entries = d.entries.modify k f := by
  simp only [modifyEntry]

/-- Opening an entry and stamping it puts the new entry, stamped, at the end. -/
theorem entries_openEntry_stamp (d : Directory) (p : Packet) (now id : Nat) :
    ((d.openEntry p now).2.modifyEntry (d.openEntry p now).1 (·.stamp id)).entries =
      d.entries ++ [(Entry.new p (lockOf p) d.cacheCount now).stamp id] := by
  simp only [openEntry, modifyEntry, lockOf]
  rw [List.modify_eq_set_getElem?, List.getElem?_append_right (le_refl _)]
  simp

/-- The entry a request is found to belong to is on the request's line. -/
theorem findEntry_sameLine {d : Directory} {p : Packet} {k : Nat} (h : d.findEntry p = some k) :
    ∃ e, d.entries[k]? = some e ∧ d.sameLine e.addr p.addr = true := by
  obtain ⟨hk, hmatch, -⟩ := List.findIdx?_eq_some_iff_getElem.1 h
  simp only [Bool.and_eq_true] at hmatch
  exact ⟨_, List.getElem?_eq_getElem hk, hmatch.2⟩

/-- The entry `entry` a request comes with, if any, is an entry of the request's line. -/
def EntryOn (d : Directory) (p : Packet) (entry : Option Nat) : Prop :=
  ∀ k, entry = some k → ∃ e, d.entries[k]? = some e ∧ d.sameLine e.addr p.addr = true

@[simp] theorem entryOn_findEntry (d : Directory) (p : Packet) : d.EntryOn p (d.findEntry p) :=
  fun _ hk => findEntry_sameLine hk

@[simp] theorem entryOn_of_findEntry {d : Directory} {p : Packet} {k : Nat}
    (h : d.findEntry p = some k) : d.EntryOn p (some k) :=
  h ▸ entryOn_findEntry d p

@[simp] theorem entryOn_count (d : Directory) (f : DirectoryStat → DirectoryStat) (p : Packet)
    (entry : Option Nat) : (d.count f).EntryOn p entry ↔ d.EntryOn p entry :=
  Iff.rfl

/-- A request with no entry yet comes with none to check. -/
@[simp] theorem entryOn_none (d : Directory) (p : Packet) : d.EntryOn p none :=
  fun _ hk => (Option.some_ne_none _ hk.symm).elim

end Directory

/-! ## The invariant -/

namespace Hierarchy

/-- Cache `id` holds a way on the line of `addr`. -/
def Holds (h : Hierarchy) (id : Nat) (addr : UInt64) : Prop :=
  ∃ c, h.caches[id]? = some c ∧ (c.findLine addr).isSome

/-- Every cache in the chain of a demand or prefetch transaction holds the transaction's line,
found from the address the transaction started with. -/
def ChainsHold (h : Hierarchy) : Prop :=
  ∀ e ∈ h.directory.entries, e.op ≠ .writeback → ∀ id, e.orderOf id ≠ 0 → h.Holds id e.addr

/-- The invariant of the chains held: every cache fits the directory, reads lines as it does,
and sits in the slot of its id, and the chains are held. -/
structure Pinned (h : Hierarchy) : Prop where
  wellBuilt : h.WellBuilt
  aligned : h.Aligned
  slotIds : h.SlotIds
  chains : h.ChainsHold

/-- `h` is `h₀` after evictions: the same shapes and tags, and the entries of `h₀` followed by
writeback transactions only. -/
@[mk_iff] structure Evicted (h₀ h : Hierarchy) : Prop where
  shapes : h.shapes = h₀.shapes
  tags : h.tags = h₀.tags
  entries : ∃ l, h.directory.entries = h₀.directory.entries ++ l ∧ ∀ e ∈ l, e.op = .writeback

namespace Evicted

theorem refl (h : Hierarchy) : Evicted h h := ⟨rfl, rfl, [], by simp, by simp⟩

theorem trans {h₁ h₂ h₃ : Hierarchy} (h₁₂ : Evicted h₁ h₂) (h₂₃ : Evicted h₂ h₃) :
    Evicted h₁ h₃ := by
  obtain ⟨l₁, he₁, hl₁⟩ := h₁₂.entries
  obtain ⟨l₂, he₂, hl₂⟩ := h₂₃.entries
  refine ⟨h₂₃.shapes.trans h₁₂.shapes, h₂₃.tags.trans h₁₂.tags, l₁ ++ l₂, ?_, ?_⟩
  · rw [he₂, he₁, List.append_assoc]
  · intro e he
    rcases List.mem_append.1 he with he | he
    · exact hl₁ e he
    · exact hl₂ e he

/-- A change that keeps the shapes, the tags and every entry. -/
theorem of_frame {h h' : Hierarchy} (hs : h'.shapes = h.shapes) (ht : h'.tags = h.tags)
    (he : h'.directory.entries = h.directory.entries) : Evicted h h' :=
  ⟨hs, ht, [], by rw [he, List.append_nil], by simp⟩

theorem of_restatus {h h' : Hierarchy} (hr : Restatus h h') : Evicted h h' :=
  .of_frame hr.shapes hr.tags (by rw [hr.directory])

/-- Evictions are counted up to status changes. -/
theorem restatus_iff {h₀ h h' : Hierarchy} (hr : Restatus h h') : Evicted h₀ h' ↔ Evicted h₀ h :=
  ⟨fun hev => hev.trans (.of_restatus hr.symm), fun hev => hev.trans (.of_restatus hr)⟩

/-- A demand entry after evictions was there before. -/
theorem mem {h₀ h : Hierarchy} (hev : Evicted h₀ h) {e : Entry} (he : e ∈ h.directory.entries)
    (hop : e.op ≠ .writeback) : e ∈ h₀.directory.entries := by
  obtain ⟨l, hl, hwb⟩ := hev.entries
  rw [hl] at he
  rcases List.mem_append.1 he with he | he
  · exact he
  · exact absurd (hwb e he) hop

theorem getElem?_entries {h₀ h : Hierarchy} (hev : Evicted h₀ h) {k : Nat} {e : Entry}
    (he : h₀.directory.entries[k]? = some e) : h.directory.entries[k]? = some e := by
  obtain ⟨l, hl, -⟩ := hev.entries
  rw [hl, List.getElem?_append_left (List.getElem?_eq_some_iff.1 he).1, he]

/-- The entry a request came with stays an entry of its line. -/
theorem entryOn {h₀ h : Hierarchy} (hev : Evicted h₀ h) {p : Packet} {entry : Option Nat}
    (hon : h₀.directory.EntryOn p entry) : h.directory.EntryOn p entry := by
  intro k hk
  obtain ⟨e, he, hsame⟩ := hon k hk
  refine ⟨e, hev.getElem?_entries he, ?_⟩
  rw [Directory.sameLine_iff, lineMask_of_shapes hev.shapes, ← Directory.sameLine_iff]
  exact hsame

end Evicted

/-- In aligned caches, a cache that holds an address holds every address of its line. -/
theorem Holds.of_sameLine {h : Hierarchy} (ha : h.Aligned) {id : Nat} {a b : UInt64}
    (hh : h.Holds id a) (hab : h.directory.sameLine b a = true) : h.Holds id b := by
  obtain ⟨c, hc, hfound⟩ := hh
  refine ⟨c, hc, ?_⟩
  rw [Cache.findLine_eq_of_lineMask (ha id c hc) ((h.directory.sameLine_iff b a).1 hab)]
  exact hfound

/-- What a cache holds depends on the shapes and tags only. -/
theorem Holds.of_frame {h h' : Hierarchy} {id : Nat} {addr : UInt64} (hh : h.Holds id addr)
    (hs : h'.shapes = h.shapes) (ht : h'.tags = h.tags) : h'.Holds id addr := by
  obtain ⟨c, hc, hfound⟩ := hh
  obtain ⟨c', hc', hcs⟩ := exists_of_shapes hs.symm hc
  refine ⟨c', hc', ?_⟩
  rw [Cache.findLine_congr hcs (tags_of_tags ht hc hc') addr]
  exact hfound

theorem Pinned.of_evicted {h₀ h : Hierarchy} (hx : h₀.Pinned) (hev : Evicted h₀ h) :
    h.Pinned where
  wellBuilt := hx.wellBuilt.of_shapes hev.shapes
  aligned := hx.aligned.of_shapes hev.shapes
  slotIds := hx.slotIds.of_shapes hev.shapes
  chains e he hop id horder :=
    (hx.chains e (hev.mem he hop) hop id horder).of_frame hev.shapes hev.tags

theorem Pinned.of_restatus {h h' : Hierarchy} (hx : h.Pinned) (hr : Restatus h h') : h'.Pinned :=
  hx.of_evicted (.of_restatus hr)

theorem Pinned.of_frame {h h' : Hierarchy} (hx : h.Pinned) (hs : h'.shapes = h.shapes)
    (ht : h'.tags = h.tags) (he : h'.directory.entries = h.directory.entries) : h'.Pinned :=
  hx.of_evicted (.of_frame hs ht he)

theorem Pinned.restatus_iff {h h' : Hierarchy} (hr : Restatus h h') : h'.Pinned ↔ h.Pinned :=
  ⟨fun hx => hx.of_restatus hr.symm, fun hx => hx.of_restatus hr⟩

@[simp] theorem pinned_modifyCache {h : Hierarchy} {id : Nat} {f : Cache → Cache}
    (hs : ∀ c, (f c).shape = c.shape) (ht : ∀ c, (f c).tags = c.tags) :
    (h.modifyCache id f).Pinned ↔ h.Pinned :=
  Pinned.restatus_iff (restatus_modifyCache h id f hs ht)

/-- A change of the directory that keeps its setup and its entries keeps the invariant. -/
@[simp] theorem pinned_modifyDirectory {h : Hierarchy} {f : Directory → Directory}
    (hs : (f h.directory).setup = h.directory.setup)
    (he : (f h.directory).entries = h.directory.entries) :
    (h.modifyDirectory f).Pinned ↔ h.Pinned :=
  ⟨fun hx => hx.of_frame (shapes_modifyDirectory h f hs).symm (by simp) he.symm,
    fun hx => hx.of_frame (shapes_modifyDirectory h f hs) (by simp) he⟩

/-! The walks above a cache change statuses only. -/

@[simp] theorem pinned_ownerAbove (h : Hierarchy) (fuel id : Nat) (addr : UInt64) (b : Bool) :
    (h.ownerAbove fuel id addr b).2.Pinned ↔ h.Pinned :=
  Pinned.restatus_iff (ownerAbove_restatus ..)

@[simp] theorem pinned_writebackOwner (h : Hierarchy) (fuel id : Nat) (addr : UInt64) :
    (h.writebackOwner fuel id addr).2.Pinned ↔ h.Pinned :=
  Pinned.restatus_iff (writebackOwner_restatus ..)

@[simp] theorem pinned_evictAbove (h : Hierarchy) (fuel id : Nat) (addr : UInt64) :
    (h.evictAbove fuel id addr).Pinned ↔ h.Pinned :=
  Pinned.restatus_iff (evictAbove_restatus ..)

/-- Closing an entry keeps the chains of the others. -/
@[simp] theorem Pinned.close {h : Hierarchy} (hx : h.Pinned) (k : Nat) :
    (h.modifyDirectory (·.close k)).Pinned where
  wellBuilt := hx.wellBuilt.of_shapes (by simp)
  aligned := hx.aligned.of_shapes (by simp)
  slotIds := hx.slotIds.of_shapes (by simp)
  chains e he hop id horder := by
    rw [directory_modifyDirectory, Directory.entries_close] at he
    exact (hx.chains e (List.mem_of_mem_eraseIdx he) hop id horder).of_frame (by simp) (by simp)

/-! ## Changes of the entries -/

@[simp] theorem holds_modifyCache {h : Hierarchy} {id j : Nat} {addr : UInt64}
    {f : Cache → Cache} (hs : ∀ c, (f c).shape = c.shape) (ht : ∀ c, (f c).tags = c.tags) :
    (h.modifyCache id f).Holds j addr ↔ h.Holds j addr :=
  ⟨fun hh => hh.of_frame (shapes_modifyCache h id f hs).symm (tags_modifyCache h id f ht).symm,
    fun hh => hh.of_frame (shapes_modifyCache h id f hs) (tags_modifyCache h id f ht)⟩

@[simp] theorem holds_modifyDirectory (h : Hierarchy) (f : Directory → Directory) (id : Nat)
    (addr : UInt64) : (h.modifyDirectory f).Holds id addr ↔ h.Holds id addr := Iff.rfl

/-- A change of the entries alone keeps the invariant if every demand entry after it has its
chain held. -/
theorem Pinned.of_entries {h : Hierarchy} (hx : h.Pinned) (f : Directory → Directory)
    (hsize : (f h.directory).setup = h.directory.setup)
    (he : ∀ e ∈ (f h.directory).entries, e.op ≠ .writeback →
      ∀ id, e.orderOf id ≠ 0 → h.Holds id e.addr) :
    (h.modifyDirectory f).Pinned where
  wellBuilt := hx.wellBuilt.of_shapes (shapes_modifyDirectory h f hsize)
  aligned := hx.aligned.of_shapes (shapes_modifyDirectory h f hsize)
  slotIds := hx.slotIds.of_shapes (shapes_modifyDirectory h f hsize)
  chains := he

/-- Putting cache `id` on the chain of entry `k` keeps the chains held if the cache holds the
entry's line. -/
theorem Pinned.stamp {h : Hierarchy} (hx : h.Pinned) {k id : Nat} {e : Entry}
    (hk : h.directory.entries[k]? = some e) (hholds : h.Holds id e.addr) :
    (h.modifyDirectory (·.modifyEntry k (·.stamp id))).Pinned := by
  refine hx.of_entries _ (by simp) fun e' he' hop j horder => ?_
  rw [Directory.entries_modifyEntry, List.modify_eq_set_getElem?, hk] at he'
  rcases List.mem_or_eq_of_mem_set he' with he' | rfl
  · exact hx.chains e' he' hop j horder
  · by_cases hj : j = id
    · subst hj
      exact hholds
    · rw [Entry.orderOf_stamp_of_ne e hj] at horder
      exact hx.chains e (List.mem_of_getElem? hk) hop j horder

/-- Opening the entry of `p` with cache `id` on its chain keeps the chains held if the cache
holds the line of `p`, or `p` is a writeback. -/
theorem Pinned.openStamp {h : Hierarchy} (hx : h.Pinned) (p : Packet) (now id : Nat)
    (hholds : p.op ≠ .writeback → h.Holds id p.addr) :
    (h.modifyDirectory fun _ => (h.directory.openEntry p now).2.modifyEntry
      (h.directory.openEntry p now).1 (·.stamp id)).Pinned := by
  refine hx.of_entries _ (by simp) fun e he hop j horder => ?_
  rw [Directory.entries_openEntry_stamp, List.mem_append, List.mem_singleton] at he
  rcases he with he | rfl
  · exact hx.chains e he hop j horder
  · -- the new chain has cache `id` alone
    by_cases hj : j = id
    · subst hj
      exact hholds hop
    · rw [Entry.orderOf_stamp_of_ne _ hj, Entry.orderOf_new] at horder
      exact absurd rfl horder

/-- Putting cache `id` on the chain of the entry a request came with keeps the chains held if
the cache holds the request's line. -/
theorem Pinned.stampOn {h : Hierarchy} (hx : h.Pinned) {p : Packet} {k id : Nat}
    (hon : h.directory.EntryOn p (some k)) (hholds : h.Holds id p.addr) :
    (h.modifyDirectory (·.modifyEntry k (·.stamp id))).Pinned := by
  -- the entry is on the line the cache holds
  obtain ⟨e, he, hsame⟩ := hon k rfl
  exact hx.stamp he (hholds.of_sameLine hx.aligned hsame)

/-- Taking cache `id` off the chain of entry `k` keeps the chains held. -/
@[simp] theorem Pinned.leave {h : Hierarchy} (hx : h.Pinned) (k id r : Nat) {e : Entry}
    (he : h.directory.entries.getD k default = e) :
    (h.modifyDirectory (·.modifyEntry k fun _ =>
      { e with requested := r, order := e.order.set id 0 })).Pinned := by
  refine hx.of_entries _ (by simp) fun e' he' hop j horder => ?_
  rw [Directory.entries_modifyEntry, List.modify_eq_set_getElem?] at he'
  cases hk : h.directory.entries[k]? with
  | none =>
    rw [hk] at he'
    exact hx.chains e' he' hop j horder
  | some e₀ =>
    rw [hk] at he'
    have he₀ : e₀ = e := by rw [← he, List.getD_eq_getElem?_getD, hk, Option.getD_some]
    subst he₀
    rcases List.mem_or_eq_of_mem_set he' with he' | rfl
    · exact hx.chains e' he' hop j horder
    · exact hx.chains e₀ (List.mem_of_getElem? hk) hop j (Entry.orderOf_leave e₀ id j r horder)

/-! ## Installing a line -/

/-- A way of cache `id` that may take the line of `addr`: a way of the set of `addr` whose
line, if a demand transaction holds it, is the line of `addr`. -/
def Room (h : Hierarchy) (id : Nat) (addr : UInt64) (place : Nat × Nat) : Prop :=
  ∃ c, h.caches[id]? = some c ∧ place.1 = c.fields.indexOf addr ∧
    place.2 < (c.lines.getD place.1 #[]).size ∧
    ∀ e ∈ h.directory.entries, e.op ≠ .writeback →
      c.fields.sameLine (c.line place.1 place.2).tag e.addr = true →
        c.fields.sameLine addr e.addr = true

theorem Room.of_evicted {h₀ h : Hierarchy} {id : Nat} {addr : UInt64} {place : Nat × Nat}
    (hr : h₀.Room id addr place) (hev : Evicted h₀ h) : h.Room id addr place := by
  obtain ⟨c, hc, hidx, hw, hkeep⟩ := hr
  obtain ⟨c', hc', hcs⟩ := exists_of_shapes hev.shapes.symm hc
  have hf : c'.fields = c.fields := by simpa using congrArg Cache.Shape.fields hcs
  have ht := tags_of_tags hev.tags hc hc'
  refine ⟨c', hc', by rw [hf]; exact hidx, ?_, fun e he hop hsame => ?_⟩
  · rw [Cache.size_getD_lines, hcs, ← Cache.size_getD_lines]
    exact hw
  · rw [hf, Cache.tag_line_congr ht] at hsame
    rw [hf]
    exact hkeep e (hev.mem he hop) hop hsame

@[simp] theorem room_modifyDirectory {h : Hierarchy} {j : Nat} {addr : UInt64}
    {place : Nat × Nat} {f : Directory → Directory}
    (he : (f h.directory).entries = h.directory.entries) :
    (h.modifyDirectory f).Room j addr place ↔ h.Room j addr place := by
  simp only [Room, caches_modifyDirectory, directory_modifyDirectory, he]

/-- A change of a cache's statuses or counters keeps the room it has. -/
@[simp] theorem room_modifyCache {h : Hierarchy} {id j : Nat} {addr : UInt64}
    {place : Nat × Nat} {f : Cache → Cache} (hs : ∀ c, (f c).shape = c.shape)
    (ht : ∀ c, (f c).tags = c.tags) :
    (h.modifyCache id f).Room j addr place ↔ h.Room j addr place :=
  ⟨fun hr => hr.of_evicted (.of_restatus (restatus_modifyCache h id f hs ht).symm),
    fun hr => hr.of_evicted (.of_restatus (restatus_modifyCache h id f hs ht))⟩

/-- The way where a cache finds the line of `addr` has room for it. -/
theorem room_of_findLine {h : Hierarchy} {id : Nat} {c : Cache} (hc : h.caches[id]? = some c)
    {addr : UInt64} {i w : Nat} (hf : c.findLine addr = some (i, w)) : h.Room id addr (i, w) := by
  obtain ⟨hi, hw, hsame⟩ := Cache.findLine_eq_some hf
  refine ⟨c, hc, hi, hw, fun e _ _ htag => ?_⟩
  -- the way's line is the line of `addr`, so a line it shares is shared with `addr`
  exact c.fields.sameLine_trans ((c.fields.sameLine_comm addr _).trans hsame) htag

theorem caches_modifyCache_self {h : Hierarchy} {id : Nat} {c : Cache}
    (hc : h.caches[id]? = some c) (f : Cache → Cache) :
    (h.modifyCache id f).caches[id]? = some (f c) := by
  simp [modifyCache, Array.getElem?_modify, hc]

theorem caches_modifyCache_of_ne (h : Hierarchy) {id j : Nat} (hj : j ≠ id) (f : Cache → Cache) :
    (h.modifyCache id f).caches[j]? = h.caches[j]? := by
  simp [modifyCache, Array.getElem?_modify, Ne.symm hj]

/-- Installing the line of `x` at a way with room for it keeps the chains held, and the cache
then holds the line of `x`. The change may also touch statuses and counters (`f`). -/
theorem Pinned.install {h : Hierarchy} (hx : h.Pinned) {id : Nat} {x : UInt64} {i w : Nat}
    (hroom : h.Room id x (i, w)) {f : Cache → Cache}
    (hf : ∀ c, (f c).shape = c.shape ∧ (f c).tags = (c.changeAddress i w x).tags) :
    (h.modifyCache id f).Pinned ∧ (h.modifyCache id f).Holds id x := by
  obtain ⟨c, hc, hidx, hw, hkeep⟩ := hroom
  dsimp only at hidx hw hkeep
  subst hidx
  have hs : (h.modifyCache id f).shapes = h.shapes :=
    shapes_modifyCache h id f fun c => (hf c).1
  -- the new cache finds a line where the cache with the line of `x` installed finds it
  have hfind : ∀ a, (f c).findLine a = (c.changeAddress (c.fields.indexOf x) w x).findLine a :=
    Cache.findLine_congr ((hf c).1.trans (by simp)) (hf c).2
  have hself := caches_modifyCache_self hc f
  refine ⟨⟨hx.wellBuilt.of_shapes hs, hx.aligned.of_shapes hs, hx.slotIds.of_shapes hs,
    fun e he hop j horder => ?_⟩, ⟨f c, hself, by rw [hfind]; exact c.findLine_changeAddress_self x hw⟩⟩
  obtain ⟨c₀, hc₀, hfound⟩ := hx.chains e he hop j horder
  by_cases hj : j = id
  · subst hj
    obtain rfl := Option.some.inj (hc₀.symm.trans hc)
    exact ⟨f c₀, hself, by rw [hfind]; exact c₀.findLine_changeAddress_isSome hfound (hkeep e he hop)⟩
  · exact ⟨c₀, by rw [caches_modifyCache_of_ne h hj]; exact hc₀, hfound⟩

/-- Installing the line of `x`, after evictions, at a way that had room for it before. -/
theorem Pinned.install_of_evicted {h₀ h : Hierarchy} {id : Nat} {x : UInt64} {place : Nat × Nat}
    (hroom : h₀.Room id x place) (hx : h₀.Pinned) (hev : h₀.Evicted h) {f : Cache → Cache}
    (hf : ∀ c, (f c).shape = c.shape ∧ (f c).tags = (c.changeAddress place.1 place.2 x).tags) :
    (h.modifyCache id f).Pinned ∧ (h.modifyCache id f).Holds id x :=
  (hx.of_evicted hev).install (hroom.of_evicted hev) hf

end Hierarchy

/-! ## Eviction -/

namespace Action

/-- Writing a way back opens a writeback transaction, and changes no tag. -/
@[spec high] theorem writeBack_evicted (id index way now : Nat) (h₀ : Hierarchy) :
    ⦃fun h => ⌜h = h₀⌝⦄ Action.writeBack id index way now
    ⦃post⟨fun _ h => ⌜h₀.Evicted h⌝, fun _ h => ⌜h₀.Evicted h⌝⟩⦄ := by
  unfold Action.writeBack
  mvcgen [Action.cache, Action.directory, Action.ofExcept, Action.putCache,
    Action.updateDirectory, Action.fail]
  all_goals
    try dsimp +zetaDelta only at *
    subst_vars
  all_goals simp_all [Cache.allocate_eq_iff, Hierarchy.evicted_iff,
    Directory.entries_openEntry_stamp, Packet.request, Packet.route, Packet.enterNow]

end Action

/-- The victim a cache gives up is a way of the set of `addr` whose line no transaction
holds: the cache skips locked lines, and reads lines as the directory does. -/
theorem Hierarchy.room_of_victim {h : Hierarchy} (hx : h.Pinned) {id : Nat} {c c' : Cache}
    (hc : h.caches[id]? = some c) {addr : UInt64} {i w : Nat}
    (hv : c.victim addr h.directory.isLocked = .ok (some (i, w), c')) : h.Room id addr (i, w) := by
  obtain ⟨hi, hw, hfree⟩ := Cache.victim_some c c' addr _ _ (hx.wellBuilt id c hc) i w hv
  refine ⟨c, hc, hi, hw, fun e he _ htag => ?_⟩
  have hline := ((hx.aligned id c hc).sameLine_iff _ _).1 htag
  have hlocked : h.directory.isLocked (c.line i w).tag = true :=
    (Directory.isLocked_iff _ _).2 ⟨e, he, (h.directory.sameLine_iff _ _).2 hline.symm⟩
  rw [hfree] at hlocked
  cases hlocked

namespace Action

/-- Making room for `addr` in cache `id` evicts, and the way it frees, if any, has room for the
line of `addr`. -/
@[spec high] theorem makeRoom_evicted (id : Nat) (addr : UInt64) (now : Nat) (h₀ : Hierarchy) :
    ⦃fun h => ⌜h = h₀ ∧ h₀.Pinned⌝⦄ Action.makeRoom id addr now
    ⦃post⟨fun r h => ⌜h₀.Evicted h ∧ ∀ place, r = some place → h₀.Room id addr place⌝,
      fun _ h => ⌜h₀.Evicted h⌝⟩⦄ := by
  apply triple_of_pointwise
  rintro s ⟨hs, hx⟩
  subst s
  -- a victim is written back after status changes only, which are evictions too
  have hwb : ∀ index way Y, ⦃fun h => ⌜h = Y ∧ Hierarchy.Restatus h₀ Y ∧ ∃ c v,
      h₀.caches[id]? = some c ∧ c.victim addr h₀.directory.isLocked = .ok v ∧
      v.1 = some (index, way)⌝⦄
      Action.writeBack id index way now
      ⦃post⟨fun _ h => ⌜h₀.Evicted h⌝, fun _ h => ⌜h₀.Evicted h⌝⟩⦄ := by
    intro index way Y
    apply triple_of_pointwise
    rintro s ⟨hs, hY, -⟩
    subst s
    have hev : h₀.Evicted Y := .of_restatus hY
    exact triple_conseq (writeBack_evicted id index way now _) (fun _ hs => hs)
      (fun _ _ hw => hev.trans hw) (fun _ _ hw => hev.trans hw)
  refine triple_conseq (makeRoom_keeps id addr now h₀ (.refl h₀)
    (fun _ _ hr => Hierarchy.Evicted.restatus_iff hr) hwb) (fun _ hs => hs) ?_ (fun _ _ hev => hev)
  rintro r h ⟨hev, hvictim⟩
  refine ⟨hev, fun ⟨i, w⟩ hr => ?_⟩
  -- the way freed is the victim's
  obtain ⟨c, ⟨v1, c'⟩, hc, hv, rfl⟩ := hvictim (i, w) hr
  exact Hierarchy.room_of_victim hx hc hv

end Action

end CacheHierarchy
