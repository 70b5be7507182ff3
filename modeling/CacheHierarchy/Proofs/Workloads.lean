import Mathlib
import CacheHierarchy.Proofs.ServedFromAbove

set_option autoImplicit false

/-! # Slots and workloads: what a call on the directory keeps of each cache

A call on the directory (a request or an answer a cache hands over, a request it has just
sent, a cycle of the drain) changes the MSHR of a cache only where it stores a packet in a
free slot or wakes the packets waiting on a line. This module gives the slot-level facts
about those changes (`Mshr.allocate_spec`, `Mshr.allocate_held`) and the **workload** of a
cache, its level and its MSHR, which every other change keeps: statuses, tags, ages,
counters, and the walks above a cache (`Hierarchy.workloads_ownerAbove` and its kin). The
walks are handled once, for any preorder of which each change they make is a step
(`Hierarchy.ownerAbove_rel`).
-/

namespace CacheHierarchy

namespace Packet

/-- A packet that enters a phase is the packet in that phase, ready after the stall. -/
theorem eq_of_enter {p q : Packet} {phase : Phase} {now stall : Nat}
    (h : p.enter phase now stall = .ok q) : q = { p with phase, ready := now + stall } := by
  unfold enter Word.add at h
  split at h
  · cases h
    rfl
  · cases h

end Packet

/-! ## Slots of an MSHR -/

namespace Mshr

theorem get?_setIfInBounds (m : Mshr) (slot s : Nat) (x : Option Packet) :
    ({ m with slots := m.slots.setIfInBounds slot x } : Mshr).get? s =
      if slot = s ∧ slot < m.slots.size then x else m.get? s := by
  simp only [get?, Array.getElem?_setIfInBounds]
  split <;> split <;> simp_all

theorem get?_put (m : Mshr) (slot s : Nat) (p : Packet) :
    (m.put slot p).get? s = if slot = s ∧ slot < m.slots.size then some p else m.get? s :=
  get?_setIfInBounds m slot s (some p)

@[simp] theorem order_put (m : Mshr) (slot : Nat) (p : Packet) : (m.put slot p).order = m.order :=
  rfl

@[simp] theorem size_put (m : Mshr) (slot : Nat) (p : Packet) :
    (m.put slot p).slots.size = m.slots.size := by
  simp [put]

theorem get?_mapPackets (m : Mshr) (f : Packet → Packet) (s : Nat) :
    (m.mapPackets f).get? s = (m.get? s).map f := by
  simp only [mapPackets, get?, Array.getElem?_map]
  cases m.slots[s]? <;> simp

@[simp] theorem order_mapPackets (m : Mshr) (f : Packet → Packet) :
    (m.mapPackets f).order = m.order := rfl

@[simp] theorem slots_placeBorn (m : Mshr) (slot : Nat) : (m.placeBorn slot).slots = m.slots := by
  unfold placeBorn
  split <;> rfl

/-- Placing a slot in the born order keeps every slot there, and places the slot if it holds
a packet. -/
theorem mem_order_placeBorn (m : Mshr) (slot s : Nat) :
    s ∈ (m.placeBorn slot).order ↔ s ∈ m.order ∨ (s = slot ∧ (m.get? slot).isSome) := by
  unfold placeBorn bornOf
  cases hp : m.get? slot with
  | none => simp
  | some p => simp [(insertAfterLast_perm _ slot m.order).mem_iff, or_comm]

/-- A packet stored by `allocate` takes a free slot of its range, placed in the born order
when it lies in the MSHR; every other slot stays. -/
theorem allocate_spec {m m' : Mshr} {r : MshrRange} {p : Packet} {slot : Nat}
    (h : m.allocate r p = some (slot, m')) :
    slot ∈ m.range r ∧ m.get? slot = none ∧
      (∀ s, m'.get? s = if slot = s ∧ slot < m.slots.size then some p else m.get? s) ∧
      ∀ s, s ∈ m'.order ↔ s ∈ m.order ∨ (s = slot ∧ slot < m.slots.size) := by
  unfold allocate at h
  split at h
  · cases h
  · rename_i s hs
    obtain ⟨rfl, rfl⟩ := Prod.mk.inj (Option.some.inj h)
    have hfree : m.get? s = none := by simpa using List.find?_some hs
    refine ⟨List.mem_of_find?_eq_some hs, hfree, fun t => ?_, fun t => ?_⟩
    · rw [get?, slots_placeBorn, ← get?, get?_setIfInBounds]
    · rw [mem_order_placeBorn, get?_setIfInBounds]
      by_cases hlt : s < m.slots.size <;> simp [hlt, hfree]

theorem size_allocate {m m' : Mshr} {r : MshrRange} {p : Packet} {slot : Nat}
    (h : m.allocate r p = some (slot, m')) : m'.slots.size = m.slots.size ∧ m'.range = m.range := by
  unfold allocate at h
  split at h
  · cases h
  · obtain ⟨rfl, rfl⟩ := Prod.mk.inj (Option.some.inj h)
    refine ⟨by simp, ?_⟩
    funext r
    unfold placeBorn
    split <;> cases r <;> rfl

/-- Every slot of every range lies in the MSHR, so a packet stored in a free slot is held. -/
def Fits (m : Mshr) : Prop := ∀ r, ∀ s ∈ m.range r, s < m.slots.size

theorem Fits.of_size {m m' : Mshr} (hm : m.Fits) (hs : m'.slots.size = m.slots.size)
    (hr : m'.range = m.range) : m'.Fits := by
  intro r s hsr
  rw [hr] at hsr
  rw [hs]
  exact hm r s hsr

/-- The range sizes of an MSHR that fit its slots. -/
theorem fits_empty (r w p : Nat) : (empty r w p).Fits := by
  intro rg s hs
  cases rg <;> simp [range, empty] at hs ⊢ <;> omega

/-- A packet stored by `allocate` in an MSHR that fits is held at its slot, in the born
order. -/
theorem allocate_held {m m' : Mshr} (hm : m.Fits) {r : MshrRange} {p : Packet} {slot : Nat}
    (h : m.allocate r p = some (slot, m')) : m'.get? slot = some p ∧ slot ∈ m'.order := by
  obtain ⟨hr, -, hget, horder⟩ := allocate_spec h
  have hlt := hm r slot hr
  exact ⟨by simp [hget, hlt], (horder slot).2 (.inr ⟨rfl, hlt⟩)⟩

end Mshr

/-- A cache that finds no free slot keeps its packets; one that finds one stores the packet
in its MSHR. -/
theorem Cache.allocate_none {c c' : Cache} {r : MshrRange} {q : Packet}
    (h : c.allocate r q = (none, c')) : c'.mshr = c.mshr ∧ c'.level = c.level := by
  unfold allocate at h
  split at h <;> cases h
  exact ⟨rfl, rfl⟩

theorem Cache.allocate_some {c c' : Cache} {r : MshrRange} {q : Packet} {slot : Nat}
    (h : c.allocate r q = (some slot, c')) :
    c.mshr.allocate r q = some (slot, c'.mshr) ∧ c'.level = c.level := by
  unfold allocate at h
  split at h
  · rename_i slot' m hm
    cases h
    exact ⟨hm, rfl⟩
  · cases h

/-! ## Workloads

The level of a cache and its MSHR, its **workload**, change only where a call stores a packet
or wakes one. Every other change a call makes (statuses, tags, ages, counters, the walks above
a cache) keeps the workloads. -/

namespace Cache

/-- The level of a cache and the packets it holds. -/
def workload (c : Cache) : Nat × Mshr := (c.level, c.mshr)

-- Proved by tactic, not by the term `rfl`: simp then rewrites with them rather than unfolding,
-- and can discharge the side condition of `Hierarchy.workloads_modifyCache` with them.
@[simp] theorem workload_changeStatus (c : Cache) (index way : Nat) (st : Status) :
    (c.changeStatus index way st).workload = c.workload := by rfl

@[simp] theorem workload_changeAddress (c : Cache) (index way : Nat) (addr : UInt64) :
    (c.changeAddress index way addr).workload = c.workload := by rfl

@[simp] theorem workload_touch (c : Cache) (index way now : Nat) :
    (c.touch index way now).workload = c.workload := by rfl

@[simp] theorem workload_countUsage (c : Cache) (f : LineUsage → LineUsage) :
    (c.countUsage f).workload = c.workload := by rfl

@[simp] theorem workload_count (c : Cache) (f : CacheStat → CacheStat) :
    (c.count f).workload = c.workload := by rfl

@[simp] theorem workload_shareCopy (c : Cache) (addr : UInt64) :
    (c.shareCopy addr).workload = c.workload := by
  unfold shareCopy
  split <;> rfl

@[simp] theorem workload_evictCopy (c : Cache) (addr : UInt64) :
    (c.evictCopy addr).workload = c.workload := by
  unfold evictCopy
  split
  · split <;> rfl
  · rfl

@[simp] theorem workload_invalidateCopy (c : Cache) (addr : UInt64) :
    (c.invalidateCopy addr).workload = c.workload := by
  unfold invalidateCopy
  split
  · split <;> rfl
  · rfl

end Cache

namespace Hierarchy

/-- The workloads of the caches, in id order. -/
def workloads (h : Hierarchy) : List (Nat × Mshr) := h.caches.toList.map Cache.workload

@[simp] theorem workloads_modifyDirectory (h : Hierarchy) (f : Directory → Directory) :
    (h.modifyDirectory f).workloads = h.workloads := rfl

@[simp] theorem workloads_modifyCache (h : Hierarchy) (id : Nat) (f : Cache → Cache)
    (hf : ∀ c, (f c).workload = c.workload) : (h.modifyCache id f).workloads = h.workloads := by
  simp only [workloads, modifyCache, Array.toList_modify]
  exact List.map_modify_of_comp _ _ _ _ fun c _ => hf c

@[simp] theorem workloads_setCacheAt (h : Hierarchy) (id : Nat) (c : Cache)
    (hc : ∀ c₀, h.caches[id]? = some c₀ → c.workload = c₀.workload) :
    (h.setCacheAt id c).workloads = h.workloads := by
  simp only [workloads, setCacheAt, Array.toList_setIfInBounds]
  exact List.map_set_of_forall _ _ _ _ fun c₀ hc₀ => hc c₀ (by simpa using hc₀)

@[simp] theorem workloads_invalidateOthers (h : Hierarchy) (id : Nat) (addr : UInt64) :
    (h.invalidateOthers id addr).workloads = h.workloads := by
  simp only [workloads, invalidateOthers, Array.toList_map, List.map_map]
  apply List.map_congr_left
  intro c _
  simp only [Function.comp]
  split <;> simp

/-- Changing the status of a way keeps the workloads. -/
theorem workloads_changeStatus (h : Hierarchy) (x : Nat) (c : Cache)
    (hc : h.caches[x]? = some c) (i w : Nat) (st : Status) :
    (h.setCacheAt x (c.changeStatus i w st)).workloads = h.workloads :=
  workloads_setCacheAt _ _ _ fun c₀ hc₀ => by
    obtain rfl := Option.some.inj (hc₀.symm.trans hc)
    simp

theorem workload_of_workloads {h h' : Hierarchy} (hw : h'.workloads = h.workloads) (j : Nat) :
    (h'.caches[j]?).map Cache.workload = (h.caches[j]?).map Cache.workload := by
  have hj := congrArg (fun l => l[j]?) hw
  simpa [workloads] using hj

section Walks

/-! The walks above a cache change caches by `changeStatus`, `shareCopy` and `evictCopy`
only, so a preorder of which each such change is a step holds along every walk. -/

variable (R : Hierarchy → Hierarchy → Prop) (hrefl : ∀ h, R h h)
  (htrans : ∀ {h₁ h₂ h₃}, R h₁ h₂ → R h₂ h₃ → R h₁ h₃)
include hrefl htrans

theorem firstCopy_rel (visit : Nat → Hierarchy → Status × Hierarchy)
    (onDirty : Hierarchy → Hierarchy) (hv : ∀ x h, R h (visit x h).2) (hd : ∀ h, R h (onDirty h)) :
    ∀ (xs : List Nat) (h : Hierarchy), R h (firstCopy visit onDirty xs h).2
  | [], h => hrefl h
  | x :: xs, h => by
    have hx := hv x h
    unfold firstCopy
    split <;> rename_i st h' hvis <;> rw [hvis] at hx
    · exact htrans hx (hd h')
    · exact htrans hx (hd h')
    · exact hx
    · exact hx
    · exact htrans hx (firstCopy_rel visit onDirty hv hd xs h')

theorem evictAbove_rel (hevict : ∀ h x addr, R h (h.modifyCache x (·.evictCopy addr))) :
    ∀ (fuel : Nat) (h : Hierarchy) (id : Nat) (addr : UInt64), R h (h.evictAbove fuel id addr)
  | 0, h, _, _ => hrefl h
  | fuel + 1, h, id, addr => by
    unfold evictAbove
    -- the copies are dropped one cache above at a time, each after its own walk
    suffices ∀ (xs : List Nat) (h : Hierarchy), R h (xs.foldl (fun h x =>
        (evictAbove fuel h x addr).modifyCache x (·.evictCopy addr)) h) from this _ h
    intro xs
    induction xs with
    | nil => exact hrefl
    | cons x xs ih =>
      intro h
      exact htrans (htrans (evictAbove_rel hevict fuel h x addr) (hevict _ x addr)) (ih _)

variable (hstatus : ∀ h x c, h.caches[x]? = some c → ∀ i w st,
  R h (h.setCacheAt x (c.changeStatus i w st)))
include hstatus

theorem ownerAbove_rel (hshare : ∀ h x addr, R h (h.modifyCache x (·.shareCopy addr))) :
    ∀ (fuel : Nat) (h : Hierarchy) (id : Nat) (addr : UInt64) (checkLlc : Bool),
      R h (h.ownerAbove fuel id addr checkLlc).2
  | 0, h, _, _, _ => hrefl h
  | fuel + 1, h, id, addr, checkLlc => by
    have ih : ∀ x h, R h (ownerAbove fuel h x addr false).2 :=
      fun x h => ownerAbove_rel hshare fuel h x addr false
    unfold ownerAbove
    split
    · exact hrefl h
    · rename_i c hc
      have above := firstCopy_rel R hrefl htrans _ (fun h => h.modifyCache id (·.shareCopy addr))
        ih (fun h => hshare h id addr) c.higher h
      split
      · exact firstCopy_rel R hrefl htrans _ _ ih hrefl _ h
      · split
        · split
          · exact hstatus h id c hc _ _ _
          · exact hstatus h id c hc _ _ _
          · exact hrefl h
          · exact hrefl h
          · exact above
        · exact above

theorem writebackOwner_rel :
    ∀ (fuel : Nat) (h : Hierarchy) (id : Nat) (addr : UInt64),
      R h (h.writebackOwner fuel id addr).2
  | 0, h, _, _ => hrefl h
  | fuel + 1, h, id, addr => by
    unfold writebackOwner
    apply firstCopy_rel R hrefl htrans _ _ _ hrefl
    intro x h
    split
    · exact hrefl h
    · rename_i c hc
      split
      · split
        · exact hstatus h x c hc _ _ _
        · exact hstatus h x c hc _ _ _
        · exact hrefl h
        · exact hrefl h
        · exact writebackOwner_rel fuel h x addr
      · exact writebackOwner_rel fuel h x addr

end Walks

@[simp] theorem workloads_ownerAbove (h : Hierarchy) (fuel id : Nat) (addr : UInt64)
    (checkLlc : Bool) : (h.ownerAbove fuel id addr checkLlc).2.workloads = h.workloads :=
  ownerAbove_rel (fun h h' => h'.workloads = h.workloads) (fun _ => rfl)
    (fun h₁₂ h₂₃ => h₂₃.trans h₁₂) workloads_changeStatus (fun h x addr => by simp) fuel h id addr
    checkLlc

@[simp] theorem workloads_writebackOwner (h : Hierarchy) (fuel id : Nat) (addr : UInt64) :
    (h.writebackOwner fuel id addr).2.workloads = h.workloads :=
  writebackOwner_rel (fun h h' => h'.workloads = h.workloads) (fun _ => rfl)
    (fun h₁₂ h₂₃ => h₂₃.trans h₁₂) workloads_changeStatus fuel h id addr

@[simp] theorem workloads_evictAbove (h : Hierarchy) (fuel id : Nat) (addr : UInt64) :
    (h.evictAbove fuel id addr).workloads = h.workloads :=
  evictAbove_rel (fun h h' => h'.workloads = h.workloads) (fun _ => rfl)
    (fun h₁₂ h₂₃ => h₂₃.trans h₁₂) (fun h x addr => by simp) fuel h id addr

end Hierarchy

end CacheHierarchy
