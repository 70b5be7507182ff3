import Mathlib
import CacheHierarchy.Proofs.Frame

set_option autoImplicit false

/-! # What an inclusive eviction keeps of the copies above

A cache that must hold every line held above it (`Hierarchy.isInclusiveAt`) evicts a victim in
two walks along the `higher` links. The first (`writebackOwner`) looks for a dirty copy to take
over, and stops at the first valid copy it meets, in the order of the links and depth first.
The second (`evictAbove`) then drops every copy above.

This module holds the facts about single caches and single walks that the proofs about whole
evictions build on: dropping a copy leaves the cache without a valid one
(`Cache.statusOf_evictCopy`), the eviction walk only ever drops copies
(`Hierarchy.cleared_evictAbove`), and a first walk that finds no dirty copy takes no ownership
and changes nothing (`Hierarchy.writebackOwner_eq_of_ne_o`).
-/

namespace CacheHierarchy

namespace Cache

@[simp] theorem findLine_changeStatus (c : Cache) (index way : Nat) (st : Status) (addr : UInt64) :
    (c.changeStatus index way st).findLine addr = c.findLine addr :=
  findLine_congr (by simp) (by simp) addr

@[simp] theorem findLine_countUsage (c : Cache) (f : LineUsage → LineUsage) (addr : UInt64) :
    (c.countUsage f).findLine addr = c.findLine addr := rfl

@[simp] theorem findLine_count (c : Cache) (f : CacheStat → CacheStat) (addr : UInt64) :
    (c.count f).findLine addr = c.findLine addr := rfl

/-- A line `findLine` finds is inside the tag array. -/
theorem findLine_bounds {c : Cache} {addr : UInt64} {i w : Nat}
    (hf : c.findLine addr = some (i, w)) :
    i < c.lines.size ∧ w < (c.lines.getD i #[]).size := by
  simp only [findLine, Option.map_eq_some_iff, Prod.mk.injEq] at hf
  obtain ⟨w', hw', rfl, rfl⟩ := hf
  obtain ⟨hw, -⟩ := Array.findIdx?_eq_some_iff_getElem.1 hw'
  refine ⟨?_, hw⟩
  by_contra hi
  rw [Array.getD_eq_getD_getElem?, Array.getElem?_eq_none (by omega)] at hw
  simp at hw

/-- The line of `addr` after `changeStatus` at the place `findLine` gives. -/
theorem statusOf_changeStatus {c : Cache} {addr : UInt64} {i w : Nat}
    (hf : c.findLine addr = some (i, w)) (st : Status) :
    (c.changeStatus i w st).statusOf addr = st := by
  obtain ⟨hi, hw⟩ := findLine_bounds hf
  rw [statusOf, findLine_changeStatus, hf]
  simp only [line, changeStatus, modifyLine, TagArray.get_modify_self _ _ _ _ hi hw]

@[simp] theorem statusOf_count (c : Cache) (f : CacheStat → CacheStat) (addr : UInt64) :
    (c.count f).statusOf addr = c.statusOf addr := rfl

@[simp] theorem statusOf_countUsage (c : Cache) (f : LineUsage → LineUsage) (addr : UInt64) :
    (c.countUsage f).statusOf addr = c.statusOf addr := rfl

/-- Dropping the copy of `addr` leaves the cache without a valid copy of it. -/
@[simp] theorem statusOf_evictCopy (c : Cache) (addr : UInt64) :
    (c.evictCopy addr).statusOf addr = .i := by
  unfold evictCopy
  split
  · rename_i i w hf
    split
    · -- the copy was invalid already
      simpa [statusOf, hf] using ‹((c.line i w).status == .i) = true›
    · rw [statusOf_count]
      exact statusOf_changeStatus (by simpa using hf) .i
  · simp [statusOf, ‹c.findLine addr = none›]

end Cache

namespace Hierarchy

/-- Cache `y` of `h` holds no valid copy of `addr`. -/
def Cleared (h : Hierarchy) (y : Nat) (addr : UInt64) : Prop :=
  ∀ cy, h.caches[y]? = some cy → cy.statusOf addr = .i

theorem cleared_modifyCache_evictCopy (h : Hierarchy) (x y : Nat) (addr : UInt64)
    (hy : x = y ∨ h.Cleared y addr) : (h.modifyCache x (·.evictCopy addr)).Cleared y addr := by
  intro cy hcy
  simp only [modifyCache, Array.getElem?_modify] at hcy
  split at hcy
  · rename_i hxy
    subst hxy
    obtain ⟨c, -, rfl⟩ := Option.map_eq_some_iff.1 hcy
    exact Cache.statusOf_evictCopy c addr
  · rename_i hxy
    exact (hy.resolve_left hxy) cy hcy

theorem cleared_evictAbove : ∀ (fuel : Nat) (h : Hierarchy) (id y : Nat) (addr : UInt64),
    h.Cleared y addr → (h.evictAbove fuel id addr).Cleared y addr
  | 0, h, _, _, _, hy => hy
  | fuel + 1, h, id, y, addr, hy => by
    unfold evictAbove
    -- each turn of the walk drops copies only
    exact List.foldlRecOn (motive := fun h => h.Cleared y addr) _ _ hy fun h' hy' x _ =>
      cleared_modifyCache_evictCopy _ x y addr (.inr (cleared_evictAbove fuel h' x y addr hy'))

/-- A `firstCopy` walk that reports no dirty copy leaves the hierarchy as it was, when every
visit that reports no dirty copy does. -/
theorem firstCopy_eq_of_ne_o (visit : Nat → Hierarchy → Status × Hierarchy)
    (onDirty : Hierarchy → Hierarchy)
    (hv : ∀ x h, (visit x h).1 ≠ .m → (visit x h).1 ≠ .o → (visit x h).2 = h) :
    ∀ (xs : List Nat) (h : Hierarchy),
      (firstCopy visit onDirty xs h).1 ≠ .o → (firstCopy visit onDirty xs h).2 = h
  | [], h, _ => rfl
  | x :: xs, h, hne => by
    have hx := hv x h
    unfold firstCopy at hne ⊢
    split at hne <;> rename_i st h' hvis <;> rw [hvis] at hx <;> simp only at hx hne ⊢
    · exact absurd rfl hne
    · exact absurd rfl hne
    · exact hx (by decide) (by decide)
    · exact hx (by decide) (by decide)
    · rw [firstCopy_eq_of_ne_o visit onDirty hv xs h' hne]
      exact hx (by decide) (by decide)

/-- The walk above a victim that finds no dirty copy first takes no ownership: it changes
nothing. -/
theorem writebackOwner_eq_of_ne_o : ∀ (fuel : Nat) (h : Hierarchy) (id : Nat) (addr : UInt64),
    (h.writebackOwner fuel id addr).1 ≠ .o → (h.writebackOwner fuel id addr).2 = h
  | 0, h, _, _, _ => rfl
  | fuel + 1, h, id, addr, hne => by
    unfold writebackOwner at hne ⊢
    refine firstCopy_eq_of_ne_o _ _ (fun x h _ ho => ?_) _ h hne
    -- a visit reports `o` exactly when it takes a dirty copy; otherwise it changes nothing
    split at ho
    · rfl
    · split at ho
      · split at ho
        · exact absurd rfl ho
        · exact absurd rfl ho
        · rfl
        · rfl
        · exact writebackOwner_eq_of_ne_o fuel h x addr ho
      · exact writebackOwner_eq_of_ne_o fuel h x addr ho

end Hierarchy

end CacheHierarchy
