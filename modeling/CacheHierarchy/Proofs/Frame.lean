import Mathlib
import CacheHierarchy.Directory.Drain
import CacheHierarchy.Directory.Answer

set_option autoImplicit false

/-! # What coherence actions leave in place

A coherence action changes line statuses, counters, MSHRs and directory entries. It never
changes what a cache is: its id, its number of ways, how it reads an address, and the
number of ways of each of its sets. Only installing a line (`Cache.changeAddress`) changes a
tag. This module states both facts once, as equations on two projections,

* the **shape** of a cache (`Cache.shape`) and of a hierarchy (`Hierarchy.shapes`, which adds
  the line size of the directory), and
* the **tags** of a cache (`Cache.tags`) and of a hierarchy (`Hierarchy.tags`),

with one lemma per operation, so that a proof about an action never unfolds the operations
it calls. The walks above a cache (`ownerAbove`, `writebackOwner`, `evictAbove`) change line
statuses only (`Hierarchy.Restatus`).

A hierarchy is **well built** (`Hierarchy.WellBuilt`) when moreover each cache has ways,
every address maps to a set of `ways` lines, and two addresses on one line of the directory
are on one line of the cache. It is a property of shapes alone, so every action keeps it
(`Hierarchy.WellBuilt.of_shapes`). In a cache that fits, a victim is a way of the set of the
address it makes room for, and its tag is not locked (`Cache.victim_some`).
-/

theorem List.map_modify_of_comp {α β : Type} (g : α → β) (f : α → α) (l : List α) (i : Nat)
    (hf : ∀ x, l[i]? = some x → g (f x) = g x) : (l.modify i f).map g = l.map g := by
  apply List.ext_getElem?
  intro j
  simp only [List.getElem?_map, List.getElem?_modify]
  split
  · rename_i hij
    subst hij
    cases hx : l[i]? with
    | none => rfl
    | some x => simp [hf x hx]
  · simp

theorem List.map_set_of_forall {α β : Type} (g : α → β) (l : List α) (i : Nat) (a : α)
    (hb : ∀ b, l[i]? = some b → g a = g b) : (l.set i a).map g = l.map g := by
  apply List.ext_getElem?
  intro j
  simp only [List.getElem?_map, List.getElem?_set]
  split
  · rename_i hij
    subst hij
    cases hx : l[i]? with
    | none => simp [List.getElem?_eq_none_iff.1 hx]
    | some b =>
      obtain ⟨hi, -⟩ := List.getElem?_eq_some_iff.1 hx
      simp [hi, hb b hx]
  · rfl

namespace CacheHierarchy

/-! ## A random way is a way -/

namespace Random.Stream

/-- Canon's method never reaches the bound: the high word of `(x * 2^32 + y) * n / 2^64`,
which the carry approximates from below, is less than `n`. -/
theorem below_lt (s : Stream) (n : Nat) (hn : 0 < n) : (s.below n).1 < n := by
  have hx := s.peek.toNat_lt
  unfold below next
  simp only [Nat.pow_eq]
  generalize s.peek.toNat = x at *
  -- with `x * n = high * 2^32 + low`, the high part is below `n`
  have hdiv := Nat.div_add_mod (x * n) (2 ^ 32)
  have hxn : x * n ≤ (2 ^ 32 - 1) * n := Nat.mul_le_mul_right n (by omega)
  split
  · have hy := ({ s with position := s.position + 1 } : Stream).peek.toNat_lt
    generalize ({ s with position := s.position + 1 } : Stream).peek.toNat = y at *
    -- the carry adds at most `n - 1`, so it fires only when the high part is below `n - 1`
    have hyn : y * n / 2 ^ 32 < n := by
      apply (Nat.div_lt_iff_lt_mul (Nat.two_pow_pos 32)).2
      have h := Nat.mul_lt_mul_of_pos_right hy hn
      rwa [Nat.mul_comm (2 ^ 32)] at h
    split <;> dsimp only <;> omega
  · dsimp only
    omega

end Random.Stream

/-! ## The shape and the tags of a cache -/

namespace Cache

/-- What a cache is, as opposed to what it holds: its id, its number of ways, how it reads
an address, the caches right above it, and the number of ways of each set. -/
structure Shape where
  id : Nat
  ways : Nat
  fields : AddressMap
  higher : List Nat
  sizes : List Nat
  deriving DecidableEq

/-- The shape of a cache. -/
def shape (c : Cache) : Shape := ⟨c.id, c.ways, c.fields, c.higher, c.lines.toList.map (·.size)⟩

/-- The tag of every way, set by set. -/
def tags (c : Cache) : List (List UInt64) := c.lines.toList.map fun set => set.toList.map (·.tag)

@[simp] theorem shape_id (c : Cache) : c.shape.id = c.id := rfl

@[simp] theorem shape_ways (c : Cache) : c.shape.ways = c.ways := rfl

@[simp] theorem shape_fields (c : Cache) : c.shape.fields = c.fields := rfl

@[simp] theorem shape_higher (c : Cache) : c.shape.higher = c.higher := rfl

theorem size_getD_lines (c : Cache) (index : Nat) :
    (c.lines.getD index #[]).size = c.shape.sizes.getD index 0 := by
  simp only [shape, Array.getD_eq_getD_getElem?, List.getD_eq_getElem?_getD, List.getElem?_map,
    Array.getElem?_toList]
  cases c.lines[index]? <;> rfl

@[simp] theorem shape_modifyLine (c : Cache) (index way : Nat) (f : Line → Line) :
    (c.modifyLine index way f).shape = c.shape := by
  simp only [shape, modifyLine, TagArray.modify, Array.toList_modify, Shape.mk.injEq, true_and]
  exact List.map_modify_of_comp _ _ _ _ fun _ _ => Array.size_modify

theorem tags_modifyLine (c : Cache) (index way : Nat) (f : Line → Line)
    (hf : ∀ l, (f l).tag = l.tag) : (c.modifyLine index way f).tags = c.tags := by
  simp only [tags, modifyLine, TagArray.modify, Array.toList_modify]
  apply List.map_modify_of_comp
  intro set _
  simp only [Array.toList_modify]
  exact List.map_modify_of_comp _ _ _ _ fun l _ => hf l

@[simp] theorem shape_changeAddress (c : Cache) (index way : Nat) (addr : UInt64) :
    (c.changeAddress index way addr).shape = c.shape := shape_modifyLine ..

@[simp] theorem shape_changeStatus (c : Cache) (index way : Nat) (st : Status) :
    (c.changeStatus index way st).shape = c.shape := shape_modifyLine ..

@[simp] theorem shape_touch (c : Cache) (index way now : Nat) :
    (c.touch index way now).shape = c.shape := shape_modifyLine ..

@[simp] theorem tags_changeStatus (c : Cache) (index way : Nat) (st : Status) :
    (c.changeStatus index way st).tags = c.tags := tags_modifyLine _ _ _ _ fun _ => rfl

@[simp] theorem tags_touch (c : Cache) (index way now : Nat) :
    (c.touch index way now).tags = c.tags := tags_modifyLine _ _ _ _ fun _ => rfl

-- Proved by unfolding rather than by `rfl`, so that simp also uses them to discharge the side
-- conditions of the hierarchy lemmas below.
@[simp] theorem shape_countUsage (c : Cache) (f : LineUsage → LineUsage) :
    (c.countUsage f).shape = c.shape := by
  simp only [countUsage, shape]

@[simp] theorem tags_countUsage (c : Cache) (f : LineUsage → LineUsage) :
    (c.countUsage f).tags = c.tags := by
  simp only [countUsage, tags]

@[simp] theorem shape_count (c : Cache) (f : CacheStat → CacheStat) :
    (c.count f).shape = c.shape := by
  simp only [count, shape]

@[simp] theorem tags_count (c : Cache) (f : CacheStat → CacheStat) :
    (c.count f).tags = c.tags := by
  simp only [count, tags]

@[simp] theorem shape_updateWaiting (c : Cache) (addr : UInt64) (f : Packet → Packet) :
    (c.updateWaiting addr f).shape = c.shape := by
  simp only [updateWaiting, shape]

@[simp] theorem tags_updateWaiting (c : Cache) (addr : UInt64) (f : Packet → Packet) :
    (c.updateWaiting addr f).tags = c.tags := by
  simp only [updateWaiting, tags]

/-- Storing a packet changes the MSHR or the counters only. -/
theorem allocate_frame (c c' : Cache) (r : MshrRange) (p : Packet) (slot : Option Nat)
    (h : c.allocate r p = (slot, c')) : c'.shape = c.shape ∧ c'.tags = c.tags := by
  unfold allocate at h
  split at h <;> cases h <;> exact ⟨rfl, rfl⟩

@[simp] theorem shape_allocate (c : Cache) (r : MshrRange) (p : Packet) :
    (c.allocate r p).2.shape = c.shape :=
  (allocate_frame c _ r p _ rfl).1

@[simp] theorem tags_allocate (c : Cache) (r : MshrRange) (p : Packet) :
    (c.allocate r p).2.tags = c.tags :=
  (allocate_frame c _ r p _ rfl).2

/-- A store's result, split so that the cache it leaves is rewritten to the store itself. -/
theorem allocate_eq_iff {c c' : Cache} {r : MshrRange} {p : Packet} {slot : Option Nat} :
    c.allocate r p = (slot, c') ↔ (c.allocate r p).1 = slot ∧ c' = (c.allocate r p).2 :=
  Prod.ext_iff.trans (and_congr_right' eq_comm)

@[simp] theorem shape_invalidateCopy (c : Cache) (addr : UInt64) :
    (c.invalidateCopy addr).shape = c.shape := by
  unfold invalidateCopy
  split
  · split <;> simp
  · rfl

@[simp] theorem tags_invalidateCopy (c : Cache) (addr : UInt64) :
    (c.invalidateCopy addr).tags = c.tags := by
  unfold invalidateCopy
  split
  · split <;> simp
  · rfl

@[simp] theorem shape_evictCopy (c : Cache) (addr : UInt64) :
    (c.evictCopy addr).shape = c.shape := by
  unfold evictCopy
  split
  · split <;> simp
  · rfl

@[simp] theorem tags_evictCopy (c : Cache) (addr : UInt64) :
    (c.evictCopy addr).tags = c.tags := by
  unfold evictCopy
  split
  · split <;> simp
  · rfl

@[simp] theorem shape_shareCopy (c : Cache) (addr : UInt64) :
    (c.shareCopy addr).shape = c.shape := by
  unfold shareCopy
  split <;> simp

@[simp] theorem tags_shareCopy (c : Cache) (addr : UInt64) :
    (c.shareCopy addr).tags = c.tags := by
  unfold shareCopy
  split <;> simp

/-! ### What a cache's shape and tags decide -/

theorem tags_getD (c : Cache) (index : Nat) :
    ((c.lines.getD index #[]).map (·.tag)).toList = c.tags.getD index [] := by
  simp only [tags, Array.getD_eq_getD_getElem?, List.getD_eq_getElem?_getD, List.getElem?_map,
    Array.getElem?_toList, Array.toList_map]
  cases c.lines[index]? <;> rfl

/-- Two caches with the same tags have the same tags set by set. -/
theorem map_tag_congr {c c' : Cache} (ht : c'.tags = c.tags) (index : Nat) :
    (c'.lines.getD index #[]).map (·.tag) = (c.lines.getD index #[]).map (·.tag) :=
  Array.toList_inj.1 (by rw [tags_getD, tags_getD, ht])

theorem tag_line_congr {c c' : Cache} (ht : c'.tags = c.tags) (index way : Nat) :
    (c'.line index way).tag = (c.line index way).tag := by
  have hset := congrArg (fun s => s[way]?) (map_tag_congr ht index)
  simp only [Array.getElem?_map] at hset
  simp only [line, TagArray.get, @Array.getD_eq_getD_getElem? _ (c'.lines.getD index #[]),
    @Array.getD_eq_getD_getElem? _ (c.lines.getD index #[])]
  cases h' : (c'.lines.getD index #[])[way]? <;> cases h : (c.lines.getD index #[])[way]? <;>
    simp_all

/-- Where a cache finds a line depends on its shape and tags only. -/
theorem findLine_congr {c c' : Cache} (hs : c'.shape = c.shape) (ht : c'.tags = c.tags)
    (addr : UInt64) : c'.findLine addr = c.findLine addr := by
  have hf : c'.fields = c.fields := by simpa using congrArg Shape.fields hs
  have byTag : ∀ (set : Array Line), set.findIdx? (fun l => c.fields.sameLine l.tag addr) =
      (set.map (·.tag)).findIdx? (fun t => c.fields.sameLine t addr) := fun set => by
    rw [Array.findIdx?_map]
    rfl
  unfold findLine
  dsimp only
  rw [hf, byTag, byTag, map_tag_congr ht]

end Cache

/-! ## Shapes and tags of a hierarchy -/

/-- What a directory is set up with and keeps: its line size, its inclusion policy and whether
the last level and the levels above it write back dirty victims. -/
def Directory.setup (d : Directory) : Nat × Inclusion × Bool × Bool :=
  (d.lineSize, d.inclusion, d.llcWriteback, d.nonLlcWriteback)

namespace Hierarchy

/-- The shapes of the caches, in id order, and the setup of the directory. -/
def shapes (h : Hierarchy) : List Cache.Shape × Nat × Inclusion × Bool × Bool :=
  (h.caches.toList.map Cache.shape, h.directory.setup)

/-- The tags of the caches, in id order. -/
def tags (h : Hierarchy) : List (List (List UInt64)) := h.caches.toList.map Cache.tags

@[simp] theorem directory_modifyCache (h : Hierarchy) (id : Nat) (f : Cache → Cache) :
    (h.modifyCache id f).directory = h.directory := by
  simp only [modifyCache]

@[simp] theorem directory_setCacheAt (h : Hierarchy) (id : Nat) (c : Cache) :
    (h.setCacheAt id c).directory = h.directory := by
  simp only [setCacheAt]

@[simp] theorem directory_modifyDirectory (h : Hierarchy) (f : Directory → Directory) :
    (h.modifyDirectory f).directory = f h.directory := by
  simp only [modifyDirectory]

/-- Edits of a cache and of the directory commute. -/
theorem modifyDirectory_modifyCache (h : Hierarchy) (id : Nat) (f : Cache → Cache)
    (g : Directory → Directory) :
    (h.modifyCache id f).modifyDirectory g = (h.modifyDirectory g).modifyCache id f := rfl

@[simp] theorem caches_modifyDirectory (h : Hierarchy) (f : Directory → Directory) :
    (h.modifyDirectory f).caches = h.caches := by
  simp only [modifyDirectory]

@[simp] theorem tags_modifyDirectory (h : Hierarchy) (f : Directory → Directory) :
    (h.modifyDirectory f).tags = h.tags := by
  simp only [tags, modifyDirectory]

@[simp] theorem shapes_modifyDirectory (h : Hierarchy) (f : Directory → Directory)
    (hf : (f h.directory).setup = h.directory.setup) :
    (h.modifyDirectory f).shapes = h.shapes := by
  simp [shapes, hf]

@[simp] theorem shapes_modifyCache (h : Hierarchy) (id : Nat) (f : Cache → Cache)
    (hf : ∀ c, (f c).shape = c.shape) : (h.modifyCache id f).shapes = h.shapes := by
  simp only [shapes, modifyCache, Array.toList_modify, Prod.mk.injEq, and_true]
  exact List.map_modify_of_comp _ _ _ _ fun c _ => hf c

@[simp] theorem tags_modifyCache (h : Hierarchy) (id : Nat) (f : Cache → Cache)
    (hf : ∀ c, (f c).tags = c.tags) : (h.modifyCache id f).tags = h.tags := by
  simp only [tags, modifyCache, Array.toList_modify]
  exact List.map_modify_of_comp _ _ _ _ fun c _ => hf c

/-- Storing back a cache of the shape of the one in its slot. -/
@[simp] theorem shapes_setCacheAt (h : Hierarchy) (id : Nat) (c : Cache)
    (hc : ∀ c₀, h.caches[id]? = some c₀ → c.shape = c₀.shape) :
    (h.setCacheAt id c).shapes = h.shapes := by
  simp only [shapes, setCacheAt, Array.toList_setIfInBounds, Prod.mk.injEq, and_true]
  exact List.map_set_of_forall _ _ _ _ fun c₀ hc₀ => hc c₀ (by simpa using hc₀)

@[simp] theorem tags_setCacheAt (h : Hierarchy) (id : Nat) (c : Cache)
    (hc : ∀ c₀, h.caches[id]? = some c₀ → c.tags = c₀.tags) :
    (h.setCacheAt id c).tags = h.tags := by
  simp only [tags, setCacheAt, Array.toList_setIfInBounds]
  exact List.map_set_of_forall _ _ _ _ fun c₀ hc₀ => hc c₀ (by simpa using hc₀)

/-- A cache of a hierarchy with the shapes of another has a cache of its shape there. -/
theorem exists_of_shapes {h h' : Hierarchy} (hs : h'.shapes = h.shapes) {i : Nat} {c' : Cache}
    (hc : h'.caches[i]? = some c') : ∃ c, h.caches[i]? = some c ∧ c.shape = c'.shape := by
  have hi := congrArg (fun s => s.1[i]?) hs
  simp only [shapes, List.getElem?_map, Array.getElem?_toList, hc] at hi
  cases hci : h.caches[i]? with
  | none => simp [hci] at hi
  | some c => exact ⟨c, rfl, by simpa [hci] using hi.symm⟩

theorem tags_of_tags {h h' : Hierarchy} (ht : h'.tags = h.tags) {i : Nat} {c c' : Cache}
    (hc : h.caches[i]? = some c) (hc' : h'.caches[i]? = some c') : c'.tags = c.tags := by
  have hi := congrArg (fun t => t[i]?) ht
  simpa [tags, hc, hc'] using hi

theorem setup_of_shapes {h h' : Hierarchy} (hs : h'.shapes = h.shapes) :
    h'.directory.setup = h.directory.setup :=
  congrArg Prod.snd hs

/-- The line size of the directory is part of the shapes, and so is its line mask. -/
theorem lineMask_of_shapes {h h' : Hierarchy} (hs : h'.shapes = h.shapes) :
    h'.directory.lineMask = h.directory.lineMask := by
  have hsize := congrArg Prod.fst (setup_of_shapes hs)
  simp only [Directory.setup] at hsize
  simp only [Directory.lineMask, hsize]

/-! ## Walks that change statuses only -/

/-- `h'` differs from `h` in line statuses, counters and MSHRs only. -/
structure Restatus (h h' : Hierarchy) : Prop where
  shapes : h'.shapes = h.shapes
  tags : h'.tags = h.tags
  directory : h'.directory = h.directory

@[simp] theorem Restatus.refl (h : Hierarchy) : Restatus h h := ⟨rfl, rfl, rfl⟩

theorem Restatus.trans {h₁ h₂ h₃ : Hierarchy} (h₁₂ : Restatus h₁ h₂) (h₂₃ : Restatus h₂ h₃) :
    Restatus h₁ h₃ :=
  ⟨h₂₃.shapes.trans h₁₂.shapes, h₂₃.tags.trans h₁₂.tags, h₂₃.directory.trans h₁₂.directory⟩

theorem Restatus.symm {h h' : Hierarchy} (hr : Restatus h h') : Restatus h' h :=
  ⟨hr.shapes.symm, hr.tags.symm, hr.directory.symm⟩

/-- A status change at the end of a chain of status changes. -/
theorem restatus_right_iff {h h₁ h₂ : Hierarchy} (hr : Restatus h₁ h₂) :
    Restatus h h₂ ↔ Restatus h h₁ :=
  ⟨fun h₀₂ => h₀₂.trans hr.symm, fun h₀₁ => h₀₁.trans hr⟩

/-- A change of one cache that keeps its shape and tags. -/
theorem restatus_modifyCache (h : Hierarchy) (id : Nat) (f : Cache → Cache)
    (hs : ∀ c, (f c).shape = c.shape) (ht : ∀ c, (f c).tags = c.tags) :
    Restatus h (h.modifyCache id f) :=
  ⟨shapes_modifyCache h id f hs, tags_modifyCache h id f ht, rfl⟩

/-- A cache stored back to its slot with one status changed. -/
theorem restatus_setCacheAt_changeStatus (h : Hierarchy) (id : Nat) (c : Cache)
    (hc : h.caches[id]? = some c) (index way : Nat) (st : Status) :
    Restatus h (h.setCacheAt id (c.changeStatus index way st)) :=
  ⟨shapes_setCacheAt _ _ _ fun c₀ hc₀ => by simp_all,
    tags_setCacheAt _ _ _ fun c₀ hc₀ => by simp_all, rfl⟩

theorem restatus_invalidateOthers (h : Hierarchy) (id : Nat) (addr : UInt64) :
    Restatus h (h.invalidateOthers id addr) := by
  refine ⟨?_, ?_, rfl⟩
  · simp only [shapes, invalidateOthers, Array.toList_map, List.map_map, Prod.mk.injEq, and_true]
    apply List.map_congr_left
    intro c _
    simp only [Function.comp]
    split <;> simp
  · simp only [tags, invalidateOthers, Array.toList_map, List.map_map]
    apply List.map_congr_left
    intro c _
    simp only [Function.comp]
    split <;> simp

theorem firstCopy_restatus (visit : Nat → Hierarchy → Status × Hierarchy)
    (onDirty : Hierarchy → Hierarchy) (hv : ∀ x h, Restatus h (visit x h).2)
    (hd : ∀ h, Restatus h (onDirty h)) :
    ∀ (xs : List Nat) (h : Hierarchy), Restatus h (firstCopy visit onDirty xs h).2
  | [], h => Restatus.refl h
  | x :: xs, h => by
    have hx := hv x h
    unfold firstCopy
    split <;> rename_i st h' hvis <;> rw [hvis] at hx
    · exact hx.trans (hd h')
    · exact hx.trans (hd h')
    · exact hx
    · exact hx
    · exact hx.trans (firstCopy_restatus visit onDirty hv hd xs h')

theorem ownerAbove_restatus :
    ∀ (fuel : Nat) (h : Hierarchy) (id : Nat) (addr : UInt64) (checkLlc : Bool),
      Restatus h (h.ownerAbove fuel id addr checkLlc).2
  | 0, h, _, _, _ => Restatus.refl h
  | fuel + 1, h, id, addr, checkLlc => by
    have ih : ∀ x h, Restatus h (ownerAbove fuel h x addr false).2 :=
      fun x h => ownerAbove_restatus fuel h x addr false
    unfold ownerAbove
    split
    · exact Restatus.refl h
    · rename_i c hc
      have above := firstCopy_restatus _ (fun h => h.modifyCache id (·.shareCopy addr)) ih
        (fun h => restatus_modifyCache h id _ (by simp) (by simp)) c.higher h
      split
      · exact firstCopy_restatus _ _ ih Restatus.refl _ h
      · split
        · split
          · exact restatus_setCacheAt_changeStatus h id c hc _ _ _
          · exact restatus_setCacheAt_changeStatus h id c hc _ _ _
          · exact Restatus.refl h
          · exact Restatus.refl h
          · exact above
        · exact above

theorem writebackOwner_restatus :
    ∀ (fuel : Nat) (h : Hierarchy) (id : Nat) (addr : UInt64),
      Restatus h (h.writebackOwner fuel id addr).2
  | 0, h, _, _ => Restatus.refl h
  | fuel + 1, h, id, addr => by
    unfold writebackOwner
    apply firstCopy_restatus _ _ _ Restatus.refl
    intro x h
    split
    · exact Restatus.refl h
    · rename_i c hc
      split
      · split
        · exact restatus_setCacheAt_changeStatus h x c hc _ _ _
        · exact restatus_setCacheAt_changeStatus h x c hc _ _ _
        · exact Restatus.refl h
        · exact Restatus.refl h
        · exact writebackOwner_restatus fuel h x addr
      · exact writebackOwner_restatus fuel h x addr

theorem evictAbove_restatus :
    ∀ (fuel : Nat) (h : Hierarchy) (id : Nat) (addr : UInt64),
      Restatus h (h.evictAbove fuel id addr)
  | 0, h, _, _ => Restatus.refl h
  | fuel + 1, h, id, addr => by
    unfold evictAbove
    -- the copies are dropped one cache above at a time, each after its own walk
    suffices ∀ (xs : List Nat) (h : Hierarchy), Restatus h (xs.foldl (fun h x =>
        (evictAbove fuel h x addr).modifyCache x (·.evictCopy addr)) h) from this _ h
    intro xs
    induction xs with
    | nil => exact Restatus.refl
    | cons x xs ih =>
      intro h
      exact ((evictAbove_restatus fuel h x addr).trans
        (restatus_modifyCache _ x _ (by simp) (by simp))).trans (ih _)

@[simp] theorem restatus_modifyCache_iff {h h' : Hierarchy} {id : Nat} {f : Cache → Cache}
    (hs : ∀ c, (f c).shape = c.shape) (ht : ∀ c, (f c).tags = c.tags) :
    Restatus h (h'.modifyCache id f) ↔ Restatus h h' :=
  restatus_right_iff (restatus_modifyCache h' id f hs ht)

@[simp] theorem restatus_ownerAbove_iff (h h' : Hierarchy) (fuel id : Nat) (addr : UInt64)
    (b : Bool) : Restatus h (h'.ownerAbove fuel id addr b).2 ↔ Restatus h h' :=
  restatus_right_iff (ownerAbove_restatus ..)

@[simp] theorem restatus_writebackOwner_iff (h h' : Hierarchy) (fuel id : Nat) (addr : UInt64) :
    Restatus h (h'.writebackOwner fuel id addr).2 ↔ Restatus h h' :=
  restatus_right_iff (writebackOwner_restatus ..)

@[simp] theorem restatus_evictAbove_iff (h h' : Hierarchy) (fuel id : Nat) (addr : UInt64) :
    Restatus h (h'.evictAbove fuel id addr) ↔ Restatus h h' :=
  restatus_right_iff (evictAbove_restatus ..)

@[simp] theorem shapes_ownerAbove (h : Hierarchy) (fuel id : Nat) (addr : UInt64) (b : Bool) :
    (h.ownerAbove fuel id addr b).2.shapes = h.shapes := (ownerAbove_restatus ..).shapes

@[simp] theorem tags_ownerAbove (h : Hierarchy) (fuel id : Nat) (addr : UInt64) (b : Bool) :
    (h.ownerAbove fuel id addr b).2.tags = h.tags := (ownerAbove_restatus ..).tags

@[simp] theorem directory_ownerAbove (h : Hierarchy) (fuel id : Nat) (addr : UInt64)
    (b : Bool) : (h.ownerAbove fuel id addr b).2.directory = h.directory :=
  (ownerAbove_restatus ..).directory

@[simp] theorem shapes_writebackOwner (h : Hierarchy) (fuel id : Nat) (addr : UInt64) :
    (h.writebackOwner fuel id addr).2.shapes = h.shapes := (writebackOwner_restatus ..).shapes

@[simp] theorem tags_writebackOwner (h : Hierarchy) (fuel id : Nat) (addr : UInt64) :
    (h.writebackOwner fuel id addr).2.tags = h.tags := (writebackOwner_restatus ..).tags

@[simp] theorem directory_writebackOwner (h : Hierarchy) (fuel id : Nat) (addr : UInt64) :
    (h.writebackOwner fuel id addr).2.directory = h.directory :=
  (writebackOwner_restatus ..).directory

@[simp] theorem shapes_evictAbove (h : Hierarchy) (fuel id : Nat) (addr : UInt64) :
    (h.evictAbove fuel id addr).shapes = h.shapes := (evictAbove_restatus ..).shapes

@[simp] theorem tags_evictAbove (h : Hierarchy) (fuel id : Nat) (addr : UInt64) :
    (h.evictAbove fuel id addr).tags = h.tags := (evictAbove_restatus ..).tags

@[simp] theorem directory_evictAbove (h : Hierarchy) (fuel id : Nat) (addr : UInt64) :
    (h.evictAbove fuel id addr).directory = h.directory := (evictAbove_restatus ..).directory

@[simp] theorem shapes_invalidateOthers (h : Hierarchy) (id : Nat) (addr : UInt64) :
    (h.invalidateOthers id addr).shapes = h.shapes := (restatus_invalidateOthers ..).shapes

@[simp] theorem tags_invalidateOthers (h : Hierarchy) (id : Nat) (addr : UInt64) :
    (h.invalidateOthers id addr).tags = h.tags := (restatus_invalidateOthers ..).tags

@[simp] theorem directory_invalidateOthers (h : Hierarchy) (id : Nat) (addr : UInt64) :
    (h.invalidateOthers id addr).directory = h.directory := by
  simp only [invalidateOthers]

end Hierarchy

/-! ## Well-built hierarchies -/

/-- A cache of shape `s` fits a directory whose lines are the addresses equal under `mask`:
it has ways, every address maps to a set of `ways` lines, and two addresses on one line of
the directory are on one line of the cache. -/
structure Cache.Shape.Fits (mask : UInt64) (s : Cache.Shape) : Prop where
  ways_pos : 0 < s.ways
  sets : ∀ addr, s.sizes.getD (s.fields.indexOf addr) 0 = s.ways
  sameLine : ∀ a b, a &&& mask = b &&& mask → s.fields.sameLine a b = true

/-- Every cache fits the directory. -/
def Hierarchy.WellBuilt (h : Hierarchy) : Prop :=
  ∀ (i : Nat) (c : Cache), h.caches[i]? = some c → c.shape.Fits h.directory.lineMask

/-- Being well built depends on the shapes only. -/
theorem Hierarchy.WellBuilt.of_shapes {h h' : Hierarchy} (hs : h'.shapes = h.shapes)
    (hw : h.WellBuilt) : h'.WellBuilt := by
  intro i c' hc'
  obtain ⟨c, hc, hcs⟩ := exists_of_shapes hs hc'
  rw [lineMask_of_shapes hs, ← hcs]
  exact hw i c hc

/-! ## Victims -/

namespace Cache

theorem mem_waysOf (c : Cache) (index way : Nat) (l : Line) (h : (way, l) ∈ c.waysOf index) :
    way < (c.lines.getD index #[]).size ∧ c.line index way = l := by
  simp only [waysOf, List.mem_map, Prod.mk.injEq] at h
  obtain ⟨⟨l', w⟩, hmem, rfl, rfl⟩ := h
  rw [List.mem_zipIdx_iff_getElem?, Array.getElem?_toList] at hmem
  refine ⟨(Array.getElem?_eq_some_iff.1 hmem).1, ?_⟩
  simp only [line, TagArray.get]
  rw [@Array.getD_eq_getD_getElem? _ (c.lines.getD index #[]), hmem, Option.getD_some]

/-- A cache without the line of `addr` holds no tag on that line in the set of `addr`. -/
theorem sameLine_of_findLine_eq_none (c : Cache) (addr : UInt64) (h : c.findLine addr = none)
    (way : Nat) (hw : way < (c.lines.getD (c.fields.indexOf addr) #[]).size) :
    c.fields.sameLine (c.line (c.fields.indexOf addr) way).tag addr = false := by
  simp only [findLine, Option.map_eq_none_iff, Array.findIdx?_eq_none_iff] at h
  apply h
  simp only [line, TagArray.get]
  rw [@Array.getD_eq_getD_getElem? _ (c.lines.getD _ #[]), Array.getElem?_eq_getElem hw,
    Option.getD_some]
  exact Array.getElem_mem hw

/-- A victim by age: a way of the set searched, unlocked, and the cache unchanged. -/
theorem lru_victim (c c' : Cache) (addr : UInt64) (locked : UInt64 → Bool) (index : Nat)
    (v : Option (Nat × Nat))
    (h : (do let w ← c.lruWay addr locked (c.waysOf index) wordMax none
             pure (w.map (index, ·), c) : Except ProtocolError (Option (Nat × Nat) × Cache)) =
      .ok (v, c')) :
    c' = c ∧ ∀ i w, v = some (i, w) → i = index ∧ ∃ l, (w, l) ∈ c.waysOf index ∧
      locked l.tag = false := by
  cases hw : c.lruWay addr locked (c.waysOf index) wordMax none with
  | error e => simp [hw, bind, Except.bind] at h
  | ok w =>
    simp only [hw, bind, Except.bind, pure, Except.pure, Except.ok.injEq, Prod.mk.injEq] at h
    obtain ⟨rfl, rfl⟩ := h
    refine ⟨rfl, ?_⟩
    intro i way hv
    cases w with
    | none => cases hv
    | some w =>
      simp only [Option.map_some, Option.some.injEq, Prod.mk.injEq] at hv
      obtain ⟨rfl, rfl⟩ := hv
      refine ⟨rfl, ?_⟩
      rcases c.lruWay_mem addr locked _ _ _ _ hw with h | h
      · cases h
      · exact h

/-- Choosing a victim moves the random stream only. -/
theorem victim_cache (c c' : Cache) (addr : UInt64) (locked : UInt64 → Bool)
    (v : Option (Nat × Nat)) (h : c.victim addr locked = .ok (v, c')) :
    ∃ r, c' = { c with random := r } := by
  unfold victim at h
  dsimp only at h
  split at h
  · exact ⟨c.random, (lru_victim c c' addr locked _ v h).1⟩
  · exact ⟨c.random, (lru_victim c c' addr locked _ v h).1⟩
  · split at h
    · simp only [pure, Except.pure, Except.ok.injEq, Prod.mk.injEq] at h
      exact ⟨c.random, h.2.symm⟩
    · exact ⟨c.random, (lru_victim c c' addr locked _ v h).1⟩
  · simp only [pure, Except.pure, Except.ok.injEq, Prod.mk.injEq] at h
    exact ⟨_, h.2.symm⟩
  · cases h
  · cases h

/-- In a cache that fits, a victim is a way of the set of `addr`, and its tag is not locked. -/
theorem victim_some (c c' : Cache) (addr : UInt64) (locked : UInt64 → Bool) (mask : UInt64)
    (hfit : c.shape.Fits mask) (index way : Nat)
    (h : c.victim addr locked = .ok (some (index, way), c')) :
    index = c.fields.indexOf addr ∧ way < (c.lines.getD index #[]).size ∧
      locked (c.line index way).tag = false := by
  -- by age or among invalid ways, the victim is one of the ways of the set searched
  have of_mem : (index = c.fields.indexOf addr ∧
      ∃ l, (way, l) ∈ c.waysOf (c.fields.indexOf addr) ∧ locked l.tag = false) →
      index = c.fields.indexOf addr ∧ way < (c.lines.getD index #[]).size ∧
        locked (c.line index way).tag = false := by
    rintro ⟨rfl, l, hl, hfree⟩
    obtain ⟨hw, hline⟩ := mem_waysOf c _ way l hl
    exact ⟨rfl, hw, hline ▸ hfree⟩
  unfold victim at h
  dsimp only at h
  split at h
  · exact of_mem ((lru_victim c c' addr locked _ _ h).2 index way rfl)
  · exact of_mem ((lru_victim c c' addr locked _ _ h).2 index way rfl)
  · split at h
    · rename_i w l hfind
      simp only [pure, Except.pure, Except.ok.injEq, Prod.mk.injEq, Option.some.injEq] at h
      obtain ⟨⟨rfl, rfl⟩, -⟩ := h
      have hl := List.find?_some hfind
      simp only [Bool.and_eq_true, beq_iff_eq, Bool.not_eq_eq_eq_not, Bool.not_true] at hl
      exact of_mem ⟨rfl, l, List.mem_of_find?_eq_some hfind, hl.2⟩
    · exact of_mem ((lru_victim c c' addr locked _ _ h).2 index way rfl)
  · -- a random way is below the number of ways, which is the size of every set
    simp only [pure, Except.pure, Except.ok.injEq, Prod.mk.injEq] at h
    obtain ⟨hv, -⟩ := h
    split at hv
    · cases hv
    · rename_i hfree
      simp only [Option.some.injEq, Prod.mk.injEq] at hv
      obtain ⟨rfl, rfl⟩ := hv
      refine ⟨rfl, ?_, by simpa [line] using hfree⟩
      have hset := hfit.sets addr
      simp only [shape_fields, shape_ways] at hset
      rw [size_getD_lines, hset]
      exact Random.Stream.below_lt _ _ hfit.ways_pos
  · cases h
  · cases h

/-- A victim for a line the cache lacks is off that line, in a cache that fits the
directory, and its tag is not locked. -/
theorem victim_off_line (c c' : Cache) (addr : UInt64) (locked : UInt64 → Bool) (mask : UInt64)
    (hfit : c.shape.Fits mask) (hno : c.findLine addr = none) (index way : Nat)
    (h : c.victim addr locked = .ok (some (index, way), c')) :
    (c.line index way).tag &&& mask ≠ addr &&& mask ∧ locked (c.line index way).tag = false := by
  obtain ⟨rfl, hw, hfree⟩ := victim_some c c' addr locked mask hfit index way h
  refine ⟨fun hline => ?_, hfree⟩
  have hsame := hfit.sameLine _ _ hline
  simp only [shape_fields] at hsame
  rw [sameLine_of_findLine_eq_none c addr hno way hw] at hsame
  cases hsame

end Cache

end CacheHierarchy
