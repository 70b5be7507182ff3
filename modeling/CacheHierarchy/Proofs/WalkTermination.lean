import Mathlib
import CacheHierarchy.Proofs.Workloads

set_option autoImplicit false

/-! # The walks above a cache end

Three coherence walks climb the links from a cache to the caches right above it: the search
for the freshest copy (`Hierarchy.ownerAbove`), the search for a dirty copy to write back
(`Hierarchy.writebackOwner`) and the eviction of every copy above (`Hierarchy.evictAbove`). A
walk from a last-level cache with the last-level loop first starts the search at every
last-level cache owning the address's bank, one level that does not recurse into itself. The
walks are run with a fuel, `Hierarchy.depth`, two more than the number of caches.

The measure of a walk is the height of a cache: the length of the longest chain of links up
from it (`Hierarchy.HeightAtMost`). A link up lowers it, and the walks change no link, so a
walk whose fuel passes the height gives the answer of any larger fuel: the walk for a writeback
or an eviction once the fuel reaches the height, the search for the freshest copy, which also
reads the cache itself, once it passes it, and the search with the last-level loop one level
later still. When the links form no cycle (`Hierarchy.Acyclic`), two caches of a chain are never
the same, so no chain is longer than there are caches, and the fuel of the walks is never what
ends them.

Main statement: `Hierarchy.walks_settle`.
-/

namespace CacheHierarchy

namespace Hierarchy

/-! ## Links and chains -/

/-- The caches right above cache `id`, one level closer to the cores; none above a missing
cache. -/
def above (h : Hierarchy) (id : Nat) : List Nat := ((h.caches[id]?).map (·.higher)).getD []

/-- A chain of `k` links up from cache `y`: caches `f 0 = y`, `f 1`, ..., `f k`, each right
above the one before. -/
def Climbs (h : Hierarchy) (y k : Nat) : Prop :=
  ∃ f : Nat → Nat, f 0 = y ∧ ∀ i < k, f (i + 1) ∈ h.above (f i)

/-- The links form no cycle: no chain of one link or more ends where it starts. -/
def Acyclic (h : Hierarchy) : Prop :=
  ∀ (f : Nat → Nat) (k : Nat), 0 < k → (∀ i < k, f (i + 1) ∈ h.above (f i)) → f k ≠ f 0

/-- No chain of links up from cache `y` is longer than `n`. -/
def HeightAtMost (h : Hierarchy) (y n : Nat) : Prop := ∀ k, h.Climbs y k → k ≤ n

/-- Only a cache of the hierarchy has caches above it. -/
theorem lt_size_of_mem_above {h : Hierarchy} {x y : Nat} (hx : x ∈ h.above y) :
    y < h.caches.size := by
  by_contra hy
  simp [above, Array.getElem?_eq_none (Nat.le_of_not_lt hy)] at hx

/-- A cache below at most `n + 1` links has at most `n` above each cache right above it: the
height falls along every link. -/
theorem HeightAtMost.of_mem_above {h : Hierarchy} {y x n : Nat} (hy : h.HeightAtMost y (n + 1))
    (hx : x ∈ h.above y) : h.HeightAtMost x n := by
  rintro k ⟨f, hf0, hf⟩
  -- the chain from `x`, with the link from `y` put in front
  have hchain : h.Climbs y (k + 1) := by
    refine ⟨fun i => if i = 0 then y else f (i - 1), by simp, fun i hi => ?_⟩
    cases i with
    | zero => simpa [hf0] using hx
    | succ i => simpa using hf i (by omega)
  have := hy (k + 1) hchain
  omega

/-- A cache of height zero has no cache above it. -/
theorem HeightAtMost.above_eq_nil {h : Hierarchy} {y : Nat} (hy : h.HeightAtMost y 0) :
    h.above y = [] := by
  rw [List.eq_nil_iff_forall_not_mem]
  intro x hx
  have := hy 1 ⟨fun i => if i = 0 then y else x, by simp, fun i hi => by
    obtain rfl : i = 0 := by omega
    simpa using hx⟩
  omega

theorem HeightAtMost.of_above_eq {h h' : Hierarchy} (hl : h'.above = h.above) {y n : Nat}
    (hy : h.HeightAtMost y n) : h'.HeightAtMost y n := by
  unfold HeightAtMost Climbs
  rw [hl]
  exact hy

/-- With no cycle of links, no chain up from a cache has more links than there are caches:
every cache of a chain but the last has a cache above it, so lies in the hierarchy, and two of
them would close a cycle. -/
theorem climbs_le_size {h : Hierarchy} (hac : h.Acyclic) {y k : Nat} (hk : h.Climbs y k) :
    k ≤ h.caches.size := by
  obtain ⟨f, -, hf⟩ := hk
  by_contra hlt
  have hmaps : ∀ i ∈ Finset.range k, f i ∈ Finset.range h.caches.size := fun i hi =>
    Finset.mem_range.2 (lt_size_of_mem_above (hf i (Finset.mem_range.1 hi)))
  obtain ⟨i, hi, j, hj, hne, hij⟩ := Finset.exists_ne_map_eq_of_card_lt_of_maps_to
    (by simpa using Nat.lt_of_not_le hlt) hmaps
  simp only [Finset.mem_range] at hi hj
  -- the part of the chain between the two visits of one cache is a cycle
  have cycle : ∀ a b, a < b → b < k → f a ≠ f b := by
    intro a b hab hb
    have hnot := hac (fun t => f (a + t)) (b - a) (by omega) fun t ht => by
      simpa [Nat.add_assoc] using hf (a + t) (by omega)
    intro hab'
    apply hnot
    show f (a + (b - a)) = f (a + 0)
    rw [Nat.add_sub_cancel' hab.le, Nat.add_zero]
    exact hab'.symm
  rcases Nat.lt_or_gt_of_ne hne with hlt' | hlt'
  · exact cycle i j hlt' hj hij
  · exact cycle j i hlt' hi hij.symm

/-- A rank that grows along every link proves there is no cycle. -/
theorem acyclic_of_rank {h : Hierarchy} (r : Nat → Nat)
    (hr : ∀ y < h.caches.size, ∀ x ∈ h.above y, r y < r x) : h.Acyclic := by
  intro f k hk hf
  -- the rank grows along the chain
  have hgrow : ∀ j, 0 < j → j ≤ k → r (f 0) < r (f j) := by
    intro j hj hjk
    induction j with
    | zero => omega
    | succ j ih =>
      have hlink := hf j (by omega)
      have hstep := hr (f j) (lt_size_of_mem_above hlink) _ hlink
      rcases Nat.eq_zero_or_pos j with rfl | hj'
      · exact hstep
      · exact (ih hj' (by omega)).trans hstep
  intro heq
  have := hgrow k hk le_rfl
  rw [heq] at this
  exact Nat.lt_irrefl _ this

/-! ## The walks keep the links -/

@[simp] theorem higher_shareCopy (c : Cache) (addr : UInt64) : (c.shareCopy addr).higher = c.higher := by
  unfold Cache.shareCopy
  split <;> rfl

@[simp] theorem higher_evictCopy (c : Cache) (addr : UInt64) : (c.evictCopy addr).higher = c.higher := by
  unfold Cache.evictCopy
  split
  · split <;> rfl
  · rfl

/-- Two hierarchies with the same links. -/
def SameLinks (h h' : Hierarchy) : Prop := h'.above = h.above

theorem sameLinks_setCacheAt_changeStatus (h : Hierarchy) (x : Nat) (c : Cache)
    (hc : h.caches[x]? = some c) (i w : Nat) (st : Status) :
    SameLinks h (h.setCacheAt x (c.changeStatus i w st)) := by
  funext y
  unfold above setCacheAt
  rw [Array.getElem?_setIfInBounds]
  by_cases hy : x = y
  · subst hy
    obtain ⟨hlt, hget⟩ := Array.getElem?_eq_some_iff.1 hc
    simp [hlt, hget, Cache.changeStatus, Cache.modifyLine]
  · simp [hy]

theorem sameLinks_modifyCache (h : Hierarchy) (x : Nat) {f : Cache → Cache}
    (hf : ∀ c, (f c).higher = c.higher) : SameLinks h (h.modifyCache x f) := by
  funext y
  simp only [above, modifyCache, Array.getElem?_modify]
  split
  · cases h.caches[y]? <;> simp [hf]
  · rfl

@[simp] theorem above_ownerAbove (h : Hierarchy) (fuel id : Nat) (addr : UInt64) (b : Bool) :
    (h.ownerAbove fuel id addr b).2.above = h.above :=
  ownerAbove_rel SameLinks (fun _ => rfl) (fun h₁₂ h₂₃ => h₂₃.trans h₁₂)
    sameLinks_setCacheAt_changeStatus
    (fun h x addr => sameLinks_modifyCache h x fun c => higher_shareCopy c addr) fuel h id addr b

@[simp] theorem above_writebackOwner (h : Hierarchy) (fuel id : Nat) (addr : UInt64) :
    (h.writebackOwner fuel id addr).2.above = h.above :=
  writebackOwner_rel SameLinks (fun _ => rfl) (fun h₁₂ h₂₃ => h₂₃.trans h₁₂)
    sameLinks_setCacheAt_changeStatus fuel h id addr

@[simp] theorem above_evictAbove (h : Hierarchy) (fuel id : Nat) (addr : UInt64) :
    (h.evictAbove fuel id addr).above = h.above :=
  evictAbove_rel SameLinks (fun _ => rfl) (fun h₁₂ h₂₃ => h₂₃.trans h₁₂)
    (fun h x addr => sameLinks_modifyCache h x fun c => higher_evictCopy c addr) fuel h id addr

/-! ## Walks that agree on the caches they visit -/

section Congr

variable (P : Hierarchy → Prop)

/-- Two searches whose visits agree on every state of `P` they meet, and keep it, find one copy. -/
theorem firstCopy_congr {visit visit' : Nat → Hierarchy → Status × Hierarchy}
    (onDirty : Hierarchy → Hierarchy) :
    ∀ {xs : List Nat}, (∀ x ∈ xs, ∀ h, P h → visit x h = visit' x h) →
      (∀ x h, P h → P (visit' x h).2) →
      ∀ h, P h → firstCopy visit onDirty xs h = firstCopy visit' onDirty xs h
  | [], _, _, _, _ => rfl
  | x :: xs, hvisit, hkeep, h, hP => by
    have hx := hvisit x List.mem_cons_self h hP
    have hrest := firstCopy_congr onDirty (fun y hy => hvisit y (List.mem_cons_of_mem _ hy)) hkeep
    simp only [firstCopy, hx]
    -- past a cache without a valid copy the searches go on from one state
    split
    · rfl
    · rfl
    · rfl
    · rfl
    · rename_i h' hvis
      have hP' := hkeep x h hP
      rw [hvis] at hP'
      exact hrest h' hP'

/-- Two folds whose steps agree on every state of `P` they meet, and keep it, end in one
state. -/
theorem foldl_congr_of_keeps {step step' : Hierarchy → Nat → Hierarchy} :
    ∀ {xs : List Nat}, (∀ x ∈ xs, ∀ h, P h → step h x = step' h x) →
      (∀ x h, P h → P (step' h x)) → ∀ h, P h → xs.foldl step h = xs.foldl step' h
  | [], _, _, _, _ => rfl
  | x :: xs, hstep, hkeep, h, hP => by
    rw [List.foldl_cons, List.foldl_cons, hstep x List.mem_cons_self h hP]
    exact foldl_congr_of_keeps (fun y hy => hstep y (List.mem_cons_of_mem _ hy)) hkeep _
      (hkeep x h hP)

end Congr

/-! ## Fuel past the height -/

/-- The search for a dirty copy gives one answer for every fuel from the height of the cache
up. -/
theorem writebackOwner_settles (addr : UInt64) :
    ∀ (n : Nat) (h : Hierarchy) (id : Nat), h.HeightAtMost id n → ∀ m, n ≤ m →
      h.writebackOwner m id addr = h.writebackOwner n id addr := by
  intro n
  induction n with
  | zero =>
    -- nothing lies above the cache: every fuel finds no copy
    intro h id hn m _
    have hnil : h.above id = [] := hn.above_eq_nil
    cases m with
    | zero => rfl
    | succ m =>
      rw [writebackOwner]
      change firstCopy _ _ (h.above id) h = _
      rw [hnil]
      rfl
  | succ n ih =>
    intro h id hn m hm
    obtain ⟨m, rfl⟩ : ∃ m', m = m' + 1 := ⟨m - 1, by omega⟩
    rw [writebackOwner, writebackOwner]
    refine firstCopy_congr (fun h' => h'.above = h.above) _ (fun x hx h' hh' => ?_)
      (fun x h' hh' => ?_) h rfl
    · -- a cache right above is lower by one link, and the walk from it settles
      have hxn := (hn.of_mem_above hx).of_above_eq hh'
      rw [ih h' x hxn m (by omega)]
    · -- a visit keeps the links
      rw [← hh']
      split
      · rfl
      · rename_i c hc
        split
        · split
          · exact sameLinks_setCacheAt_changeStatus h' x c hc _ _ _
          · exact sameLinks_setCacheAt_changeStatus h' x c hc _ _ _
          · rfl
          · rfl
          · exact above_writebackOwner h' n x addr
        · exact above_writebackOwner h' n x addr

/-- The eviction above a cache ends in one state for every fuel from its height up. -/
theorem evictAbove_settles (addr : UInt64) :
    ∀ (n : Nat) (h : Hierarchy) (id : Nat), h.HeightAtMost id n → ∀ m, n ≤ m →
      h.evictAbove m id addr = h.evictAbove n id addr := by
  intro n
  induction n with
  | zero =>
    intro h id hn m _
    have hnil : h.above id = [] := hn.above_eq_nil
    cases m with
    | zero => rfl
    | succ m =>
      rw [evictAbove]
      change List.foldl _ h (h.above id) = _
      rw [hnil]
      rfl
  | succ n ih =>
    intro h id hn m hm
    obtain ⟨m, rfl⟩ : ∃ m', m = m' + 1 := ⟨m - 1, by omega⟩
    rw [evictAbove, evictAbove]
    refine foldl_congr_of_keeps (fun h' => h'.above = h.above) (fun x hx h' hh' => ?_)
      (fun x h' hh' => ?_) h rfl
    · have hxn := (hn.of_mem_above hx).of_above_eq hh'
      rw [ih h' x hxn m (by omega)]
    · -- the walk from a cache above and the drop of its copy keep the links
      rw [← hh']
      exact (sameLinks_modifyCache _ x fun c => higher_evictCopy c addr).trans
        (above_evictAbove h' n x addr)

/-- The search for the freshest copy, which also reads the cache itself, gives one answer for
every fuel past the height of the cache. -/
theorem ownerAbove_settles (addr : UInt64) :
    ∀ (n : Nat) (h : Hierarchy) (id : Nat), h.HeightAtMost id n → ∀ m, n ≤ m →
      h.ownerAbove (m + 1) id addr false = h.ownerAbove (n + 1) id addr false := by
  intro n
  induction n with
  | zero =>
    intro h id hn m _
    have hnil : h.above id = [] := hn.above_eq_nil
    rw [ownerAbove, ownerAbove]
    cases hc : h.caches[id]? with
    | none => rfl
    | some c =>
      -- nothing lies above the cache, so the search above finds no copy with any fuel
      have hhigher : c.higher = [] := by simpa [above, hc] using hnil
      simp only [hhigher, firstCopy, Bool.false_and, Bool.false_eq_true, ↓reduceIte]
  | succ n ih =>
    intro h id hn m hm
    obtain ⟨m, rfl⟩ : ∃ m', m = m' + 1 := ⟨m - 1, by omega⟩
    rw [ownerAbove, ownerAbove]
    cases hc : h.caches[id]? with
    | none => rfl
    | some c =>
      have habove : firstCopy (fun x h => ownerAbove (m + 1) h x addr false)
          (fun h => h.modifyCache id fun x => x.shareCopy addr) c.higher h =
          firstCopy (fun x h => ownerAbove (n + 1) h x addr false)
          (fun h => h.modifyCache id fun x => x.shareCopy addr) c.higher h := by
        refine firstCopy_congr (fun h' => h'.above = h.above) _ (fun x hx h' hh' => ?_)
          (fun x h' hh' => by rw [above_ownerAbove, hh']) h rfl
        have hx' : x ∈ h.above id := by simpa [above, hc] using hx
        exact ih h' x ((hn.of_mem_above hx').of_above_eq hh') m (by omega)
      simp only [Bool.false_and, Bool.false_eq_true, ↓reduceIte, habove]

/-- With the last-level loop, the search gives one answer for every fuel two past a bound on
the height of every cache: the loop adds one level, which does not recurse into itself. -/
theorem ownerAbove_llc_settles (addr : UInt64) (n : Nat) (h : Hierarchy)
    (hn : ∀ y, h.HeightAtMost y n) (id : Nat) :
    ∀ m, n ≤ m → h.ownerAbove (m + 2) id addr true = h.ownerAbove (n + 2) id addr true := by
  intro m hm
  -- every search the loop or the cache starts is a search without the loop, which settles
  have hvisit : ∀ x h', h'.above = h.above →
      ownerAbove (m + 1) h' x addr false = ownerAbove (n + 1) h' x addr false :=
    fun x h' hh' => ownerAbove_settles addr n h' x ((hn x).of_above_eq hh') m hm
  have hkeep : ∀ x h', h'.above = h.above → (ownerAbove (n + 1) h' x addr false).2.above = h.above :=
    fun x h' hh' => by rw [above_ownerAbove, hh']
  rw [ownerAbove, ownerAbove]
  cases hc : h.caches[id]? with
  | none => rfl
  | some c =>
    have hwalk : ∀ (onDirty : Hierarchy → Hierarchy) (xs : List Nat),
        firstCopy (fun x h => ownerAbove (m + 1) h x addr false) onDirty xs h =
          firstCopy (fun x h => ownerAbove (n + 1) h x addr false) onDirty xs h :=
      fun onDirty xs => firstCopy_congr (fun h' => h'.above = h.above) onDirty
        (fun x _ h' hh' => hvisit x h' hh') (fun x h' hh' => hkeep x h' hh') h rfl
    simp only [hwalk]

/-! ## No walk runs out of fuel -/

/-- With no cycle of links, no chain up from a cache is longer than there are caches. From
any cache and for any address, each walk gives one answer for every fuel past the height of the
cache: the walks for a writeback and an eviction from the height up, the search for the freshest
copy from one more, and the search with the last-level loop one level later still, past a bound
on the height of every cache. The fuel the walks are run with, `depth`, is past all of these,
so it never ends a walk. -/
theorem walks_settle (h : Hierarchy) (hac : h.Acyclic) (id : Nat) (addr : UInt64) :
    (∀ k, h.Climbs id k → k ≤ h.caches.size) ∧
    (∀ n, h.HeightAtMost id n → ∀ m, n ≤ m →
      h.writebackOwner m id addr = h.writebackOwner n id addr ∧
      h.evictAbove m id addr = h.evictAbove n id addr ∧
      h.ownerAbove (m + 1) id addr false = h.ownerAbove (n + 1) id addr false) ∧
    (∀ n, (∀ y, h.HeightAtMost y n) → ∀ m, n ≤ m →
      h.ownerAbove (m + 2) id addr true = h.ownerAbove (n + 2) id addr true) ∧
    (∀ m, h.depth ≤ m →
      h.ownerAbove m id addr true = h.ownerAbove h.depth id addr true ∧
      h.ownerAbove m id addr false = h.ownerAbove h.depth id addr false ∧
      h.writebackOwner m id addr = h.writebackOwner h.depth id addr ∧
      h.evictAbove m id addr = h.evictAbove h.depth id addr) := by
  -- the number of caches bounds the height of every cache
  have hsize : ∀ y, h.HeightAtMost y h.caches.size := fun y k hk => climbs_le_size hac hk
  refine ⟨hsize id, fun n hn m hm => ⟨writebackOwner_settles addr n h id hn m hm,
    evictAbove_settles addr n h id hn m hm, ownerAbove_settles addr n h id hn m hm⟩,
    fun n hn m hm => ownerAbove_llc_settles addr n h hn id m hm, fun m hm => ?_⟩
  obtain ⟨m, rfl⟩ : ∃ m', m = m' + 2 := ⟨m - 2, by unfold depth at hm; omega⟩
  have hm' : h.caches.size ≤ m := by unfold depth at hm; omega
  -- the fuel `depth` is two more than the number of caches
  have hdepth : h.depth = h.caches.size + 2 := rfl
  refine ⟨?_, ?_, ?_, ?_⟩
  · rw [hdepth]
    exact ownerAbove_llc_settles addr _ h hsize id m hm'
  · -- the search without the loop settles from one past the number of caches
    rw [hdepth]
    exact ownerAbove_settles addr (h.caches.size + 1) h id
      (fun k hk => (hsize id k hk).trans (Nat.le_succ _)) (m + 1) (by omega)
  · rw [hdepth, writebackOwner_settles addr _ h id (hsize id) (m + 2) (by omega),
      writebackOwner_settles addr _ h id (hsize id) (h.caches.size + 2) (by omega)]
  · rw [hdepth, evictAbove_settles addr _ h id (hsize id) (m + 2) (by omega),
      evictAbove_settles addr _ h id (hsize id) (h.caches.size + 2) (by omega)]

/-- Caches 0 and 1 sit above cache 2. The links form no cycle, since each goes to a cache of
smaller id, and the search from cache 2 with the last-level loop gives with fuel 7 what it gives
with the fuel `depth` of the three caches. -/
theorem walks_settle_two_above :
    let h : Hierarchy := ⟨#[default, { (default : Cache) with id := 1 },
      { (default : Cache) with id := 2, higher := [0, 1] }], default⟩
    h.Acyclic ∧ h.ownerAbove 7 2 0x40 true = h.ownerAbove h.depth 2 0x40 true := by
  intro h
  have hac : h.Acyclic := acyclic_of_rank (fun y => 2 - y) (by decide)
  exact ⟨hac, ((walks_settle h hac 2 0x40).2.2.2 7 (by decide)).1⟩

end Hierarchy

end CacheHierarchy
