import Mathlib
import CacheHierarchy.Proofs.FindLine
import CacheHierarchy.Proofs.Setup

set_option autoImplicit false

/-! # Caches read lines as the directory does

The directory decides which transactions share a line by comparing addresses under its line
mask; a cache finds a line by comparing line addresses, in the set its index field names. The
two agree on every address when the cache takes a line to be exactly the addresses that agree
under the mask, and takes the set index from above the offset, so that the addresses of one
line map to one set (`Cache.Shape.Aligned`). Then two addresses on one line of the directory
are found at the same way of the cache (`Cache.findLine_eq_of_lineMask`).

Every cache as built is aligned (`Cache.aligned_of_build`), and linking the caches of a
configuration changes no shape but the links (`Config.shape_of_buildCaches`), so every cache of
a machine as set up is aligned and sits in the slot of its id (`Machine.aligned_new`). Both facts
are about shapes, which no coherence action changes.
-/

namespace CacheHierarchy

/-! ## Bit fields read from above the offset -/

namespace BitField

/-- A field inside the word reads the bits from `lo` up, `hi - lo` of them. -/
theorem read_eq (f : BitField) (a : UInt64) (h : f.lo ≤ f.hi) (h64 : f.hi ≤ 64) :
    f.read a = a.toNat / 2 ^ f.lo % 2 ^ (f.hi - f.lo) := by
  -- the ones of the field are `2 ^ (hi - lo) - 1` shifted up by `lo`
  have hones : 2 ^ f.hi - 2 ^ f.lo = (2 ^ (f.hi - f.lo) - 1) * 2 ^ f.lo := by
    rw [Nat.sub_mul, one_mul, ← Nat.pow_add, Nat.sub_add_cancel h]
  apply Nat.eq_of_testBit_eq
  intro k
  rw [read, keep, Nat.pow_eq, Nat.testBit_div_two_pow, UInt64.toNat_and, Nat.testBit_and,
    toNat_ones h h64, hones, Nat.testBit_mul_two_pow, Nat.testBit_two_pow_sub_one,
    Nat.testBit_mod_two_pow, Nat.testBit_div_two_pow]
  simp only [Nat.le_add_left, decide_true, Bool.true_and, Nat.add_sub_cancel]
  rw [Bool.and_comm]

/-- Two addresses that agree from bit `lo` up agree on every number the bits from `lo` up
make. -/
theorem div_eq_of_keep_eq {lo : Nat} (hlo : lo ≤ 64) {a b : UInt64}
    (hab : (BitField.mk lo 64).keep a = (BitField.mk lo 64).keep b) :
    a.toNat / 2 ^ lo = b.toNat / 2 ^ lo := by
  -- below `2 ^ 64`, the bits from `lo` up are all of `a / 2 ^ lo`
  have hdiv : ∀ x : UInt64, x.toNat / 2 ^ lo = (BitField.mk lo 64).read x := by
    intro x
    rw [read_eq _ _ hlo le_rfl, Nat.mod_eq_of_lt]
    apply (Nat.div_lt_iff_lt_mul (Nat.two_pow_pos lo)).2
    rw [← Nat.pow_add, Nat.sub_add_cancel hlo]
    exact x.toNat_lt
  rw [hdiv, hdiv, read, read, hab]

/-- A field above bit `lo` reads the same on two addresses that agree from bit `lo` up. -/
theorem read_eq_of_div_eq (f : BitField) {lo : Nat} (hlo : lo ≤ f.lo) (h : f.lo ≤ f.hi)
    (h64 : f.hi ≤ 64) {a b : UInt64} (hab : a.toNat / 2 ^ lo = b.toNat / 2 ^ lo) :
    f.read a = f.read b := by
  have hsplit : ∀ x : UInt64, x.toNat / 2 ^ f.lo = x.toNat / 2 ^ lo / 2 ^ (f.lo - lo) := by
    intro x
    rw [Nat.div_div_eq_div_mul, ← Nat.pow_add, Nat.add_sub_cancel' hlo]
  rw [read_eq f a h h64, read_eq f b h h64, hsplit, hsplit, hab]

end BitField

namespace AddressMap

theorem index_lo_le_hi_ofLayout (layout : Layout) (ob ib bb : Nat) :
    (ofLayout layout ob ib bb).index.lo ≤ (ofLayout layout ob ib bb).index.hi := by
  cases layout <;> simp [ofLayout]

/-- The set index ends where the tag, or the bank above it, begins. -/
theorem index_hi_le_tag_lo_ofLayout (layout : Layout) (ob ib bb : Nat) :
    (ofLayout layout ob ib bb).index.hi ≤ (ofLayout layout ob ib bb).tag.lo := by
  cases layout <;> simp [ofLayout]

theorem tag_lo_lt_of_fieldsInWord {m : AddressMap} (h : m.fieldsInWord = true) :
    m.tag.lo < 64 := by
  simp only [fieldsInWord, wordBits, Bool.and_eq_true] at h
  exact of_decide_eq_true h.1.1

end AddressMap

/-! ## Aligned caches -/

/-- A cache of shape `s` reads lines as a directory whose lines are the addresses that agree
under `mask`: two addresses are on one line of the cache exactly when they agree under the
mask, and the set of an address depends on its line only. -/
structure Cache.Shape.Aligned (mask : UInt64) (s : Cache.Shape) : Prop where
  sameLine_iff : ∀ a b, s.fields.sameLine a b = true ↔ a &&& mask = b &&& mask
  indexOf_eq : ∀ a b, s.fields.sameLine a b = true → s.fields.indexOf a = s.fields.indexOf b

namespace Cache

/-- In an aligned cache, two addresses on one line of the directory are found at the same
way. -/
theorem findLine_eq_of_lineMask {c : Cache} {mask : UInt64} (hal : c.shape.Aligned mask)
    {a b : UInt64} (hab : a &&& mask = b &&& mask) : c.findLine a = c.findLine b := by
  have hsame : c.fields.sameLine a b = true := (hal.sameLine_iff a b).2 hab
  exact c.findLine_eq_of_sameLine (hal.indexOf_eq a b hsame) hsame

/-- A cache that builds is aligned with a directory whose lines are as long as its own. -/
theorem aligned_of_build {id : Nat} {cfg : CacheConfig} {lineSize : Nat} {c : Cache}
    (h : build id cfg lineSize = .ok c) : c.shape.Aligned (~~~((lineSize - 1).toUInt64)) := by
  obtain ⟨hok, hword, -, hfields, -⟩ := build_inv h
  have hindex := AddressMap.le_index_lo_ofLayout cfg.layout lineSize.log2
    (cfg.lineNumber / cfg.associativity).log2 cfg.totalBanks.log2
  have hhi := AddressMap.index_hi_le_tag_lo_ofLayout cfg.layout lineSize.log2
    (cfg.lineNumber / cfg.associativity).log2 cfg.totalBanks.log2
  have hlohi := AddressMap.index_lo_le_hi_ofLayout cfg.layout lineSize.log2
    (cfg.lineNumber / cfg.associativity).log2 cfg.totalBanks.log2
  have htag := AddressMap.tag_lo_lt_of_fieldsInWord hword
  -- the line mask keeps the bits from the offset up, as the line address of the cache does
  have hmask : ~~~((lineSize - 1).toUInt64) = (BitField.mk lineSize.log2 64).ones := by
    have hones := not_sub_one_eq_ones (by omega : lineSize.log2 < 64)
    rwa [pow_log2_of_isPowerOfTwo hok.lineSize] at hones
  have hsame : ∀ a b, c.fields.sameLine a b = true ↔
      (BitField.mk lineSize.log2 64).keep a = (BitField.mk lineSize.log2 64).keep b := by
    intro a b
    simp [AddressMap.sameLine, hfields, AddressMap.lineOf_ofLayout]
  refine ⟨fun a b => by rw [shape_fields, hsame, hmask]; rfl, fun a b hab => ?_⟩
  have hdiv := BitField.div_eq_of_keep_eq (by omega) ((hsame a b).1 hab)
  simp only [shape_fields, AddressMap.indexOf, hfields] at hdiv ⊢
  exact BitField.read_eq_of_div_eq _ hindex hlohi (by omega) hdiv

theorem id_of_build {id : Nat} {cfg : CacheConfig} {lineSize : Nat} {c : Cache}
    (h : build id cfg lineSize = .ok c) : c.id = id :=
  (build_keeps h).2.1

end Cache

/-! ## The caches of a configuration -/

/-- What `mapM` returns without a fault is, place by place, a result of `f`. -/
theorem getElem?_of_mapM_eq_ok {ε α β : Type} {f : α → Except ε β} :
    ∀ {xs : List α} {ys : List β}, xs.mapM f = .ok ys →
      ∀ (i : Nat) (y : β), ys[i]? = some y → ∃ x, xs[i]? = some x ∧ f x = .ok y
  | [], ys, h => by
    cases h
    simp
  | x :: xs, ys, h => by
    rw [List.mapM_cons] at h
    cases hx : f x with
    | error e => simp [hx, bind, Except.bind] at h
    | ok y =>
      cases hxs : xs.mapM f with
      | error e => simp [hx, hxs, bind, Except.bind] at h
      | ok ys' =>
        simp only [hx, hxs, bind, Except.bind, pure, Except.pure, Except.ok.injEq] at h
        subst h
        intro i z hz
        cases i with
        | zero =>
          simp only [List.getElem?_cons_zero, Option.some.injEq] at hz
          exact ⟨x, rfl, hz ▸ hx⟩
        | succ i => exact getElem?_of_mapM_eq_ok hxs i z (by simpa using hz)

/-- Each cache of `caches` has the shape of the cache the configuration builds in its slot,
but for the caches linked above it. -/
def Config.BuiltShapes (cfg : Config) (caches : Array Cache) : Prop :=
  ∀ i c, caches[i]? = some c → ∃ cc c₀, cfg.caches[i]? = some cc ∧
    Cache.build i cc cfg.lineSize = .ok c₀ ∧ c.shape = { c₀.shape with higher := c.higher }

/-- Changing a cache without changing its shape, but for its links above, keeps the shapes as
built. -/
theorem Config.BuiltShapes.modify {cfg : Config} {caches : Array Cache}
    (hc : cfg.BuiltShapes caches) (j : Nat) {f : Cache → Cache}
    (hf : ∀ c, (f c).shape = { c.shape with higher := (f c).higher }) :
    cfg.BuiltShapes (caches.modify j f) := by
  intro i c hi
  rw [Array.getElem?_modify] at hi
  split at hi
  · obtain ⟨c', hc', rfl⟩ := Option.map_eq_some_iff.1 hi
    obtain ⟨cc, c₀, hcc, hb, hs⟩ := hc i c' hc'
    exact ⟨cc, c₀, hcc, hb, by rw [hf, hs]⟩
  · exact hc i c hi

/-- Linking the caches of a configuration changes no shape but the links: each cache has the
shape of the cache its configuration builds in its slot, but for the caches above it. -/
theorem Config.shape_of_buildCaches {cfg : Config} {caches : Array Cache}
    (h : cfg.buildCaches = .ok caches) : cfg.BuiltShapes caches := by
  unfold Config.buildCaches at h
  -- the checks on the whole configuration come first
  split at h
  · split at h <;> cases h
  split at h
  · cases h
  simp only [bind, Except.bind, pure, Except.pure] at h
  split at h
  · cases h
  rename_i built hbuilt
  split at h
  · cases h
  rename_i linked hlinked
  split at h
  · cases h
  cases h
  refine forIn_keeps cfg.BuiltShapes (fun x b r hb hr => ?_) _ _ _ ?_ hlinked
  · -- each cache is linked to the caches below it; linking keeps every shape
    split at hr
    · cases hr
    cases hr
    refine forIn_keeps cfg.BuiltShapes (fun label b r hb hr => ?_) _ _ _ hb ‹_›
    split at hr
    · cases hr
    cases hr
    rw [ForInStep.value_yield]
    refine (hb.modify _ ?_).modify _ ?_ <;> intro c <;> rfl
  · -- the caches as built, each from its configuration and its place
    intro i c hc
    obtain ⟨⟨cc, id⟩, hx, hb⟩ := getElem?_of_mapM_eq_ok hbuilt i c (by simpa using hc)
    rw [List.getElem?_zipIdx] at hx
    obtain ⟨cc', hcc', hpair⟩ := Option.map_eq_some_iff.1 hx
    simp only [Prod.mk.injEq, Nat.zero_add] at hpair
    obtain ⟨rfl, rfl⟩ := hpair
    exact ⟨_, c, hcc', hb, rfl⟩

/-! ## Hierarchies -/

namespace Hierarchy

/-- Every cache reads lines as the directory does. -/
def Aligned (h : Hierarchy) : Prop :=
  ∀ (i : Nat) (c : Cache), h.caches[i]? = some c → c.shape.Aligned h.directory.lineMask

/-- Every cache sits in the slot of its id. -/
def SlotIds (h : Hierarchy) : Prop :=
  ∀ (i : Nat) (c : Cache), h.caches[i]? = some c → c.id = i

theorem Aligned.of_shapes {h h' : Hierarchy} (hs : h'.shapes = h.shapes) (ha : h.Aligned) :
    h'.Aligned := by
  intro i c' hc'
  obtain ⟨c, hc, hcs⟩ := exists_of_shapes hs hc'
  rw [lineMask_of_shapes hs, ← hcs]
  exact ha i c hc

theorem SlotIds.of_shapes {h h' : Hierarchy} (hs : h'.shapes = h.shapes) (hi : h.SlotIds) :
    h'.SlotIds := by
  intro i c' hc'
  obtain ⟨c, hc, hcs⟩ := exists_of_shapes hs hc'
  rw [← Cache.shape_id, ← hcs, Cache.shape_id]
  exact hi i c hc

end Hierarchy

/-- Every cache of a machine as set up reads lines as its directory does, and sits in the slot
of its id. -/
theorem Machine.aligned_new {cfg : Config} {traces : List Trace} {m : Machine}
    (h : Machine.new cfg traces = .ok m) : m.hierarchy.Aligned ∧ m.hierarchy.SlotIds := by
  obtain ⟨caches, memories, hbuilt, hm⟩ := Machine.hierarchy_of_new h
  rw [hm]
  constructor
  · intro i c hc
    obtain ⟨cc, c₀, -, hb, hshape⟩ := Config.shape_of_buildCaches hbuilt i c hc
    rw [hshape]
    -- alignment reads the address fields only, which linking leaves alone
    have ha := Cache.aligned_of_build hb
    exact ⟨ha.sameLine_iff, ha.indexOf_eq⟩
  · intro i c hc
    obtain ⟨cc, c₀, -, hb, hshape⟩ := Config.shape_of_buildCaches hbuilt i c hc
    rw [← Cache.shape_id, hshape, Cache.shape_id]
    exact Cache.id_of_build hb

end CacheHierarchy
