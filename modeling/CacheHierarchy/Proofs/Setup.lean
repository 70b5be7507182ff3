import Mathlib
import CacheHierarchy.Proofs.Frame
import CacheHierarchy.Machine.Basic

set_option autoImplicit false

/-! # Caches as set up fit their directory

The directory and the caches agree on what a line is only because of how the caches are built:
a valid configuration has a power-of-two line size, ways, and a power-of-two number of sets, and
the fields of an address are cut so that the offset is the low `log2 lineSize` bits and the set
index has `log2 sets` bits. Then every cache fits the directory (`Cache.Shape.Fits`): an
address maps to a set of `ways` lines, and two addresses on one directory line are on one line of
the cache.

`Cache.fits_of_build` proves this for one cache and `Config.buildCaches_fit` for every cache of
a configuration, through the loops that link the caches; `Machine.wellBuilt_new` concludes that
the hierarchy of every machine that is set up is well built and has no transaction in flight.
-/

namespace CacheHierarchy

/-! ## Bit fields -/

/-- A power of two is two to the power of its logarithm. -/
theorem pow_log2_of_isPowerOfTwo {n : Nat} (h : isPowerOfTwo n = true) : 2 ^ n.log2 = n := by
  have : n ≠ 0 ∧ n &&& (n - 1) = 0 := by simpa [isPowerOfTwo] using h
  obtain ⟨k, rfl⟩ := Nat.ne_zero_and_sub_one_eq_zero_iff_isPowerOfTwo.1 this
  rw [Nat.log2_two_pow]

namespace BitField

/-- The ones of a field lie below its top. -/
theorem toNat_ones_lt (f : BitField) : f.ones.toNat < 2 ^ f.hi := by
  unfold ones
  split
  · simp
  · simp only [Nat.pow_eq, Nat.toUInt64_eq, UInt64.toNat_ofNat']
    split
    · -- the field ends inside the word
      have := Nat.two_pow_pos f.lo
      have := Nat.two_pow_pos f.hi
      exact lt_of_le_of_lt (Nat.mod_le _ _) (by omega)
    · -- the field runs to the end of the word
      exact lt_of_lt_of_le (Nat.mod_lt _ (Nat.two_pow_pos 64))
        (Nat.pow_le_pow_right (by norm_num) (by omega))

theorem toNat_ones {f : BitField} (h : f.lo ≤ f.hi) (h64 : f.hi ≤ 64) :
    f.ones.toNat = 2 ^ f.hi - 2 ^ f.lo := by
  have hpos := Nat.two_pow_pos f.lo
  have hle : 2 ^ f.hi ≤ 2 ^ 64 := Nat.pow_le_pow_right (by norm_num) h64
  -- the top of the field is `2 ^ hi`, also when the field reaches the end of the word
  have hhi : (if f.hi < 64 then 2 ^ f.hi else 2 ^ 64) = 2 ^ f.hi := by
    split
    · rfl
    · rw [show f.hi = 64 by omega]
  rcases Nat.lt_or_eq_of_le h with hlh | heq
  · simp only [ones, Nat.not_le.2 hlh, if_false, Nat.pow_eq, Nat.toUInt64_eq,
      UInt64.toNat_ofNat', hhi]
    exact Nat.mod_eq_of_lt (by omega)
  · simp [ones, heq]

/-- A field of `hi - lo` bits reads as a number below `2 ^ (hi - lo)`; the field may run past
the word. -/
theorem read_lt (f : BitField) (addr : UInt64) (h : f.lo ≤ f.hi) :
    f.read addr < 2 ^ (f.hi - f.lo) := by
  have hkeep : (f.keep addr).toNat < 2 ^ f.hi := by
    rw [keep, UInt64.toNat_and]
    exact lt_of_le_of_lt Nat.and_le_right f.toNat_ones_lt
  rw [read, Nat.pow_eq, Nat.div_lt_iff_lt_mul (Nat.two_pow_pos _), ← Nat.pow_add,
    Nat.sub_add_cancel h]
  exact hkeep

end BitField

/-- The directory's line mask for lines of `2 ^ ob` bytes keeps the bits from `ob` up. -/
theorem not_sub_one_eq_ones {ob : Nat} (h : ob < 64) :
    ~~~((2 ^ ob - 1 : Nat).toUInt64) = (BitField.mk ob 64).ones := by
  have hpos := Nat.two_pow_pos ob
  have hlt : 2 ^ ob < 2 ^ 64 := Nat.pow_lt_pow_right (by norm_num) h
  have hsize : UInt64.size = 2 ^ 64 := rfl
  apply UInt64.toNat_inj.1
  rw [UInt64.toNat_not, BitField.toNat_ones (by simp; omega) (by simp)]
  simp only [Nat.toUInt64_eq, UInt64.toNat_ofNat', hsize]
  rw [Nat.mod_eq_of_lt (by omega)]
  omega

/-! ## Address maps of a layout -/

namespace AddressMap

/-- The set index of every layout has `ib` bits. -/
theorem indexOf_ofLayout_lt (layout : Layout) (ob ib bb : Nat) (addr : UInt64) :
    (ofLayout layout ob ib bb).indexOf addr < 2 ^ ib := by
  have h := fun lo => BitField.read_lt ⟨lo, lo + ib⟩ addr (by simp)
  cases layout <;> simpa [ofLayout, indexOf] using h _

/-- In every layout the line address keeps the bits above the `ob` bits of offset. -/
theorem lineOf_ofLayout (layout : Layout) (ob ib bb : Nat) (addr : UInt64) :
    (ofLayout layout ob ib bb).lineOf addr = (BitField.mk ob 64).keep addr := by
  cases layout <;> rfl

/-- The set index starts above the offset. -/
theorem le_index_lo_ofLayout (layout : Layout) (ob ib bb : Nat) :
    ob ≤ (ofLayout layout ob ib bb).index.lo := by
  cases layout <;> simp [ofLayout]

theorem index_lo_lt_of_fieldsInWord {m : AddressMap} (h : m.fieldsInWord = true) :
    m.index.lo < 64 := by
  simp only [fieldsInWord, wordBits, Bool.and_eq_true] at h
  exact of_decide_eq_true h.1.2

end AddressMap

/-! ## A cache as built -/

namespace Cache

/-- What a valid configuration promises of the shape of the cache. -/
structure ShapeOk (cfg : CacheConfig) (lineSize : Nat) : Prop where
  lineSize : isPowerOfTwo lineSize = true
  ways_pos : 0 < cfg.associativity
  sets : isPowerOfTwo (cfg.lineNumber / cfg.associativity) = true

theorem shapeOk_of_validate {cfg : CacheConfig} {lineSize : Nat} {u : Unit}
    (h : validate cfg lineSize = .ok u) : ShapeOk cfg lineSize := by
  -- the first two checks are on the shape; a check that fails throws
  by_cases hl : isPowerOfTwo lineSize = true
  · by_cases hs : (cfg.associativity == 0 || cfg.lineNumber % cfg.associativity != 0 ||
        !isPowerOfTwo (cfg.lineNumber / cfg.associativity)) = true
    · simp [validate, hl, hs, throw, throwThe, MonadExceptOf.throw, bind, Except.bind] at h
    · simp at hs
      exact ⟨hl, Nat.pos_of_ne_zero hs.1.1, hs.2⟩
  · simp [validate, hl, throw, throwThe, MonadExceptOf.throw, bind, Except.bind] at h

/-- A cache that builds passed the checks and has the ways, fields and tag array of its
configuration. -/
theorem build_inv {id : Nat} {cfg : CacheConfig} {lineSize : Nat} {c : Cache}
    (h : build id cfg lineSize = .ok c) :
    ShapeOk cfg lineSize ∧
      (AddressMap.ofLayout cfg.layout lineSize.log2 (cfg.lineNumber / cfg.associativity).log2
        cfg.totalBanks.log2).fieldsInWord = true ∧
      c.ways = cfg.associativity ∧
      c.fields = AddressMap.ofLayout cfg.layout lineSize.log2
        (cfg.lineNumber / cfg.associativity).log2 cfg.totalBanks.log2 ∧
      c.lines = freshLines c.fields (cfg.lineNumber / cfg.associativity) cfg.associativity
        cfg.bankNumber := by
  cases hv : validate cfg lineSize with
  | error e => simp [build, hv, Except.mapError, bind, Except.bind] at h
  | ok u =>
    by_cases hw : (AddressMap.ofLayout cfg.layout lineSize.log2 (cfg.lineNumber / cfg.associativity).log2
      cfg.totalBanks.log2).fieldsInWord = true
    · simp [build, hv, hw, Except.mapError, bind, Except.bind, throw, throwThe, MonadExceptOf.throw, pure] at h
      -- the remaining steps size the MSHR and build the prefetcher: they fail or give the cache
      repeat' split at h
      all_goals cases h
      exact ⟨shapeOk_of_validate hv, hw, rfl, rfl, rfl⟩
    · simp [build, hv, hw, Except.mapError, bind, Except.bind, throw, throwThe, MonadExceptOf.throw] at h

/-- A cache that builds passed every check, and has the id, the line size and the policy it
was built with. -/
theorem build_keeps {id : Nat} {cfg : CacheConfig} {lineSize : Nat} {c : Cache}
    (h : build id cfg lineSize = .ok c) :
    validate cfg lineSize = .ok () ∧ c.id = id ∧ c.lineSize = lineSize ∧
      c.replacement = cfg.replacement := by
  cases hv : validate cfg lineSize with
  | error e => simp [build, hv, Except.mapError, bind, Except.bind] at h
  | ok u =>
    by_cases hw : (AddressMap.ofLayout cfg.layout lineSize.log2
      (cfg.lineNumber / cfg.associativity).log2 cfg.totalBanks.log2).fieldsInWord = true
    · simp [build, hv, hw, Except.mapError, bind, Except.bind, throw, throwThe,
        MonadExceptOf.throw, pure] at h
      -- the remaining steps size the MSHR and build the prefetcher: they fail or give the cache
      repeat' split at h
      all_goals cases h
      exact ⟨rfl, rfl, rfl, rfl⟩
    · simp [build, hv, hw, Except.mapError, bind, Except.bind, throw, throwThe,
        MonadExceptOf.throw] at h

/-- A cache that builds starts with an empty MSHR of the configured ranges. -/
theorem mshr_of_build {id : Nat} {cfg : CacheConfig} {lineSize : Nat} {c : Cache}
    (h : build id cfg lineSize = .ok c) :
    c.mshr = Mshr.empty cfg.mshrRequest cfg.mshrWriteback cfg.mshrPrefetch := by
  cases hv : validate cfg lineSize with
  | error e => simp [build, hv, Except.mapError, bind, Except.bind] at h
  | ok u =>
    by_cases hw : (AddressMap.ofLayout cfg.layout lineSize.log2
      (cfg.lineNumber / cfg.associativity).log2 cfg.totalBanks.log2).fieldsInWord = true
    · simp [build, hv, hw, Except.mapError, bind, Except.bind, throw, throwThe,
        MonadExceptOf.throw, pure] at h
      repeat' split at h
      all_goals cases h
      rfl
    · simp [build, hv, hw, Except.mapError, bind, Except.bind, throw, throwThe,
        MonadExceptOf.throw] at h

/-- A fresh tag array has `sets` sets of `ways` ways. -/
theorem sizes_freshLines (fields : AddressMap) (sets ways bank : Nat) :
    (freshLines fields sets ways bank).toList.map (·.size) = List.replicate sets ways := by
  simp [freshLines, List.map_ofFn, Function.comp_def, List.ofFn_const]

/-- A cache that builds fits a directory whose lines are as long as its own. -/
theorem fits_of_build {id : Nat} {cfg : CacheConfig} {lineSize : Nat} {c : Cache}
    (h : build id cfg lineSize = .ok c) : c.shape.Fits (~~~((lineSize - 1).toUInt64)) := by
  obtain ⟨hok, hword, hways, hfields, hlines⟩ := build_inv h
  -- the index field starts inside the word and above the offset, so the offset is short
  have hob : lineSize.log2 < 64 := by
    have := AddressMap.le_index_lo_ofLayout cfg.layout lineSize.log2
      (cfg.lineNumber / cfg.associativity).log2 cfg.totalBanks.log2
    have := AddressMap.index_lo_lt_of_fieldsInWord hword
    omega
  refine ⟨by simpa [hways] using hok.ways_pos, fun addr => ?_, fun a b hab => ?_⟩
  · have hlt := AddressMap.indexOf_ofLayout_lt cfg.layout lineSize.log2
      (cfg.lineNumber / cfg.associativity).log2 cfg.totalBanks.log2 addr
    rw [pow_log2_of_isPowerOfTwo hok.sets, ← hfields] at hlt
    simp only [shape, hlines, sizes_freshLines, hways]
    simp [List.getD_eq_getElem?_getD, hlt]
  · rw [← pow_log2_of_isPowerOfTwo hok.lineSize, not_sub_one_eq_ones hob] at hab
    simp [AddressMap.sameLine, hfields, AddressMap.lineOf_ofLayout, BitField.keep, hab]

end Cache

/-! ## The caches of a configuration -/

/-- A loop whose every turn keeps `P` keeps it to the end, when it ends without a fault. -/
theorem forIn_keeps {ε α β : Type} (P : β → Prop) {f : α → β → Except ε (ForInStep β)}
    (hf : ∀ x b r, P b → f x b = .ok r → P r.value) :
    ∀ (xs : List α) (b r : β), P b → forIn xs b f = .ok r → P r
  | [], b, r, hb, h => by
    cases h
    exact hb
  | x :: xs, b, r, hb, h => by
    rw [List.forIn_cons] at h
    cases hx : f x b with
    | error e => simp [hx, bind, Except.bind] at h
    | ok s =>
      have hs := hf x b s hb hx
      cases s with
      | done b' =>
        simp only [hx, bind, Except.bind, pure, Except.pure, Except.ok.injEq] at h
        exact h ▸ hs
      | yield b' =>
        simp only [hx, bind, Except.bind] at h
        exact forIn_keeps P hf xs b' r hs h

/-- What `mapM` returns without a fault is made of results of `f`. -/
theorem exists_of_mapM_eq_ok {ε α β : Type} {f : α → Except ε β} :
    ∀ {xs : List α} {ys : List β}, xs.mapM f = .ok ys → ∀ y ∈ ys, ∃ x ∈ xs, f x = .ok y
  | [], ys, h => by
    cases h
    simp
  | x :: xs, ys, h => by
    rw [List.mapM_cons] at h
    cases hx : f x with
    | error e => simp [hx, bind, Except.bind] at h
    | ok y =>
      cases hxs : xs.mapM f with
      | error e => simp [hx, hxs, bind, Except.bind] at h
      | ok ys' =>
        simp only [hx, hxs, bind, Except.bind, pure, Except.pure, Except.ok.injEq] at h
        subst h
        intro z hz
        rcases List.mem_cons.1 hz with rfl | hz
        · exact ⟨x, by simp, hx⟩
        · obtain ⟨x', hx', hf⟩ := exists_of_mapM_eq_ok hxs z hz
          exact ⟨x', by simp [hx'], hf⟩

/-- Every cache of `caches` fits a directory whose lines are the addresses equal under `mask`. -/
def CachesFit (mask : UInt64) (caches : Array Cache) : Prop :=
  ∀ (i : Nat) (c : Cache), caches[i]? = some c → c.shape.Fits mask

/-- Changing a cache by a change that keeps `P` keeps `P` of every cache. -/
theorem forall_caches_modify {P : Cache → Prop} {caches : Array Cache}
    (hc : ∀ (i : Nat) (c : Cache), caches[i]? = some c → P c) (i : Nat) {f : Cache → Cache}
    (hf : ∀ c, P c → P (f c)) :
    ∀ (j : Nat) (c : Cache), (caches.modify i f)[j]? = some c → P c := by
  intro j c hj
  rw [Array.getElem?_modify] at hj
  split at hj
  · obtain ⟨c', hc', rfl⟩ := Option.map_eq_some_iff.1 hj
    exact hf c' (hc j c' hc')
  · exact hc j c hj

/-- Every cache a configuration builds has a property that each cache has as built and that
linking caches, which sets the caches above and below, keeps. -/
theorem Config.buildCaches_all (P : Cache → Prop) {cfg : Config} {caches : Array Cache}
    (hbuild : ∀ {id : Nat} {cc : CacheConfig} {c : Cache},
      Cache.build id cc cfg.lineSize = .ok c → P c)
    (hlink : ∀ (c : Cache) (lower higher : List Nat), P c → P { c with lower, higher })
    (h : cfg.buildCaches = .ok caches) : ∀ (i : Nat) (c : Cache), caches[i]? = some c → P c := by
  unfold Config.buildCaches at h
  -- the checks on the whole configuration come first
  split at h
  · split at h <;> cases h
  split at h
  · cases h
  simp only [bind, Except.bind, pure, Except.pure] at h
  split at h
  · cases h
  rename_i built hbuilt
  split at h
  · cases h
  rename_i linked hlinked
  split at h
  · cases h
  cases h
  refine forIn_keeps (fun cs : Array Cache => ∀ i c, cs[i]? = some c → P c)
    (fun x b r hb hr => ?_) _ _ _ ?_ hlinked
  · -- each cache is linked to the caches below it
    split at hr
    · cases hr
    cases hr
    refine forIn_keeps (fun cs : Array Cache => ∀ i c, cs[i]? = some c → P c)
      (fun label b r hb hr => ?_) _ _ _ hb ‹_›
    split at hr
    · cases hr
    cases hr
    rw [ForInStep.value_yield]
    exact forall_caches_modify (forall_caches_modify hb _ fun c hc => hlink c _ _ hc) _
      fun c hc => hlink c _ _ hc
  · -- the caches as built
    intro i c hc
    have hmem : c ∈ built := List.mem_of_getElem? (by simpa using hc)
    obtain ⟨⟨cc, id⟩, -, hb⟩ := exists_of_mapM_eq_ok hbuilt c hmem
    exact hbuild hb

/-- Every cache a configuration builds fits a directory with lines of its line size. -/
theorem Config.buildCaches_fit {cfg : Config} {caches : Array Cache}
    (h : cfg.buildCaches = .ok caches) : CachesFit (~~~((cfg.lineSize - 1).toUInt64)) caches :=
  -- linking changes the caches above and below, and fitting does not read them
  Config.buildCaches_all _ Cache.fits_of_build
    (fun _ _ _ hc => ⟨hc.ways_pos, hc.sets, hc.sameLine⟩) h

/-- A machine that is set up holds the caches its configuration builds, under a fresh
directory with the configuration's line size. -/
theorem Machine.hierarchy_of_new {cfg : Config} {traces : List Trace} {m : Machine}
    (h : Machine.new cfg traces = .ok m) :
    ∃ caches memories, cfg.buildCaches = .ok caches ∧
      m.hierarchy = Hierarchy.new cfg.directory cfg.lineSize caches memories := by
  unfold Machine.new at h
  split at h
  · simp [throw, throwThe, MonadExceptOf.throw, bind, Except.bind] at h
  simp only [bind, Except.bind, pure, Except.pure, Except.mapError] at h
  split at h
  · cases h
  rename_i caches hcaches
  -- the cores and the check of the line size come after the caches and change none of them
  split at h
  · cases h
  split at h
  · cases h
  cases h
  refine ⟨caches, _, ?_, rfl⟩
  split at hcaches
  · cases hcaches
  cases hcaches
  assumption

/-- A machine as set up: its caches fit the directory, and no transaction is in flight. -/
theorem Machine.wellBuilt_new {cfg : Config} {traces : List Trace} {m : Machine}
    (h : Machine.new cfg traces = .ok m) :
    m.hierarchy.WellBuilt ∧ m.hierarchy.directory.entries = [] := by
  obtain ⟨caches, memories, hbuilt, hm⟩ := Machine.hierarchy_of_new h
  rw [hm]
  exact ⟨Config.buildCaches_fit hbuilt, rfl⟩

end CacheHierarchy
