import Mathlib
import CacheHierarchy.Proofs.Setup

set_option autoImplicit false

/-! # Setting up a machine checks exactly

A machine is set up from a configuration and one trace per core, through checks spread over
four functions: the count of traces in `Machine.new`; the labels, the memory controllers, the
caches and the links between them in `Config.buildCaches`; each cache's own rules in
`Cache.validate`, and its word sizes and prefetcher in `Cache.build`. Some checks are not
written as checks: a sum or a shift that leaves the word, or the line mask of the directory, one
less than the line size, stops the setup as an overflow.

Each of these functions is matched here with a list of refusals, each a condition and the error
it gives, read in the order the function reaches them (`CacheConfig.buildFailure`,
`Config.buildFailure`, `Config.setupFailure`). `FailsAs x o` says that the computation `x` fails
exactly with the first refusal of `o`, and lemmas carry it through binds, `mapError`, `mapM`
and loops. A loop that builds or links caches fails at its first element that fails, whatever
the state it carries, and the level of each cache is kept through the links, so that the check
of a core's caches reads the configured levels.

Main statement: setting up a machine fails exactly with the refusal of the first check that
fails, and succeeds exactly when none does (`Machine.new_fails_at_first_check`). The last
check, a line size of at least one byte, is only reached when no cache checks the line size.
-/

namespace CacheHierarchy

/-! ## Failing as a list of refusals says -/

/-- A check that refuses with `e` when `bad` holds. -/
def reject {ε : Type} (bad : Bool) (e : ε) : Option ε := if bad then some e else none

@[simp] theorem reject_true {ε : Type} (e : ε) : reject true e = some e := rfl

@[simp] theorem reject_false {ε : Type} (e : ε) : reject false e = none := rfl

@[simp] theorem map_reject {ε ε' : Type} (f : ε → ε') (b : Bool) (e : ε) :
    (reject b e).map f = reject b (f e) := by
  cases b <;> rfl

@[simp] theorem findSome_reject_cons {ε : Type} (b : Bool) (e : ε) (l : List (Option ε)) :
    (reject b e :: l).findSome? id = if b then some e else l.findSome? id := by
  cases b <;> rfl

/-- `x` fails exactly as `o` says: with `e` when `o` is `some e`, and not at all when `o` is
`none`. -/
def FailsAs {ε α : Type} (x : Except ε α) (o : Option ε) : Prop :=
  ∀ e, x = .error e ↔ o = some e

section FailsAs

variable {ε ε' α β : Type}

theorem FailsAs.ok_iff {x : Except ε α} {o : Option ε} (h : FailsAs x o) :
    (∃ a, x = .ok a) ↔ o = none := by
  cases hx : x with
  | ok a =>
    simp only [Except.ok.injEq, exists_eq', true_iff]
    cases ho : o with
    | none => rfl
    | some e => cases hx.symm.trans ((h e).2 ho)
  | error e =>
    simp only [reduceCtorEq, exists_false, false_iff]
    simp [(h e).1 hx]

theorem FailsAs.eq_none {x : Except ε α} {o : Option ε} (h : FailsAs x o) {a : α}
    (hx : x = .ok a) : o = none :=
  h.ok_iff.1 ⟨a, hx⟩

theorem failsAs_ok (a : α) : FailsAs (.ok a : Except ε α) none := by
  intro e
  simp

theorem failsAs_error (e : ε) : FailsAs (.error e : Except ε α) (some e) := by
  intro e'
  simp

theorem failsAs_ite (b : Bool) (e : ε) (a : α) :
    FailsAs (if b = true then .error e else .ok a) (reject b e) := by
  cases b
  · exact failsAs_ok a
  · exact failsAs_error e

/-- A refusal absorbs whatever was to follow it. -/
@[simp] theorem except_throw_bind (e : ε) (k : α → Except ε β) :
    (throw e >>= k : Except ε β) = .error e := rfl

@[simp] theorem except_error_bind (e : ε) (k : α → Except ε β) :
    (Except.error e >>= k : Except ε β) = .error e := rfl

@[simp] theorem except_ok_bind (a : α) (k : α → Except ε β) :
    (Except.ok a >>= k : Except ε β) = k a := rfl

/-- Two checks in a row fail as the first, and when the first passes, as the second. -/
theorem failsAs_bind {x : Except ε α} {k : α → Except ε β} {o o' : Option ε}
    (hx : FailsAs x o) (hk : ∀ a, x = .ok a → FailsAs (k a) o') :
    FailsAs (x >>= k) (o.or o') := by
  cases h : x with
  | error e₀ =>
    rw [(hx e₀).1 h, except_error_bind]
    exact failsAs_error e₀
  | ok a =>
    rw [hx.eq_none h, except_ok_bind, Option.none_or]
    exact hk a h

/-- A check that cannot fail, followed by another, fails as the second. -/
theorem failsAs_bind_of_none {x : Except ε α} {k : α → Except ε β} {o : Option ε}
    (hx : FailsAs x none) (hk : ∀ a, x = .ok a → FailsAs (k a) o) : FailsAs (x >>= k) o := by
  have hthen := failsAs_bind hx hk
  rwa [Option.none_or] at hthen

/-- A check and then a result fail as the check. -/
theorem failsAs_bind_pure {x : Except ε α} {o : Option ε} (h : α → β) (hx : FailsAs x o) :
    FailsAs (x >>= fun a => pure (h a)) o := by
  have hthen := failsAs_bind hx fun a _ => (failsAs_ok (h a) : FailsAs (.ok (h a) : Except ε β) none)
  rwa [Option.or_none] at hthen

theorem failsAs_mapError {x : Except ε α} {o : Option ε} (f : ε → ε') (hx : FailsAs x o) :
    FailsAs (x.mapError f) (o.map f) := by
  cases h : x with
  | error e₀ =>
    rw [(hx e₀).1 h]
    exact failsAs_error (f e₀)
  | ok a =>
    rw [hx.eq_none h]
    exact failsAs_ok a

/-- A run over a list fails at its first element that fails. -/
theorem failsAs_mapM {f : α → Except ε β} {g : α → Option ε} :
    ∀ (xs : List α), (∀ a ∈ xs, FailsAs (f a) (g a)) → FailsAs (xs.mapM f) (xs.findSome? g)
  | [], _ => failsAs_ok []
  | x :: xs, hf => by
    rw [List.mapM_cons, List.findSome?_cons]
    have hx := hf x List.mem_cons_self
    have hrest := failsAs_mapM xs fun a ha => hf a (List.mem_cons_of_mem x ha)
    cases h : f x with
    | error e₀ =>
      rw [(hx e₀).1 h]
      exact failsAs_error e₀
    | ok b =>
      rw [hx.eq_none h, except_ok_bind]
      exact failsAs_bind_pure (b :: ·) hrest

/-- A loop whose body only ever goes on fails at its first element whose check fails, whatever
the state it carries. -/
theorem failsAs_forIn {f : α → β → Except ε (ForInStep β)} {g : α → Option ε}
    (hf : ∀ a b, FailsAs (f a b) (g a)) (hyield : ∀ a b s, f a b = .ok s → ∃ b', s = .yield b') :
    ∀ (xs : List α) (b : β), FailsAs (forIn xs b f) (xs.findSome? g)
  | [], b => failsAs_ok b
  | x :: xs, b => by
    rw [List.forIn_cons, List.findSome?_cons]
    cases h : f x b with
    | error e₀ =>
      rw [(hf x b e₀).1 h]
      exact failsAs_error e₀
    | ok s =>
      obtain ⟨b', rfl⟩ := hyield x b s h
      rw [(hf x b).eq_none h, except_ok_bind]
      exact failsAs_forIn hf hyield xs b'

theorem mapError_eq_ok {x : Except ε α} {f : ε → ε'} {a : α} :
    x.mapError f = .ok a ↔ x = .ok a := by
  cases x <;> simp [Except.mapError]

theorem eq_of_bind_pure_eq_ok {x : Except ε α} {h : α → β} {r : β}
    (hx : (x >>= fun a => pure (h a)) = .ok r) : ∃ a, x = .ok a ∧ r = h a := by
  cases x with
  | error e => cases hx
  | ok a =>
    cases hx
    exact ⟨a, rfl, rfl⟩

theorem yields_bind_pure {x : Except ε α} {h : α → β} {s : ForInStep β}
    (hx : (x >>= fun a => pure (.yield (h a))) = .ok s) : ∃ b, s = .yield b := by
  cases x with
  | error e => cases hx
  | ok a =>
    cases hx
    exact ⟨h a, rfl⟩

end FailsAs

/-! ## One cache -/

namespace CacheConfig

/-- The first rule of its own a cache's configuration breaks, for lines of `lineSize` bytes:
the line size is a power of two; the ways divide the lines into a power-of-two number of sets;
the banks are a power of two above the bank number, and a banked cache has a bank field; no
MSHR range is empty; the replacement policy is implemented; a banked cache has no prefetcher. -/
def ruleFailure (c : CacheConfig) (lineSize : Nat) : Option ConfigError :=
  [reject (!isPowerOfTwo lineSize) (.lineSizeNotPowerOfTwo lineSize),
   reject (c.associativity == 0 || c.lineNumber % c.associativity != 0 ||
       !isPowerOfTwo (c.lineNumber / c.associativity))
     (.setsNotPowerOfTwo c.label c.lineNumber c.associativity),
   reject (!isPowerOfTwo c.totalBanks || c.bankNumber ≥ c.totalBanks ||
       (c.totalBanks > 1 && c.layout == .tagIndexOffset))
     (.wrongBanks c.label c.bankNumber c.totalBanks),
   reject (c.mshrRequest == 0) (.emptyMshrRange c.label .request),
   reject (c.mshrWriteback == 0) (.emptyMshrRange c.label .writeback),
   reject (c.mshrPrefetch == 0) (.emptyMshrRange c.label .prefetch),
   reject (c.replacement == .fifo || c.replacement == .lrf)
     (.unimplementedReplacement c.label c.replacement),
   reject (c.totalBanks > 1 && c.prefetcher.isEnabled) (.prefetchOnBankedCache c.label)].findSome? id

/-- Whether a stride prefetcher is configured to issue no prefetch ahead. -/
def zeroDegree (c : CacheConfig) : Bool :=
  match c.prefetcher with
  | .disabled => false
  | .stride _ degree _ _ _ => degree == 0

/-- The first check a cache's configuration fails, for lines of `lineSize` bytes, in the order
the cache is built: its own rules, the fields of its addresses within a word, the sum of its
MSHR ranges within a word, its prefetcher's degree, and the memory its MSHR takes. -/
def buildFailure (c : CacheConfig) (lineSize : Nat) : Option BuildError :=
  let sets := c.lineNumber / c.associativity
  let slots := c.mshrRequest + c.mshrWriteback + c.mshrPrefetch
  (c.ruleFailure lineSize).map .config <|>
  [reject (!(AddressMap.ofLayout c.layout lineSize.log2 sets.log2 c.totalBanks.log2).fieldsInWord)
     (.overflow .shiftLeft),
   reject (decide (wordSize ≤ c.mshrRequest + c.mshrWriteback)) (.overflow .add),
   reject (decide (wordSize ≤ slots)) (.overflow .add),
   reject c.zeroDegree (.config (.zeroPrefetchDegree c.label)),
   reject (!Mshr.fitsMemory slots) (.overflow .capacity)].findSome? id

end CacheConfig

namespace Cache

/-- Checking a cache's own rules gives the first rule it breaks. -/
theorem validate_eq (c : CacheConfig) (lineSize : Nat) :
    validate c lineSize = (c.ruleFailure lineSize).elim (.ok ()) .error := by
  unfold validate CacheConfig.ruleFailure
  -- a refusal drops the rest of the checks; each check is then read once
  simp -zeta only [except_throw_bind]
  simp only [findSome_reject_cons, List.findSome?_nil,
    apply_ite (fun o : Option ConfigError => o.elim (Except.ok ()) Except.error),
    Option.elim_some, Option.elim_none]
  -- the first check is an `unless`; the others read the same on both sides
  cases isPowerOfTwo lineSize <;> rfl

/-- Building a cache fails exactly at the first check its configuration fails. -/
theorem failsAs_build (id : Nat) (c : CacheConfig) (lineSize : Nat) :
    FailsAs (build id c lineSize) (c.buildFailure lineSize) := by
  intro e
  unfold build CacheConfig.buildFailure
  rw [validate_eq]
  cases c.ruleFailure lineSize with
  | some r => simp [Except.mapError]
  | none =>
    simp -zeta only [except_throw_bind]
    simp only [Option.elim_none, Except.mapError, except_ok_bind, findSome_reject_cons,
      List.findSome?_nil, Option.map_none, Option.orElse_eq_orElse, Option.orElse_eq_or,
      Option.none_or]
    -- the fields of an address, then the two sums of the MSHR ranges
    by_cases hfit : (AddressMap.ofLayout c.layout lineSize.log2 (c.lineNumber / c.associativity).log2
      c.totalBanks.log2).fieldsInWord = true; swap
    · simp [hfit]
    by_cases h₁ : wordSize ≤ c.mshrRequest + c.mshrWriteback
    · simp [hfit, h₁, Word.add_eq_error h₁]
    simp only [Word.add_eq_ok (Nat.lt_of_not_le h₁), except_ok_bind]
    by_cases h₂ : wordSize ≤ c.mshrRequest + c.mshrWriteback + c.mshrPrefetch
    · simp [hfit, h₁, h₂, Word.add_eq_error h₂]
    simp only [Word.add_eq_ok (Nat.lt_of_not_le h₂), except_ok_bind]
    -- the prefetcher's own check, then the memory of the MSHR
    cases hp : c.prefetcher with
    | disabled =>
      cases Mshr.fitsMemory (c.mshrRequest + c.mshrWriteback + c.mshrPrefetch) <;>
        simp [hfit, h₁, h₂, hp, CacheConfig.zeroDegree, Prefetcher.build]
    | stride t d s n b =>
      by_cases hd : d = 0
      · simp [hfit, h₁, h₂, hp, hd, CacheConfig.zeroDegree, Prefetcher.build]
      cases Mshr.fitsMemory (c.mshrRequest + c.mshrWriteback + c.mshrPrefetch) <;>
        simp [hfit, h₁, h₂, hp, hd, CacheConfig.zeroDegree, Prefetcher.build]

/-- A cache that is built has the level of its configuration. -/
theorem level_of_build {id : Nat} {c : CacheConfig} {lineSize : Nat} {x : Cache}
    (h : build id c lineSize = .ok x) : x.level = c.level := by
  cases hv : validate c lineSize with
  | error e => simp [build, hv, Except.mapError, bind, Except.bind] at h
  | ok u =>
    simp [build, hv, Except.mapError, bind, Except.bind, throw, throwThe, MonadExceptOf.throw,
      pure] at h
    -- every step after the checks fails or gives the cache, of the configuration's level
    repeat' split at h
    all_goals cases h
    rfl

end Cache

/-! ## The caches of a configuration -/

/-- No label is repeated exactly when the labels are distinct and none was seen before. -/
theorem firstRepeated_eq_none_iff :
    ∀ (seen labels : List String),
      firstRepeated seen labels = none ↔ labels.Nodup ∧ ∀ l ∈ labels, l ∉ seen
  | seen, [] => by simp [firstRepeated]
  | seen, l :: ls => by
    rw [firstRepeated]
    split
    · rename_i hseen
      simp only [reduceCtorEq, false_iff, not_and]
      intro _ hfresh
      exact hfresh l List.mem_cons_self (by simpa using hseen)
    · rename_i hseen
      rw [firstRepeated_eq_none_iff (l :: seen) ls, List.nodup_cons, List.forall_mem_cons]
      simp only [List.mem_cons, not_or]
      constructor
      · rintro ⟨hnd, hfresh⟩
        exact ⟨⟨fun hl => (hfresh l hl).1 rfl, hnd⟩, by simpa using hseen,
          fun x hx => (hfresh x hx).2⟩
      · rintro ⟨⟨hl, hnd⟩, -, hfresh⟩
        exact ⟨hnd, fun x hx => ⟨fun hxl => hl (hxl ▸ hx), hfresh x hx⟩⟩

namespace Config

/-- The refusal of a label that names no cache. -/
def unknownLabel (cfg : Config) (label : String) : Option ConfigError :=
  reject (!cfg.caches.any (·.label == label)) (.unknownCache label)

/-- The level of the first cache labelled `label`, if there is one. -/
def levelOf (cfg : Config) (label : String) : Option Nat :=
  (cfg.caches.find? (·.label == label)).map (·.level)

/-- The first check a core's cache fails: it is a cache, and it is on level 1. -/
def coreCacheFailure (cfg : Config) (label : String) : Option ConfigError :=
  cfg.unknownLabel label <|> reject (cfg.levelOf label != some 1) (.wrongHierarchyLevel label)

/-- The first check the caches of a configuration fail, in the order they are made: no label of
a cache or a core is used twice; there is a memory controller; each cache builds, in order;
every cache named below a cache exists; every cache of a core exists and is on level 1. -/
def buildFailure (cfg : Config) : Option BuildError :=
  (firstRepeated [] (cfg.caches.map (·.label) ++ cfg.cores.map (·.label))).map
      (.config ∘ .duplicatedLabel) <|>
  reject (cfg.memory.controllers == 0) (.config .noMemoryController) <|>
  cfg.caches.findSome? (·.buildFailure cfg.lineSize) <|>
  (cfg.caches.findSome? fun c => c.lowerLevel.findSome? cfg.unknownLabel).map .config <|>
  (cfg.cores.findSome? fun core =>
    (core.dataCache :: core.instCache.toList).findSome? cfg.coreCacheFailure).map .config

/-- The first check setting up a machine fails: one trace per core, then the caches, then a
line size of at least one byte, as the directory keeps one less than it. -/
def setupFailure (cfg : Config) (traces : List Trace) : Option SetupError :=
  reject (traces.length != cfg.cores.length) (.traceCount traces.length cfg.cores.length) <|>
  cfg.buildFailure.map .build <|>
  reject (cfg.lineSize == 0) (.build (.overflow .subtract))

/-- A label is refused exactly when no cache has it. -/
theorem unknownLabel_eq_none_iff (cfg : Config) (label : String) :
    cfg.unknownLabel label = none ↔ ∃ c ∈ cfg.caches, c.label = label := by
  unfold unknownLabel
  cases h : cfg.caches.any (·.label == label)
  · simp only [Bool.not_false, reject_true, reduceCtorEq, false_iff]
    simpa using h
  · simp only [Bool.not_true, reject_false, true_iff]
    simpa using h

theorem failsAs_cacheId (cfg : Config) (label : String) :
    FailsAs (cfg.cacheId label) (cfg.unknownLabel label) := by
  unfold cacheId unknownLabel
  -- a label has an index exactly when some cache has it
  have hsome : (cfg.caches.findIdx? (·.label == label)).isSome =
      cfg.caches.any (·.label == label) := List.findIdx?_isSome
  split
  · rename_i id hid
    rw [hid, Option.isSome_some] at hsome
    rw [← hsome]
    exact failsAs_ok id
  · rename_i hid
    rw [hid, Option.isSome_none] at hsome
    rw [← hsome]
    exact failsAs_error _

/-- The levels of a row of caches are the levels their configurations give. -/
def HasLevels (cfg : Config) (caches : Array Cache) : Prop :=
  caches.toList.map (·.level) = cfg.caches.map (·.level)

theorem HasLevels.modify {cfg : Config} {caches : Array Cache} (hc : cfg.HasLevels caches)
    (j : Nat) {f : Cache → Cache} (hf : ∀ c, (f c).level = c.level) :
    cfg.HasLevels (caches.modify j f) := by
  unfold HasLevels at *
  rw [← hc]
  apply List.ext_getElem?
  intro i
  simp only [List.getElem?_map, Array.getElem?_toList, Array.getElem?_modify]
  split <;> simp [Option.map_map, Function.comp_def, hf]

/-- The cache a label names has the level of the first configuration with that label. -/
theorem HasLevels.level_of_cacheId {cfg : Config} {caches : Array Cache}
    (hc : cfg.HasLevels caches) {label : String} {id : Nat} (h : cfg.cacheId label = .ok id) :
    caches[id]?.map (·.level) = cfg.levelOf label := by
  have hid : cfg.caches.findIdx? (·.label == label) = some id := by
    unfold cacheId at h
    split at h
    · cases h
      assumption
    · cases h
  calc caches[id]?.map (·.level)
      = (caches.toList.map (·.level))[id]? := by simp
    _ = (cfg.caches.map (·.level))[id]? := by rw [hc]
    _ = cfg.levelOf label := by
      simp [levelOf, List.find?_eq_bind_findIdx?_getElem?, hid]

end Config

/-- A run that gives results gives them for each element, in order. -/
theorem map_of_mapM_eq_ok {ε α β γ : Type} {f : α → Except ε β} {g : β → γ} {h : α → γ}
    (hf : ∀ x y, f x = .ok y → g y = h x) :
    ∀ {xs : List α} {ys : List β}, xs.mapM f = .ok ys → ys.map g = xs.map h
  | [], ys, hxs => by
    cases hxs
    rfl
  | x :: xs, ys, hxs => by
    rw [List.mapM_cons] at hxs
    cases hx : f x with
    | error e => simp [hx] at hxs
    | ok y =>
      cases hrest : xs.mapM f with
      | error e => simp [hx, hrest] at hxs
      | ok ys' =>
        simp only [hx, hrest, except_ok_bind] at hxs
        cases hxs
        simp [hf x y hx, map_of_mapM_eq_ok hf hrest]

theorem findSome?_zipIdx_fst {α β : Type} (l : List α) (g : α → Option β) :
    l.zipIdx.findSome? (fun x => g x.1) = l.findSome? g := by
  conv => rhs; rw [← List.zipIdx_map_fst 0 l]
  rw [List.findSome?_map]
  rfl

/-- Building the caches of a configuration fails exactly at the first check it fails. -/
theorem Config.failsAs_buildCaches (cfg : Config) : FailsAs cfg.buildCaches cfg.buildFailure := by
  unfold Config.buildCaches Config.buildFailure
  simp -zeta only [except_throw_bind, Option.orElse_eq_orElse, Option.orElse_eq_or]
  cases firstRepeated [] (cfg.caches.map (·.label) ++ cfg.cores.map (·.label)) with
  | some l => exact failsAs_error _
  | none =>
    simp only [Option.map_none, Option.none_or]
    cases hmem : cfg.memory.controllers == 0
    case true => exact failsAs_error _
    simp only [Bool.false_eq_true, ↓reduceIte, reject_false, Option.none_or]
    -- each cache is built in order
    rw [← findSome?_zipIdx_fst]
    refine failsAs_bind ?_ fun built hbuilt => ?_
    · exact failsAs_mapM _ fun (x : CacheConfig × Nat) _ => Cache.failsAs_build x.2 x.1 cfg.lineSize
    -- the caches as built have their configured levels
    have hbuiltLevels : cfg.HasLevels built.toArray := by
      have hfst : cfg.caches.zipIdx.map (fun x => x.1.level) = cfg.caches.map (·.level) := by
        conv => rhs; rw [← List.zipIdx_map_fst 0 cfg.caches]
        rw [List.map_map]
        rfl
      rw [Config.HasLevels, List.toList_toArray, ← hfst]
      exact map_of_mapM_eq_ok (fun x y hy => Cache.level_of_build hy) hbuilt
    -- each cache is linked to the caches below it: a link fails when it names no cache
    have hlinks : (cfg.caches.findSome? fun c => c.lowerLevel.findSome? cfg.unknownLabel).map
        BuildError.config = cfg.caches.zipIdx.findSome? fun x =>
          x.1.lowerLevel.findSome? fun l => (cfg.unknownLabel l).map .config := by
      rw [← findSome?_zipIdx_fst, List.map_findSome?]
      simp only [Function.comp_def, List.map_findSome?]
    rw [hlinks]
    refine failsAs_bind ?_ fun linked hlinked => ?_
    · refine failsAs_forIn (fun x s => ?_) (fun x s r h => yields_bind_pure h) _ _
      refine failsAs_bind_pure _ (failsAs_forIn (fun label s' => ?_)
        (fun label s' r h => yields_bind_pure h) _ _)
      exact failsAs_bind_pure _ (failsAs_mapError _ (cfg.failsAs_cacheId label))
    -- linking changes no level
    have hlinkedLevels : cfg.HasLevels linked := by
      refine forIn_keeps cfg.HasLevels (fun x b r hb hr => ?_) _ _ _ hbuiltLevels hlinked
      obtain ⟨s, hs, rfl⟩ := eq_of_bind_pure_eq_ok hr
      refine forIn_keeps cfg.HasLevels (fun label b' r' hb' hr' => ?_) _ _ _ hb hs
      obtain ⟨lower, -, rfl⟩ := eq_of_bind_pure_eq_ok hr'
      rw [ForInStep.value_yield]
      refine (hb'.modify _ ?_).modify _ ?_ <;> intro c <;> rfl
    -- each core's caches exist and are on level 1
    refine failsAs_bind_pure _ ?_
    rw [List.map_findSome?]
    refine failsAs_forIn (fun core s => ?_) (fun core s r h => yields_bind_pure h) _ _
    refine failsAs_bind_pure _ ?_
    simp only [Function.comp_apply, List.map_findSome?]
    refine failsAs_forIn (fun label s' => ?_) (fun label s' r h => ?_) _ _
    · simp only [Function.comp_apply, Config.coreCacheFailure, Option.orElse_eq_orElse,
        Option.orElse_eq_or, Option.map_or, map_reject]
      refine failsAs_bind (failsAs_mapError _ (cfg.failsAs_cacheId label)) fun id hid => ?_
      rw [hlinkedLevels.level_of_cacheId (mapError_eq_ok.1 hid)]
      exact failsAs_ite _ _ _
    · -- the check of a core's cache goes on, or refuses
      cases hid : (cfg.cacheId label).mapError BuildError.config with
      | error e =>
        rw [hid, except_error_bind] at h
        cases h
      | ok id =>
        rw [hid, except_ok_bind] at h
        split at h <;> cases h
        exact ⟨_, rfl⟩

/-! ## Setting up a machine -/

/-- When the caches of a configuration build, every cache a core names exists. -/
theorem Config.cacheId_ok_of_buildFailure {cfg : Config} (h : cfg.buildFailure = none)
    {core : CoreConfig} (hcore : core ∈ cfg.cores) {label : String}
    (hl : label ∈ core.dataCache :: core.instCache.toList) : ∃ id, cfg.cacheId label = .ok id := by
  simp only [Config.buildFailure, Option.orElse_eq_orElse, Option.orElse_eq_or, Option.or_eq_none_iff,
    Option.map_eq_none_iff, List.findSome?_eq_none_iff] at h
  have hcheck := h.2.2.2.2 core hcore label hl
  rw [Config.coreCacheFailure, Option.orElse_eq_orElse, Option.orElse_eq_or,
    Option.or_eq_none_iff] at hcheck
  exact (cfg.failsAs_cacheId label).ok_iff.2 hcheck.1

theorem Word.failsAs_sub_one (a : Nat) :
    FailsAs (Word.sub a 1) (reject (a == 0) .subtract) := by
  cases a with
  | zero => exact failsAs_error _
  | succ n => exact failsAs_ok n

/-- Setting up a machine fails exactly at the first check it fails. -/
theorem Machine.failsAs_new (cfg : Config) (traces : List Trace) :
    FailsAs (Machine.new cfg traces) (cfg.setupFailure traces) := by
  unfold Machine.new Config.setupFailure
  simp -zeta only [except_throw_bind, Option.orElse_eq_orElse, Option.orElse_eq_or]
  cases htr : traces.length != cfg.cores.length
  case true => exact failsAs_error _
  simp only [Bool.false_eq_true, ↓reduceIte, reject_false, Option.none_or]
  refine failsAs_bind (failsAs_mapError _ cfg.failsAs_buildCaches) fun caches hcaches => ?_
  have hbuilt := cfg.failsAs_buildCaches.eq_none (mapError_eq_ok.1 hcaches)
  -- every core's caches were found when the caches were built, so the cores are made
  refine failsAs_bind_of_none ?_ fun cores _ => ?_
  · have hnone : (cfg.cores.zip traces).zipIdx.findSome? (fun _ => (none : Option SetupError)) =
        none := List.findSome?_eq_none_iff.2 fun _ _ => rfl
    rw [← hnone]
    refine failsAs_mapM _ fun ⟨⟨core, trace⟩, i⟩ hx => ?_
    have hcore : core ∈ cfg.cores := (List.of_mem_zip (List.fst_mem_of_mem_zipIdx hx)).1
    obtain ⟨data, hdata⟩ := Config.cacheId_ok_of_buildFailure hbuilt hcore List.mem_cons_self
    simp only [hdata, Except.mapError, except_ok_bind]
    cases hinst : core.instCache with
    | none => exact failsAs_ok _
    | some l =>
      have hmem : l ∈ core.dataCache :: core.instCache.toList := by simp [hinst]
      obtain ⟨inst, hl⟩ := Config.cacheId_ok_of_buildFailure hbuilt hcore hmem
      simp only [hl, except_ok_bind]
      exact failsAs_ok _
  · have hline := failsAs_mapError (SetupError.build ∘ BuildError.overflow)
      (Word.failsAs_sub_one cfg.lineSize)
    rw [map_reject] at hline
    exact failsAs_bind_pure _ hline

end CacheHierarchy
