import Mathlib
import CacheHierarchy.Proofs.LineAlignment
import CacheHierarchy.Proofs.SetupChecks

set_option autoImplicit false

/-! # The fresh tags of a cache

A cache is built with every way invalid and holding a fresh tag made of the way's own numbers:
the way number shifted into the tag field, the set index into the index field, and the bank
number into the bank field (`AddressMap.freshTag`). The fields of every layout are stacked in
the word (`AddressMap.Stacked`): the offset at the bottom, the index and the bank above it and
apart, the tag on top. So a fresh tag has no bit in the offset and reads back its own set and
bank, and two ways of a set get one fresh tag exactly when their numbers agree in the bits the
tag field keeps (`AddressMap.freshTag_eq_iff`).

Main statement: every way of a cache as built holds the address of a line of its own set and
of the cache's bank, and the ways of a set hold distinct lines exactly when the ways fit in the
tag field, `ways ≤ 2 ^ (64 - tag.lo)` (`Cache.fresh_tags_of_build`). A cache with more ways
than that holds one line in several ways of a set, and `Cache.findLine` only ever finds the
first of them.
-/

namespace CacheHierarchy

namespace BitField

/-- The bits a field keeps are the address's bits at the field's positions. -/
theorem testBit_keep (f : BitField) (a : UInt64) (h : f.lo ≤ f.hi) (h64 : f.hi ≤ 64) (k : Nat) :
    (f.keep a).toNat.testBit k = (decide (f.lo ≤ k) && decide (k < f.hi) && a.toNat.testBit k) := by
  have hones : 2 ^ f.hi - 2 ^ f.lo = (2 ^ (f.hi - f.lo) - 1) * 2 ^ f.lo := by
    rw [Nat.sub_mul, one_mul, ← Nat.pow_add, Nat.sub_add_cancel h]
  rw [keep, UInt64.toNat_and, Nat.testBit_and, toNat_ones h h64, hones, Nat.testBit_mul_two_pow,
    Nat.testBit_two_pow_sub_one]
  by_cases hk : f.lo ≤ k
  · have : k - f.lo < f.hi - f.lo ↔ k < f.hi := by omega
    simp [hk, this, Bool.and_comm]
  · simp [hk]

/-- A field reads `v` from an address whose bits at the field's positions are those of `v`. -/
theorem read_eq_of_testBit (f : BitField) (h : f.lo ≤ f.hi) (h64 : f.hi ≤ 64) {a : UInt64}
    {v : Nat} (hv : v < 2 ^ (f.hi - f.lo))
    (hbits : ∀ j < f.hi - f.lo, a.toNat.testBit (f.lo + j) = v.testBit j) : f.read a = v := by
  rw [read_eq f a h h64]
  apply Nat.eq_of_testBit_eq
  intro j
  rw [Nat.testBit_mod_two_pow, Nat.testBit_div_two_pow]
  by_cases hj : j < f.hi - f.lo
  · rw [decide_eq_true hj, Bool.true_and, Nat.add_comm, hbits j hj]
  · rw [decide_eq_false hj, Bool.false_and]
    exact (Nat.testBit_lt_two_pow (lt_of_lt_of_le hv (Nat.pow_le_pow_right (by norm_num)
      (by omega)))).symm

end BitField

namespace AddressMap

/-- The bits of a number shifted into place from bit `lo`, inside the word. -/
theorem testBit_shiftLeft_toUInt64 (v lo k : Nat) (hlo : lo < 64) :
    ((v.toUInt64 <<< lo.toUInt64).toNat).testBit k =
      (decide (k < 64) && decide (lo ≤ k) && v.testBit (k - lo)) := by
  simp only [UInt64.toNat_shiftLeft, Nat.toUInt64_eq, UInt64.toNat_ofNat',
    Nat.mod_eq_of_lt (Nat.lt_trans hlo (by decide : 64 < 2 ^ 64)), Nat.mod_eq_of_lt hlo,
    Nat.testBit_mod_two_pow, Nat.testBit_shiftLeft]
  by_cases hk : k < 64
  · have : k - lo < 64 := by omega
    simp [hk, this]
  · simp [hk]

theorem los_lt_of_fieldsInWord {m : AddressMap} (h : m.fieldsInWord = true) :
    m.tag.lo < 64 ∧ m.index.lo < 64 ∧ m.bank.lo < 64 := by
  simp only [fieldsInWord, wordBits, Bool.and_eq_true] at h
  exact ⟨of_decide_eq_true h.1.1, of_decide_eq_true h.1.2, of_decide_eq_true h.2⟩

/-- The bits of a fresh tag: those of the way from the tag field up, of the index from the
index field up, and of the bank from the bank field up. -/
theorem testBit_freshTag (m : AddressMap) (hword : m.fieldsInWord = true) (i w b k : Nat) :
    (m.freshTag i w b).toNat.testBit k = (decide (k < 64) &&
      ((decide (m.tag.lo ≤ k) && w.testBit (k - m.tag.lo)) ||
        (decide (m.index.lo ≤ k) && i.testBit (k - m.index.lo)) ||
        (decide (m.bank.lo ≤ k) && b.testBit (k - m.bank.lo)))) := by
  obtain ⟨ht, hi, hb⟩ := los_lt_of_fieldsInWord hword
  simp only [freshTag, UInt64.toNat_or, Nat.testBit_or, testBit_shiftLeft_toUInt64 _ _ _ ht,
    testBit_shiftLeft_toUInt64 _ _ _ hi, testBit_shiftLeft_toUInt64 _ _ _ hb]
  cases decide (k < 64) <;> simp

/-- How the fields of an address lie in the word: the offset at the bottom, the set index and
the bank above it and apart from each other, and the tag above both, up to the top. -/
structure Stacked (m : AddressMap) : Prop where
  index_lo : m.offset.hi ≤ m.index.lo
  index_le : m.index.lo ≤ m.index.hi
  index_hi : m.index.hi ≤ m.tag.lo
  bank_lo : m.bank.lo = m.bank.hi ∨ m.offset.hi ≤ m.bank.lo
  bank_le : m.bank.lo ≤ m.bank.hi
  bank_hi : m.bank.hi ≤ m.tag.lo
  apart : m.index.hi ≤ m.bank.lo ∨ m.bank.hi ≤ m.index.lo
  tag_hi : m.tag.hi = 64

theorem stacked_ofLayout (layout : Layout) (ob ib bb : Nat) :
    (ofLayout layout ob ib bb).Stacked := by
  cases layout <;> constructor <;> simp [ofLayout]

/-- A number below `2 ^ n` has no bit from `n` up. -/
theorem testBit_eq_false_of_le {v n j : Nat} (hv : v < 2 ^ n) (hj : n ≤ j) :
    v.testBit j = false :=
  Nat.testBit_lt_two_pow (lt_of_lt_of_le hv (Nat.pow_le_pow_right (by norm_num) hj))

section Fresh

/-! A fresh tag of stacked fields, for an index and a bank that fit their fields. -/

variable {m : AddressMap} (hs : m.Stacked) (hword : m.fieldsInWord = true) {i b : Nat}
  (hi : i < 2 ^ (m.index.hi - m.index.lo)) (hb : b < 2 ^ (m.bank.hi - m.bank.lo))
include hs hword hi hb

omit hs hi hb in
/-- Below the tag field, a fresh tag holds the index and the bank, whatever the way. -/
theorem testBit_freshTag_low (w : Nat) {k : Nat} (hk : k < m.tag.lo) :
    (m.freshTag i w b).toNat.testBit k =
      ((decide (m.index.lo ≤ k) && i.testBit (k - m.index.lo)) ||
        (decide (m.bank.lo ≤ k) && b.testBit (k - m.bank.lo))) := by
  have ht := (los_lt_of_fieldsInWord hword).1
  rw [testBit_freshTag m hword, decide_eq_true (by omega : k < 64),
    decide_eq_false (by omega : ¬m.tag.lo ≤ k)]
  simp

/-- From the tag field up, a fresh tag holds the way, and nothing of the index or the bank. -/
theorem testBit_freshTag_high (w : Nat) {k : Nat} (hk : m.tag.lo ≤ k) :
    (m.freshTag i w b).toNat.testBit k = (decide (k < 64) && w.testBit (k - m.tag.lo)) := by
  have hindex : i.testBit (k - m.index.lo) = false :=
    testBit_eq_false_of_le hi (by have := hs.index_hi; omega)
  have hbank : b.testBit (k - m.bank.lo) = false :=
    testBit_eq_false_of_le hb (by have := hs.bank_hi; omega)
  rw [testBit_freshTag m hword, decide_eq_true hk, hindex, hbank]
  simp

omit hi in
/-- A fresh tag is the address of a line: it has no bit in the offset. -/
theorem lineOf_freshTag (w : Nat) : m.lineOf (m.freshTag i w b) = m.freshTag i w b := by
  have hil := (los_lt_of_fieldsInWord hword).2.1
  apply UInt64.toNat_inj.1
  apply Nat.eq_of_testBit_eq
  intro k
  rw [lineOf, BitField.testBit_keep _ _ (by have := hs.index_lo; simp; omega) le_rfl]
  by_cases hk : m.offset.hi ≤ k
  · by_cases h64 : k < 64
    · simp [hk, h64]
    · rw [testBit_freshTag m hword, decide_eq_false h64]
      simp
  · -- the offset holds no bit of the way, the index or the bank
    have hbank : (decide (m.bank.lo ≤ k) && b.testBit (k - m.bank.lo)) = false := by
      rcases hs.bank_lo with hempty | hlo
      · rw [hempty, Nat.sub_self, pow_zero, Nat.lt_one_iff] at hb
        simp [hb]
      · simp [show ¬m.bank.lo ≤ k by omega]
    have hindex := hs.index_lo
    rw [testBit_freshTag_low hword w (by have := hs.index_hi; have := hs.index_le; omega),
      hbank, decide_eq_false (by omega : ¬m.index.lo ≤ k)]
    simp [hk]

/-- A fresh tag is in the set of its index. -/
theorem indexOf_freshTag (w : Nat) : m.indexOf (m.freshTag i w b) = i := by
  have ht := (los_lt_of_fieldsInWord hword).1
  refine BitField.read_eq_of_testBit _ hs.index_le (by have := hs.index_hi; omega) hi
    fun j hj => ?_
  rw [testBit_freshTag_low hword w (by have := hs.index_hi; omega),
    decide_eq_true (by omega : m.index.lo ≤ m.index.lo + j), Nat.add_sub_cancel_left]
  -- the bank lies below or above the index
  have hbank : (decide (m.bank.lo ≤ m.index.lo + j) &&
      b.testBit (m.index.lo + j - m.bank.lo)) = false := by
    rcases hs.apart with hab | hab
    · simp [show ¬m.bank.lo ≤ m.index.lo + j by omega]
    · simp [testBit_eq_false_of_le hb (by omega : m.bank.hi - m.bank.lo ≤ m.index.lo + j - m.bank.lo)]
  simp [hbank]

/-- A fresh tag is in the bank it was made for. -/
theorem bankOf_freshTag (w : Nat) : m.bankOf (m.freshTag i w b) = b := by
  have ht := (los_lt_of_fieldsInWord hword).1
  refine BitField.read_eq_of_testBit _ hs.bank_le (by have := hs.bank_hi; omega) hb
    fun j hj => ?_
  rw [testBit_freshTag_low hword w (by have := hs.bank_hi; omega),
    decide_eq_true (by omega : m.bank.lo ≤ m.bank.lo + j), Nat.add_sub_cancel_left]
  -- the index lies below or above the bank
  have hindex : (decide (m.index.lo ≤ m.bank.lo + j) &&
      i.testBit (m.bank.lo + j - m.index.lo)) = false := by
    rcases hs.apart with hab | hab
    · simp [testBit_eq_false_of_le hi
        (by omega : m.index.hi - m.index.lo ≤ m.bank.lo + j - m.index.lo)]
    · simp [show ¬m.index.lo ≤ m.bank.lo + j by omega]
  simp [hindex]

/-- Two ways get the same fresh tag exactly when they agree below `2 ^ (64 - tag.lo)`: the
tag field keeps only that many bits of the way. -/
theorem freshTag_eq_iff (w w' : Nat) :
    m.freshTag i w b = m.freshTag i w' b ↔
      w % 2 ^ (64 - m.tag.lo) = w' % 2 ^ (64 - m.tag.lo) := by
  have ht := (los_lt_of_fieldsInWord hword).1
  constructor
  · intro h
    apply Nat.eq_of_testBit_eq
    intro j
    rw [Nat.testBit_mod_two_pow, Nat.testBit_mod_two_pow]
    by_cases hj : j < 64 - m.tag.lo
    · have hw := testBit_freshTag_high hs hword hi hb w (Nat.le_add_right m.tag.lo j)
      have hw' := testBit_freshTag_high hs hword hi hb w' (Nat.le_add_right m.tag.lo j)
      rw [h, hw', decide_eq_true (by omega : m.tag.lo + j < 64), Nat.add_sub_cancel_left] at hw
      simp [hj, hw]
    · simp [hj]
  · intro h
    apply UInt64.toNat_inj.1
    apply Nat.eq_of_testBit_eq
    intro k
    by_cases hk : m.tag.lo ≤ k
    · rw [testBit_freshTag_high hs hword hi hb w hk, testBit_freshTag_high hs hword hi hb w' hk]
      by_cases h64 : k < 64
      · have hbit := congrArg (Nat.testBit · (k - m.tag.lo)) h
        simp only [Nat.testBit_mod_two_pow, decide_eq_true (by omega : k - m.tag.lo < 64 - m.tag.lo),
          Bool.true_and] at hbit
        simp [hbit]
      · simp [h64]
    · rw [testBit_freshTag_low hword w (by omega),
        testBit_freshTag_low hword w' (by omega)]

end Fresh

end AddressMap

namespace CacheConfig

/-- A configuration that breaks none of its rules has a power-of-two number of banks above its
bank number, and a single bank when its addresses have no bank field. -/
theorem banks_of_ruleFailure {c : CacheConfig} {lineSize : Nat} (h : c.ruleFailure lineSize = none) :
    isPowerOfTwo c.totalBanks = true ∧ c.bankNumber < c.totalBanks ∧
      (c.layout = .tagIndexOffset → c.totalBanks = 1) := by
  simp only [ruleFailure, findSome_reject_cons, List.findSome?_nil] at h
  -- the banks are the third rule; the first two pass
  split at h
  · cases h
  split at h
  · cases h
  split at h
  · cases h
  rename_i hbanks
  have hnz : c.totalBanks ≠ 0 := by
    rintro hz
    simp [hz, isPowerOfTwo] at hbanks
  simp only [Bool.or_eq_true, Bool.not_eq_eq_eq_not, Bool.not_true, decide_eq_true_eq,
    Bool.and_eq_true, beq_iff_eq, not_or, not_and, not_le] at hbanks
  obtain ⟨⟨hpow, hlt⟩, hsingle⟩ := hbanks
  refine ⟨by simpa using hpow, hlt, fun hl => ?_⟩
  have := mt hsingle (not_not.2 hl)
  omega

end CacheConfig

namespace Cache

/-- A cache that is built has the sets and the bank of its configuration. -/
theorem setCount_bank_of_build {id : Nat} {cfg : CacheConfig} {lineSize : Nat} {c : Cache}
    (h : build id cfg lineSize = .ok c) :
    c.setCount = cfg.lineNumber / cfg.associativity ∧ c.bank = cfg.bankNumber := by
  cases hv : validate cfg lineSize with
  | error e => simp [build, hv, Except.mapError, bind, Except.bind] at h
  | ok u =>
    simp [build, hv, Except.mapError, bind, Except.bind, throw, throwThe, MonadExceptOf.throw,
      pure] at h
    repeat' split at h
    all_goals cases h
    exact ⟨rfl, rfl⟩

theorem get_freshLines (fields : AddressMap) {sets ways : Nat} (bank : Nat) {i w : Nat}
    (hi : i < sets) (hw : w < ways) :
    (freshLines fields sets ways bank).get i w = { tag := fields.freshTag i w bank } := by
  simp [TagArray.get, freshLines, hi, hw]

/-- Every way of a cache holds the address of a line of its own set, in the cache's own bank. -/
def TagsInPlace (c : Cache) : Prop :=
  ∀ i < c.setCount, ∀ w < c.ways,
    c.fields.lineOf (c.line i w).tag = (c.line i w).tag ∧
      c.fields.indexOf (c.line i w).tag = i ∧ c.fields.bankOf (c.line i w).tag = c.bank

/-- No two ways of a set of a cache hold one line. -/
def LinesDistinct (c : Cache) : Prop :=
  ∀ i < c.setCount, ∀ w < c.ways, ∀ w' < c.ways,
    c.fields.sameLine (c.line i w).tag (c.line i w').tag = true → w = w'

/-- What building fixes of a cache's geometry: stacked fields inside the word, at least one
set, every set index and the bank inside their fields, and the fresh tag in every way. -/
structure FreshGeometry (c : Cache) : Prop where
  stacked : c.fields.Stacked
  inWord : c.fields.fieldsInWord = true
  sets_pos : 0 < c.setCount
  index_lt : ∀ i < c.setCount, i < 2 ^ (c.fields.index.hi - c.fields.index.lo)
  bank_lt : c.bank < 2 ^ (c.fields.bank.hi - c.fields.bank.lo)
  line_eq : ∀ i < c.setCount, ∀ w < c.ways, c.line i w = { tag := c.fields.freshTag i w c.bank }

theorem FreshGeometry.of_build {id : Nat} {cfg : CacheConfig} {lineSize : Nat} {c : Cache}
    (h : build id cfg lineSize = .ok c) : c.FreshGeometry := by
  obtain ⟨hok, hword, hways, hfields, hlines⟩ := build_inv h
  obtain ⟨hsets, hbank⟩ := setCount_bank_of_build h
  have hrules : cfg.ruleFailure lineSize = none := by
    have hnone := (failsAs_build id cfg lineSize).eq_none h
    simp only [CacheConfig.buildFailure, Option.orElse_eq_orElse, Option.orElse_eq_or,
      Option.or_eq_none_iff, Option.map_eq_none_iff] at hnone
    exact hnone.1
  obtain ⟨hpow, hlt, hsingle⟩ := CacheConfig.banks_of_ruleFailure hrules
  rw [← hfields] at hword
  refine ⟨hfields ▸ AddressMap.stacked_ofLayout _ _ _ _, hword, ?_, fun i hi => ?_, ?_,
    fun i hi w hw => ?_⟩
  · -- the number of sets is a power of two
    rw [hsets]
    refine Nat.pos_of_ne_zero fun hz => ?_
    have hp := hok.sets
    rw [hz] at hp
    simp [isPowerOfTwo] at hp
  · -- the index field is as wide as the log of the number of sets
    have hwidth : c.fields.index.hi - c.fields.index.lo =
        (cfg.lineNumber / cfg.associativity).log2 := by
      rw [hfields]
      cases cfg.layout <;> simp [AddressMap.ofLayout]
    rw [hwidth, pow_log2_of_isPowerOfTwo hok.sets, ← hsets]
    exact hi
  · -- the bank field is as wide as the log of the number of banks, and empty with one bank
    rw [hbank, hfields]
    cases hl : cfg.layout
    · simp [AddressMap.ofLayout, hsingle hl] at hlt ⊢
      exact hlt
    all_goals simpa [AddressMap.ofLayout, pow_log2_of_isPowerOfTwo hpow] using hlt
  · rw [line, hlines, get_freshLines _ _ (hsets ▸ hi) (hways ▸ hw), hbank]

/-- **The fresh tags of a cache.** Every way of a cache as built holds the address of a line of
its own set and of the cache's bank, and no two ways of a set hold one line exactly when the
ways fit in the bits of the tag field: the way number is shifted into the tag field and wraps
around the top of the word. -/
theorem fresh_tags_of_build {id : Nat} {cfg : CacheConfig} {lineSize : Nat} {c : Cache}
    (h : build id cfg lineSize = .ok c) :
    c.TagsInPlace ∧ (c.LinesDistinct ↔ c.ways ≤ 2 ^ (64 - c.fields.tag.lo)) := by
  obtain ⟨hs, hword, hsome, hindex, hbankFits, hline⟩ := FreshGeometry.of_build h
  refine ⟨fun i hi w hw => ?_, ⟨fun hd => ?_, fun hle => ?_⟩⟩
  · rw [hline i hi w hw]
    exact ⟨AddressMap.lineOf_freshTag hs hword hbankFits w,
      AddressMap.indexOf_freshTag hs hword (hindex i hi) hbankFits w,
      AddressMap.bankOf_freshTag hs hword (hindex i hi) hbankFits w⟩
  · -- ways `2 ^ (64 - tag.lo)` apart get one tag
    by_contra hgt
    have hpos : 0 < 2 ^ (64 - c.fields.tag.lo) := Nat.two_pow_pos _
    have htags : c.fields.freshTag 0 0 c.bank =
        c.fields.freshTag 0 (2 ^ (64 - c.fields.tag.lo)) c.bank :=
      (AddressMap.freshTag_eq_iff hs hword (hindex 0 hsome) hbankFits _ _).2 (by simp)
    have hsame := hd 0 hsome 0 (by omega) (2 ^ (64 - c.fields.tag.lo)) (by omega)
      (by rw [hline 0 hsome 0 (by omega), hline 0 hsome _ (by omega), htags]
          exact c.fields.sameLine_refl _)
    omega
  · -- ways below `2 ^ (64 - tag.lo)` keep every bit in the tag field
    intro i hi w hw w' hw' hsame
    rw [hline i hi w hw, hline i hi w' hw'] at hsame
    simp only [AddressMap.sameLine, beq_iff_eq,
      AddressMap.lineOf_freshTag hs hword hbankFits] at hsame
    have hmod := (AddressMap.freshTag_eq_iff hs hword (hindex i hi) hbankFits w w').1 hsame
    rwa [Nat.mod_eq_of_lt (by omega), Nat.mod_eq_of_lt (by omega)] at hmod

/-- A cache of two-gigabyte lines in `2 ^ 31` banks, with two sets of four ways, has a tag field
of one bit: its four ways hold two lines between them. -/
theorem fresh_tags_collide_in_one_bit_tag :
    ∃ c, build 0
        { label := "L1", lineNumber := 8, associativity := 4, mshrRequest := 1,
          mshrWriteback := 1, mshrPrefetch := 1, totalBanks := 2147483648,
          layout := .tagIndexBankOffset } 2147483648 = .ok c ∧
      c.TagsInPlace ∧ ¬c.LinesDistinct := by
  obtain ⟨c, hc⟩ : ∃ c, build 0
      { label := "L1", lineNumber := 8, associativity := 4, mshrRequest := 1,
        mshrWriteback := 1, mshrPrefetch := 1, totalBanks := 2147483648,
        layout := .tagIndexBankOffset } 2147483648 = .ok c := ⟨_, rfl⟩
  obtain ⟨hplace, hdistinct⟩ := fresh_tags_of_build hc
  obtain ⟨-, -, hways, hfields, -⟩ := build_inv hc
  refine ⟨c, hc, hplace, fun hd => ?_⟩
  have hle := hdistinct.1 hd
  rw [hways, hfields] at hle
  exact absurd hle (by decide)

end Cache

end CacheHierarchy
