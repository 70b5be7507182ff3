import Mathlib
import CacheHierarchy.Proofs.FreshTags

set_option autoImplicit false

/-! # The fields of an address tile the word

A cache reads an address as four bit fields: the offset of the byte in the line, the set
index, the bank and the tag (`AddressMap`). In a cache as built, the fields of its layout tile
the 64 bit positions of a word: no position lies in two fields, and together they hold every
position (`AddressMap.Tiles`). So an address is the union of its fields, each put back in place:
the tag as it stands, the set index and the bank shifted up to their fields, and the offset,
which is the address modulo the line size.

The line address keeps every field but the offset. Two addresses have one line address exactly
when they agree on every bit from the offset up, and exactly when the directory, whose mask is
built from the line size alone, takes them to be on one line; then they also map to one set and
one bank.

Main statement: `Cache.reads_addresses_of_build`.
-/

namespace CacheHierarchy

namespace BitField

/-- The bit positions of a field. -/
def bits (f : BitField) : Finset Nat := Finset.Ico f.lo f.hi

@[simp] theorem mem_bits (f : BitField) (k : Nat) : k ∈ f.bits ↔ f.lo ≤ k ∧ k < f.hi :=
  Finset.mem_Ico

/-- Two fields of which one ends before the other begins share no position. -/
theorem disjoint_bits {f g : BitField} (h : f.hi ≤ g.lo ∨ g.hi ≤ f.lo) :
    Disjoint f.bits g.bits := by
  rw [Finset.disjoint_left]
  intro k hf hg
  rw [mem_bits] at hf hg
  omega

/-- A field keeps an address's bits at its own positions. -/
theorem testBit_keep_bits (f : BitField) (a : UInt64) (h : f.lo ≤ f.hi) (h64 : f.hi ≤ 64)
    (k : Nat) : (f.keep a).toNat.testBit k = (decide (k ∈ f.bits) && a.toNat.testBit k) := by
  simp [testBit_keep f a h h64]

/-- A field's value shifted back to the field's place is what the field keeps of the address. -/
theorem read_shiftLeft (f : BitField) (a : UInt64) (h : f.lo ≤ f.hi) (h64 : f.hi ≤ 64) :
    f.read a <<< f.lo = (f.keep a).toNat := by
  apply Nat.eq_of_testBit_eq
  intro k
  rw [Nat.testBit_shiftLeft, read, Nat.pow_eq, Nat.testBit_div_two_pow]
  by_cases hk : f.lo ≤ k
  · rw [Nat.sub_add_cancel hk]
    simp [hk]
  · -- below the field the address's bits are not kept
    rw [testBit_keep_bits f a h h64 k]
    simp [hk]

/-- Two addresses that agree at a field's positions read one value from it. -/
theorem read_eq_of_testBit_eq (f : BitField) (h : f.lo ≤ f.hi) (h64 : f.hi ≤ 64) {a b : UInt64}
    (hab : ∀ k ∈ f.bits, a.toNat.testBit k = b.toNat.testBit k) : f.read a = f.read b := by
  have hkeep : f.keep a = f.keep b := by
    apply UInt64.toNat_inj.1
    apply Nat.eq_of_testBit_eq
    intro k
    rw [testBit_keep_bits f a h h64, testBit_keep_bits f b h h64]
    by_cases hk : k ∈ f.bits
    · rw [hab k hk]
    · simp [hk]
  rw [read, read, hkeep]

end BitField

/-- An address has no bit from position 64 up. -/
theorem UInt64.testBit_toNat_of_le (a : UInt64) {k : Nat} (hk : 64 ≤ k) :
    a.toNat.testBit k = false :=
  AddressMap.testBit_eq_false_of_le a.toNat_lt hk

namespace AddressMap

/-- The four fields, from the offset up to the tag. -/
def fieldList (m : AddressMap) : List BitField := [m.offset, m.index, m.bank, m.tag]

/-- The fields tile the word: each is a range of positions inside it, no position lies in two
of them, and together they hold the 64 positions of a word. -/
structure Tiles (m : AddressMap) : Prop where
  inWord : ∀ f ∈ m.fieldList, f.lo ≤ f.hi ∧ f.hi ≤ 64
  disjoint : m.fieldList.Pairwise fun f g => Disjoint f.bits g.bits
  cover : m.offset.bits ∪ m.index.bits ∪ m.bank.bits ∪ m.tag.bits = Finset.range 64

/-- The fields of every layout tile the word when the tag starts inside it. -/
theorem tiles_ofLayout (layout : Layout) (ob ib bb : Nat)
    (h : (ofLayout layout ob ib bb).tag.lo ≤ 64) : (ofLayout layout ob ib bb).Tiles := by
  refine ⟨?_, ?_, ?_⟩
  · cases layout <;> simp only [ofLayout, fieldList, List.mem_cons, List.not_mem_nil, or_false,
      forall_eq_or_imp, forall_eq] at h ⊢ <;> omega
  · -- in every layout each field ends where the next one up begins
    cases layout <;> simp only [ofLayout, fieldList, List.pairwise_cons, List.mem_cons,
      List.not_mem_nil, or_false, forall_eq_or_imp, forall_eq, List.Pairwise.nil, and_true,
      false_implies, implies_true] at h ⊢ <;>
      refine ⟨⟨?_, ?_, ?_⟩, ⟨?_, ?_⟩, ?_⟩ <;> exact BitField.disjoint_bits (by dsimp only; omega)
  · cases layout <;> simp only [ofLayout] at h ⊢ <;> ext k <;>
      simp only [Finset.mem_union, BitField.mem_bits, Finset.mem_range] <;> omega

section Tiled

variable {m : AddressMap} (hm : m.Tiles)
include hm

theorem Tiles.offset_le : m.offset.lo ≤ m.offset.hi ∧ m.offset.hi ≤ 64 :=
  hm.inWord _ (by simp [fieldList])

theorem Tiles.index_le : m.index.lo ≤ m.index.hi ∧ m.index.hi ≤ 64 :=
  hm.inWord _ (by simp [fieldList])

theorem Tiles.bank_le : m.bank.lo ≤ m.bank.hi ∧ m.bank.hi ≤ 64 :=
  hm.inWord _ (by simp [fieldList])

theorem Tiles.tag_le : m.tag.lo ≤ m.tag.hi ∧ m.tag.hi ≤ 64 :=
  hm.inWord _ (by simp [fieldList])

/-- Every field but the offset lies above an offset that starts at bit 0. -/
theorem Tiles.le_of_mem_bits (ho : m.offset.lo = 0) {f : BitField}
    (hf : f ∈ [m.index, m.bank, m.tag]) {k : Nat} (hk : k ∈ f.bits) : m.offset.hi ≤ k := by
  have hdis : Disjoint m.offset.bits f.bits := by
    have hp := hm.disjoint
    simp only [fieldList, List.pairwise_cons] at hp
    exact hp.1 f hf
  have hoff : k ∉ m.offset.bits := Finset.disjoint_right.1 hdis hk
  simp only [BitField.mem_bits, ho, Nat.zero_le, true_and, not_lt] at hoff
  exact hoff

/-- An address is the union of its fields put back in place: the tag as it stands, the set
index and the bank shifted up to their fields, and the offset. -/
theorem Tiles.toNat_eq_or_fields (ho : m.offset.lo = 0) (a : UInt64) :
    a.toNat = (m.tagOf a).toNat ||| m.indexOf a <<< m.index.lo ||| m.bankOf a <<< m.bank.lo |||
      a.toNat % 2 ^ m.offset.hi := by
  obtain ⟨hi, hi64⟩ := hm.index_le
  obtain ⟨hb, hb64⟩ := hm.bank_le
  obtain ⟨ht, ht64⟩ := hm.tag_le
  apply Nat.eq_of_testBit_eq
  intro k
  rw [tagOf, indexOf, bankOf, BitField.read_shiftLeft _ _ hi hi64,
    BitField.read_shiftLeft _ _ hb hb64, Nat.testBit_or, Nat.testBit_or, Nat.testBit_or,
    BitField.testBit_keep_bits _ _ ht ht64, BitField.testBit_keep_bits _ _ hi hi64,
    BitField.testBit_keep_bits _ _ hb hb64, Nat.testBit_mod_two_pow]
  -- the offset's positions are those below its top
  have hoff : k < m.offset.hi ↔ k ∈ m.offset.bits := by simp [ho]
  simp only [hoff]
  by_cases hk : k < 64
  · -- inside the word the position lies in some field
    have hcover := (Finset.ext_iff.1 hm.cover k).2 (Finset.mem_range.2 hk)
    simp only [Finset.mem_union] at hcover
    cases a.toNat.testBit k
    · simp
    · simp only [Bool.and_true]
      symm
      simp only [Bool.or_eq_true, decide_eq_true_eq]
      tauto
  · rw [UInt64.testBit_toNat_of_le a (by omega)]
    simp

end Tiled

/-- Two addresses have one line address exactly when they agree on every bit from the offset
up. -/
theorem lineOf_eq_iff (m : AddressMap) (hob : m.offset.hi ≤ 64) (a b : UInt64) :
    m.lineOf a = m.lineOf b ↔ ∀ k, m.offset.hi ≤ k → a.toNat.testBit k = b.toNat.testBit k := by
  have hkeep := BitField.testBit_keep_bits ⟨m.offset.hi, 64⟩
  constructor
  · intro h k hk
    by_cases hk64 : k < 64
    · have hbit := congrArg (fun x : UInt64 => x.toNat.testBit k) h
      simp only [lineOf, hkeep a hob le_rfl, hkeep b hob le_rfl] at hbit
      simpa [hk, hk64] using hbit
    · rw [UInt64.testBit_toNat_of_le a (by omega), UInt64.testBit_toNat_of_le b (by omega)]
  · intro h
    apply UInt64.toNat_inj.1
    apply Nat.eq_of_testBit_eq
    intro k
    rw [lineOf, lineOf, hkeep a hob le_rfl, hkeep b hob le_rfl]
    by_cases hk : k ∈ (BitField.mk m.offset.hi 64).bits
    · rw [h k ((BitField.mem_bits _ k).1 hk).1]
    · simp [hk]

/-- On tiled fields, two addresses with one line address read one set index and one bank. -/
theorem Tiles.index_bank_of_lineOf_eq {m : AddressMap} (hm : m.Tiles) (ho : m.offset.lo = 0)
    {a b : UInt64} (h : m.lineOf a = m.lineOf b) :
    m.indexOf a = m.indexOf b ∧ m.bankOf a = m.bankOf b := by
  have hab := (lineOf_eq_iff m hm.offset_le.2 a b).1 h
  obtain ⟨hi, hi64⟩ := hm.index_le
  obtain ⟨hb, hb64⟩ := hm.bank_le
  exact ⟨BitField.read_eq_of_testBit_eq _ hi hi64 fun k hk =>
      hab k (hm.le_of_mem_bits ho (by simp) hk),
    BitField.read_eq_of_testBit_eq _ hb hb64 fun k hk =>
      hab k (hm.le_of_mem_bits ho (by simp) hk)⟩

end AddressMap

namespace Cache

/-- How a cache reads addresses. Its fields tile the word, and every address is the union of
its fields put back in place. Two addresses have one line address exactly when the directory of
the same line size takes them to be on one line, and exactly when they agree on every bit from
the offset up; then they map to one set and one bank. -/
structure ReadsAddresses (c : Cache) : Prop where
  tiles : c.fields.Tiles
  eq_or_fields : ∀ a : UInt64, a.toNat = (c.fields.tagOf a).toNat |||
    c.fields.indexOf a <<< c.fields.index.lo ||| c.fields.bankOf a <<< c.fields.bank.lo |||
    a.toNat % c.lineSize
  lineOf_eq_iff_sameLine : ∀ d : Directory, d.lineSize = c.lineSize → ∀ a b : UInt64,
    c.fields.lineOf a = c.fields.lineOf b ↔ d.sameLine a b = true
  lineOf_eq_iff_testBit : ∀ a b : UInt64, c.fields.lineOf a = c.fields.lineOf b ↔
    ∀ k, c.lineSize.log2 ≤ k → a.toNat.testBit k = b.toNat.testBit k
  index_bank_of_lineOf_eq : ∀ a b : UInt64, c.fields.lineOf a = c.fields.lineOf b →
    c.fields.indexOf a = c.fields.indexOf b ∧ c.fields.bankOf a = c.fields.bankOf b

/-- Every cache as built reads addresses so: the fields of its layout tile the word, since the
tag starts inside it, and its lines are those of a directory of the same line size. -/
theorem reads_addresses_of_build {id : Nat} {cfg : CacheConfig} {lineSize : Nat} {c : Cache}
    (h : build id cfg lineSize = .ok c) : c.ReadsAddresses := by
  obtain ⟨hok, hword, -, hfields, -⟩ := build_inv h
  have hsize := (build_keeps h).2.2.1
  have hpow : 2 ^ lineSize.log2 = lineSize := pow_log2_of_isPowerOfTwo hok.lineSize
  have hal := aligned_of_build h
  have htiles : c.fields.Tiles := by
    rw [hfields]
    exact AddressMap.tiles_ofLayout _ _ _ _ (AddressMap.tag_lo_lt_of_fieldsInWord hword).le
  -- the offset runs from bit 0 to the logarithm of the line size
  have ho : c.fields.offset = ⟨0, lineSize.log2⟩ := by
    rw [hfields]
    cases cfg.layout <;> rfl
  refine ⟨htiles, fun a => ?_, fun d hd a b => ?_, fun a b => ?_, fun a b hab => ?_⟩
  · have hdec := htiles.toNat_eq_or_fields (by rw [ho]) a
    rw [ho] at hdec
    dsimp only at hdec
    rwa [hpow, ← hsize] at hdec
  · rw [Directory.sameLine, Directory.lineMask, hd, hsize, beq_iff_eq,
      ← (hal.sameLine_iff a b), shape_fields, AddressMap.sameLine, beq_iff_eq]
  · rw [AddressMap.lineOf_eq_iff _ htiles.offset_le.2, ho, hsize]
  · exact htiles.index_bank_of_lineOf_eq (by rw [ho]) hab

/-- A cache of two banks on 64-byte lines, with the bank field above the set index. -/
theorem reads_addresses_two_banks :
    ∃ c, build 0 { label := "L2", totalBanks := 2, bankNumber := 1, lineNumber := 512,
                   associativity := 8, layout := .tagBankIndexOffset } 64 = .ok c ∧
      c.ReadsAddresses := by
  obtain ⟨c, hc⟩ : ∃ c, build 0 { label := "L2", totalBanks := 2, bankNumber := 1,
                                   lineNumber := 512, associativity := 8,
                                   layout := .tagBankIndexOffset } 64 = .ok c :=
    ⟨_, rfl⟩
  exact ⟨c, hc, reads_addresses_of_build hc⟩

end Cache

end CacheHierarchy
