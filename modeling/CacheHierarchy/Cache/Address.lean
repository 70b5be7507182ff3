import CacheHierarchy.Policy
import CacheHierarchy.Word

set_option autoImplicit false

/-! # Fields of an address

A cache reads an address as bit fields, from the low bits up: the offset of the byte in the
line, then the set index and the bank in the order its layout gives, then the tag. A field
is a range of bit positions `lo ≤ k < hi`. The line address keeps every bit above the
offset; two addresses are on one line when their line addresses agree.
-/

namespace CacheHierarchy

/-- The bit positions `lo ≤ k < hi` of a 64-bit address. -/
structure BitField where
  lo : Nat
  hi : Nat
  deriving DecidableEq, Repr, Inhabited

namespace BitField

/-- The word with ones exactly at the field's positions below 64. -/
def ones (f : BitField) : UInt64 :=
  if f.hi ≤ f.lo then 0
  else ((if f.hi < 64 then Nat.pow 2 f.hi else Nat.pow 2 64) - Nat.pow 2 f.lo).toUInt64

/-- The address with every bit outside the field cleared. -/
def keep (f : BitField) (addr : UInt64) : UInt64 := addr &&& f.ones

/-- The value of the field, shifted down to bit 0. -/
def read (f : BitField) (addr : UInt64) : Nat := (f.keep addr).toNat / Nat.pow 2 f.lo

example : (BitField.mk 6 8).ones = 0xc0 := by decide
example : (BitField.mk 6 64).ones = 0xffffffffffffffc0 := by decide
example : (BitField.mk 3 3).ones = 0 := by decide
example : (BitField.mk 16 32).read 0xdeadbeef = 0xdead := by decide

end BitField

/-- The four fields of an address for one cache. -/
structure AddressMap where
  offset : BitField
  index : BitField
  bank : BitField
  tag : BitField
  deriving DecidableEq, Repr, Inhabited

namespace AddressMap

/-- The fields for a layout, with `ob`, `ib` and `bb` bits of offset, index and bank. A cache
with a single bank has an empty bank field. -/
def ofLayout (layout : Layout) (ob ib bb : Nat) : AddressMap :=
  match layout with
  | .tagIndexOffset =>
    { offset := ⟨0, ob⟩, index := ⟨ob, ob + ib⟩, bank := ⟨0, 0⟩, tag := ⟨ob + ib, 64⟩ }
  | .tagIndexBankOffset =>
    { offset := ⟨0, ob⟩, bank := ⟨ob, ob + bb⟩, index := ⟨ob + bb, ob + bb + ib⟩,
      tag := ⟨ob + bb + ib, 64⟩ }
  | .tagBankIndexOffset =>
    { offset := ⟨0, ob⟩, index := ⟨ob, ob + ib⟩, bank := ⟨ob + ib, ob + ib + bb⟩,
      tag := ⟨ob + ib + bb, 64⟩ }

/-- The tag bits of an address, in place. -/
def tagOf (m : AddressMap) (addr : UInt64) : UInt64 := m.tag.keep addr

/-- The set an address maps to. -/
def indexOf (m : AddressMap) (addr : UInt64) : Nat := m.index.read addr

def bankOf (m : AddressMap) (addr : UInt64) : Nat := m.bank.read addr

/-- The address of the first byte of the line holding `addr`. -/
def lineOf (m : AddressMap) (addr : UInt64) : UInt64 := (BitField.mk m.offset.hi 64).keep addr

def sameLine (m : AddressMap) (a b : UInt64) : Bool := m.lineOf a == m.lineOf b

/-- The tag a fresh way holds: the way, index and bank numbers written into their fields.
It names no line the cache was asked for, though a real line address may equal it. -/
def freshTag (m : AddressMap) (index way bank : Nat) : UInt64 :=
  (way.toUInt64 <<< m.tag.lo.toUInt64) ||| (index.toUInt64 <<< m.index.lo.toUInt64) |||
    (bank.toUInt64 <<< m.bank.lo.toUInt64)

/-- Whether every field of a tag starts inside the word, so that a number can be shifted
into it: a fresh tag is written with such shifts (`freshTag`). -/
def fieldsInWord (m : AddressMap) : Bool :=
  m.tag.lo < wordBits && m.index.lo < wordBits && m.bank.lo < wordBits

theorem sameLine_comm (m : AddressMap) (a b : UInt64) : m.sameLine a b = m.sameLine b a := by
  simp only [sameLine]
  exact Bool.eq_iff_iff.mpr ⟨fun h => by simp_all, fun h => by simp_all⟩

end AddressMap

end CacheHierarchy
