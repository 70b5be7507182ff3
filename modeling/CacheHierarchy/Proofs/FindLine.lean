import Mathlib
import CacheHierarchy.Proofs.InclusiveEviction

set_option autoImplicit false

/-! # Where a cache finds a line

A cache looks for the line of an address in one set, the one the address's index field names,
and takes the first way of that set whose tag is on the address's line. This module says what
`Cache.findLine` returns (`findLine_eq_some`), when it returns something (`findLine_isSome_of`),
and what installing a line at a way (`Cache.changeAddress`) does to the search: the installed
line is found (`findLine_changeAddress_self`), and a line found before is still found, unless
its way is the one overwritten by a line of another address (`findLine_changeAddress_isSome`).
-/

namespace CacheHierarchy

namespace AddressMap

variable (m : AddressMap)

theorem sameLine_refl (a : UInt64) : m.sameLine a a = true := by
  simp [sameLine]

theorem sameLine_trans {a b c : UInt64} (hab : m.sameLine a b = true)
    (hbc : m.sameLine b c = true) : m.sameLine a c = true := by
  simp only [sameLine, beq_iff_eq] at *
  exact hab.trans hbc

/-- The line address of `a` is on the line of `a`. -/
theorem sameLine_lineOf (a : UInt64) : m.sameLine (m.lineOf a) a = true := by
  simp [sameLine, lineOf, BitField.keep, UInt64.and_assoc]

end AddressMap

namespace Cache

/-- The line at a position inside the tag array, read through the set. -/
theorem line_eq_getElem (c : Cache) {i w : Nat} (hw : w < (c.lines.getD i #[]).size) :
    c.line i w = (c.lines.getD i #[])[w] := by
  rw [line, TagArray.get, @Array.getD_eq_getD_getElem? _ (c.lines.getD i #[]),
    Array.getElem?_eq_getElem hw, Option.getD_some]

/-- What `findLine` returns: a way of the set of the address, holding a tag on its line. -/
theorem findLine_eq_some {c : Cache} {a : UInt64} {i w : Nat}
    (h : c.findLine a = some (i, w)) :
    i = c.fields.indexOf a ∧ w < (c.lines.getD i #[]).size ∧
      c.fields.sameLine (c.line i w).tag a = true := by
  simp only [findLine, Option.map_eq_some_iff, Prod.mk.injEq] at h
  obtain ⟨w', hw', rfl, rfl⟩ := h
  obtain ⟨hw, hsame, -⟩ := Array.findIdx?_eq_some_iff_getElem.1 hw'
  exact ⟨rfl, hw, by rw [line_eq_getElem c hw]; exact hsame⟩

/-- A way of the set of `a` holding a tag on the line of `a` makes `findLine` find a way. -/
theorem findLine_isSome_of {c : Cache} {a : UInt64} {w : Nat}
    (hw : w < (c.lines.getD (c.fields.indexOf a) #[]).size)
    (hsame : c.fields.sameLine (c.line (c.fields.indexOf a) w).tag a = true) :
    (c.findLine a).isSome := by
  simp only [findLine, Option.isSome_map, Array.findIdx?_isSome, Array.any_eq_true]
  exact ⟨w, hw, by rw [← line_eq_getElem c hw]; exact hsame⟩

/-- Two addresses on one line, in one set, are found at the same way. -/
theorem findLine_eq_of_sameLine (c : Cache) {a b : UInt64}
    (hidx : c.fields.indexOf a = c.fields.indexOf b) (hab : c.fields.sameLine a b = true) :
    c.findLine a = c.findLine b := by
  have hpred : (fun l : Line => c.fields.sameLine l.tag a) =
      fun l : Line => c.fields.sameLine l.tag b := by
    funext l
    apply Bool.eq_iff_iff.2
    constructor
    · intro h
      exact c.fields.sameLine_trans h hab
    · intro h
      exact c.fields.sameLine_trans h ((c.fields.sameLine_comm a b).symm.trans hab)
  simp only [findLine, hidx, hpred]

/-! ## Changing one way -/

@[simp] theorem fields_modifyLine (c : Cache) (i w : Nat) (f : Line → Line) :
    (c.modifyLine i w f).fields = c.fields := rfl

@[simp] theorem fields_changeAddress (c : Cache) (i w : Nat) (x : UInt64) :
    (c.changeAddress i w x).fields = c.fields := rfl

theorem size_getD_modifyLine (c : Cache) (i w j : Nat) (f : Line → Line) :
    ((c.modifyLine i w f).lines.getD j #[]).size = (c.lines.getD j #[]).size := by
  rw [size_getD_lines, size_getD_lines, shape_modifyLine]

theorem line_modifyLine_of_ne (c : Cache) {i w i' w' : Nat} (f : Line → Line)
    (hne : (i', w') ≠ (i, w)) : (c.modifyLine i w f).line i' w' = c.line i' w' := by
  simp only [line, modifyLine, TagArray.get, TagArray.modify, Array.getD_eq_getD_getElem?,
    Array.getElem?_modify]
  by_cases hi : i = i'
  · subst hi
    have hw : w ≠ w' := fun hw => hne (by rw [hw])
    cases hset : c.lines[i]? <;> simp [Array.getElem?_modify, hw]
  · simp [hi]

theorem line_modifyLine_self (c : Cache) {i w : Nat} (f : Line → Line)
    (hw : w < (c.lines.getD i #[]).size) : (c.modifyLine i w f).line i w = f (c.line i w) := by
  have hi : i < c.lines.size := by
    by_contra hi
    rw [Array.getD_eq_getD_getElem?, Array.getElem?_eq_none (by omega)] at hw
    simp at hw
  exact TagArray.get_modify_self _ _ _ _ hi hw

/-- The line installed at a way of the set of `x` is found. -/
theorem findLine_changeAddress_self (c : Cache) {w : Nat} (x : UInt64)
    (hw : w < (c.lines.getD (c.fields.indexOf x) #[]).size) :
    ((c.changeAddress (c.fields.indexOf x) w x).findLine x).isSome := by
  apply findLine_isSome_of
  · rw [fields_changeAddress, changeAddress, size_getD_modifyLine]
    exact hw
  · rw [fields_changeAddress, changeAddress, line_modifyLine_self _ _ hw]
    exact c.fields.sameLine_lineOf x

/-- A line found before a way is overwritten is still found, provided that if the
overwritten way held it, the new address is on that line too. -/
theorem findLine_changeAddress_isSome (c : Cache) {a x : UInt64} {i w : Nat}
    (hfound : (c.findLine a).isSome)
    (hkeep : c.fields.sameLine (c.line i w).tag a = true → c.fields.sameLine x a = true) :
    ((c.changeAddress i w x).findLine a).isSome := by
  obtain ⟨⟨i₀, w₀⟩, hf⟩ := Option.isSome_iff_exists.1 hfound
  obtain ⟨rfl, hw₀, hsame⟩ := findLine_eq_some hf
  have hline : c.fields.sameLine
      ((c.changeAddress i w x).line (c.fields.indexOf a) w₀).tag a = true := by
    rw [changeAddress]
    by_cases hpos : (c.fields.indexOf a, w₀) = (i, w)
    · -- the way that held the line is overwritten, with an address on the same line
      obtain ⟨rfl, rfl⟩ := Prod.mk.inj hpos
      rw [line_modifyLine_self _ _ hw₀]
      exact c.fields.sameLine_trans (c.fields.sameLine_lineOf x) (hkeep hsame)
    · rw [line_modifyLine_of_ne _ _ hpos]
      exact hsame
  exact findLine_isSome_of (by rwa [changeAddress, size_getD_modifyLine]) hline

end Cache

end CacheHierarchy
