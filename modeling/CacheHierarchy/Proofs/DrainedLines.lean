import Mathlib
import CacheHierarchy.Proofs.Workloads
import CacheHierarchy.Proofs.AnswerChain

open Std.Do

set_option autoImplicit false
set_option mvcgen.warning false

/-! # What a drain does to the lines

At the end of a run the drain empties the caches: a valid line on no locked line is made
invalid, after its writeback is queued in the writeback range of its cache when the line is
dirty and the policy writes such lines back. `Hierarchy.Drained h₀ h` says what a drain from
`h₀` may have done by `h`: the directory only gained transactions, under the same policy and
line size (`Directory.Extends`); every MSHR kept its packets (`Mshr.Keeps`); and every line is
as it was or dropped (`Cache.Drops`). A line is dropped only if it was valid and on no locked
line in `h₀`, and only once its writeback, if it needs one, waits in the writeback range.

The relation is reflexive and transitive, and each change an action makes has its lemma:
counters, a writeback (`Action.writeBack_writesBack`), dropping a way (`Hierarchy.Drained.drop`).
Flushing the ways of a set is then a drain of that cache alone (`Action.flushWays_drained`),
whose answer says how the set ended: `true` only if every way flushed is invalid, `false` only
if a way still holds a valid line, on a locked line or with its writeback refused.
-/

namespace CacheHierarchy

/-! ## Packets kept and transactions added -/

namespace Mshr

theorem length_order_placeBorn (m : Mshr) (slot : Nat) :
    m.order.length ≤ (m.placeBorn slot).order.length := by
  unfold placeBorn
  split
  · exact le_rfl
  · simp [(insertAfterLast_perm _ slot m.order).length_eq]

/-- `m'` holds every packet of `m` in its slot, has as many packets at least, and the same
slots and ranges. -/
structure Keeps (m m' : Mshr) : Prop where
  get : ∀ s p, m.get? s = some p → m'.get? s = some p
  count : m.count ≤ m'.count
  size : m'.slots.size = m.slots.size
  range : m'.range = m.range

namespace Keeps

theorem refl (m : Mshr) : m.Keeps m := ⟨fun _ _ h => h, le_rfl, rfl, rfl⟩

theorem trans {m₁ m₂ m₃ : Mshr} (h₁₂ : m₁.Keeps m₂) (h₂₃ : m₂.Keeps m₃) : m₁.Keeps m₃ :=
  ⟨fun s p h => h₂₃.get s p (h₁₂.get s p h), h₁₂.count.trans h₂₃.count,
    h₂₃.size.trans h₁₂.size, h₂₃.range.trans h₁₂.range⟩

theorem fits {m m' : Mshr} (hk : m.Keeps m') (hm : m.Fits) : m'.Fits :=
  hm.of_size hk.size hk.range

theorem fits_back {m m' : Mshr} (hk : m.Keeps m') (hm : m'.Fits) : m.Fits :=
  hm.of_size hk.size.symm hk.range.symm

/-- Storing a packet in a free slot keeps every packet. -/
theorem allocate {m m' : Mshr} {r : MshrRange} {p : Packet} {slot : Nat}
    (h : m.allocate r p = some (slot, m')) : m.Keeps m' := by
  obtain ⟨-, hfree, hget, -⟩ := allocate_spec h
  obtain ⟨hsize, hrange⟩ := size_allocate h
  refine ⟨fun s q hq => ?_, ?_, hsize, hrange⟩
  · rw [hget]
    split
    · rename_i hs
      rw [hs.1, hq] at hfree
      cases hfree
    · exact hq
  · unfold Mshr.allocate at h
    split at h
    · cases h
    · obtain ⟨rfl, rfl⟩ := Prod.mk.inj (Option.some.inj h)
      simp only [Mshr.count]
      exact length_order_placeBorn { m with slots := m.slots.setIfInBounds _ (some p) } _

end Keeps

end Mshr

namespace Directory

/-- `d'` is `d` with transactions opened after its own, under the same writeback policy and
line size: every line `d` locks, `d'` locks too. -/
structure Extends (d d' : Directory) : Prop where
  llcWriteback : d'.llcWriteback = d.llcWriteback
  nonLlcWriteback : d'.nonLlcWriteback = d.nonLlcWriteback
  lineSize : d'.lineSize = d.lineSize
  entries : ∃ l, d'.entries = d.entries ++ l

namespace Extends

theorem refl (d : Directory) : d.Extends d := ⟨rfl, rfl, rfl, [], by simp⟩

theorem trans {d₁ d₂ d₃ : Directory} (h₁₂ : d₁.Extends d₂) (h₂₃ : d₂.Extends d₃) :
    d₁.Extends d₃ := by
  obtain ⟨l₁, he₁⟩ := h₁₂.entries
  obtain ⟨l₂, he₂⟩ := h₂₃.entries
  exact ⟨h₂₃.llcWriteback.trans h₁₂.llcWriteback, h₂₃.nonLlcWriteback.trans h₁₂.nonLlcWriteback,
    h₂₃.lineSize.trans h₁₂.lineSize, l₁ ++ l₂, by rw [he₂, he₁, List.append_assoc]⟩

/-- A lock stays held while transactions are only added. -/
theorem isLocked {d d' : Directory} (hd : d.Extends d') {a : UInt64}
    (h : d.isLocked a = true) : d'.isLocked a = true := by
  obtain ⟨l, he⟩ := hd.entries
  have hmask : d'.lineMask = d.lineMask := by simp only [lineMask, hd.lineSize]
  obtain ⟨e, he₀, hsame⟩ := (isLocked_iff d a).1 h
  refine (isLocked_iff d' a).2 ⟨e, by simp [he, he₀], ?_⟩
  simpa only [sameLine, hmask] using hsame

theorem isLocked_eq_false {d d' : Directory} (hd : d.Extends d') {a : UInt64}
    (h : d'.isLocked a = false) : d.isLocked a = false := by
  cases hl : d.isLocked a
  · rfl
  · rw [hd.isLocked hl] at h
    cases h

end Extends

end Directory

/-- Whether a line must be written back depends on the writeback policy and on the cache
being a last-level one only. -/
theorem Hierarchy.needWriteback_congr {h h' : Hierarchy} (hd : h.directory.Extends h'.directory)
    {c c' : Cache} (hl : c'.lower = c.lower) (st : Status) :
    h'.needWriteback c' st = h.needWriteback c st := by
  unfold needWriteback Cache.isLastLevel
  rw [hl, hd.llcWriteback, hd.nonLlcWriteback]

/-! ## Lines dropped -/

namespace Cache

/-- The writeback of the line `tag` waits in a slot of the writeback range of `c`. -/
def Queued (c : Cache) (tag : UInt64) : Prop :=
  ∃ s ∈ c.mshr.range .writeback, ∃ p, c.mshr.get? s = some p ∧ p.op = .writeback ∧ p.addr = tag

theorem Queued.of_keeps {c c' : Cache} {tag : UInt64} (hq : c.Queued tag)
    (hk : c.mshr.Keeps c'.mshr) : c'.Queued tag := by
  obtain ⟨s, hs, p, hp, hop, haddr⟩ := hq
  exact ⟨s, by rw [hk.range]; exact hs, p, hk.get s p hp, hop, haddr⟩

/-- Way `w` of set `i` of `c₀`, in a hierarchy `h₀`, is dropped in `c`: it was valid and on
no locked line, it is now invalid and otherwise the same, and if it had to be written back
its writeback is queued (in an MSHR whose ranges lie in its slots, as in every cache built). -/
structure Drops (h₀ : Hierarchy) (c₀ c : Cache) (i w : Nat) : Prop where
  valid : (c₀.line i w).status ≠ .i
  unlocked : h₀.directory.isLocked (c₀.line i w).tag = false
  invalid : c.line i w = { c₀.line i w with status := .i }
  queued : c₀.mshr.Fits → h₀.needWriteback c₀ (c₀.line i w).status = true →
    c.Queued (c₀.line i w).tag

/-- `c` is cache `c₀` of `h₀` after a drain: the same shape, level, sets and caches below,
every packet kept, and every line kept or dropped. -/
structure Drained (h₀ : Hierarchy) (c₀ c : Cache) : Prop where
  shape : c.shape = c₀.shape
  level : c.level = c₀.level
  setCount : c.setCount = c₀.setCount
  lower : c.lower = c₀.lower
  mshr : c₀.mshr.Keeps c.mshr
  lines : ∀ i w, c.line i w = c₀.line i w ∨ Drops h₀ c₀ c i w

namespace Drained

variable {h₀ : Hierarchy} {c₀ c : Cache}

theorem refl (h₀ : Hierarchy) (c : Cache) : Drained h₀ c c :=
  ⟨rfl, rfl, rfl, rfl, .refl _, fun _ _ => .inl rfl⟩

/-- A cache whose lines, shape, level, sets and caches below stay, and whose packets are
kept, is drained. -/
theorem of_lines {c' : Cache} (hl : c'.lines = c.lines) (hs : c'.shape = c.shape)
    (hlev : c'.level = c.level) (hsets : c'.setCount = c.setCount) (hlow : c'.lower = c.lower)
    (hk : c.mshr.Keeps c'.mshr) : Drained h₀ c c' :=
  ⟨hs, hlev, hsets, hlow, hk, fun i w => .inl (by simp only [line, hl])⟩

theorem trans {h₁ : Hierarchy} {c₁ c₂ : Cache} (h₀₁ : Drained h₀ c₀ c₁) (h₁₂ : Drained h₁ c₁ c₂)
    (hd : h₀.directory.Extends h₁.directory) : Drained h₀ c₀ c₂ := by
  refine ⟨h₁₂.shape.trans h₀₁.shape, h₁₂.level.trans h₀₁.level,
    h₁₂.setCount.trans h₀₁.setCount, h₁₂.lower.trans h₀₁.lower, h₀₁.mshr.trans h₁₂.mshr,
    fun i w => ?_⟩
  rcases h₀₁.lines i w with hl₁ | hd₁ <;> rcases h₁₂.lines i w with hl₂ | hd₂
  · exact .inl (hl₂.trans hl₁)
  · -- a line kept, then dropped: it was unlocked in `h₁`, so in `h₀`
    have hv := hd₂.valid
    have hu := hd₂.unlocked
    have hinv := hd₂.invalid
    have hq := hd₂.queued
    rw [hl₁] at hv hu hinv hq
    refine .inr ⟨hv, hd.isLocked_eq_false hu, hinv, fun hfit hw => hq (h₀₁.mshr.fits hfit) ?_⟩
    rw [Hierarchy.needWriteback_congr hd h₀₁.lower]
    exact hw
  · -- a line dropped, then kept: its writeback stays queued
    refine .inr ⟨hd₁.valid, hd₁.unlocked, hl₂.trans hd₁.invalid, fun hfit hw => ?_⟩
    exact (hd₁.queued hfit hw).of_keeps h₁₂.mshr
  · -- a dropped line is invalid, and an invalid line is not dropped again
    exact absurd (by rw [hd₁.invalid]) hd₂.valid

/-- An invalid line stays. -/
theorem line_of_invalid (hd : Drained h₀ c₀ c) {i w : Nat} (hi : (c₀.line i w).status = .i) :
    c.line i w = c₀.line i w :=
  (hd.lines i w).resolve_right fun hdrop => hdrop.valid hi

/-- A line on a locked line stays. -/
theorem line_of_locked (hd : Drained h₀ c₀ c) {i w : Nat}
    (hlock : h₀.directory.isLocked (c₀.line i w).tag = true) : c.line i w = c₀.line i w :=
  (hd.lines i w).resolve_right fun hdrop => by rw [hdrop.unlocked] at hlock; cases hlock

theorem ways (hd : Drained h₀ c₀ c) : c.ways = c₀.ways := by
  rw [← shape_ways, hd.shape, shape_ways]

end Drained

/-- A valid line lies inside the tag array: outside it a position reads as an invalid line. -/
theorem lt_size_of_valid {c : Cache} {i w : Nat} (hv : (c.line i w).status ≠ .i) :
    w < (c.lines.getD i #[]).size := by
  by_contra hw
  apply hv
  rw [line, TagArray.get, Array.getD_eq_getD_getElem?, Array.getElem?_eq_none (by omega)]
  rfl

/-- Dropping a valid line on no locked line of `h₀`, once its writeback is queued if it
needs one. -/
theorem drained_changeStatus (h₀ : Hierarchy) (c : Cache) {i w : Nat}
    (hv : (c.line i w).status ≠ .i) (hu : h₀.directory.isLocked (c.line i w).tag = false)
    (hq : c.mshr.Fits → h₀.needWriteback c (c.line i w).status = true →
      c.Queued (c.line i w).tag) :
    Drained h₀ c (c.changeStatus i w .i) := by
  refine ⟨shape_changeStatus c i w .i, rfl, rfl, rfl, .refl _, fun i' w' => ?_⟩
  by_cases hpos : (i', w') = (i, w)
  · obtain ⟨rfl, rfl⟩ := Prod.mk.inj hpos
    exact .inr ⟨hv, hu, line_modifyLine_self c _ (lt_size_of_valid hv), hq⟩
  · exact .inl (line_modifyLine_of_ne c _ hpos)

end Cache

/-! ## The hierarchy after a drain -/

/-- `h` is `h₀` after a drain: the directory extended, and every cache drained. -/
structure Hierarchy.Drained (h₀ h : Hierarchy) : Prop where
  directory : h₀.directory.Extends h.directory
  size : h.caches.size = h₀.caches.size
  caches : ∀ (j : Nat) (c₀ c : Cache), h₀.caches[j]? = some c₀ → h.caches[j]? = some c →
    Cache.Drained h₀ c₀ c

namespace Hierarchy.Drained

variable {h₀ h : Hierarchy}

theorem refl (h : Hierarchy) : h.Drained h :=
  ⟨.refl _, rfl, fun j c₀ c h₀ h => by rw [h₀] at h; cases h; exact .refl _ _⟩

theorem trans {h₁ h₂ : Hierarchy} (h₀₁ : h₀.Drained h₁) (h₁₂ : h₁.Drained h₂) : h₀.Drained h₂ := by
  refine ⟨h₀₁.directory.trans h₁₂.directory, h₁₂.size.trans h₀₁.size, fun j c₀ c₂ hc₀ hc₂ => ?_⟩
  obtain ⟨c₁, hc₁⟩ : ∃ c₁, h₁.caches[j]? = some c₁ := by
    have hj : j < h₁.caches.size := by
      rw [h₀₁.size]
      exact (Array.getElem?_eq_some_iff.1 hc₀).1
    exact ⟨h₁.caches[j], Array.getElem?_eq_getElem hj⟩
  exact (h₀₁.caches j c₀ c₁ hc₀ hc₁).trans (h₁₂.caches j c₁ c₂ hc₁ hc₂) h₀₁.directory

/-- The cache that `h` holds where `h₀` holds one. -/
theorem exists_cache (hd : h₀.Drained h) {j : Nat} {c₀ : Cache} (hc₀ : h₀.caches[j]? = some c₀) :
    ∃ c, h.caches[j]? = some c ∧ Cache.Drained h₀ c₀ c := by
  have hj : j < h.caches.size := by rw [hd.size]; exact (Array.getElem?_eq_some_iff.1 hc₀).1
  exact ⟨h.caches[j], Array.getElem?_eq_getElem hj,
    hd.caches j c₀ _ hc₀ (Array.getElem?_eq_getElem hj)⟩

/-- The cache `h₀` holds where `h` holds one. -/
theorem exists_pre (hd : h₀.Drained h) {j : Nat} {c : Cache} (hc : h.caches[j]? = some c) :
    ∃ c₀, h₀.caches[j]? = some c₀ ∧ Cache.Drained h₀ c₀ c := by
  have hj : j < h₀.caches.size := by rw [← hd.size]; exact (Array.getElem?_eq_some_iff.1 hc).1
  exact ⟨h₀.caches[j], Array.getElem?_eq_getElem hj,
    hd.caches j _ c (Array.getElem?_eq_getElem hj) hc⟩

end Hierarchy.Drained

namespace Hierarchy

/-- Changing one cache by a drain of it. -/
theorem drained_modifyCache (h : Hierarchy) (id : Nat) {f : Cache → Cache}
    (hf : ∀ c, h.caches[id]? = some c → Cache.Drained h c (f c)) : h.Drained (h.modifyCache id f) := by
  refine ⟨.refl _, size_modifyCache h id f, fun j c₀ c hc₀ hc => ?_⟩
  by_cases hj : j = id
  · subst hj
    rw [caches_modifyCache_self hc₀] at hc
    cases hc
    exact hf c₀ hc₀
  · rw [caches_modifyCache_of_ne h hj, hc₀] at hc
    cases hc
    exact .refl _ _

/-- Storing a drain of cache `id` in its slot. -/
theorem drained_setCacheAt (h : Hierarchy) (id : Nat) {c' : Cache}
    (hf : ∀ c, h.caches[id]? = some c → Cache.Drained h c c') : h.Drained (h.setCacheAt id c') := by
  refine ⟨.refl _, size_setCacheAt h id c', fun j c₀ c hc₀ hc => ?_⟩
  by_cases hj : j = id
  · subst hj
    have hid : j < h.caches.size := (Array.getElem?_eq_some_iff.1 hc₀).1
    rw [caches_setCacheAt_self hid] at hc
    cases hc
    exact hf c₀ hc₀
  · rw [caches_setCacheAt_of_ne h hj, hc₀] at hc
    cases hc
    exact .refl _ _

/-- Changing the directory to one that extends it. -/
theorem drained_modifyDirectory (h : Hierarchy) {f : Directory → Directory}
    (hf : h.directory.Extends (f h.directory)) : h.Drained (h.modifyDirectory f) :=
  ⟨hf, rfl, fun j c₀ c hc₀ hc => by
    rw [caches_modifyDirectory, hc₀] at hc
    cases hc
    exact .refl _ _⟩

end Hierarchy

/-! ## Writing a line back -/

/-- Storing a packet changes the MSHR and the counters only, and keeps every packet. -/
theorem Cache.allocate_drained (h₀ : Hierarchy) {c c' : Cache} {r : MshrRange} {p : Packet}
    {slot : Option Nat} (hal : c.allocate r p = (slot, c')) :
    c'.lines = c.lines ∧ Cache.Drained h₀ c c' := by
  unfold Cache.allocate at hal
  split at hal
  · rename_i slot' m hm
    cases hal
    exact ⟨rfl, .of_lines rfl rfl rfl rfl rfl (.allocate hm)⟩
  · cases hal
    exact ⟨rfl, .of_lines rfl rfl rfl rfl rfl (.refl _)⟩

/-- `h` agrees with `h₀` on every cache but `id`. -/
def Hierarchy.SameBut (h₀ : Hierarchy) (id : Nat) (h : Hierarchy) : Prop :=
  ∀ j, j ≠ id → h.caches[j]? = h₀.caches[j]?

theorem Hierarchy.SameBut.refl (h : Hierarchy) (id : Nat) : h.SameBut id h := fun _ _ => rfl

theorem Hierarchy.SameBut.trans {h₁ h₂ h₃ : Hierarchy} {id : Nat} (h₁₂ : h₁.SameBut id h₂)
    (h₂₃ : h₂.SameBut id h₃) : h₁.SameBut id h₃ := fun j hj => (h₂₃ j hj).trans (h₁₂ j hj)

/-- What writing back the way `way` of set `index` of cache `id` leaves of `h₀`: a drain that
changes no line and no other cache, and, when it answers `done`, the line's writeback
queued. -/
structure Hierarchy.WritesBack (h₀ : Hierarchy) (id index way : Nat) (done : Bool)
    (h : Hierarchy) : Prop where
  drained : h₀.Drained h
  others : h₀.SameBut id h
  lines : ∀ c c', h₀.caches[id]? = some c → h.caches[id]? = some c' → c'.lines = c.lines
  queued : done = true → ∀ c c', h₀.caches[id]? = some c → h.caches[id]? = some c' →
    c.mshr.Fits → c'.Queued (c.line index way).tag

/-- A packet stored in a range of an MSHR that fits is held in a slot of that range. -/
theorem Mshr.held_of_allocate {m m' : Mshr} {r : MshrRange} {p : Packet} {slot : Nat}
    (hal : m.allocate r p = some (slot, m')) (hm : m.Fits) : ∃ s ∈ m'.range r, m'.get? s = some p := by
  obtain ⟨hr, -⟩ := allocate_spec hal
  obtain ⟨-, hrange⟩ := size_allocate hal
  exact ⟨slot, by rw [hrange]; exact hr, (allocate_held hm hal).1⟩

/-- Counting changes no transaction. -/
theorem Directory.extends_count (d : Directory) (f : DirectoryStat → DirectoryStat) :
    d.Extends (d.count f) :=
  ⟨rfl, rfl, rfl, [], by simp [Directory.count]⟩

/-- Opening a transaction and stamping it extends the directory. -/
theorem Directory.extends_openEntry_stamp (d : Directory) (p : Packet) (now id : Nat) :
    d.Extends ((d.openEntry p now).2.modifyEntry (d.openEntry p now).1 (·.stamp id)) :=
  ⟨rfl, rfl, rfl, _, entries_openEntry_stamp d p now id⟩

namespace Hierarchy

/-- Storing in slot `id` a cache with the same lines, drained, and holding the writeback if
the answer is `done`. -/
theorem writesBack_setCacheAt (h : Hierarchy) {id index way : Nat} {done : Bool} {c c' : Cache}
    (hc : h.caches[id]? = some c) (hl : c'.lines = c.lines) (hd : Cache.Drained h c c')
    (hq : done = true → c.mshr.Fits → c'.Queued (c.line index way).tag) :
    h.WritesBack id index way done (h.setCacheAt id c') := by
  have hid : id < h.caches.size := (Array.getElem?_eq_some_iff.1 hc).1
  refine ⟨h.drained_setCacheAt id fun c₀ hc₀ => ?_, fun j hj => caches_setCacheAt_of_ne h hj c',
    fun c₀ c₁ hc₀ hc₁ => ?_, fun hdone c₀ c₁ hc₀ hc₁ hfit => ?_⟩
  all_goals
    rw [hc] at hc₀
    cases hc₀
  · exact hd
  · rw [caches_setCacheAt_self hid] at hc₁
    cases hc₁
    exact hl
  · rw [caches_setCacheAt_self hid] at hc₁
    cases hc₁
    exact hq hdone hfit

theorem WritesBack.modifyDirectory {h₀ h : Hierarchy} {id index way : Nat} {done : Bool}
    (hw : h₀.WritesBack id index way done h) {f : Directory → Directory}
    (hf : h.directory.Extends (f h.directory)) :
    h₀.WritesBack id index way done (h.modifyDirectory f) := by
  refine ⟨hw.drained.trans (h.drained_modifyDirectory hf), fun j hj => ?_,
    fun c c' hc hc' => hw.lines c c' hc (by simpa using hc'),
    fun hdone c c' hc hc' => hw.queued hdone c c' hc (by simpa using hc')⟩
  rw [caches_modifyDirectory]
  exact hw.others j hj

/-- A writeback that finds the writeback range full stores its cache back with counters
changed only. -/
theorem writesBack_of_full {h : Hierarchy} {id index way : Nat} {c c' : Cache} {p : Packet}
    (hc : h.caches[id]? = some c) (hal : c.allocate .writeback p = (none, c')) :
    h.WritesBack id index way false (h.setCacheAt id c') := by
  obtain ⟨hlines, hdr⟩ := Cache.allocate_drained h hal
  exact h.writesBack_setCacheAt hc hlines hdr fun hf => absurd hf Bool.false_ne_true

/-- A writeback that takes a slot of the writeback range holds its packet there, and opens its
transaction. -/
theorem writesBack_of_slot {h : Hierarchy} {id index way : Nat} {c c' : Cache} {p : Packet}
    {slot : Nat} (hc : h.caches[id]? = some c) (hal : c.allocate .writeback p = (some slot, c'))
    (hop : p.op = .writeback) (haddr : p.addr = (c.line index way).tag)
    (f : LineUsage → LineUsage) (g : CacheStat → CacheStat) (now : Nat) :
    h.WritesBack id index way true ((h.setCacheAt id ((c'.countUsage f).count g)).modifyDirectory
      fun _ => (h.directory.openEntry p now).2.modifyEntry (h.directory.openEntry p now).1
        (·.stamp id)) := by
  obtain ⟨hlines, hdr⟩ := Cache.allocate_drained h hal
  obtain ⟨hm, -⟩ := Cache.allocate_some hal
  refine WritesBack.modifyDirectory (h.writesBack_setCacheAt hc ?_ ?_ fun _ hfit => ?_) ?_
  · exact hlines
  · exact hdr.trans (.of_lines rfl rfl rfl rfl rfl (.refl _)) (.refl _)
  · -- the packet is held in a slot of the writeback range
    obtain ⟨slot', hslot, hget⟩ := Mshr.held_of_allocate hm hfit
    exact ⟨slot', hslot, p, hget, hop, haddr⟩
  · rw [directory_setCacheAt]
    exact Directory.extends_openEntry_stamp _ _ _ _

end Hierarchy

namespace Action

/-- Writing a way back stores its packet in the writeback range, if a slot is free, and
opens its transaction; it changes nothing when it stops. -/
theorem writeBack_writesBack (id index way now : Nat) (h₀ : Hierarchy) :
    ⦃fun h => ⌜h = h₀⌝⦄ Action.writeBack id index way now
    ⦃post⟨fun done h => ⌜h₀.WritesBack id index way done h⌝, fun _ h => ⌜h = h₀⌝⟩⦄ := by
  unfold Action.writeBack
  mvcgen [Action.cache, Action.directory, Action.ofExcept, Action.putCache,
    Action.updateDirectory, Action.fail]
  all_goals
    try dsimp +zetaDelta only at *
    subst_vars
  -- the writeback range is full, or a slot takes the packet
  all_goals first
    | exact Hierarchy.writesBack_of_full ‹_› ‹_›
    | exact Hierarchy.writesBack_of_slot ‹_› ‹_› rfl rfl _ _ _

end Action

/-! ## Flushing a set -/

/-- Dropping way `way` of set `index` of cache `id`, in a drain of `h₀` where that way still
holds the line it held in `h₀`: valid, on no locked line, with its writeback queued if it
needs one. -/
theorem Hierarchy.Drained.drop {h₀ h : Hierarchy} (hd : h₀.Drained h) {id index way : Nat}
    {c₀ c : Cache} (hc₀ : h₀.caches[id]? = some c₀) (hc : h.caches[id]? = some c)
    (hline : c.line index way = c₀.line index way) (hv : (c₀.line index way).status ≠ .i)
    (hu : h₀.directory.isLocked (c₀.line index way).tag = false)
    (hq : c₀.mshr.Fits → h₀.needWriteback c₀ (c₀.line index way).status = true →
      c.Queued (c₀.line index way).tag)
    (f : LineUsage → LineUsage) :
    h₀.Drained (h.modifyCache id fun c => (c.countUsage f).changeStatus index way .i) := by
  refine ⟨hd.directory, by rw [size_modifyCache]; exact hd.size, fun j c₀' c' hc₀' hc' => ?_⟩
  by_cases hj : j = id
  · subst hj
    rw [hc₀] at hc₀'
    cases hc₀'
    rw [caches_modifyCache_self hc] at hc'
    cases hc'
    have hcd := hd.caches j c₀ c hc₀ hc
    have hused : Cache.Drained h₀ c (c.countUsage f) := .of_lines rfl rfl rfl rfl rfl (.refl _)
    refine (hcd.trans hused (.refl _)).trans
      (Cache.drained_changeStatus h₀ (c.countUsage f) ?_ ?_ ?_) (.refl _)
    · exact hline ▸ hv
    · exact hline ▸ hu
    · intro hfit hw
      have hq' := hq
      rw [← hline, ← Hierarchy.needWriteback_congr (.refl _) hcd.lower] at hq'
      exact hq' (hcd.mshr.fits_back hfit) hw
  · rw [caches_modifyCache_of_ne h hj] at hc'
    exact hd.caches j c₀' c' hc₀' hc'

/-- Some way of set `index` of cache `id` of `h`, not among `ways`, holds a valid line on a
locked line. -/
def Hierarchy.LockedWay (h : Hierarchy) (id index : Nat) (ways : List Nat) : Prop :=
  ∃ c w, h.caches[id]? = some c ∧ w ∉ ways ∧ (c.line index w).status ≠ .i ∧
    h.directory.isLocked (c.line index w).tag = true

/-- A valid line on a locked line stays through a drain. -/
theorem Hierarchy.LockedWay.skip {h₀ h : Hierarchy} {id index way : Nat} {rest : List Nat}
    (hl : h₀.LockedWay id index (way :: rest)) (hd : h₀.Drained h) :
    h.LockedWay id index rest := by
  obtain ⟨c₀, w, hc₀, hw, hv, hlock⟩ := hl
  obtain ⟨c, hc, hcd⟩ := hd.exists_cache hc₀
  have hline := hcd.line_of_locked hlock
  refine ⟨c, w, hc, fun hmem => hw (List.mem_cons_of_mem way hmem), hline ▸ hv, ?_⟩
  rw [hline]
  exact hd.directory.isLocked hlock

/-- `h` is `h₀` with way `way` of set `index` of cache `id` invalid, after a drain of that
cache only. -/
structure Hierarchy.DropsWay (h₀ : Hierarchy) (id index way : Nat) (h : Hierarchy) : Prop where
  drained : h₀.Drained h
  others : h₀.SameBut id h
  invalid : ∀ c, h.caches[id]? = some c → (c.line index way).status = .i

namespace Hierarchy.DropsWay

variable {h₀ h₁ h : Hierarchy} {id index way : Nat}

/-- What flushing the ways after `way` adds to `way` being dropped. -/
theorem post (hw : h₀.DropsWay id index way h₁) {rest : List Nat} {clean r : Bool}
    (hd : h₁.Drained h) (hs : h₁.SameBut id h)
    (htrue : r = true → clean = true ∧
      ∀ c, h.caches[id]? = some c → ∀ w ∈ rest, (c.line index w).status = .i)
    (hfalse : r = false → ∃ c w, h.caches[id]? = some c ∧ (c.line index w).status ≠ .i) :
    h₀.Drained h ∧ h₀.SameBut id h ∧
      (r = true → clean = true ∧
        ∀ c, h.caches[id]? = some c → ∀ w ∈ way :: rest, (c.line index w).status = .i) ∧
      (r = false → ∃ c w, h.caches[id]? = some c ∧ (c.line index w).status ≠ .i) := by
  refine ⟨hw.drained.trans hd, hw.others.trans hs, fun hr => ⟨(htrue hr).1, ?_⟩, hfalse⟩
  intro c hc w hmem
  rcases List.mem_cons.1 hmem with rfl | hmem
  · -- the dropped way stays invalid
    obtain ⟨c₁, hc₁, hcd⟩ := hd.exists_pre hc
    rw [hcd.line_of_invalid (hw.invalid c₁ hc₁)]
    exact hw.invalid c₁ hc₁
  · exact (htrue hr).2 c hc w hmem

theorem post_error (hw : h₀.DropsWay id index way h₁) (hd : h₁.Drained h)
    (hs : h₁.SameBut id h) : h₀.Drained h ∧ h₀.SameBut id h :=
  ⟨hw.drained.trans hd, hw.others.trans hs⟩

end Hierarchy.DropsWay

/-- Dropping way `way` of set `index` of cache `id`, valid and on no locked line in `h₀`, from a
drain of `h₀` that changed no line of that cache and queued the way's writeback if it needs
one; the counters change too. -/
theorem Hierarchy.dropsWay_of_queued {h₀ h₁ : Hierarchy} {id index way : Nat} {c₀ : Cache}
    (hc₀ : h₀.caches[id]? = some c₀) (hv : (c₀.line index way).status ≠ .i)
    (hu : h₀.directory.isLocked (c₀.line index way).tag = false)
    (hd : h₀.Drained h₁) (hs : h₀.SameBut id h₁)
    (hlines : ∀ c, h₁.caches[id]? = some c → c.lines = c₀.lines)
    (hq : c₀.mshr.Fits → h₀.needWriteback c₀ (c₀.line index way).status = true →
      ∀ c, h₁.caches[id]? = some c → c.Queued (c₀.line index way).tag)
    (f : CacheStat → CacheStat) (g : DirectoryStat → DirectoryStat) (u : LineUsage → LineUsage) :
    h₀.DropsWay id index way (((h₁.modifyCache id (·.count f)).modifyDirectory (·.count g)).modifyCache
      id fun c => (c.countUsage u).changeStatus index way .i) := by
  obtain ⟨c₁, hc₁, -⟩ := hd.exists_cache hc₀
  -- the counters first: a drain that changes no line
  have hcount : h₀.Drained ((h₁.modifyCache id (·.count f)).modifyDirectory (·.count g)) :=
    (hd.trans (h₁.drained_modifyCache id fun c _ =>
      (.of_lines rfl rfl rfl rfl rfl (.refl _) : Cache.Drained h₁ c (c.count f)))).trans
      (drained_modifyDirectory _ (Directory.extends_count _ _))
  have hc₂ : ((h₁.modifyCache id (·.count f)).modifyDirectory (·.count g)).caches[id]? =
      some (c₁.count f) := by
    rw [caches_modifyDirectory, caches_modifyCache_self hc₁]
  have hline : (c₁.count f).line index way = c₀.line index way := by
    simp only [Cache.line, Cache.count, hlines c₁ hc₁]
  refine ⟨hcount.drop hc₀ hc₂ hline hv hu (fun hfit hw => hq hfit hw c₁ hc₁) u, fun j hj => ?_,
    fun c hc => ?_⟩
  · rw [caches_modifyCache_of_ne _ hj, caches_modifyDirectory, caches_modifyCache_of_ne _ hj]
    exact hs j hj
  · rw [caches_modifyCache_self hc₂] at hc
    cases hc
    have hw : way < (((c₁.count f).countUsage u).lines.getD index #[]).size :=
      Cache.lt_size_of_valid (hline ▸ hv)
    rw [Cache.changeStatus, Cache.line_modifyLine_self _ _ hw]

namespace Hierarchy

/-- An invalid way counts as dropped, with nothing changed. -/
theorem dropsWay_of_invalid {h : Hierarchy} {id index way : Nat} {c : Cache}
    (hc : h.caches[id]? = some c) (hi : ((c.line index way).status == .i) = true) :
    h.DropsWay id index way h := by
  refine ⟨.refl _, .refl _ _, fun c' hc' => ?_⟩
  rw [hc] at hc'
  cases hc'
  simpa using hi

/-- Dropping a way that needs no writeback. -/
theorem dropsWay_of_clean {h₀ : Hierarchy} {id index way : Nat} {c₀ : Cache}
    (hc₀ : h₀.caches[id]? = some c₀) (hv : ¬((c₀.line index way).status == .i) = true)
    (hu : ¬h₀.directory.isLocked (c₀.line index way).tag = true)
    (hn : ¬h₀.needWriteback c₀ (c₀.line index way).status = true)
    (f : CacheStat → CacheStat) (g : DirectoryStat → DirectoryStat) (u : LineUsage → LineUsage) :
    h₀.DropsWay id index way (((h₀.modifyCache id (·.count f)).modifyDirectory (·.count g)).modifyCache
      id fun c => (c.countUsage u).changeStatus index way .i) :=
  dropsWay_of_queued hc₀ (by simpa using hv) (by simpa using hu) (.refl _) (.refl _ _)
    (fun c hc => by rw [hc₀] at hc; cases hc; rfl) (fun _ hw => absurd hw hn) f g u

/-- Dropping a way after its writeback was queued. -/
theorem dropsWay_of_writesBack {h₀ h₁ : Hierarchy} {id index way : Nat}
    {c₀ : Cache} (hc₀ : h₀.caches[id]? = some c₀) (hv : ¬((c₀.line index way).status == .i) = true)
    (hu : ¬h₀.directory.isLocked (c₀.line index way).tag = true)
    (hw : h₀.WritesBack id index way true h₁)
    (f : CacheStat → CacheStat) (g : DirectoryStat → DirectoryStat) (u : LineUsage → LineUsage) :
    h₀.DropsWay id index way (((h₁.modifyCache id (·.count f)).modifyDirectory (·.count g)).modifyCache
      id fun c => (c.countUsage u).changeStatus index way .i) :=
  dropsWay_of_queued hc₀ (by simpa using hv) (by simpa using hu) hw.drained hw.others
    (fun c hc => hw.lines c₀ c hc₀ hc) (fun hfit _ c hc => hw.queued rfl c₀ c hc₀ hc hfit) f g u

/-- What the ways after `way` start from: a valid locked way other than `way` stays. -/
theorem DropsWay.pre {h₀ h : Hierarchy} {id index way : Nat} {rest : List Nat} {clean : Bool}
    (hw : h₀.DropsWay id index way h) (hl : clean = false → h₀.LockedWay id index (way :: rest)) :
    clean = false → h.LockedWay id index rest :=
  fun hc => (hl hc).skip hw.drained

/-- What flushing way `way` of set `index` of cache `id` leaves to the ways after it, from `h₀`
with the answer `clean` so far: the way dropped and the answer kept, or a valid way on a
locked line skipped, and the answer `false`. -/
def WayFlushed (h₀ : Hierarchy) (id index way : Nat) (clean : Bool) (h : Hierarchy)
    (clean' : Bool) : Prop :=
  (h₀.DropsWay id index way h ∧ clean' = clean) ∨
    (h = h₀ ∧ clean' = false ∧ ∃ c, h₀.caches[id]? = some c ∧
      ¬((c.line index way).status == .i) = true ∧ h₀.directory.isLocked (c.line index way).tag = true)

/-- A flush that stops at a writeback leaves the way valid, since a writeback changes no line:
the set is not flushed. -/
theorem WritesBack.unflushed {h₀ h : Hierarchy} {id index way : Nat} {done : Bool}
    (hw : h₀.WritesBack id index way done h) {c : Cache} (hc : h₀.caches[id]? = some c)
    (hv : ¬((c.line index way).status == .i) = true) {P : Prop} :
    h₀.Drained h ∧ h₀.SameBut id h ∧ (false = true → P) ∧
      ∃ c w, h.caches[id]? = some c ∧ (c.line index w).status ≠ .i := by
  obtain ⟨c', hc', -⟩ := hw.drained.exists_cache hc
  refine ⟨hw.drained, hw.others, fun h => absurd h Bool.false_ne_true, c', way, hc', ?_⟩
  simpa [Cache.line, hw.lines c c' hc hc'] using hv

end Hierarchy

namespace Action

/-- The ways after `way`, flushed from what flushing `way` left, flush the set from `h₀`. -/
theorem flushRest_drained {id index way : Nat} {rest : List Nat} (hnot : way ∉ rest)
    {clean : Bool} {h₀ : Hierarchy} (hl : clean = false → h₀.LockedWay id index (way :: rest))
    {flushRest : Bool → Action Bool}
    (ih : ∀ clean h₁, ⦃fun h => ⌜h = h₁ ∧ (clean = false → h₁.LockedWay id index rest)⌝⦄
      flushRest clean
      ⦃post⟨fun r h => ⌜h₁.Drained h ∧ h₁.SameBut id h ∧
          (r = true → clean = true ∧
            ∀ c, h.caches[id]? = some c → ∀ w ∈ rest, (c.line index w).status = .i) ∧
          (r = false → ∃ c w, h.caches[id]? = some c ∧ (c.line index w).status ≠ .i)⌝,
        fun _ h => ⌜h₁.Drained h ∧ h₁.SameBut id h⌝⟩⦄)
    (clean' : Bool) :
    ⦃fun h => ⌜h₀.WayFlushed id index way clean h clean'⌝⦄ flushRest clean'
    ⦃post⟨fun r h => ⌜h₀.Drained h ∧ h₀.SameBut id h ∧
        (r = true → clean = true ∧
          ∀ c, h.caches[id]? = some c → ∀ w ∈ way :: rest, (c.line index w).status = .i) ∧
        (r = false → ∃ c w, h.caches[id]? = some c ∧ (c.line index w).status ≠ .i)⌝,
      fun _ h => ⌜h₀.Drained h ∧ h₀.SameBut id h⌝⟩⦄ := by
  apply triple_of_pointwise
  rintro h₁ (⟨hw, rfl⟩ | ⟨hh, rfl, c, hc, hv, hlock⟩)
  · exact triple_conseq (ih clean' h₁) (fun _ hs => ⟨hs, hw.pre hl⟩)
      (fun _ _ ⟨hd, hs, htrue, hfalse⟩ => hw.post hd hs htrue hfalse)
      (fun _ _ ⟨hd, hs⟩ => hw.post_error hd hs)
  · -- a valid way on a locked line: the set is unclean, and the rest starts from `h₀`
    subst h₁
    have hlocked : h₀.LockedWay id index rest := ⟨c, way, hc, hnot, by simpa using hv, hlock⟩
    exact triple_conseq (ih false h₀) (fun _ hs => ⟨hs, fun _ => hlocked⟩)
      (fun _ _ ⟨hd, hs, htrue, hfalse⟩ =>
        ⟨hd, hs, fun hr => absurd (htrue hr).1 Bool.false_ne_true, hfalse⟩)
      (fun _ _ hds => hds)

/-- Flushing the ways `ways` of set `index` of cache `id` drains that cache only. An answer
`true` means the set was clean so far and these ways are all invalid now; an answer `false`
that a way of the set still holds a valid line. -/
theorem flushWays_drained (id index now : Nat) (ways : List Nat) (hways : ways.Nodup)
    (clean : Bool) (h₀ : Hierarchy) :
    ⦃fun h => ⌜h = h₀ ∧ (clean = false → h₀.LockedWay id index ways)⌝⦄
    Action.flushWays id index now ways clean
    ⦃post⟨fun r h => ⌜h₀.Drained h ∧ h₀.SameBut id h ∧
        (r = true → clean = true ∧
          ∀ c, h.caches[id]? = some c → ∀ w ∈ ways, (c.line index w).status = .i) ∧
        (r = false → ∃ c w, h.caches[id]? = some c ∧ (c.line index w).status ≠ .i)⌝,
      fun _ h => ⌜h₀.Drained h ∧ h₀.SameBut id h⌝⟩⦄ := by
  induction ways generalizing clean h₀ with
  | nil =>
    unfold Action.flushWays
    mvcgen
    rename_i s hpre
    obtain ⟨rfl, hlocked⟩ := hpre
    refine ⟨.refl _, .refl _ _, fun hc => ⟨hc, fun _ _ w hw => absurd hw List.not_mem_nil⟩,
      fun hc => ?_⟩
    obtain ⟨c, w, hc, -, hv, -⟩ := hlocked hc
    exact ⟨c, w, hc, hv⟩
  | cons way rest ih =>
    apply triple_of_pointwise
    rintro s ⟨hs, hl⟩
    subst s
    have hrest := flushRest_drained (List.nodup_cons.1 hways).1 hl
      (ih (List.nodup_cons.1 hways).2)
    have hwb := Action.writeBack_writesBack id index way now
    unfold Action.flushWays
    -- the rest of the ways and the writeback are calls whose only specs are these
    generalize Action.flushWays id index now rest = flushRest at hrest ⊢
    generalize Action.writeBack id index way now = wb at hwb ⊢
    mvcgen [Action.cache, Action.directory, Action.fail, Action.updateCache,
      Action.updateDirectory, hrest, hwb]
    all_goals
      try dsimp +zetaDelta only at *
      subst_vars
    -- the way is dropped (invalid, written back, or needing no writeback) or skipped on a locked
    -- line; a writeback may stop the flush, and a missing cache changes nothing
    all_goals first
      | exact .inl ⟨Hierarchy.dropsWay_of_invalid ‹_› ‹_›, rfl⟩
      | exact .inr ⟨rfl, rfl, _, ‹_›, ‹_›, ‹_›⟩
      | exact .inl ⟨Hierarchy.dropsWay_of_writesBack ‹_› ‹_› ‹_› ‹_› _ _ _, rfl⟩
      | exact .inl ⟨Hierarchy.dropsWay_of_clean ‹_› ‹_› ‹_› ‹_› _ _ _, rfl⟩
      | exact Hierarchy.WritesBack.unflushed ‹_› ‹_› ‹_›
      | exact ⟨.refl _, .refl _ _⟩
      | rintro rfl
        exact ⟨.refl _, .refl _ _⟩

end Action

end CacheHierarchy
