import Mathlib
import CacheHierarchy.Proofs.Workloads

set_option autoImplicit false

/-! # The born order of an MSHR

An MSHR keeps its occupied slots in born order (`Mshr.order`): by the birth cycles of their
packets, oldest first, and among packets born in the same cycle in the order they arrived. The
MSHR changes in five ways (`Mshr.Op`): a packet takes the lowest free slot of a range, the
packet of a slot is put back changed, every packet is changed in place, a slot is released,
and the packet of a slot is reborn at a later cycle, which makes it arrive again.

The arrival order is stored nowhere: it is the order of the changes that placed the slots. A
run of changes builds it alongside as a list of the occupied slots (`Mshr.arrivals`): a slot
goes to the end when a packet is stored in it or reborn there, and leaves the list when it is
released or reborn. `Mshr.Arrived m log` says what the born order is for such a list `log`: the
ranges lie within the slots, `log` holds the occupied slots once each, and the born order holds
the same slots, by birth cycle first and arrival second (`Mshr.Before`), the order of a key
and a sequence number that a stable sort follows.

A change keeps this invariant when it keeps the birth cycle of every packet it does not place
(`Mshr.Op.KeepsBorn`): a packet is put back only into an occupied slot, as old as the one it
replaces. So does every run of such changes (`Mshr.Arrived.run`), from the empty MSHR on. The
born order after any such run lists each occupied slot once, oldest first and in arrival order
among packets of one age, and counts as many entries as there are occupied slots.
-/

namespace CacheHierarchy

/-! ## Inserting after the last match -/

/-- Inserting `x` after the last element of `l` that satisfies `p` keeps a relation that holds
between any two elements of `l`, when the elements that satisfy `p` come first in `l`, each of
them is related to `x`, and `x` to each of the others. -/
theorem pairwise_insertAfterLast {α : Type} {R : α → α → Prop} {p : α → Bool} {x : α} :
    ∀ {l : List α}, l.Pairwise R → l.Pairwise (fun a b => p b = true → p a = true) →
      (∀ y ∈ l, p y = true → R y x) → (∀ y ∈ l, p y = false → R x y) →
      (insertAfterLast p x l).Pairwise R
  | [], _, _, _, _ => List.pairwise_singleton R x
  | y :: ys, hl, hp, hbefore, hafter => by
    rw [List.pairwise_cons] at hl hp
    unfold insertAfterLast
    split
    · rename_i hy
      -- `x` goes after `y`, which matches or comes before an element that does
      have hpy : p y = true := by
        rcases Bool.or_eq_true_iff.1 hy with hy | hy
        · exact hy
        · obtain ⟨z, hz, hpz⟩ := List.any_eq_true.1 hy
          exact hp.1 z hz hpz
      have hrest := pairwise_insertAfterLast hl.2 hp.2
        (fun z hz => hbefore z (List.mem_cons_of_mem y hz))
        (fun z hz => hafter z (List.mem_cons_of_mem y hz))
      refine List.pairwise_cons.2 ⟨fun z hz => ?_, hrest⟩
      rcases List.mem_cons.1 ((insertAfterLast_perm p x ys).mem_iff.1 hz) with rfl | hz
      · exact hbefore y List.mem_cons_self hpy
      · exact hl.1 z hz
    · rename_i hy
      -- no element matches: `x` goes first
      simp only [Bool.or_eq_true, List.any_eq_true, not_or, not_exists, not_and,
        Bool.not_eq_true] at hy
      have hnone : ∀ z ∈ y :: ys, p z = false := by
        intro z hz
        rcases List.mem_cons.1 hz with rfl | hz
        · exact hy.1
        · exact hy.2 z hz
      exact List.pairwise_cons.2 ⟨fun z hz => hafter z hz (hnone z hz),
        List.pairwise_cons.2 hl⟩

/-! ## Two slots in arrival order -/

theorem pair_sublist_filter {a b : Nat} {p : Nat → Bool} (ha : p a = true) (hb : p b = true)
    {l : List Nat} : [a, b].Sublist (l.filter p) ↔ [a, b].Sublist l := by
  refine ⟨fun h => h.trans List.filter_sublist, fun h => ?_⟩
  have hf := h.filter p
  simpa [List.filter, ha, hb] using hf

/-- A slot that arrives last comes after no other. -/
theorem pair_sublist_append_last {a x : Nat} {l : List Nat} (ha : a ∈ l) :
    [a, x].Sublist (l ++ [x]) :=
  (List.singleton_sublist.2 ha).append (List.Sublist.refl [x])

namespace Mshr

/-! ## Birth cycles and the born order -/

/-- The birth cycle of the packet in `slot`; a free slot reads as zero. -/
def bornAt (m : Mshr) (slot : Nat) : Nat := ((m.get? slot).map (·.born)).getD 0

/-- In the born order of `m`, slot `a` goes before slot `b`, given the occupied slots in arrival
order `log`: its packet is older, or as old and arrived first. -/
def Before (m : Mshr) (log : List Nat) (a b : Nat) : Prop :=
  m.bornAt a < m.bornAt b ∨ (m.bornAt a = m.bornAt b ∧ [a, b].Sublist log)

/-- The born order of `m`, given the occupied slots in arrival order `log`: the ranges lie within
the slots, `log` holds the occupied slots once each, and the born order holds the same slots,
by birth cycle and then by arrival. -/
structure Arrived (m : Mshr) (log : List Nat) : Prop where
  fits : m.Fits
  nodup : log.Nodup
  mem_log : ∀ s, s ∈ log ↔ (m.get? s).isSome
  perm : m.order.Perm log
  sorted : m.order.Pairwise (m.Before log)

theorem bornAt_of_get? {m : Mshr} {s : Nat} {q : Packet} (h : m.get? s = some q) :
    m.bornAt s = q.born := by
  simp [bornAt, h]

theorem get?_of_size_le {m : Mshr} {s : Nat} (h : m.slots.size ≤ s) : m.get? s = none := by
  simp [get?, Array.getElem?_eq_none h]

theorem lt_size_of_isSome {m : Mshr} {s : Nat} (h : (m.get? s).isSome) : s < m.slots.size := by
  by_contra hs
  rw [get?_of_size_le (Nat.le_of_not_lt hs)] at h
  cases h

/-- The MSHR `m` with one slot set and any born order: what each slot holds. -/
theorem get?_setSlot (m : Mshr) (slot : Nat) (x : Option Packet) (o : List Nat) (s : Nat) :
    ({ m with slots := m.slots.setIfInBounds slot x, order := o } : Mshr).get? s =
      if slot = s ∧ slot < m.slots.size then x else m.get? s :=
  get?_setIfInBounds m slot s x

theorem bornAt_setSlot (m : Mshr) (slot : Nat) (x : Option Packet) (o : List Nat) (s : Nat) :
    ({ m with slots := m.slots.setIfInBounds slot x, order := o } : Mshr).bornAt s =
      if slot = s ∧ slot < m.slots.size then (x.map (·.born)).getD 0 else m.bornAt s := by
  unfold bornAt
  rw [get?_setSlot]
  split <;> rfl

/-- A slot placed in the born order by `placeBorn` goes after the slots born no later than its
packet: the test `placeBorn` makes on an occupied slot. -/
theorem any_bornOf {m : Mshr} {s : Nat} (hs : (m.get? s).isSome) (b : Nat) :
    (m.bornOf s).any (· ≤ b) = decide (m.bornAt s ≤ b) := by
  obtain ⟨q, hq⟩ := Option.isSome_iff_exists.1 hs
  simp [bornOf, bornAt, hq]

theorem before_congr {m m' : Mshr} {log log' : List Nat} {a b : Nat}
    (ha : m'.bornAt a = m.bornAt a) (hb : m'.bornAt b = m.bornAt b)
    (hlog : [a, b].Sublist log → [a, b].Sublist log') (h : m.Before log a b) :
    m'.Before log' a b := by
  rcases h with hlt | ⟨heq, hsub⟩
  · exact .inl (by rw [ha, hb]; exact hlt)
  · exact .inr ⟨by rw [ha, hb]; exact heq, hlog hsub⟩

theorem Before.bornAt_le {m : Mshr} {log : List Nat} {a b : Nat} (h : m.Before log a b) :
    m.bornAt a ≤ m.bornAt b := by
  rcases h with hlt | ⟨heq, -⟩
  · exact hlt.le
  · exact heq.le

/-- What the born order of `m` is, given its occupied slots in arrival order `log`: it lists
each occupied slot once and no other, by birth cycle and, among packets born in one cycle, in
arrival order; and the MSHR counts as many packets as it has occupied slots. -/
structure BornOrdered (m : Mshr) (log : List Nat) : Prop where
  nodup : m.order.Nodup
  mem : ∀ s, s ∈ m.order ↔ (m.get? s).isSome
  sorted : m.order.Pairwise fun a b =>
    m.bornAt a ≤ m.bornAt b ∧ (m.bornAt a = m.bornAt b → [a, b].Sublist log)
  count : m.count = (List.range m.capacity).countP fun s => (m.get? s).isSome

namespace Arrived

variable {m : Mshr} {log : List Nat}

theorem nodup_order (h : m.Arrived log) : m.order.Nodup :=
  h.perm.nodup_iff.2 h.nodup

theorem mem_order (h : m.Arrived log) (s : Nat) : s ∈ m.order ↔ (m.get? s).isSome :=
  h.perm.mem_iff.trans (h.mem_log s)

/-- As many slots are in the born order as hold a packet. -/
theorem count_eq (h : m.Arrived log) :
    m.count = (List.range m.capacity).countP fun s => (m.get? s).isSome := by
  have hperm : m.order.Perm ((List.range m.capacity).filter fun s => (m.get? s).isSome) := by
    refine (List.perm_ext_iff_of_nodup h.nodup_order (List.nodup_range.filter _)).2 fun s => ?_
    rw [h.mem_order, List.mem_filter, List.mem_range]
    exact ⟨fun hs => ⟨lt_size_of_isSome hs, hs⟩, fun hs => hs.2⟩
  rw [count, hperm.length_eq, List.countP_eq_length_filter]

/-- The born order lists the slots by birth cycle, and those born in one cycle by arrival. -/
theorem sorted_born (h : m.Arrived log) :
    m.order.Pairwise fun a b =>
      m.bornAt a ≤ m.bornAt b ∧ (m.bornAt a = m.bornAt b → [a, b].Sublist log) := by
  refine h.sorted.imp fun {a b} hab => ⟨hab.bornAt_le, fun heq => ?_⟩
  rcases hab with hlt | ⟨-, hsub⟩
  · exact absurd heq (Nat.ne_of_lt hlt)
  · exact hsub

theorem bornOrdered (h : m.Arrived log) : m.BornOrdered log :=
  ⟨h.nodup_order, h.mem_order, h.sorted_born, h.count_eq⟩

/-- A change that keeps the slots in the born order, which slots are occupied and the birth
cycle in each, keeps the invariant. -/
theorem of_bornAt {m' : Mshr} (h : m.Arrived log) (hfits : m'.Fits) (horder : m'.order = m.order)
    (hocc : ∀ s, (m'.get? s).isSome = (m.get? s).isSome) (hborn : ∀ s, m'.bornAt s = m.bornAt s) :
    m'.Arrived log where
  fits := hfits
  nodup := h.nodup
  mem_log s := by rw [hocc]; exact h.mem_log s
  perm := horder ▸ h.perm
  sorted := horder ▸ h.sorted.imp fun hab => before_congr (hborn _) (hborn _) id hab

end Arrived

/-- Placing an occupied slot that is neither in the born order nor among the arrivals `log`,
in an MSHR whose born order is right for `log`: the born order is right for the arrivals with
the slot last. -/
theorem arrived_placeBorn {m : Mshr} {log : List Nat} {slot : Nat} {q : Packet}
    (hq : m.get? slot = some q) (hfits : m.Fits) (hnodup : log.Nodup)
    (hmem : ∀ s, s ∈ log ↔ (m.get? s).isSome ∧ s ≠ slot) (hperm : m.order.Perm log)
    (hsorted : m.order.Pairwise (m.Before log)) : (m.placeBorn slot).Arrived (log ++ [slot]) := by
  have hnot : slot ∉ log := fun hs => ((hmem slot).1 hs).2 rfl
  have hocc : ∀ s ∈ m.order, (m.get? s).isSome ∧ s ≠ slot := fun s hs =>
    (hmem s).1 (hperm.mem_iff.1 hs)
  have hborn : m.bornOf slot = some q.born := by simp [bornOf, hq]
  unfold placeBorn
  rw [hborn]
  refine ⟨hfits.of_size rfl rfl, List.nodup_append.2 ⟨hnodup, List.nodup_singleton slot,
    fun a ha b hb => by rw [List.mem_singleton.1 hb]; exact fun h => hnot (h ▸ ha)⟩,
    fun s => ?_, ?_, ?_⟩
  · -- the slot placed is the one occupied slot that was not among the arrivals
    show s ∈ log ++ [slot] ↔ (m.get? s).isSome
    rw [List.mem_append, hmem, List.mem_singleton]
    by_cases hs : s = slot
    · simp [hs, hq]
    · simp [hs]
  · exact (insertAfterLast_perm _ slot m.order).trans
      ((hperm.cons slot).trans (List.perm_append_singleton slot log).symm)
  · show (insertAfterLast _ slot m.order).Pairwise (m.Before (log ++ [slot]))
    have hslot : m.bornAt slot = q.born := bornAt_of_get? hq
    have hlog : ∀ {l : List Nat}, l.Sublist log → l.Sublist (log ++ [slot]) :=
      fun h => h.trans (List.sublist_append_left _ _)
    refine pairwise_insertAfterLast (hsorted.imp fun hab => before_congr rfl rfl hlog hab)
      ((hsorted.imp_of_mem fun {a b} ha hb hab => ?_)) (fun y hy hpy => ?_) (fun y hy hpy => ?_)
    · -- the slots born no later than the packet come first
      rw [any_bornOf (hocc a ha).1, any_bornOf (hocc b hb).1]
      simp only [decide_eq_true_eq]
      exact fun hle => (Before.bornAt_le hab).trans hle
    · rw [any_bornOf (hocc y hy).1, decide_eq_true_eq] at hpy
      rcases Nat.lt_or_eq_of_le hpy with hlt | heq
      · exact .inl (hslot ▸ hlt)
      · exact .inr ⟨hslot ▸ heq, pair_sublist_append_last (hperm.mem_iff.1 hy)⟩
    · rw [any_bornOf (hocc y hy).1, decide_eq_false_iff_not] at hpy
      exact .inl (hslot ▸ Nat.lt_of_not_le hpy)

/-! ## The changes of an MSHR -/

/-- A change of an MSHR. -/
inductive Op where
  /-- A packet takes the lowest free slot of a range, if there is one. -/
  | allocate (r : MshrRange) (p : Packet)
  /-- The packet of a slot is replaced. -/
  | put (slot : Nat) (p : Packet)
  /-- Every packet is changed in place. -/
  | mapPackets (f : Packet → Packet)
  /-- A slot is emptied. -/
  | release (slot : Nat)
  /-- The packet of a slot is born again at `now`. -/
  | rebirth (slot now : Nat)

namespace Op

/-- The MSHR after the change. -/
def apply : Op → Mshr → Mshr
  | allocate r p, m => ((m.allocate r p).map (·.2)).getD m
  | put slot p, m => m.put slot p
  | mapPackets f, m => m.mapPackets f
  | release slot, m => (m.release slot).2
  | rebirth slot now, m => m.rebirth slot now

/-- The occupied slots in arrival order after the change, from `log` before it: a packet stored
or reborn arrives last, and a slot released or reborn leaves its place. -/
def arrive : Op → Mshr → List Nat → List Nat
  | allocate r p, m, log => log ++ ((m.allocate r p).map (·.1)).toList
  | put _ _, _, log => log
  | mapPackets _, _, log => log
  | release slot, _, log => log.filter (· != slot)
  | rebirth slot _, m, log =>
    log.filter (· != slot) ++ if (m.get? slot).isSome then [slot] else []

/-- The change keeps the birth cycle of every packet it does not place: a packet is put back
only into an occupied slot, as old as the packet it replaces, and a change of every packet
keeps its age. -/
def KeepsBorn : Op → Mshr → Prop
  | put slot p, m => ∃ q, m.get? slot = some q ∧ q.born = p.born
  | mapPackets f, _ => ∀ p, (f p).born = p.born
  | allocate _ _, _ => True
  | release _, _ => True
  | rebirth _ _, _ => True

end Op

/-- The MSHR after the changes, in order. -/
def run : List Op → Mshr → Mshr
  | [], m => m
  | op :: ops, m => run ops (op.apply m)

/-- The occupied slots in arrival order after the changes, from `log` before them. -/
def arrivals : List Op → Mshr → List Nat → List Nat
  | [], _, log => log
  | op :: ops, m, log => arrivals ops (op.apply m) (op.arrive m log)

/-- Each change of the run keeps the birth cycles of the packets it does not place. -/
def KeepsBorn : List Op → Mshr → Prop
  | [], _ => True
  | op :: ops, m => op.KeepsBorn m ∧ KeepsBorn ops (op.apply m)

theorem run_append (ops ops' : List Op) (m : Mshr) :
    run (ops ++ ops') m = run ops' (run ops m) := by
  induction ops generalizing m with
  | nil => rfl
  | cons op ops ih => exact ih (op.apply m)

theorem keepsBorn_append {ops ops' : List Op} {m : Mshr} :
    KeepsBorn (ops ++ ops') m ↔ KeepsBorn ops m ∧ KeepsBorn ops' (run ops m) := by
  induction ops generalizing m with
  | nil => simp [KeepsBorn, run]
  | cons op ops ih => simp [KeepsBorn, run, ih, and_assoc]

/-! ## Each change keeps the born order -/

theorem allocate_eq_some {m m' : Mshr} {r : MshrRange} {p : Packet} {slot : Nat}
    (h : m.allocate r p = some (slot, m')) :
    slot ∈ m.range r ∧ m.get? slot = none ∧
      m' = placeBorn { m with slots := m.slots.setIfInBounds slot (some p) } slot := by
  obtain ⟨hr, hfree, -, -⟩ := allocate_spec h
  refine ⟨hr, hfree, ?_⟩
  unfold allocate at h
  split at h
  · cases h
  · obtain ⟨rfl, rfl⟩ := Prod.mk.inj (Option.some.inj h)
    rfl

namespace Arrived

variable {m : Mshr} {log : List Nat}

theorem allocate (h : m.Arrived log) (r : MshrRange) (p : Packet) :
    ((Op.allocate r p).apply m).Arrived ((Op.allocate r p).arrive m log) := by
  simp only [Op.apply, Op.arrive]
  cases halloc : m.allocate r p with
  | none => simpa using h
  | some x =>
    obtain ⟨slot, m'⟩ := x
    obtain ⟨hr, hfree, rfl⟩ := allocate_eq_some halloc
    have hlt : slot < m.slots.size := h.fits r slot hr
    -- the packet goes into the free slot, which is neither in the born order nor arrived
    refine arrived_placeBorn ((get?_setSlot ..).trans (if_pos ⟨rfl, hlt⟩))
      (h.fits.of_size (by simp) rfl) h.nodup (fun s => ?_) h.perm
      (h.sorted.imp_of_mem fun {a b} ha hb hab => before_congr ?_ ?_ id hab)
    · rw [h.mem_log, get?_setSlot]
      by_cases hs : slot = s
      · subst hs
        simp [hfree]
      · simp [hs, Ne.symm hs]
    · have ha' : slot ≠ a := by
        rintro rfl
        simp [h.mem_order, hfree] at ha
      rw [bornAt_setSlot, if_neg (fun hs => ha' hs.1)]
    · have hb' : slot ≠ b := by
        rintro rfl
        simp [h.mem_order, hfree] at hb
      rw [bornAt_setSlot, if_neg (fun hs => hb' hs.1)]

theorem put (h : m.Arrived log) {slot : Nat} {p q : Packet} (hq : m.get? slot = some q)
    (hborn : q.born = p.born) : (m.put slot p).Arrived log := by
  have hlt : slot < m.slots.size := lt_size_of_isSome (by simp [hq])
  refine h.of_bornAt (h.fits.of_size (by simp) rfl) rfl (fun s => ?_) (fun s => ?_)
  · rw [get?_put]
    by_cases hs : slot = s
    · subst hs
      simp [hq, hlt]
    · simp [hs]
  · unfold bornAt
    rw [get?_put]
    by_cases hs : slot = s
    · subst hs
      simp [hq, hlt, hborn]
    · simp [hs]

theorem mapPackets (h : m.Arrived log) {f : Packet → Packet} (hf : ∀ p, (f p).born = p.born) :
    (m.mapPackets f).Arrived log := by
  refine h.of_bornAt (h.fits.of_size (by simp [Mshr.mapPackets]) rfl) rfl (fun s => ?_)
    (fun s => ?_)
  · rw [get?_mapPackets]
    cases m.get? s <;> rfl
  · unfold bornAt
    rw [get?_mapPackets]
    cases m.get? s <;> simp [hf]

/-- Taking a slot out of the born order and the arrivals, and changing at most the packet of
that slot, keeps the other slots in order. -/
theorem sorted_filter (h : m.Arrived log) {m' : Mshr} {slot : Nat}
    (hborn : ∀ s, s ≠ slot → m'.bornAt s = m.bornAt s) :
    (m.order.filter (· != slot)).Pairwise (m'.Before (log.filter (· != slot))) := by
  refine (h.sorted.filter _).imp_of_mem fun {a b} ha hb hab => ?_
  have ha' : a ≠ slot := by simpa using (List.mem_filter.1 ha).2
  have hb' : b ≠ slot := by simpa using (List.mem_filter.1 hb).2
  exact before_congr (hborn a ha') (hborn b hb')
    (pair_sublist_filter (by simpa using ha') (by simpa using hb')).2 hab

theorem release (h : m.Arrived log) (slot : Nat) :
    (m.release slot).2.Arrived (log.filter (· != slot)) where
  fits := h.fits.of_size (by simp [Mshr.release]) rfl
  nodup := h.nodup.filter _
  mem_log s := by
    simp only [Mshr.release, List.mem_filter, h.mem_log, bne_iff_ne, ne_eq]
    rw [get?_setSlot]
    by_cases hs : slot = s
    · subst hs
      by_cases hlt : slot < m.slots.size
      · simp [hlt]
      · simp [hlt, get?_of_size_le (Nat.le_of_not_lt hlt)]
    · simp [hs, Ne.symm hs]
  perm := h.perm.filter _
  sorted := h.sorted_filter fun s hs => by
    simp only [Mshr.release]
    rw [bornAt_setSlot, if_neg (fun h => hs h.1.symm)]

theorem rebirth (h : m.Arrived log) (slot now : Nat) :
    (m.rebirth slot now).Arrived
      (log.filter (· != slot) ++ if (m.get? slot).isSome then [slot] else []) := by
  unfold Mshr.rebirth
  cases hq : m.get? slot with
  | none =>
    -- a free slot is in neither list, so nothing changes
    have hout : ∀ s ∈ log, (s != slot) = true := by
      intro s hs
      have hocc := (h.mem_log s).1 hs
      simp only [bne_iff_ne, ne_eq]
      rintro rfl
      simp [hq] at hocc
    have hout' : ∀ s ∈ m.order, (s != slot) = true := fun s hs => hout s (h.perm.mem_iff.1 hs)
    simp only [Option.isSome_none, Bool.false_eq_true, ↓reduceIte, List.append_nil]
    rw [List.filter_eq_self.2 hout, List.filter_eq_self.2 hout']
    exact h
  | some q =>
    simp only [Option.isSome_some, ↓reduceIte]
    have hlt : slot < m.slots.size := lt_size_of_isSome (by simp [hq])
    -- the reborn packet leaves both lists, then is placed again as a new arrival
    refine arrived_placeBorn ((get?_setSlot ..).trans (if_pos ⟨rfl, hlt⟩))
      (h.fits.of_size (by simp) rfl) (h.nodup.filter _) (fun s => ?_) (h.perm.filter _)
      (h.sorted_filter fun s hs => (bornAt_setSlot ..).trans (if_neg fun h => hs h.1.symm))
    rw [List.mem_filter, h.mem_log, get?_setSlot]
    by_cases hs : slot = s
    · subst hs
      simp [hq]
    · simp [hs, Ne.symm hs]

/-- A change that keeps the birth cycles of the packets it does not place keeps the born order
right for the arrivals. -/
theorem apply (h : m.Arrived log) :
    ∀ op : Op, op.KeepsBorn m → (op.apply m).Arrived (op.arrive m log)
  | .allocate r p, _ => h.allocate r p
  | .put _ _, ⟨_, hq, hborn⟩ => h.put hq hborn
  | .mapPackets _, hf => h.mapPackets hf
  | .release slot, _ => h.release slot
  | .rebirth slot now, _ => h.rebirth slot now

/-- So does every run of such changes. -/
theorem run : ∀ {m : Mshr} {log : List Nat}, m.Arrived log → ∀ ops : List Op, KeepsBorn ops m →
    (Mshr.run ops m).Arrived (arrivals ops m log)
  | _, _, h, [], _ => h
  | _, _, h, op :: ops, ⟨hop, hops⟩ => (h.apply op hop).run ops hops

end Arrived

/-! ## Runs between two MSHRs -/

/-- `m'` is `m` after a run of changes that keep the birth cycles of the packets they do not
place. -/
def Steps (m m' : Mshr) : Prop := ∃ ops, KeepsBorn ops m ∧ run ops m = m'

theorem Steps.refl (m : Mshr) : m.Steps m := ⟨[], trivial, rfl⟩

theorem Steps.trans {m₁ m₂ m₃ : Mshr} (h₁₂ : m₁.Steps m₂) (h₂₃ : m₂.Steps m₃) : m₁.Steps m₃ := by
  obtain ⟨ops, hk, rfl⟩ := h₁₂
  obtain ⟨ops', hk', rfl⟩ := h₂₃
  exact ⟨ops ++ ops', keepsBorn_append.2 ⟨hk, hk'⟩, run_append ops ops' m₁⟩

theorem Op.steps {op : Op} {m : Mshr} (h : op.KeepsBorn m) : m.Steps (op.apply m) :=
  ⟨[op], ⟨h, trivial⟩, rfl⟩

/-- Every packet of `m` is still in its slot in `m'`, as old as it was. -/
def Retains (m m' : Mshr) : Prop :=
  ∀ s q, m.get? s = some q → ∃ q', m'.get? s = some q' ∧ q'.born = q.born

theorem Retains.refl (m : Mshr) : m.Retains m := fun _ q hq => ⟨q, hq, rfl⟩

theorem Retains.trans {m₁ m₂ m₃ : Mshr} (h₁₂ : m₁.Retains m₂) (h₂₃ : m₂.Retains m₃) :
    m₁.Retains m₃ := by
  intro s q hq
  obtain ⟨q₂, hq₂, hb₂⟩ := h₁₂ s q hq
  obtain ⟨q₃, hq₃, hb₃⟩ := h₂₃ s q₂ hq₂
  exact ⟨q₃, hq₃, hb₃.trans hb₂⟩

/-- The changes a call on the directory makes to an MSHR: a run of changes that keep birth
cycles and leave every packet in its slot. -/
def Extends (m m' : Mshr) : Prop := m.Steps m' ∧ m.Retains m'

theorem Extends.refl (m : Mshr) : m.Extends m := ⟨.refl m, .refl m⟩

theorem Extends.trans {m₁ m₂ m₃ : Mshr} (h₁₂ : m₁.Extends m₂) (h₂₃ : m₂.Extends m₃) :
    m₁.Extends m₃ :=
  ⟨h₁₂.1.trans h₂₃.1, h₁₂.2.trans h₂₃.2⟩

/-- A packet that takes a free slot leaves the other packets where they are. -/
theorem extends_allocate {m m' : Mshr} {r : MshrRange} {p : Packet} {slot : Nat}
    (h : m.allocate r p = some (slot, m')) : m.Extends m' := by
  have hstep : m.Steps m' := by
    have := (Op.allocate r p).steps (m := m) trivial
    simpa [Op.apply, h] using this
  refine ⟨hstep, fun s q hq => ⟨q, ?_, rfl⟩⟩
  obtain ⟨-, hfree, hget, -⟩ := allocate_spec h
  rw [hget, if_neg]
  · exact hq
  · rintro ⟨rfl, -⟩
    rw [hfree] at hq
    cases hq

/-- Changing every packet in place, each keeping its age. -/
theorem extends_mapPackets (m : Mshr) {f : Packet → Packet} (hf : ∀ p, (f p).born = p.born) :
    m.Extends (m.mapPackets f) :=
  ⟨(Op.mapPackets f).steps hf, fun s q hq => ⟨f q, by rw [get?_mapPackets, hq]; rfl, hf q⟩⟩

/-- An empty MSHR holds no packet and has had no arrival. -/
theorem arrived_empty (r w p : Nat) : (empty r w p).Arrived [] where
  fits := fits_empty r w p
  nodup := List.nodup_nil
  mem_log s := by
    simp only [get?, empty, Array.getElem?_replicate, List.not_mem_nil, false_iff]
    split <;> simp
  perm := List.Perm.refl []
  sorted := List.Pairwise.nil

end Mshr

end CacheHierarchy
