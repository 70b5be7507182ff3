import Mathlib
import CacheHierarchy.Proofs.PinnedLines

set_option autoImplicit false

/-! # Answers walk down the chain of their transaction

A request that crosses cache levels stamps each cache it reaches with the next order of its
directory entry (`Entry.stamp`). The answer comes back the other way: the cache whose order is
the latest takes it, leaves the chain (`Entry.unstamp`) and hands the answer to the cache of
the order below; the first cache of the chain closes the entry and hands the answer, restored
to the operation, address and size the transaction started with, to the owner.

This module follows one entry `e` of a transaction whose owner is no cache, from a state in
which its chain is `c₁ … cₖ` (`Hierarchy.Unwinding`): `e` is the entry the directory finds for
the packets of the transaction, and each cache of the chain holds a way on its line. An answer
handed to the top of the chain leaves a state of the same kind with the chain one shorter
(`Action.run_answer_pass`), until the first cache delivers it (`Action.run_answer_deliver`);
an answer handed to a cache out of turn stops the machine (`Action.run_answer_out_of_order`).
So the answers handed to `cₖ`, …, `c₁` in turn all succeed, each doing what `Unwinds` says
(`answers_unwind_chain`).

The runs are computed outright, from one equation per primitive action (`Action.run_bind` and
the lemmas after it).
-/

namespace CacheHierarchy

/-! ## Runs of actions -/

namespace Action

theorem run_bind {α β : Type} (x : Action α) (f : α → Action β) (h : Hierarchy) :
    (x >>= f).run.run h = match x.run.run h with
      | (.ok a, h') => (f a).run.run h'
      | (.error e, h') => (.error e, h') := by
  simp only [ExceptT.run_bind, StateT.run_bind]
  rcases x.run.run h with ⟨_ | _, _⟩ <;> rfl

theorem run_directory (h : Hierarchy) : Action.directory.run.run h = (.ok h.directory, h) := rfl

theorem run_cache {h : Hierarchy} {c : Nat} {cache : Cache} (hc : h.caches[c]? = some cache) :
    (Action.cache c).run.run h = (.ok cache, h) := by
  unfold Action.cache
  simp only [run_bind]
  split
  · next a h' heq =>
    -- reading the state gives the state itself
    obtain ⟨⟩ : ((.ok h, h) : Except Fault Hierarchy × Hierarchy) = (.ok a, h') := heq
    simp only [hc]
    rfl
  · next e h' heq =>
    cases (heq : ((.ok h, h) : Except Fault Hierarchy × Hierarchy) = (.error e, h'))

theorem run_updateCache (h : Hierarchy) (c : Nat) (f : Cache → Cache) :
    (Action.updateCache c f).run.run h = (.ok (), h.modifyCache c f) := rfl

theorem run_updateDirectory (h : Hierarchy) (f : Directory → Directory) :
    (Action.updateDirectory f).run.run h = (.ok (), h.modifyDirectory f) := rfl

theorem run_putCache (h : Hierarchy) (c : Nat) (x : Cache) :
    (Action.putCache c x).run.run h = (.ok (), h.setCacheAt c x) := rfl

theorem run_modify (h : Hierarchy) (f : Hierarchy → Hierarchy) :
    (modify f : Action PUnit).run.run h = (.ok ⟨⟩, f h) := rfl

theorem run_fail {α : Type} (h : Hierarchy) (e : ProtocolError) :
    (Action.fail e : Action α).run.run h = (.error (.protocol e), h) := rfl

/-- A packet whose ready cycle is a word enters its phase. -/
theorem run_check_enter (h : Hierarchy) (p : Packet) (phase : Phase) {now stall : Nat}
    (hnow : now + stall < wordSize) :
    (Fault.check (p.enter phase now stall) : Action Packet).run.run h =
      (.ok { p with phase, ready := now + stall }, h) := by
  rw [Packet.enter_eq_ok p phase hnow]
  rfl

end Action

/-! ## Chains -/

namespace Entry

/-- The entry after cache `c` left the top of its chain. -/
def unstamp (e : Entry) (c : Nat) : Entry :=
  { e with requested := e.requested - 1, order := e.order.set c 0 }

/-- The entry as an answer leaves it, in the words of `Action.answer`. -/
theorem unstamp_def (e : Entry) (c : Nat) :
    ({ e with requested := e.requested - 1, order := e.order.set c 0 } : Entry) = e.unstamp c :=
  rfl

@[simp] theorem requested_unstamp (e : Entry) (c : Nat) :
    (e.unstamp c).requested = e.requested - 1 := rfl

@[simp] theorem owner_unstamp (e : Entry) (c : Nat) : (e.unstamp c).owner = e.owner := rfl

@[simp] theorem opcode_unstamp (e : Entry) (c : Nat) : (e.unstamp c).opcode = e.opcode := rfl

@[simp] theorem uop_unstamp (e : Entry) (c : Nat) : (e.unstamp c).uop = e.uop := rfl

@[simp] theorem op_unstamp (e : Entry) (c : Nat) : (e.unstamp c).op = e.op := rfl

@[simp] theorem addr_unstamp (e : Entry) (c : Nat) : (e.unstamp c).addr = e.addr := rfl

@[simp] theorem size_unstamp (e : Entry) (c : Nat) : (e.unstamp c).size = e.size := rfl

theorem orderOf_unstamp (e : Entry) (c j : Nat) :
    (e.unstamp c).orderOf j = if j = c then 0 else e.orderOf j := by
  by_cases hj : j = c
  · subst hj
    simp only [orderOf, unstamp, List.getD_eq_getElem?_getD, List.getElem?_set_self', if_true]
    cases e.order[j]? <;> rfl
  · simp only [orderOf, unstamp, List.getD_eq_getElem?_getD, List.getElem?_set_ne (Ne.symm hj),
      hj, if_false]

/-- The chain of `e` is `cs`, first cache first: the `i`-th cache of `cs` has order `i + 1`,
no other cache has an order, and the latest order is the length of `cs`. -/
structure HasChain (e : Entry) (cs : List Nat) : Prop where
  requested : e.requested = cs.length
  orderOf_mem : ∀ i (hi : i < cs.length), e.orderOf cs[i] = i + 1
  orderOf_not_mem : ∀ j, j ∉ cs → e.orderOf j = 0

namespace HasChain

variable {e : Entry} {cs : List Nat} {c : Nat}

/-- The cache on top of the chain has the latest order. -/
theorem orderOf_top (hch : e.HasChain (cs ++ [c])) : e.orderOf c = e.requested := by
  have htop := hch.orderOf_mem cs.length (by simp)
  rw [List.getElem_concat_length rfl] at htop
  rw [htop, hch.requested, List.length_append, List.length_singleton]

/-- The cache on top of the chain has no other place in it. -/
theorem top_not_mem (hch : e.HasChain (cs ++ [c])) : c ∉ cs := by
  intro hc
  obtain ⟨i, hi, rfl⟩ := List.getElem_of_mem hc
  have hlow := hch.orderOf_mem i (by simp; omega)
  rw [List.getElem_append_left hi, hch.orderOf_top, hch.requested] at hlow
  simp only [List.length_append, List.length_singleton, Nat.add_right_cancel_iff] at hlow
  omega

/-- Taking the top off the chain leaves the rest of it. -/
theorem unstamp (hch : e.HasChain (cs ++ [c])) : (e.unstamp c).HasChain cs where
  requested := by
    rw [requested_unstamp, hch.requested, List.length_append, List.length_singleton,
      Nat.add_sub_cancel]
  orderOf_mem i hi := by
    have hne : cs[i] ≠ c := fun h => hch.top_not_mem (h ▸ List.getElem_mem hi)
    rw [orderOf_unstamp, if_neg hne]
    have hold := hch.orderOf_mem i (by simp; omega)
    rwa [List.getElem_append_left hi] at hold
  orderOf_not_mem j hj := by
    rw [orderOf_unstamp]
    split
    · rfl
    · next hjc => exact hch.orderOf_not_mem j (by simp [hj, hjc])

/-- A cache with order `i + 1` is the `i`-th of the chain. -/
theorem eq_of_orderOf (hch : e.HasChain cs) {i j : Nat} (hi : i < cs.length)
    (hj : e.orderOf j = i + 1) : j = cs[i] := by
  by_cases hmem : j ∈ cs
  · obtain ⟨i', hi', rfl⟩ := List.getElem_of_mem hmem
    rw [hch.orderOf_mem i' hi'] at hj
    obtain rfl : i' = i := by omega
    rfl
  · rw [hch.orderOf_not_mem j hmem] at hj
    omega

/-- The requester of order `i + 1` is the `i`-th cache of the chain. -/
theorem requesterAt (hch : e.HasChain cs) {i : Nat} (hi : i < cs.length) :
    e.requesterAt (i + 1) = some cs[i] := by
  have hord := hch.orderOf_mem i hi
  -- a cache with an order is inside the order list
  have hbound : cs[i] < e.order.length := by
    by_contra hout
    rw [orderOf, List.getD_eq_getElem?_getD, List.getElem?_eq_none (by omega)] at hord
    simp at hord
  rw [orderOf, List.getD_eq_getElem?_getD, List.getElem?_eq_getElem hbound,
    Option.getD_some] at hord
  unfold Entry.requesterAt
  rw [List.findIdx?_eq_some_iff_getElem]
  refine ⟨hbound, by simp [hord], fun j hj hmatch => ?_⟩
  have hj' : e.orderOf j = i + 1 := by
    rw [orderOf, List.getD_eq_getElem?_getD, List.getElem?_eq_getElem (by omega),
      Option.getD_some]
    simpa using hmatch
  have := hch.eq_of_orderOf hi hj'
  omega

end HasChain

end Entry

namespace Directory

/-- Packet `p` is of the transaction of `e` (same owner, opcode and micro-op) and on its
line. -/
def Carries (d : Directory) (e : Entry) (p : Packet) : Prop :=
  e.hasTransaction p = true ∧ d.sameLine e.addr p.addr = true

/-- `e` is the entry at `k`, and no entry before it is of its transaction on its line: the
directory finds it for every packet of the transaction. -/
structure EntryAt (d : Directory) (k : Nat) (e : Entry) : Prop where
  get : d.entries[k]? = some e
  first : ∀ j e', j < k → d.entries[j]? = some e' → e'.owner = e.owner → e'.opcode = e.opcode →
    e'.uop = e.uop → d.sameLine e'.addr e.addr = false

theorem EntryAt.findEntry {d : Directory} {k : Nat} {e : Entry} {p : Packet} (he : d.EntryAt k e)
    (hp : d.Carries e p) : d.findEntry p = some k := by
  obtain ⟨hk, hke⟩ := List.getElem?_eq_some_iff.1 he.get
  obtain ⟨htr, hline⟩ := hp
  simp only [Entry.hasTransaction, Bool.and_eq_true, beq_iff_eq] at htr
  unfold Directory.findEntry
  rw [List.findIdx?_eq_some_iff_getElem]
  refine ⟨hk, by simp [hke, Entry.hasTransaction, htr, hline], fun j hj hmatch => ?_⟩
  simp only [Entry.hasTransaction, Bool.and_eq_true, beq_iff_eq] at hmatch
  obtain ⟨⟨⟨howner, hopcode⟩, huop⟩, hline'⟩ := hmatch
  -- an earlier entry of the transaction on the line would be found first
  have hsame : d.sameLine d.entries[j].addr e.addr = true := by
    rw [sameLine_iff] at hline hline' ⊢
    exact hline'.trans hline.symm
  have hfirst := he.first j _ (by omega) (List.getElem?_eq_getElem _)
    (howner.trans htr.1.1.symm) (hopcode.trans htr.1.2.symm) (huop.trans htr.2.symm)
  rw [hsame] at hfirst
  cases hfirst

/-- Once the top of the chain leaves it, the entry is still the one the directory finds. -/
theorem EntryAt.unstamp {d : Directory} {k : Nat} {e : Entry} (he : d.EntryAt k e) (c : Nat) :
    (d.modifyEntry k fun _ => e.unstamp c).EntryAt k (e.unstamp c) where
  get := by
    rw [entries_modifyEntry, List.getElem?_modify, he.get]
    simp
  first j e' hj he' := by
    have hkj : k ≠ j := by omega
    simp only [entries_modifyEntry, List.getElem?_modify, hkj, if_false, Option.map_eq_map,
      Option.map_id'] at he'
    exact he.first j e' hj he'

end Directory

/-! ## Lines -/

/-- The status a line takes when a read, fetch or prefetch is applied to it: an invalid line
becomes shared, any other keeps its status. -/
def Status.onRead : Status → Status
  | .i => .s
  | st => st

namespace Cache

/-- Cache `c` after a read, fetch or prefetch of its line at `i`, `w` at `now`: the line is
touched, and becomes shared if it was invalid. -/
def readAt (c : Cache) (i w now : Nat) : Cache :=
  if (c.line i w).status == .i then (c.touch i w now).changeStatus i w .s else c.touch i w now

@[simp] theorem findLine_updateWaiting (c : Cache) (addr : UInt64) (f : Packet → Packet)
    (a : UInt64) : (c.updateWaiting addr f).findLine a = c.findLine a := rfl

@[simp] theorem statusOf_updateWaiting (c : Cache) (addr : UInt64) (f : Packet → Packet)
    (a : UInt64) : (c.updateWaiting addr f).statusOf a = c.statusOf a := rfl

@[simp] theorem id_updateWaiting (c : Cache) (addr : UInt64) (f : Packet → Packet) :
    (c.updateWaiting addr f).id = c.id := rfl

@[simp] theorem penaltyWrite_updateWaiting (c : Cache) (addr : UInt64) (f : Packet → Packet) :
    (c.updateWaiting addr f).penaltyWrite = c.penaltyWrite := rfl

@[simp] theorem findLine_touch (c : Cache) (i w now : Nat) (a : UInt64) :
    (c.touch i w now).findLine a = c.findLine a :=
  findLine_congr (by simp) (by simp) a

theorem statusOf_touch (c : Cache) (i w now : Nat) (a : UInt64) :
    (c.touch i w now).statusOf a = c.statusOf a := by
  unfold statusOf
  rw [findLine_touch]
  split
  · next i' w' hf =>
    by_cases hpos : (i', w') = (i, w)
    · obtain ⟨rfl, rfl⟩ := Prod.mk.inj hpos
      rw [touch, line_modifyLine_self _ _ (findLine_bounds hf).2]
    · rw [touch, line_modifyLine_of_ne _ _ hpos]
  · rfl

theorem statusOf_readAt {c : Cache} {a : UInt64} {i w now : Nat}
    (hf : c.findLine a = some (i, w)) : (c.readAt i w now).statusOf a = (c.statusOf a).onRead := by
  have hst : c.statusOf a = (c.line i w).status := by rw [statusOf, hf]
  unfold readAt
  split
  · next hi =>
    rw [statusOf_changeStatus (by rw [findLine_touch, hf]) .s, hst,
      show (c.line i w).status = .i by simpa using hi]
    rfl
  · next hi =>
    rw [statusOf_touch, hst]
    cases hs : (c.line i w).status <;> simp [hs, Status.onRead] at hi ⊢

@[simp] theorem shape_readAt (c : Cache) (i w now : Nat) : (c.readAt i w now).shape = c.shape := by
  unfold readAt
  split <;> simp

@[simp] theorem tags_readAt (c : Cache) (i w now : Nat) : (c.readAt i w now).tags = c.tags := by
  unfold readAt
  split <;> simp

/-- Invalidating the copy of `addr` leaves the cache without a valid copy of it. -/
@[simp] theorem statusOf_invalidateCopy (c : Cache) (addr : UInt64) :
    (c.invalidateCopy addr).statusOf addr = .i := by
  unfold invalidateCopy
  split
  · next i w hf =>
    split
    · -- the copy was invalid already
      simpa [statusOf, hf] using ‹((c.line i w).status == .i) = true›
    · rw [statusOf_count]
      exact statusOf_changeStatus (by simpa using hf) .i
  · simp [statusOf, ‹c.findLine addr = none›]

end Cache

namespace Hierarchy

theorem caches_setCacheAt_self {h : Hierarchy} {id : Nat} (hid : id < h.caches.size) (c : Cache) :
    (h.setCacheAt id c).caches[id]? = some c := by
  simp [setCacheAt, hid]

theorem caches_setCacheAt_of_ne (h : Hierarchy) {id j : Nat} (hj : j ≠ id) (c : Cache) :
    (h.setCacheAt id c).caches[j]? = h.caches[j]? := by
  simp [setCacheAt, Ne.symm hj]

@[simp] theorem size_setCacheAt (h : Hierarchy) (id : Nat) (c : Cache) :
    (h.setCacheAt id c).caches.size = h.caches.size := by
  simp [setCacheAt]

@[simp] theorem size_modifyCache (h : Hierarchy) (id : Nat) (f : Cache → Cache) :
    (h.modifyCache id f).caches.size = h.caches.size := by
  simp [modifyCache]

@[simp] theorem size_invalidateOthers (h : Hierarchy) (id : Nat) (addr : UInt64) :
    (h.invalidateOthers id addr).caches.size = h.caches.size := by
  simp [invalidateOthers]

theorem caches_invalidateOthers (h : Hierarchy) (id : Nat) (addr : UInt64) (j : Nat) :
    (h.invalidateOthers id addr).caches[j]? =
      (h.caches[j]?).map fun c => if c.id == id then c else c.invalidateCopy addr := by
  simp [invalidateOthers, Array.getElem?_map]

/-- The state in which the answers of the transaction of `e` walk down its chain `cs`: `e` is
the entry at `k` that the directory finds for the transaction, its owner is no cache, its
operation is a core's (no writeback), each cache of the chain holds a way on its line, and the
caches read lines as the directory does, each in the slot of its id. -/
structure Unwinding (h : Hierarchy) (k : Nat) (e : Entry) (cs : List Nat) : Prop where
  entry : h.directory.EntryAt k e
  chain : e.HasChain cs
  owner : h.caches.size ≤ e.owner
  op : e.op ≠ .writeback
  holds : ∀ c ∈ cs, h.Holds c e.addr
  aligned : h.Aligned
  slotIds : h.SlotIds

namespace Unwinding

variable {h : Hierarchy} {k : Nat} {e : Entry} {cs : List Nat}

/-- A cache of the chain finds the line of every packet of the transaction where it finds
the line of the entry. -/
theorem findLine (hu : h.Unwinding k e cs) {c : Nat} (hmem : c ∈ cs) {cache : Cache}
    (hc : h.caches[c]? = some cache) {p : Packet} (hp : h.directory.Carries e p) :
    ∃ i w, cache.findLine e.addr = some (i, w) ∧ cache.findLine p.addr = some (i, w) := by
  obtain ⟨cache₀, hc₀, hfound⟩ := hu.holds c hmem
  obtain rfl : cache₀ = cache := Option.some.inj (hc₀.symm.trans hc)
  obtain ⟨⟨i, w⟩, hf⟩ := Option.isSome_iff_exists.1 hfound
  refine ⟨i, w, hf, ?_⟩
  rw [Cache.findLine_eq_of_lineMask (hu.aligned c cache₀ hc)
    ((h.directory.sameLine_iff _ _).1 hp.2).symm, hf]

/-- The owner of the transaction is none of the caches. -/
theorem owner_ne (hu : h.Unwinding k e cs) {c : Nat} {cache : Cache}
    (hc : h.caches[c]? = some cache) : (e.owner == c) = false := by
  have hlt := (Array.getElem?_eq_some_iff.1 hc).1
  have hle := hu.owner
  simp only [beq_eq_false_iff_ne, ne_eq]
  omega

theorem getD_entries (hu : h.Unwinding k e cs) : h.directory.entries.getD k default = e := by
  rw [List.getD_eq_getElem?_getD, hu.entry.get, Option.getD_some]

/-- Once the top `c` of the chain left it, with the shapes kept and the caches below untouched,
the answers walk down the rest of the chain. -/
theorem unstamp {h' : Hierarchy} {c : Nat} (hu : h.Unwinding k e (cs ++ [c]))
    (hs : h'.shapes = h.shapes) (hcaches : ∀ j, j ≠ c → h'.caches[j]? = h.caches[j]?)
    (hdir : h'.directory = h.directory.modifyEntry k fun _ => e.unstamp c) :
    h'.Unwinding k (e.unstamp c) cs where
  entry := hdir ▸ hu.entry.unstamp c
  chain := hu.chain.unstamp
  owner := by
    have hlen := congrArg (fun s => s.1.length) hs
    simp only [shapes, List.length_map, Array.length_toList] at hlen
    simpa [hlen] using hu.owner
  op := hu.op
  holds j hj := by
    have hjc : j ≠ c := fun h => hu.chain.top_not_mem (h ▸ hj)
    obtain ⟨cache, hc, hfound⟩ := hu.holds j (List.mem_append_left _ hj)
    exact ⟨cache, (hcaches j hjc).trans hc, hfound⟩
  aligned := hu.aligned.of_shapes hs
  slotIds := hu.slotIds.of_shapes hs

end Unwinding

end Hierarchy

namespace Action

open Hierarchy

/-- A read, fetch or prefetch answered at cache `c` touches the line it finds, and makes it
shared if it was invalid. -/
theorem run_answerOperation_read {h : Hierarchy} {c : Nat} {cache : Cache} {q : Packet}
    {i w now : Nat} (hc : h.caches[c]? = some cache) (hf : cache.findLine q.addr = some (i, w))
    (hq : q.op.isRead = true) :
    (Action.answerOperation c q now).run.run h =
      (.ok (), h.setCacheAt c (cache.readAt i w now)) := by
  unfold answerOperation
  rw [run_bind, run_cache hc]
  simp only [hf]
  unfold applyOperation
  rw [run_bind, run_cache hc]
  cases hop : q.op with
  | read | inst | prefetch => rfl
  | write | writeback => simp [hop, Operation.isRead] at hq

/-- A write answered at cache `c` invalidates every other copy, then touches the line it finds
and makes it modified. -/
theorem run_answerOperation_write {h : Hierarchy} {c : Nat} {cache : Cache} {q : Packet}
    {i w now : Nat} (hc : h.caches[c]? = some cache) (hid : cache.id = c)
    (hf : cache.findLine q.addr = some (i, w)) (hq : q.op = .write) :
    (Action.answerOperation c q now).run.run h =
      (.ok (), (h.invalidateOthers c q.addr).setCacheAt c
        ((cache.touch i w now).changeStatus i w .m)) := by
  have hc' : (h.invalidateOthers c q.addr).caches[c]? = some cache := by
    simp [caches_invalidateOthers, hc, hid]
  unfold answerOperation
  rw [run_bind, run_cache hc]
  simp only [hf]
  unfold applyOperation
  rw [run_bind, run_cache hc]
  simp only [hq, run_bind, run_modify, run_cache hc']
  rfl

/-- An answer handed to the top `c` of a chain `cs ++ [c]` with caches below it: `c` leaves the
chain, its line turns from invalid to shared, and the answer goes on to the cache below, the
last of `cs`. The state is again one in which the answers walk down the chain, now `cs`. -/
theorem run_answer_pass {h : Hierarchy} {k : Nat} {e : Entry} {cs : List Nat} {c : Nat}
    {cache : Cache} {p : Packet} {now : Nat} (hu : h.Unwinding k e (cs ++ [c])) (hne : cs ≠ [])
    (hc : h.caches[c]? = some cache) (hp : h.directory.Carries e p) (hread : p.op.isRead = true)
    (hnow : now + cache.penaltyWrite < wordSize) :
    ∃ h', (Action.answer c p now).run.run h =
        (.ok { p with src := c, dst := cs.getLast hne, phase := .transmit,
                      ready := now + cache.penaltyWrite }, h') ∧
      h'.Unwinding k (e.unstamp c) cs ∧
      (h'.directory.entries[k]?).map Entry.requested = some cs.length ∧
      (∃ cache', h'.caches[c]? = some cache' ∧
        cache'.statusOf e.addr = (cache.statusOf e.addr).onRead) ∧
      h'.directory = h.directory.modifyEntry k (fun _ => e.unstamp c) ∧
      ∀ j, j ≠ c → h'.caches[j]? = h.caches[j]? := by
  obtain ⟨i, w, hfe, hfp⟩ := hu.findLine (by simp) hc hp
  have hchain := hu.chain.unstamp
  have hord : (e.orderOf c != e.requested) = false := by simp [hu.chain.orderOf_top]
  have hlen : cs.length ≠ 0 := by simpa using hne
  have hzero : (e.requested - 1 == 0) = false := by
    simpa [hu.chain.requested] using hlen
  have hnext : (e.unstamp c).requesterAt (e.requested - 1) = some (cs.getLast hne) := by
    have hreq : e.requested - 1 = cs.length - 1 + 1 := by
      rw [← Entry.requested_unstamp e c, hchain.requested]
      omega
    rw [hreq, hchain.requesterAt (by omega), List.getLast_eq_getElem hne]
  simp only [Action.answer, run_bind, run_directory, hu.entry.findEntry hp, run_updateCache,
    run_cache (caches_modifyCache_self hc _), hu.getD_entries, hu.owner_ne hc, hord,
    Bool.false_eq_true, ↓reduceIte, run_updateDirectory, Entry.unstamp_def, hzero, hnext]
  have hlt : c < h.caches.size := (Array.getElem?_eq_some_iff.1 hc).1
  rw [run_answerOperation_read ?hc ?hf (q := p.route c (cs.getLast hne)) hread]
  case hc =>
    rw [caches_modifyDirectory]
    exact caches_modifyCache_self hc _
  case hf => exact hfp
  simp only [Cache.penaltyWrite_updateWaiting, run_check_enter _ _ _ hnow]
  -- the caches below the top keep their lines, and the entry is the same but for the top
  refine ⟨_, rfl, hu.unstamp ?_ ?others (by simp), ?_,
    ⟨_, caches_setCacheAt_self (by simpa using hlt) _, ?_⟩, by simp, ?others⟩
  case others =>
    intro j hj
    rw [caches_setCacheAt_of_ne _ hj, caches_modifyDirectory, caches_modifyCache_of_ne _ hj]
  · rw [shapes_setCacheAt _ _ _ fun c₀ hc₀ => ?_, shapes_modifyDirectory _ _ rfl,
      shapes_modifyCache _ _ _ fun _ => Cache.shape_updateWaiting _ _ _]
    rw [caches_modifyDirectory, caches_modifyCache_self hc] at hc₀
    cases hc₀
    simp
  · simp [Directory.entries_modifyEntry, hu.entry.get, hu.chain.requested]
  · rw [Cache.statusOf_readAt (by rw [Cache.findLine_updateWaiting]; exact hfe),
      Cache.statusOf_updateWaiting]

/-- An answer handed to a cache whose order is not the latest of the chain stops the machine
with `wrongRequestOrder`, naming the order found and the one expected. -/
theorem run_answer_out_of_order {h : Hierarchy} {k : Nat} {e : Entry} {cs : List Nat} {c : Nat}
    {cache : Cache} {p : Packet} {now : Nat} (hu : h.Unwinding k e cs)
    (hc : h.caches[c]? = some cache) (hp : h.directory.Carries e p)
    (hord : e.orderOf c ≠ e.requested) :
    ((Action.answer c p now).run.run h).1 =
      .error (.protocol (.wrongRequestOrder c (e.orderOf c) e.requested)) := by
  have hord' : (e.orderOf c != e.requested) = true := by simpa using hord
  simp only [Action.answer, run_bind, run_directory, hu.entry.findEntry hp, run_updateCache,
    run_cache (caches_modifyCache_self hc _), hu.getD_entries, hu.owner_ne hc, hord',
    Bool.false_eq_true, ↓reduceIte, run_fail]

/-- An answer handed to the first and only cache `c` of the chain: the entry is closed, and the
answer, restored to the operation, address and size the transaction started with, goes to the
owner, done at once for a write. The operation is applied to the line at `c`: a write makes it
modified and every other copy invalid, anything else makes an invalid line shared and leaves
the other caches as they were. -/
theorem run_answer_deliver {h : Hierarchy} {k : Nat} {e : Entry} {c : Nat} {cache : Cache}
    {p : Packet} {now : Nat} (hu : h.Unwinding k e [c]) (hc : h.caches[c]? = some cache)
    (hp : h.directory.Carries e p) (hnow : now + cache.penaltyWrite < wordSize) :
    ∃ h', (Action.answer c p now).run.run h =
        (.ok { p with src := c, dst := e.owner, op := e.op, addr := e.addr, size := e.size,
                      phase := if e.op = .write then .ready else .transmit,
                      ready := now + cache.penaltyWrite }, h') ∧
      h'.directory.entries = h.directory.entries.eraseIdx k ∧
      (∃ cache', h'.caches[c]? = some cache' ∧
        cache'.statusOf e.addr = if e.op = .write then .m else (cache.statusOf e.addr).onRead) ∧
      (e.op = .write → ∀ j, j ≠ c → h'.Cleared j e.addr) ∧
      (e.op ≠ .write → ∀ j, j ≠ c → h'.caches[j]? = h.caches[j]?) := by
  obtain ⟨i, w, hfe, -⟩ := hu.findLine (List.mem_singleton_self c) hc hp
  have hchain : e.HasChain ([] ++ [c]) := hu.chain
  have hord : (e.orderOf c != e.requested) = false := by simp [hchain.orderOf_top]
  have hzero : (e.requested - 1 == 0) = true := by simp [hu.chain.requested]
  have hlt : c < h.caches.size := (Array.getElem?_eq_some_iff.1 hc).1
  have hentries : ((h.directory.modifyEntry k fun _ => e.unstamp c).close k).entries =
      h.directory.entries.eraseIdx k := by
    rw [Directory.entries_close, Directory.entries_modifyEntry, List.eraseIdx_modify_of_eq]
  simp only [Action.answer, run_bind, run_directory, hu.entry.findEntry hp, run_updateCache,
    run_cache (caches_modifyCache_self hc _), hu.getD_entries, hu.owner_ne hc, hord,
    Bool.false_eq_true, ↓reduceIte, run_updateDirectory, Entry.unstamp_def, hzero]
  by_cases hw : e.op = .write
  · -- a write: every other copy is invalidated, and the line at `c` becomes modified
    rw [run_answerOperation_write ?hc ?hid ?hf hw]
    case hc =>
      rw [caches_modifyDirectory, caches_modifyDirectory]
      exact caches_modifyCache_self hc _
    case hid => exact hu.slotIds c cache hc
    case hf => exact hfe
    simp only [hw, beq_self_eq_true, ↓reduceIte, Cache.penaltyWrite_updateWaiting,
      run_check_enter _ _ _ hnow]
    refine ⟨_, rfl, by simpa using hentries, ⟨_, caches_setCacheAt_self (by simpa using hlt) _,
      Cache.statusOf_changeStatus (by simpa using hfe) .m⟩, fun _ j hj cj hcj => ?_, by simp⟩
    rw [caches_setCacheAt_of_ne _ hj, caches_invalidateOthers, caches_modifyDirectory,
      caches_modifyDirectory, caches_modifyCache_of_ne _ hj] at hcj
    obtain ⟨c₀, hc₀, rfl⟩ := Option.map_eq_some_iff.1 hcj
    have hid : (c₀.id == c) = false := by
      simpa [hu.slotIds j c₀ hc₀] using hj
    simp [hid]
  · -- a read, fetch or prefetch: the line at `c` becomes shared if it was invalid
    have hread : e.op.isRead = true := by
      cases hop : e.op <;> simp_all [Operation.isRead, hu.op]
    have hbeq : (e.op == .write) = false := by simpa using hw
    rw [run_answerOperation_read ?hc ?hf (q := { p.route c e.owner with
      op := e.op, addr := e.addr, size := e.size }) hread]
    case hc =>
      rw [caches_modifyDirectory, caches_modifyDirectory]
      exact caches_modifyCache_self hc _
    case hf => exact hfe
    simp only [hbeq, hw, Bool.false_eq_true, ↓reduceIte, Cache.penaltyWrite_updateWaiting,
      run_check_enter _ _ _ hnow]
    refine ⟨_, rfl, by simpa using hentries, ⟨_, caches_setCacheAt_self (by simpa using hlt) _,
      ?_⟩, by simp, fun _ j hj => ?_⟩
    · rw [Cache.statusOf_readAt (by simpa using hfe), Cache.statusOf_updateWaiting]
    · rw [caches_setCacheAt_of_ne _ hj, caches_modifyDirectory, caches_modifyDirectory,
        caches_modifyCache_of_ne _ hj]

end Action

/-! ## The whole chain -/

/-- At `h`, an answer of the transaction of `e` handed to a cache whose order is not the latest
of the chain stops the machine with `wrongRequestOrder`, naming the order found and the one
expected. -/
def Hierarchy.RefusesOutOfOrder (h : Hierarchy) (e : Entry) : Prop :=
  ∀ c cache p now, h.caches[c]? = some cache → h.directory.Carries e p →
    e.orderOf c ≠ e.requested →
    ((Action.answer c p now).run.run h).1 =
      .error (.protocol (.wrongRequestOrder c (e.orderOf c) e.requested))

/-- What the answers `calls` (each a packet and the cycle it is handed at) do when they are
handed in turn to the caches of the chain `cs` of the entry `e` at `k`, the top first, from `h`
on. At every step an answer handed to a cache out of turn is refused. The top of a longer chain
takes the answer, leaves the chain, shares its line and passes the answer on to the cache
below; the first cache closes the entry, applies the operation the transaction started with,
and hands the answer, restored, to the owner. -/
inductive Unwinds (k : Nat) : Entry → Hierarchy → List Nat → List (Packet × Nat) → Prop
  | deliver {e : Entry} {h h' : Hierarchy} {c : Nat} {cache : Cache} {p : Packet} {now : Nat} :
      h.RefusesOutOfOrder e →
      h.caches[c]? = some cache →
      (Action.answer c p now).run.run h =
        (.ok { p with src := c, dst := e.owner, op := e.op, addr := e.addr, size := e.size,
                      phase := if e.op = .write then .ready else .transmit,
                      ready := now + cache.penaltyWrite }, h') →
      h'.directory.entries = h.directory.entries.eraseIdx k →
      (∃ cache', h'.caches[c]? = some cache' ∧
        cache'.statusOf e.addr = if e.op = .write then .m else (cache.statusOf e.addr).onRead) →
      (e.op = .write → ∀ j, j ≠ c → h'.Cleared j e.addr) →
      Unwinds k e h [c] [(p, now)]
  | pass {e : Entry} {h h' : Hierarchy} {cs : List Nat} {c : Nat} {cache : Cache} {p : Packet}
      {now : Nat} {calls : List (Packet × Nat)} (hne : cs ≠ []) :
      h.RefusesOutOfOrder e →
      h.caches[c]? = some cache →
      (Action.answer c p now).run.run h =
        (.ok { p with src := c, dst := cs.getLast hne, phase := .transmit,
                      ready := now + cache.penaltyWrite }, h') →
      (h'.directory.entries[k]?).map Entry.requested = some cs.length →
      (∃ cache', h'.caches[c]? = some cache' ∧
        cache'.statusOf e.addr = (cache.statusOf e.addr).onRead) →
      Unwinds k (e.unstamp c) h' cs calls →
      Unwinds k e h (cs ++ [c]) ((p, now) :: calls)

/-- Answers walk down the chain in the reverse order of the requests. From a state in which the
transaction of `e`, owned by no cache, has the chain `cs`, the answers handed in turn to the
caches of `cs`, the top first, each a read, fetch or prefetch of the transaction on its line at
a cycle that leaves room for the cache's write penalty, all succeed and do what `Unwinds`
says. -/
theorem answers_unwind_chain {h : Hierarchy} {k : Nat} {e : Entry} {cs : List Nat}
    {calls : List (Packet × Nat)} (hu : h.Unwinding k e cs) (hcs : cs ≠ [])
    (hlen : calls.length = cs.length)
    (hcalls : ∀ q ∈ calls, h.directory.Carries e q.1 ∧ q.1.op.isRead = true)
    (hnow : ∀ q ∈ calls, ∀ c ∈ cs, ∀ cache, h.caches[c]? = some cache →
      q.2 + cache.penaltyWrite < wordSize) :
    Unwinds k e h cs calls := by
  -- the induction is on the answers; each one takes the top off the chain
  induction calls generalizing h e cs with
  | nil => exact absurd (List.length_eq_zero_iff.1 hlen.symm) hcs
  | cons call calls ih =>
    obtain ⟨p, now⟩ := call
    obtain ⟨cs, c, rfl⟩ : ∃ cs' c, cs = cs' ++ [c] := by
      rcases List.eq_nil_or_concat cs with hnil | ⟨cs', c, hcs'⟩
      · exact absurd hnil hcs
      · exact ⟨cs', c, by simpa using hcs'⟩
    obtain ⟨cache, hc, -⟩ := hu.holds c (by simp)
    obtain ⟨hp, hread⟩ := hcalls (p, now) List.mem_cons_self
    have hpen := hnow (p, now) List.mem_cons_self c (by simp) cache hc
    have hrefuse : h.RefusesOutOfOrder e := fun _ _ _ _ hc' hp' hord =>
      Action.run_answer_out_of_order hu hc' hp' hord
    by_cases hnil : cs = []
    · -- the first cache of the chain delivers the last answer
      subst hnil
      obtain rfl : calls = [] := by simpa using hlen
      obtain ⟨h', hrun, hentries, hstatus, hcleared, -⟩ := Action.run_answer_deliver hu hc hp hpen
      exact .deliver hrefuse hc hrun hentries hstatus hcleared
    · obtain ⟨h', hrun, hu', hreq, hstatus, hdir, hothers⟩ :=
        Action.run_answer_pass hu hnil hc hp hread hpen
      have htop := hu.chain.top_not_mem
      refine .pass hnil hrefuse hc hrun hreq hstatus (ih hu' hnil (by simpa using hlen) ?_ ?_)
      · -- the later answers are still of the transaction: the line size is kept
        intro q hq
        obtain ⟨hcarry, hqread⟩ := hcalls q (List.mem_cons_of_mem _ hq)
        rw [hdir]
        exact ⟨hcarry, hqread⟩
      · -- the caches below the top are untouched
        intro q hq c' hc' cache' hcache'
        have hne : c' ≠ c := fun h => htop (h ▸ hc')
        rw [hothers c' hne] at hcache'
        exact hnow q (List.mem_cons_of_mem _ hq) c' (List.mem_append_left _ hc') cache' hcache'

/-- A cache with the address map of no layout reads each address as its own line, in a single
set, as a directory with lines of one byte does. -/
theorem Cache.Shape.aligned_of_default_fields {s : Cache.Shape} (hs : s.fields = default) :
    s.Aligned (default : Directory).lineMask where
  sameLine_iff a b := by
    have hones : (BitField.mk (default : AddressMap).offset.hi 64).ones =
        (default : Directory).lineMask := by decide
    simp [hs, AddressMap.sameLine, AddressMap.lineOf, BitField.keep, hones]
  indexOf_eq a b _ := by
    have hzero : (default : AddressMap).index.ones = 0 := by decide
    simp [hs, AddressMap.indexOf, BitField.read, BitField.keep, hzero]

/-- Two caches, each with one way holding the line of address 64, and a read of a core (owner
9) that went through cache 0 then cache 1. The two answers, handed to cache 1 then cache 0,
walk down the chain. -/
theorem answers_unwind_two_caches :
    let lines : TagArray := #[#[{ tag := 64 }]]
    let e : Entry := { owner := 9, opcode := 3, pc := 0, uop := 0, lock := .read,
                       order := [1, 2], requested := 2, op := .read, addr := 64, size := 8,
                       born := 0 }
    let h : Hierarchy := ⟨#[{ (default : Cache) with lines }, { (default : Cache) with id := 1, lines }],
      { (default : Directory) with entries := [e] }⟩
    let p : Packet := { owner := 9, opcode := 3, uop := 0, addr := 64, op := .read, isAnswer := true }
    let calls : List (Packet × Nat) := [(p, 10), (p, 20)]
    h.Unwinding 0 e [0, 1] ∧ calls.length = [0, 1].length ∧
      (∀ q ∈ calls, h.directory.Carries e q.1 ∧ q.1.op.isRead = true) ∧
      (∀ q ∈ calls, ∀ c ∈ [0, 1], ∀ cache, h.caches[c]? = some cache →
        q.2 + cache.penaltyWrite < wordSize) ∧
      Unwinds 0 e h [0, 1] calls := by
  intro lines e h p calls
  have hu : h.Unwinding 0 e [0, 1] := {
    entry := ⟨rfl, fun j _ hj => absurd hj (Nat.not_lt_zero j)⟩
    chain := {
      requested := rfl
      orderOf_mem := fun i hi => by
        simp only [List.length_cons, List.length_nil] at hi
        interval_cases i <;> rfl
      orderOf_not_mem := fun j hj => by
        rcases j with _ | _ | j
        · simp at hj
        · simp at hj
        · simp [e, Entry.orderOf] }
    owner := by decide
    op := by decide
    holds := fun c hc => by
      simp only [List.mem_cons, List.not_mem_nil, or_false] at hc
      rcases hc with rfl | rfl
      · exact ⟨_, rfl, by decide +kernel⟩
      · exact ⟨_, rfl, by decide +kernel⟩
    aligned := fun i c hc => by
      rcases i with _ | _ | i
      · cases hc
        exact Cache.Shape.aligned_of_default_fields rfl
      · cases hc
        exact Cache.Shape.aligned_of_default_fields rfl
      · simp [h] at hc
    slotIds := fun i c hc => by
      rcases i with _ | _ | i
      · cases hc
        rfl
      · cases hc
        rfl
      · simp [h] at hc }
  have hcalls : ∀ q ∈ calls, h.directory.Carries e q.1 ∧ q.1.op.isRead = true := by
    intro q hq
    simp only [calls, List.mem_cons, List.not_mem_nil, or_false] at hq
    rcases hq with rfl | rfl <;> exact ⟨⟨rfl, by decide +kernel⟩, rfl⟩
  have hnow : ∀ q ∈ calls, ∀ c ∈ [0, 1], ∀ cache, h.caches[c]? = some cache →
      q.2 + cache.penaltyWrite < wordSize := by
    intro q hq c hc cache hcache
    simp only [calls, List.mem_cons, List.not_mem_nil, or_false] at hq hc
    rcases hc with rfl | rfl <;> cases hcache <;> rcases hq with rfl | rfl <;> decide
  exact ⟨hu, rfl, hcalls, hnow, answers_unwind_chain hu (by simp) rfl hcalls hnow⟩

end CacheHierarchy
