import Mathlib
import CacheHierarchy.Proofs.MachineRuns

open Std.Do

set_option autoImplicit false
set_option mvcgen.warning false

/-! # The next-line prefetch at the top of the address space

The stride table computes its addresses with wrap-around arithmetic, but the next-line
prefetcher does not: an access at most one line after the previous one asks for the line
after it, `addr + lineSize`, and that sum must be a word. So an access within one line of the
top of the address space stops a stride prefetcher with next-line prefetching at an overflow,
as soon as it comes right after an access to the same line (`Stride.train_stops_near_top`).
Training never touches what the next-line check reads other than the previous access, which a
training that succeeds sets to its own address (`Stride.train_ok_lastRequest`).

Main statement: from every state of such a prefetcher, two accesses in a row to an address
within one line of the top stop it at an overflow, whatever their program counters and
cycles (`Stride.repeat_near_top_overflows`).
-/

namespace CacheHierarchy

namespace Stride

/-- What the next-line check reads of a prefetcher: the line size, how many lines it
prefetches, and the previous access. -/
def nextLineView (s : Stride) : Nat × Nat × UInt64 := (s.lineSize, s.nextLines, s.lastRequest)

@[simp] theorem nextLineView_modifyEntry (s : Stride) (i : Nat) (f : StrideEntry → StrideEntry) :
    (s.modifyEntry i f).nextLineView = s.nextLineView := rfl

@[simp] theorem nextLineView_moveTo (s : Stride) (i : Nat) (st : StrideState) (now : Nat)
    (a : UInt64) : (s.moveTo i st now a).nextLineView = s.nextLineView := by
  unfold moveTo
  split <;> rfl

@[simp] theorem nextLineView_pushPrefetch (s : Stride) (p : Packet)
    (f : PrefetchStat → PrefetchStat) : (s.pushPrefetch p f).nextLineView = s.nextLineView := by
  unfold pushPrefetch
  split <;> rfl

@[simp] theorem nextLineView_setLastPrefetch (s : Stride) (a : UInt64) :
    { s with lastPrefetch := a }.nextLineView = s.nextLineView := rfl

@[simp] theorem nextLineView_setLastRequest (s : Stride) (a : UInt64) :
    { s with lastRequest := a }.nextLineView = (s.lineSize, s.nextLines, a) := rfl

theorem nextLineView_eq_iff (s : Stride) (ls nl : Nat) (r : UInt64) :
    s.nextLineView = (ls, nl, r) ↔ s.lineSize = ls ∧ s.nextLines = nl ∧ s.lastRequest = r := by
  simp [nextLineView]

/-- The sum of two words is a word exactly when it is below `wordSize`. -/
theorem addWord_eq_ok_iff {a b : Nat} {r : UInt64} :
    addWord a b = .ok r ↔ a + b < wordSize ∧ UInt64.ofNat (a + b) = r := by
  unfold addWord
  split
  · rename_i h
    simp only [Except.ok.injEq]
    exact ⟨fun hr => ⟨h, hr⟩, fun hr => hr.2⟩
  · rename_i h
    simp only [reduceCtorEq, false_iff, not_and]
    exact fun hlt => absurd hlt h

/-! ## The stride table leaves the next-line check alone -/

section Keeps

variable (v : Nat × Nat × UInt64)

theorem emitStrides_go_keeps (i : Nat) (addr : UInt64) :
    ∀ (fuel : Nat) (last : UInt64), ⦃fun s => ⌜s.nextLineView = v⌝⦄
      emitStrides.go i addr fuel last
      ⦃post⟨fun _ s => ⌜s.nextLineView = v⌝, fun _ s => ⌜s.nextLineView = v⌝⟩⦄
  | 0, last => by mvcgen [emitStrides.go]
  | fuel + 1, last => by
    have ih := emitStrides_go_keeps i addr fuel
    mvcgen [emitStrides.go, ih, MonadExcept.ofExcept]
    -- each prefetch or drop changes the entry, the buffer and the counters only
    all_goals simp_all +zetaDelta

theorem emitStrides_keeps (i : Nat) (addr : UInt64) :
    ⦃fun s => ⌜s.nextLineView = v⌝⦄ emitStrides i addr
    ⦃post⟨fun _ s => ⌜s.nextLineView = v⌝, fun _ s => ⌜s.nextLineView = v⌝⟩⦄ := by
  have hgo := emitStrides_go_keeps v i addr
  mvcgen [emitStrides, hgo]

theorem advanceEntry_keeps (i : Nat) (e : StrideEntry) (isMatch : Bool) (diff : Int)
    (addr : UInt64) (now : Nat) :
    ⦃fun s => ⌜s.nextLineView = v⌝⦄ advanceEntry i e isMatch diff addr now
    ⦃post⟨fun _ s => ⌜s.nextLineView = v⌝, fun _ s => ⌜s.nextLineView = v⌝⟩⦄ := by
  have hemit := emitStrides_keeps v i addr
  mvcgen [advanceEntry, hemit]

/-- The next-line prefetches move the last prefetched line, never the previous access. -/
theorem nextLinePrefetches_go_keeps (pc addr : UInt64) :
    ∀ (fuel k : Nat), ⦃fun s => ⌜s.nextLineView = v⌝⦄ nextLinePrefetches.go pc addr fuel k
      ⦃post⟨fun _ s => ⌜s.nextLineView = v⌝, fun _ s => ⌜s.nextLineView = v⌝⟩⦄
  | 0, k => by mvcgen [nextLinePrefetches.go]
  | fuel + 1, k => by
    have ih := nextLinePrefetches_go_keeps pc addr fuel (k + 1)
    mvcgen [nextLinePrefetches.go, ih, MonadExcept.ofExcept]
    all_goals simp_all +zetaDelta

theorem nextLinePrefetches_keeps (pc addr : UInt64) :
    ⦃fun s => ⌜s.nextLineView = v⌝⦄ nextLinePrefetches pc addr
    ⦃post⟨fun _ s => ⌜s.nextLineView = v⌝, fun _ s => ⌜s.nextLineView = v⌝⟩⦄ := by
  have hgo := nextLinePrefetches_go_keeps v pc addr
  mvcgen [nextLinePrefetches, hgo]

end Keeps

/-! ## One training -/

/-- An access within one line after the previous access and within one line of the top of
the address space, with next-line prefetching on, stops the training at an overflow: the
stride table may stop it first, and otherwise the line after the access is past the top. -/
theorem train_stops_near_top (pc addr : UInt64) (now : Nat) :
    ⦃fun s => ⌜0 < s.nextLines ∧ (addr - s.lastRequest).toNat ≤ s.lineSize ∧
      wordSize ≤ addr.toNat + s.lineSize⌝⦄ train pc addr now
    ⦃post⟨fun _ _ => ⌜False⌝, fun _ _ => ⌜True⌝⟩⦄ := by
  mvcgen -trivial [train, advanceEntry_keeps, MonadExcept.ofExcept]
  -- every way through that reaches the next-line check computes `addr + lineSize`
  all_goals (simp_all +zetaDelta [addWord_eq_ok_iff, nextLineView]; try omega)

/-- A training that succeeds keeps the line size and the next-line count, and records its
address as the previous access. -/
theorem train_ok_lastRequest (pc addr : UInt64) (now : Nat) (ls nl : Nat) (r : UInt64) :
    ⦃fun s => ⌜s.nextLineView = (ls, nl, r)⌝⦄ train pc addr now
    ⦃post⟨fun _ s => ⌜s.nextLineView = (ls, nl, addr)⌝, fun _ _ => ⌜True⌝⟩⦄ := by
  mvcgen -trivial [train, advanceEntry_keeps, nextLinePrefetches_keeps, MonadExcept.ofExcept]
  -- the view after the stride table is the view before it; then the fields are read off
  all_goals (simp_all +zetaDelta [nextLineView_eq_iff] <;> simp_all [nextLineView])

/-! ## Two trainings -/

/-- **Repeating an access near the top overflows.** From every state of a stride prefetcher
with next-line prefetching on, an access to an address within one line of the top of the
address space, followed by a second access to the same address, stops the prefetcher at an
overflow, in the first training or in the second. -/
theorem repeat_near_top_overflows (s : Stride) (pc₁ pc₂ addr : UInt64) (now₁ now₂ : Nat)
    (hnext : 0 < s.nextLines) (htop : wordSize ≤ addr.toNat + s.lineSize) :
    (∃ o, (Id.run ((train pc₁ addr now₁).run.run s)).1 = .error o) ∨
      ∃ o, (Id.run ((train pc₂ addr now₂).run.run
        (Id.run ((train pc₁ addr now₁).run.run s)).2)).1 = .error o := by
  -- the first training either stops, or leaves the second one right after it, on its line
  generalize hfirst : Id.run ((train pc₁ addr now₁).run.run s) = first
  obtain ⟨r, s₁⟩ := first
  cases r with
  | error o => exact .inl ⟨o, rfl⟩
  | ok u =>
    right
    obtain ⟨hok, -⟩ := run_of_triple_post
      (train_ok_lastRequest pc₁ addr now₁ s.lineSize s.nextLines s.lastRequest) (s := s) rfl
    rw [hfirst] at hok
    obtain ⟨hls, hnl, hlast⟩ := (nextLineView_eq_iff _ _ _ _).1 (hok u rfl)
    have hnear : 0 < s₁.nextLines ∧ (addr - s₁.lastRequest).toNat ≤ s₁.lineSize ∧
        wordSize ≤ addr.toNat + s₁.lineSize := by
      refine ⟨hnl ▸ hnext, ?_, hls ▸ htop⟩
      rw [hlast, UInt64.sub_self]
      exact Nat.zero_le _
    obtain ⟨hstop, -⟩ := run_of_triple_post (train_stops_near_top pc₂ addr now₂) hnear
    generalize hsecond : Id.run ((train pc₂ addr now₂).run.run s₁) = second at hstop
    obtain ⟨r₂, s₂⟩ := second
    cases r₂ with
    | error o => exact ⟨o, rfl⟩
    | ok u₂ => exact absurd (hstop u₂ rfl) id

/-- A stride prefetcher built for 64-byte lines, with one next line, stops at the second
access to the last byte of the address space. -/
theorem repeat_near_top_overflows_last_byte :
    Prefetcher.build (.stride 2 2 4 1 4) "L1" 64 = .ok (.stride (Stride.new 64 2 2 4 1 4)) ∧
      ((∃ o, (Id.run ((train 0 0xffffffffffffffff 1).run.run (Stride.new 64 2 2 4 1 4))).1 =
        .error o) ∨
      ∃ o, (Id.run ((train 0 0xffffffffffffffff 2).run.run
        (Id.run ((train 0 0xffffffffffffffff 1).run.run (Stride.new 64 2 2 4 1 4))).2)).1 =
          .error o) :=
  ⟨rfl, repeat_near_top_overflows (Stride.new 64 2 2 4 1 4) 0 0 0xffffffffffffffff 1 2
    (by decide) (by decide)⟩

end Stride

end CacheHierarchy
