import Mathlib
import CacheHierarchy.Proofs.DrainedLines

open Std.Do

set_option autoImplicit false
set_option mvcgen.warning false

/-! # A drain, call by call

The drain is called once per cycle until it reports the hierarchy clean, and a cursor keeps,
between calls, the level being drained and the next set of every cache. One call runs four
nested loops: the ways of a set (`Action.flushWays`, whose spec is `Action.flushWays_drained`),
the sets of a cache (`Drain.flushSets`), the caches of a level (`Drain.flushLevel`) and the
levels (`Drain.flushLevels`). Each loop gets a relation between the state before and after it
(`FlushedSets`, `FlushedLevel`, `FlushedLevels`), all built on `Progress`: the hierarchy
drained in the sense of `Hierarchy.Drained`, the cursor not behind, and every set the cursor
passed invalid in every way.

`Drain.step_drains_level_by_level` puts them together for one call from any hierarchy and any
cursor: lines are only invalidated, never while locked and never before a writeback they need
is queued; a cache is touched only on a level the cursor goes through, and the cursor passes a
level only with all its caches done; and the call reports the hierarchy clean exactly when it is.
-/

namespace CacheHierarchy

/-- A spec whose postcondition relates the state after to the state `s₁` before, used where
`s₁` is a state reached from `s₀`: what it says from `s₀`. In a proof by induction the call
still to come gets this form, so that its postcondition no longer mentions a ghost state. -/
theorem triple_after {σ α ε : Type} {x : ExceptT ε (StateM σ) α} {P R : σ → Prop}
    {Q : σ → α → σ → Prop} {E : σ → ε → σ → Prop} {Q' : α → σ → Prop} {E' : ε → σ → Prop}
    (hx : ∀ s₁, ⦃fun s => ⌜s = s₁ ∧ P s₁⌝⦄ x ⦃post⟨fun r s => ⌜Q s₁ r s⌝, fun e s => ⌜E s₁ e s⌝⟩⦄)
    (hq : ∀ s₁ r s, R s₁ → Q s₁ r s → Q' r s) (he : ∀ s₁ e s, R s₁ → E s₁ e s → E' e s)
    (s₁ : σ) :
    ⦃fun s => ⌜s = s₁ ∧ P s₁ ∧ R s₁⌝⦄ x ⦃post⟨fun r s => ⌜Q' r s⌝, fun e s => ⌜E' e s⌝⟩⦄ := by
  have h₁ := hx s₁
  mvcgen [h₁]
  · rename_i s hpre
    exact ⟨hpre.1, hpre.2.1⟩
  · rename_i s hpre r s'
    exact hq s₁ r s' hpre.2.2
  · rename_i s hpre e s'
    exact he s₁ e s' hpre.2.2

namespace Drain

/-! ## Coherence actions inside the drain -/

/-- A coherence action run inside the drain does what it does on the hierarchy, and leaves
the cursor. -/
theorem lift_run {α : Type} (a : Action α) (s₀ : Hierarchy × DrainCursor) :
    ⦃fun s => ⌜s = s₀⌝⦄ Drain.lift a
    ⦃post⟨fun r s => ⌜Id.run (a.run.run s₀.1) = (.ok r, s.1) ∧ s.2 = s₀.2⌝,
      fun e s => ⌜Id.run (a.run.run s₀.1) = (.error e, s.1) ∧ s.2 = s₀.2⌝⟩⦄ := by
  unfold Drain.lift
  mvcgen
  all_goals
    subst ‹_ = s₀›
    exact ⟨Prod.ext ‹_› rfl, rfl⟩

/-- What an action promises from `s₀.1`, run inside the drain from `s₀`; the cursor stays. -/
theorem lift_spec {α : Type} {a : Action α} {s₀ : Hierarchy × DrainCursor}
    {Q : α → Hierarchy → Prop} {E : Fault → Hierarchy → Prop}
    (ha : ⦃fun h => ⌜h = s₀.1⌝⦄ a ⦃post⟨fun r h => ⌜Q r h⌝, fun e h => ⌜E e h⌝⟩⦄) :
    ⦃fun s => ⌜s = s₀⌝⦄ Drain.lift a
    ⦃post⟨fun r s => ⌜Q r s.1 ∧ s.2 = s₀.2⌝, fun e s => ⌜E e s.1 ∧ s.2 = s₀.2⌝⟩⦄ := by
  obtain ⟨hok, herr⟩ := run_of_triple_post ha (s := s₀.1) rfl
  have hl := lift_run a s₀
  mvcgen [-Drain.lift_pinned, -Drain.lift_exclusive, hl]
  · intro hrun hcur
    rw [hrun] at hok
    exact ⟨hok _ rfl, hcur⟩
  · intro hrun hcur
    rw [hrun] at herr
    exact ⟨herr _ rfl, hcur⟩

theorem cache_read (id : Nat) (h₀ : Hierarchy) :
    ⦃fun h => ⌜h = h₀⌝⦄ Action.cache id
    ⦃post⟨fun c h => ⌜h = h₀ ∧ h₀.caches[id]? = some c⌝, fun _ h => ⌜h = h₀⌝⟩⦄ := by
  mvcgen [Action.cache, Action.fail]
  all_goals simp_all

theorem lift_cache (id : Nat) (s₀ : Hierarchy × DrainCursor) :
    ⦃fun s => ⌜s = s₀⌝⦄ Drain.lift (Action.cache id)
    ⦃post⟨fun c s => ⌜s = s₀ ∧ s₀.1.caches[id]? = some c⌝, fun _ s => ⌜s = s₀⌝⟩⦄ := by
  have hl := lift_spec (cache_read id s₀.1)
  mvcgen [-Drain.lift_pinned, -Drain.lift_exclusive, hl]
  · intro h₁ hc h₂
    exact ⟨Prod.ext h₁ h₂, hc⟩
  · exact fun h₁ h₂ => Prod.ext h₁ h₂

/-- Flushing the ways of set `index` of cache `id`, inside the drain. -/
theorem lift_flushWays (id index now n : Nat) (s₀ : Hierarchy × DrainCursor) :
    ⦃fun s => ⌜s = s₀⌝⦄ Drain.lift (Action.flushWays id index now (List.range n) true)
    ⦃post⟨fun r s => ⌜(s₀.1.Drained s.1 ∧ s₀.1.SameBut id s.1 ∧
        (r = true → ∀ c, s.1.caches[id]? = some c →
          ∀ w ∈ List.range n, (c.line index w).status = .i) ∧
        (r = false → ∃ c w, s.1.caches[id]? = some c ∧ (c.line index w).status ≠ .i)) ∧
        s.2 = s₀.2⌝,
      fun _ s => ⌜(s₀.1.Drained s.1 ∧ s₀.1.SameBut id s.1) ∧ s.2 = s₀.2⌝⟩⦄ := by
  have hw := Action.flushWays_drained id index now (List.range n) List.nodup_range true s₀.1
  have hw' : ⦃fun h => ⌜h = s₀.1⌝⦄ Action.flushWays id index now (List.range n) true
      ⦃post⟨fun r h => ⌜s₀.1.Drained h ∧ s₀.1.SameBut id h ∧
        (r = true → ∀ c, h.caches[id]? = some c →
          ∀ w ∈ List.range n, (c.line index w).status = .i) ∧
        (r = false → ∃ c w, h.caches[id]? = some c ∧ (c.line index w).status ≠ .i)⌝,
      fun _ h => ⌜s₀.1.Drained h ∧ s₀.1.SameBut id h⌝⟩⦄ := by
    mvcgen [-Action.flushWays_pinned, -Action.flushWays_exclusive, hw]
    · exact ⟨‹_›, fun h => absurd h (by decide)⟩
    · intro hd hs htrue hfalse
      exact ⟨hd, hs, fun hr => (htrue hr).2, hfalse⟩
  exact lift_spec hw'

/-! ## How far a drain has come -/

/-- Cache `j` is done in `s`: all its sets are behind the cursor and its MSHR is empty. -/
def Done (s : Hierarchy × DrainCursor) (j : Nat) : Prop :=
  ∀ c, s.1.caches[j]? = some c → c.setCount ≤ s.2.nextSet.getD j 0 ∧ c.mshr.count = 0

/-- Cache `j`, and its next set, are in `s` as in `s₀`. -/
def Untouched (s₀ s : Hierarchy × DrainCursor) (j : Nat) : Prop :=
  s.1.caches[j]? = s₀.1.caches[j]? ∧ s.2.nextSet.getD j 0 = s₀.2.nextSet.getD j 0

theorem Untouched.refl (s : Hierarchy × DrainCursor) (j : Nat) : Untouched s s j := ⟨rfl, rfl⟩

theorem Untouched.trans {s₁ s₂ s₃ : Hierarchy × DrainCursor} {j : Nat}
    (h₁₂ : Untouched s₁ s₂ j) (h₂₃ : Untouched s₂ s₃ j) : Untouched s₁ s₃ j :=
  ⟨h₂₃.1.trans h₁₂.1, h₂₃.2.trans h₁₂.2⟩

theorem Done.of_untouched {s₀ s : Hierarchy × DrainCursor} {j : Nat} (hd : Done s₀ j)
    (hu : Untouched s₀ s j) : Done s j := by
  intro c hc
  rw [hu.2]
  exact hd c (hu.1 ▸ hc)

/-- `s` is `s₀` further on in a drain: the hierarchy drained, the cursor's level and next
sets not behind, and every set the cursor passed invalid in every way. -/
structure Progress (s₀ s : Hierarchy × DrainCursor) : Prop where
  drained : s₀.1.Drained s.1
  length : s.2.nextSet.length = s₀.2.nextSet.length
  level : s₀.2.level ≤ s.2.level
  nextSet : ∀ j, s₀.2.nextSet.getD j 0 ≤ s.2.nextSet.getD j 0
  passed : ∀ j c, s.1.caches[j]? = some c → ∀ i, s₀.2.nextSet.getD j 0 ≤ i →
    i < s.2.nextSet.getD j 0 → ∀ w < c.ways, (c.line i w).status = .i

namespace Progress

theorem refl (s : Hierarchy × DrainCursor) : Progress s s :=
  ⟨.refl _, rfl, le_rfl, fun _ => le_rfl, fun _ _ _ i h₁ h₂ => absurd h₂ (by omega)⟩

theorem trans {s₁ s₂ s₃ : Hierarchy × DrainCursor} (h₁₂ : Progress s₁ s₂)
    (h₂₃ : Progress s₂ s₃) : Progress s₁ s₃ := by
  refine ⟨h₁₂.drained.trans h₂₃.drained, h₂₃.length.trans h₁₂.length,
    h₁₂.level.trans h₂₃.level, fun j => (h₁₂.nextSet j).trans (h₂₃.nextSet j),
    fun j c hc i hlo hhi w hw => ?_⟩
  by_cases hi : i < s₂.2.nextSet.getD j 0
  · -- passed before `s₂`: invalid there, and an invalid line stays
    obtain ⟨c₂, hc₂, hcd⟩ := h₂₃.drained.exists_pre hc
    have hinv := h₁₂.passed j c₂ hc₂ i hlo hi w (hcd.ways ▸ hw)
    rw [hcd.line_of_invalid hinv]
    exact hinv
  · exact h₂₃.passed j c hc i (by omega) hhi w hw

/-- A step that moves only the cursor's level up. -/
theorem of_level {s₀ s : Hierarchy × DrainCursor} (hh : s.1 = s₀.1)
    (hn : s.2.nextSet = s₀.2.nextSet) (hl : s₀.2.level ≤ s.2.level) : Progress s₀ s := by
  refine ⟨hh ▸ .refl _, by rw [hn], hl, fun _ => by rw [hn], fun j c _ i h₁ h₂ => ?_⟩
  rw [hn] at h₂
  omega

end Progress

/-- What flushing the sets of cache `id` leaves of `s₀`: progress at the same level, and every
other cache untouched. -/
structure FlushedSets (id : Nat) (s₀ s : Hierarchy × DrainCursor) : Prop where
  progress : Progress s₀ s
  level : s.2.level = s₀.2.level
  others : ∀ j, j ≠ id → Untouched s₀ s j

theorem FlushedSets.refl (id : Nat) (s : Hierarchy × DrainCursor) : FlushedSets id s s :=
  ⟨.refl _, rfl, fun _ _ => .refl _ _⟩

theorem FlushedSets.trans {id : Nat} {s₁ s₂ s₃ : Hierarchy × DrainCursor}
    (h₁₂ : FlushedSets id s₁ s₂) (h₂₃ : FlushedSets id s₂ s₃) : FlushedSets id s₁ s₃ :=
  ⟨h₁₂.progress.trans h₂₃.progress, h₂₃.level.trans h₁₂.level,
    fun j hj => (h₁₂.others j hj).trans (h₂₃.others j hj)⟩

/-- A drain of cache `id` alone that leaves the cursor. -/
theorem FlushedSets.of_sameBut {id : Nat} {s₀ s : Hierarchy × DrainCursor}
    (hd : s₀.1.Drained s.1) (hs : s₀.1.SameBut id s.1) (hcur : s.2 = s₀.2) :
    FlushedSets id s₀ s := by
  refine ⟨⟨hd, by rw [hcur], by rw [hcur], fun j => by rw [hcur], fun j c _ i h₁ h₂ => ?_⟩,
    by rw [hcur], fun j hj => ⟨hs j hj, by rw [hcur]⟩⟩
  rw [hcur] at h₂
  omega

theorem getD_modify_succ (l : List Nat) (id j : Nat) :
    (l.modify id (· + 1)).getD j 0 =
      if j = id ∧ id < l.length then l.getD j 0 + 1 else l.getD j 0 := by
  simp only [List.getD_eq_getElem?_getD, List.getElem?_modify]
  by_cases hj : j = id
  · subst hj
    by_cases hl : j < l.length <;> simp [hl]
  · simp [hj, Ne.symm hj]

/-- Passing a set of cache `id` whose ways the flush left invalid. -/
theorem flushedSets_passSet {id : Nat} {s₀ : Hierarchy × DrainCursor} {h : Hierarchy}
    {c₀ : Cache} (hid : id < s₀.2.nextSet.length) (hc₀ : s₀.1.caches[id]? = some c₀)
    (hd : s₀.1.Drained h) (hs : s₀.1.SameBut id h)
    (hclean : ∀ c, h.caches[id]? = some c → ∀ w ∈ List.range c₀.ways,
      (c.line (s₀.2.nextSet.getD id 0) w).status = .i) :
    FlushedSets id s₀ (h, { level := s₀.2.level, nextSet := s₀.2.nextSet.modify id (· + 1) }) := by
  refine ⟨⟨hd, List.length_modify .., le_rfl, fun j => ?_, fun j c hc i hlo hhi w hw => ?_⟩,
    rfl, fun j hj => ⟨hs j hj, ?_⟩⟩
  · rw [getD_modify_succ]
    split <;> omega
  · rw [getD_modify_succ] at hhi
    split at hhi
    · -- the one set passed is the cursor's set before
      rename_i hj
      obtain ⟨rfl, -⟩ := hj
      obtain ⟨c₁, hc₁, hcd⟩ := hd.exists_pre hc
      rw [hc₀] at hc₁
      cases hc₁
      rw [show i = s₀.2.nextSet.getD j 0 by omega]
      exact hclean c hc w (List.mem_range.2 (hcd.ways ▸ hw))
    · omega
  · show (s₀.2.nextSet.modify id (· + 1)).getD j 0 = _
    rw [getD_modify_succ, if_neg fun h => hj h.1]

end Drain

/-! ## Clean caches -/

/-- Cache `j` of `h` holds a packet or a valid line. -/
def Hierarchy.Unclean (h : Hierarchy) (j : Nat) : Prop :=
  ∃ c, h.caches[j]? = some c ∧ (c.mshr.count ≠ 0 ∨ c.lines.isClean = false)

theorem TagArray.get_of_lt {t : TagArray} {i w : Nat} (hi : i < t.size) (hw : w < t[i].size) :
    t.get i w = t[i][w] := by
  simp [TagArray.get, hi, hw]

/-- A position outside the array reads as an invalid line. -/
theorem TagArray.get_of_not_lt {t : TagArray} {i w : Nat}
    (h : ¬(∃ hi : i < t.size, w < t[i].size)) : (t.get i w).status = .i := by
  by_cases hi : i < t.size
  · have hw : ¬w < t[i].size := fun hw => h ⟨hi, hw⟩
    simp [TagArray.get, hi, hw]
    rfl
  · simp [TagArray.get, hi]
    rfl

/-- A tag array is clean when every line read from it is invalid. -/
theorem TagArray.isClean_iff (t : TagArray) :
    t.isClean = true ↔ ∀ i w, (t.get i w).status = .i := by
  simp only [TagArray.isClean, Array.all_eq_true, beq_iff_eq]
  constructor
  · intro hall i w
    by_cases h : ∃ hi : i < t.size, w < t[i].size
    · obtain ⟨hi, hw⟩ := h
      rw [TagArray.get_of_lt hi hw]
      exact hall i hi w hw
    · exact TagArray.get_of_not_lt h
  · intro hall i hi w hw
    rw [← TagArray.get_of_lt hi hw]
    exact hall i w

/-- The hierarchy is clean when the directory has no entry, and every cache an empty MSHR and
only invalid lines. -/
theorem Hierarchy.isClean_iff (h : Hierarchy) :
    h.isClean = true ↔ h.directory.entries = [] ∧
      ∀ c ∈ h.caches, c.mshr.count = 0 ∧ ∀ i w, (c.line i w).status = .i := by
  simp only [Hierarchy.isClean, Bool.and_eq_true, List.isEmpty_iff, Array.all_eq_true',
    beq_iff_eq, TagArray.isClean_iff, Cache.line]

/-- A tag array with a valid line is not clean. -/
theorem Cache.isClean_eq_false_of_valid {c : Cache} {i w : Nat}
    (hv : (c.line i w).status ≠ .i) : c.lines.isClean = false :=
  Bool.eq_false_iff.2 fun hc => hv ((TagArray.isClean_iff _).1 hc i w)

/-- A way of a cache still valid leaves the cache unclean. -/
theorem Hierarchy.unclean_of_valid {h : Hierarchy} {j : Nat} {c : Cache}
    (hc : h.caches[j]? = some c) {i w : Nat} (hv : (c.line i w).status ≠ .i) : h.Unclean j :=
  ⟨c, hc, .inr (Cache.isClean_eq_false_of_valid hv)⟩

/-- An unclean cache leaves the hierarchy unclean. -/
theorem Hierarchy.isClean_eq_false_of_unclean {h : Hierarchy} {j : Nat} (hu : h.Unclean j) :
    h.isClean = false := by
  obtain ⟨c, hc, hbad⟩ := hu
  rw [Bool.eq_false_iff, ne_eq, Hierarchy.isClean_iff]
  rintro ⟨-, hall⟩
  obtain ⟨hcount, hlines⟩ := hall c (Array.mem_of_getElem? hc)
  rcases hbad with hbad | hbad
  · exact hbad hcount
  · exact Bool.false_ne_true (hbad ▸ (TagArray.isClean_iff _).2 hlines)

/-- A packet in the MSHR leaves the cache unclean. -/
theorem Hierarchy.unclean_of_count {h : Hierarchy} {j : Nat} {c : Cache}
    (hc : h.caches[j]? = some c) (hcount : (c.mshr.count == 0) = false) : h.Unclean j :=
  ⟨c, hc, .inl (by simpa using hcount)⟩

namespace Drain

theorem done_of_count {s : Hierarchy × DrainCursor} {id : Nat} {c : Cache}
    (hc : s.1.caches[id]? = some c) (hset : c.setCount ≤ s.2.nextSet.getD id 0)
    (hcount : (c.mshr.count == 0) = true) : Done s id := by
  intro c' hc'
  rw [hc] at hc'
  cases hc'
  exact ⟨hset, by simpa using hcount⟩

/-- A cache whose sets are all behind the cursor is settled: done if its MSHR is empty, and
unclean otherwise. -/
theorem settled {s : Hierarchy × DrainCursor} {id : Nat} {c : Cache}
    (hc : s.1.caches[id]? = some c) (hset : c.setCount ≤ s.2.nextSet.getD id 0) :
    FlushedSets id s s ∧ ((c.mshr.count == 0) = true → Done s id) ∧
      ((c.mshr.count == 0) = false → s.1.Unclean id) :=
  ⟨.refl _ _, done_of_count hc hset, Hierarchy.unclean_of_count hc⟩

/-- A set flushed clean is passed: the cursor moves on, with one set less to flush. -/
theorem passSet {id fuel : Nat} {s₀ s : Hierarchy × DrainCursor} {c₀ : Cache}
    (hc₀ : s₀.1.caches[id]? = some c₀) (hid : id < s₀.2.nextSet.length)
    (hfuel : ∀ c, s₀.1.caches[id]? = some c → c.setCount < fuel + 1 + s₀.2.nextSet.getD id 0)
    (hd : s₀.1.Drained s.1) (hs : s₀.1.SameBut id s.1) (hcur : s.2 = s₀.2)
    (hclean : ∀ c, s.1.caches[id]? = some c → ∀ w ∈ List.range c₀.ways,
      (c.line (s₀.2.nextSet.getD id 0) w).status = .i) :
    (id < (s.2.nextSet.modify id (· + 1)).length ∧
        ∀ c, s.1.caches[id]? = some c →
          c.setCount < fuel + (s.2.nextSet.modify id (· + 1)).getD id 0) ∧
      FlushedSets id s₀ (s.1, { level := s.2.level, nextSet := s.2.nextSet.modify id (· + 1) }) := by
  rw [hcur]
  refine ⟨⟨by simpa using hid, fun c hc => ?_⟩, flushedSets_passSet hid hc₀ hd hs hclean⟩
  -- the cache kept its sets, and the cursor moved one set on
  obtain ⟨c₁, hc₁, hcd⟩ := hd.exists_pre hc
  rw [hc₀] at hc₁
  cases hc₁
  have := hfuel c₀ hc₀
  rw [getD_modify_succ, if_pos ⟨rfl, hid⟩, hcd.setCount]
  omega

/-- A way of the set still valid stops the flush, and leaves the cache unclean. -/
theorem stopped {id index : Nat} {s₀ s : Hierarchy × DrainCursor} (hd : s₀.1.Drained s.1)
    (hs : s₀.1.SameBut id s.1) (hcur : s.2 = s₀.2)
    (hvalid : ∃ c w, s.1.caches[id]? = some c ∧ (c.line index w).status ≠ .i) :
    FlushedSets id s₀ s ∧ (false = true → Done s id) ∧ s.1.Unclean id := by
  obtain ⟨c, w, hc, hv⟩ := hvalid
  exact ⟨.of_sameBut hd hs hcur, fun h => absurd h Bool.false_ne_true,
    Hierarchy.unclean_of_valid hc hv⟩

/-! ## The sets of one cache -/

/-- Flushing the sets of cache `id` from the cursor's next set on, with fuel for all of them:
the cursor passes only sets left invalid, no other cache is touched, and a clean report means
all sets behind the cursor and an empty MSHR. -/
theorem flushSets_flushes (id now : Nat) :
    ∀ (fuel : Nat) (s₀ : Hierarchy × DrainCursor),
    ⦃fun s => ⌜s = s₀ ∧ id < s₀.2.nextSet.length ∧
      ∀ c, s₀.1.caches[id]? = some c → c.setCount < fuel + s₀.2.nextSet.getD id 0⌝⦄
    Drain.flushSets id now fuel
    ⦃post⟨fun r s => ⌜FlushedSets id s₀ s ∧ (r = true → Done s id) ∧
        (r = false → s.1.Unclean id)⌝,
      fun _ s => ⌜FlushedSets id s₀ s⌝⟩⦄
  | 0, s₀ => by
    unfold Drain.flushSets
    mvcgen [-Drain.lift_pinned, -Drain.lift_exclusive, lift_cache]
    all_goals
      try dsimp +zetaDelta only at *
      try casesm* _ ∧ _
      subst_vars
    all_goals first
      | -- out of fuel, the sets are all behind the cursor anyway
        have hc := ‹(_ : Hierarchy × DrainCursor).1.caches[id]? = some _›
        have hfuel := ‹∀ c : Cache, _›
        exact settled hc (by have := hfuel _ hc; omega)
      | rintro rfl
        exact .refl _ _
  | fuel + 1, s₀ => by
    -- the sets still to flush, from a state the flush of this set reached
    have ih := triple_after (flushSets_flushes id now fuel)
      (fun s₁ r s (h₀₁ : FlushedSets id s₀ s₁)
        (h : FlushedSets id s₁ s ∧ (r = true → Done s id) ∧ (r = false → s.1.Unclean id)) =>
        (⟨h₀₁.trans h.1, h.2⟩ :
          FlushedSets id s₀ s ∧ (r = true → Done s id) ∧ (r = false → s.1.Unclean id)))
      (fun s₁ _ s (h₀₁ : FlushedSets id s₀ s₁) (h : FlushedSets id s₁ s) =>
        (h₀₁.trans h : FlushedSets id s₀ s))
    unfold Drain.flushSets
    generalize Drain.flushSets id now fuel = flushRest at ih ⊢
    mvcgen [-Drain.lift_pinned, -Drain.lift_exclusive, lift_cache, lift_flushWays, ih,
      Drain.cursor, Drain.moveCursor]
    all_goals
      try dsimp +zetaDelta only at *
      try casesm* _ ∧ _
      subst_vars
    -- every set is behind the cursor, or the set is flushed clean and passed, or a way of it
    -- stays valid; a fault keeps what the flush did before it
    all_goals first
      | exact settled ‹_› ‹_›
      | exact ⟨trivial, passSet ‹_› ‹_› ‹_› ‹_› ‹_› ‹_› (‹true = true → _› rfl)⟩
      | exact stopped ‹_› ‹_› ‹_› (‹_ = false → _› (Bool.eq_false_iff.2 ‹_›))
      | exact FlushedSets.of_sameBut
      | rintro rfl
        exact .refl _ _

/-! ## The caches of one level -/

theorem unclean_of_untouched {s₀ s : Hierarchy × DrainCursor} {j : Nat} (hu : s₀.1.Unclean j)
    (ht : Untouched s₀ s j) : s.1.Unclean j := by
  obtain ⟨c, hc, hcl⟩ := hu
  exact ⟨c, ht.1.trans hc, hcl⟩

/-- What flushing the caches `ids` on level `level` leaves of `s₀`: progress at the same
level, and every cache not among them, or on another level, untouched. -/
structure FlushedLevel (level : Nat) (ids : List Nat) (s₀ s : Hierarchy × DrainCursor) :
    Prop where
  progress : Progress s₀ s
  cursorLevel : s.2.level = s₀.2.level
  others : ∀ j c, s₀.1.caches[j]? = some c → (j ∉ ids ∨ c.level ≠ level) → Untouched s₀ s j

namespace FlushedLevel

variable {level : Nat} {ids : List Nat}

theorem refl (level : Nat) (ids : List Nat) (s : Hierarchy × DrainCursor) :
    FlushedLevel level ids s s :=
  ⟨.refl _, rfl, fun j _ _ _ => .refl _ j⟩

/-- A cache on another level is skipped. -/
theorem skip {s₀ s : Hierarchy × DrainCursor} {id : Nat} {c : Cache}
    (hc : s₀.1.caches[id]? = some c) (hlev : (c.level != level) = true)
    (h : FlushedLevel level ids s₀ s) : FlushedLevel level (id :: ids) s₀ s := by
  have hl : c.level ≠ level := by simpa using hlev
  refine ⟨h.progress, h.cursorLevel, fun j c' hc' hj => h.others j c' hc' ?_⟩
  by_cases hjid : j = id
  · subst hjid
    rw [hc] at hc'
    cases hc'
    exact .inr hl
  · rcases hj with hj | hj
    · exact .inl fun hm => hj (List.mem_cons_of_mem id hm)
    · exact .inr hj

/-- A cache of the level is flushed, then the others. -/
theorem cons {s₀ s₁ s : Hierarchy × DrainCursor} {id : Nat} {c : Cache}
    (hc : s₀.1.caches[id]? = some c) (hlev : ¬(c.level != level) = true)
    (h₀₁ : FlushedSets id s₀ s₁) (h₁ : FlushedLevel level ids s₁ s) :
    FlushedLevel level (id :: ids) s₀ s := by
  have hl : c.level = level := by simpa using hlev
  refine ⟨h₀₁.progress.trans h₁.progress, h₁.cursorLevel.trans h₀₁.level,
    fun j c' hc' hj => ?_⟩
  have hjid : j ≠ id := by
    rintro rfl
    rw [hc] at hc'
    cases hc'
    rcases hj with hj | hj
    · exact hj (List.mem_cons_self ..)
    · exact hj hl
  have hu := h₀₁.others j hjid
  refine hu.trans (h₁.others j c' (hu.1.trans hc') ?_)
  rcases hj with hj | hj
  · exact .inl fun hm => hj (List.mem_cons_of_mem id hm)
  · exact .inr hj

/-- A cache not among `ids` is untouched. -/
theorem untouched {s₀ s : Hierarchy × DrainCursor} (h : FlushedLevel level ids s₀ s) {j : Nat}
    (hj : j ∉ ids) (hc : ∃ c, s₀.1.caches[j]? = some c) : Untouched s₀ s j := by
  obtain ⟨c, hc⟩ := hc
  exact h.others j c hc (.inl hj)

/-- The caches after `id` start where the cursor is, with the same caches to go. -/
theorem rest_pre {id : Nat} {s₀ s : Hierarchy × DrainCursor} (hnd : (id :: ids).Nodup)
    (hlt : ∀ j ∈ id :: ids, j < s₀.2.nextSet.length)
    (hlen : s.2.nextSet.length = s₀.2.nextSet.length) :
    True ∧ ids.Nodup ∧ ∀ j ∈ ids, j < s.2.nextSet.length :=
  ⟨trivial, (List.nodup_cons.1 hnd).2, fun j hj => hlen ▸ hlt j (List.mem_cons_of_mem id hj)⟩

/-- A cache of the level is flushed with fuel for every one of its sets. -/
theorem sets_pre {id : Nat} {s : Hierarchy × DrainCursor} {c : Cache}
    (hc : s.1.caches[id]? = some c) (hlt : ∀ j ∈ id :: ids, j < s.2.nextSet.length) :
    True ∧ id < s.2.nextSet.length ∧
      ∀ c', s.1.caches[id]? = some c' → c'.setCount < c.setCount + 1 + s.2.nextSet.getD id 0 := by
  refine ⟨trivial, hlt id (List.mem_cons_self ..), fun c' hc' => ?_⟩
  rw [hc] at hc'
  cases hc'
  omega

/-- A cache on another level is skipped, and is none of the level's caches to be done. -/
theorem skip_post {s₀ s : Hierarchy × DrainCursor} {id : Nat} {c : Cache} {r : Bool}
    (hc : s₀.1.caches[id]? = some c) (hlev : (c.level != level) = true)
    (hfl : FlushedLevel level ids s₀ s)
    (htrue : r = true → ∀ j ∈ ids, ∀ c, s.1.caches[j]? = some c → c.level = level → Done s j)
    (hfalse : r = false → ∃ j, s.1.Unclean j) :
    FlushedLevel level (id :: ids) s₀ s ∧
      (r = true → ∀ j ∈ id :: ids, ∀ c, s.1.caches[j]? = some c → c.level = level → Done s j) ∧
      (r = false → ∃ j, s.1.Unclean j) := by
  refine ⟨hfl.skip hc hlev, fun hr j hj c' hc' hl' => ?_, hfalse⟩
  rcases List.mem_cons.1 hj with rfl | hj
  · -- the skipped cache keeps its level, which is not this one
    obtain ⟨c₀, hc₀, hcd⟩ := hfl.progress.drained.exists_pre hc'
    rw [hc] at hc₀
    cases hc₀
    exact absurd (hcd.level ▸ hl') (by simpa using hlev)
  · exact htrue hr j hj c' hc' hl'

/-- A cache of the level, then the rest: the cache stays as its own flush left it. -/
theorem cons_post {s₀ s₁ s : Hierarchy × DrainCursor} {id : Nat} {c : Cache} {clean r : Bool}
    (hc : s₀.1.caches[id]? = some c) (hlev : ¬(c.level != level) = true)
    (hnd : (id :: ids).Nodup) (hfs : FlushedSets id s₀ s₁)
    (hdone : clean = true → Done s₁ id) (hunclean : clean = false → s₁.1.Unclean id)
    (hfl : FlushedLevel level ids s₁ s)
    (htrue : r = true → ∀ j ∈ ids, ∀ c, s.1.caches[j]? = some c → c.level = level → Done s j)
    (hfalse : r = false → ∃ j, s.1.Unclean j) :
    FlushedLevel level (id :: ids) s₀ s ∧
      ((clean && r) = true →
        ∀ j ∈ id :: ids, ∀ c, s.1.caches[j]? = some c → c.level = level → Done s j) ∧
      ((clean && r) = false → ∃ j, s.1.Unclean j) := by
  have hu : Untouched s₁ s id := by
    obtain ⟨c₁, hc₁, -⟩ := hfs.progress.drained.exists_cache hc
    exact hfl.untouched (List.nodup_cons.1 hnd).1 ⟨c₁, hc₁⟩
  refine ⟨FlushedLevel.cons hc hlev hfs hfl, fun hr j hj c' hc' hl' => ?_, fun hr => ?_⟩
  · rw [Bool.and_eq_true] at hr
    rcases List.mem_cons.1 hj with rfl | hj
    · exact (hdone hr.1).of_untouched hu
    · exact htrue hr.2 j hj c' hc' hl'
  · rw [Bool.and_eq_false_iff] at hr
    rcases hr with hr | hr
    · exact ⟨id, unclean_of_untouched (hunclean hr) hu⟩
    · exact hfalse hr

end FlushedLevel

/-- Flushing the caches `ids` on level `level` drains the caches of that level among them.
An answer `true` means each of them is done; `false`, that some cache is unclean. -/
theorem flushLevel_flushes (level now : Nat) :
    ∀ (ids : List Nat) (s₀ : Hierarchy × DrainCursor),
    ⦃fun s => ⌜s = s₀ ∧ ids.Nodup ∧ ∀ j ∈ ids, j < s₀.2.nextSet.length⌝⦄
    Drain.flushLevel level now ids
    ⦃post⟨fun r s => ⌜FlushedLevel level ids s₀ s ∧
        (r = true → ∀ j ∈ ids, ∀ c, s.1.caches[j]? = some c → c.level = level → Done s j) ∧
        (r = false → ∃ j, s.1.Unclean j)⌝,
      fun _ s => ⌜FlushedLevel level ids s₀ s⌝⟩⦄
  | [], s₀ => by
    unfold Drain.flushLevel
    mvcgen
    rename_i s hpre
    obtain ⟨rfl, -, -⟩ := hpre
    exact ⟨.refl _ _ _, by simp, fun h => absurd h (by decide)⟩
  | id :: ids, s₀ => by
    have ih := flushLevel_flushes level now ids
    have hsets := flushSets_flushes id now
    unfold Drain.flushLevel
    generalize Drain.flushLevel level now ids = flushRest at ih ⊢
    mvcgen [-Drain.lift_pinned, -Drain.lift_exclusive, -Drain.flushSets_pinned,
      -Drain.flushSets_exclusive, lift_cache, hsets, ih]
    all_goals
      try dsimp +zetaDelta only at *
      try casesm* _ ∧ _
      subst_vars
    -- a cache on another level is skipped; one of the level is flushed, then the rest; a fault
    -- keeps what the flushes did before it
    all_goals first
      | exact FlushedLevel.rest_pre ‹_› ‹_› rfl
      | exact FlushedLevel.rest_pre ‹_› ‹_› ‹FlushedSets _ _ _›.progress.length
      | exact FlushedLevel.sets_pre ‹_› ‹_›
      | exact FlushedLevel.skip_post ‹_› ‹_›
      | exact FlushedLevel.skip ‹_› ‹_›
      | exact FlushedLevel.cons_post ‹_› ‹_› ‹_› ‹_› ‹_› ‹_› ‹_› ‹_› ‹_›
      | exact FlushedLevel.cons ‹_› ‹_› ‹_›
      | exact fun hfs => FlushedLevel.cons ‹_› ‹_› hfs (.refl level ids _)
      | rintro rfl
        exact .refl _ _ _

/-! ## The levels -/

/-- What flushing the levels from the cursor's on leaves of `s₀`: progress, every cache off the
levels the cursor went through untouched, and every cache on a level it passed done. -/
structure FlushedLevels (s₀ s : Hierarchy × DrainCursor) : Prop where
  progress : Progress s₀ s
  others : ∀ j c, s₀.1.caches[j]? = some c → c.level < s₀.2.level ∨ s.2.level < c.level →
    Untouched s₀ s j
  done : ∀ j c, s.1.caches[j]? = some c → s₀.2.level ≤ c.level → c.level < s.2.level → Done s j

namespace FlushedLevels

theorem refl (s : Hierarchy × DrainCursor) : FlushedLevels s s :=
  ⟨.refl _, fun j _ _ _ => .refl _ j, fun _ _ _ h₁ h₂ => absurd h₂ (by omega)⟩

theorem trans {s₁ s₂ s₃ : Hierarchy × DrainCursor} (h₁₂ : FlushedLevels s₁ s₂)
    (h₂₃ : FlushedLevels s₂ s₃) : FlushedLevels s₁ s₃ := by
  have hl₁₂ := h₁₂.progress.level
  have hl₂₃ := h₂₃.progress.level
  refine ⟨h₁₂.progress.trans h₂₃.progress, fun j c hc hj => ?_, fun j c hc hlo hhi => ?_⟩
  · have hu := h₁₂.others j c hc (by omega)
    exact hu.trans (h₂₃.others j c (hu.1.trans hc) (by omega))
  · by_cases hmid : s₂.2.level ≤ c.level
    · exact h₂₃.done j c hc hmid hhi
    · -- done when the cursor passed its level, and untouched since
      obtain ⟨c₂, hc₂, hcd⟩ := h₂₃.progress.drained.exists_pre hc
      rw [hcd.level] at hlo hmid
      exact (h₁₂.done j c₂ hc₂ hlo (by omega)).of_untouched
        (h₂₃.others j c₂ hc₂ (.inl (by omega)))

/-- Flushing the level of the cursor, which then stays. -/
theorem of_flushedLevel {s₀ s : Hierarchy × DrainCursor} {ids : List Nat}
    (h : FlushedLevel s₀.2.level ids s₀ s) : FlushedLevels s₀ s := by
  refine ⟨h.progress, fun j c hc hj => h.others j c hc (.inr ?_),
    fun _ _ _ hlo hhi => absurd hhi (by rw [h.cursorLevel]; omega)⟩
  rw [h.cursorLevel] at hj
  omega

/-- Flushing the level of the cursor, every cache of it done, then moving the cursor past it. -/
theorem of_flushedLevel_done {s₀ s : Hierarchy × DrainCursor}
    (h : FlushedLevel s₀.2.level (List.range s₀.1.caches.size) s₀ s)
    (hdone : ∀ j ∈ List.range s₀.1.caches.size, ∀ c, s.1.caches[j]? = some c →
      c.level = s₀.2.level → Done s j) :
    FlushedLevels s₀ (s.1, { s.2 with level := s.2.level + 1 }) := by
  have hl := h.cursorLevel
  refine ⟨h.progress.trans (.of_level rfl rfl (by simp)), fun j c hc hj => ?_,
    fun j c hc hlo hhi => ?_⟩
  · exact h.others j c hc (.inr (by dsimp at hj; omega))
  · have hc' : s.1.caches[j]? = some c := hc
    have hj : j < s₀.1.caches.size := by
      rw [← h.progress.drained.size]
      exact (Array.getElem?_eq_some_iff.1 hc').1
    exact hdone j (List.mem_range.2 hj) c hc' (by dsimp at hhi; omega)

end FlushedLevels

/-- The body of the loop over the levels: flushing every cache on the level of the cursor
flushes the levels up to it, an unclean answer names an unclean cache, and a clean one lets
the cursor pass the level. -/
theorem flushLevel_cursor (now : Nat) (s₀ : Hierarchy × DrainCursor) :
    ⦃fun s => ⌜s = s₀ ∧ s₀.2.nextSet.length = s₀.1.caches.size⌝⦄
    Drain.flushLevel s₀.2.level now (List.range s₀.1.caches.size)
    ⦃post⟨fun r s => ⌜FlushedLevels s₀ s ∧ (r = false → ∃ j, s.1.Unclean j) ∧
        (r = true → s.2.nextSet.length = s.1.caches.size ∧
          FlushedLevels s₀ (s.1, { s.2 with level := s.2.level + 1 }))⌝,
      fun _ s => ⌜FlushedLevels s₀ s⌝⟩⦄ := by
  have hfl := flushLevel_flushes s₀.2.level now (List.range s₀.1.caches.size) s₀
  mvcgen [-Drain.flushLevel_pinned, -Drain.flushLevel_exclusive, hfl]
  · rename_i s hpre
    obtain ⟨rfl, hlen⟩ := hpre
    exact ⟨rfl, List.nodup_range, fun j hj => hlen ▸ List.mem_range.1 hj⟩
  · rename_i s hpre r s₁
    obtain ⟨rfl, hlen⟩ := hpre
    intro hfl hdone hunclean
    refine ⟨.of_flushedLevel hfl, hunclean, fun hr => ⟨?_, .of_flushedLevel_done hfl (hdone hr)⟩⟩
    rw [hfl.progress.length, hlen, hfl.progress.drained.size]
  · rename_i s hpre e s₁
    obtain ⟨rfl, -⟩ := hpre
    exact .of_flushedLevel

/-- Flushing the levels from the cursor's on, with a next set for every cache: every cache
off those levels is untouched, and the cursor passes a level only with its caches done. -/
theorem flushLevels_flushes (now maxLevel : Nat) :
    ∀ (fuel : Nat) (s₀ : Hierarchy × DrainCursor),
    ⦃fun s => ⌜s = s₀ ∧ s₀.2.nextSet.length = s₀.1.caches.size⌝⦄
    Drain.flushLevels now maxLevel fuel
    ⦃post⟨fun r s => ⌜FlushedLevels s₀ s ∧ (r = false → ∃ j, s.1.Unclean j)⌝,
      fun _ s => ⌜FlushedLevels s₀ s⌝⟩⦄
  | 0, s₀ => by
    unfold Drain.flushLevels
    mvcgen
    rename_i s hpre
    obtain ⟨rfl, -⟩ := hpre
    exact ⟨.refl _, fun h => absurd h (by decide)⟩
  | fuel + 1, s₀ => by
    have ih := triple_after (flushLevels_flushes now maxLevel fuel)
      (fun s₁ r s (h₀₁ : FlushedLevels s₀ s₁)
        (h : FlushedLevels s₁ s ∧ (r = false → ∃ j, s.1.Unclean j)) =>
        (⟨h₀₁.trans h.1, h.2⟩ : FlushedLevels s₀ s ∧ (r = false → ∃ j, s.1.Unclean j)))
      (fun s₁ _ s (h₀₁ : FlushedLevels s₀ s₁) (h : FlushedLevels s₁ s) =>
        (h₀₁.trans h : FlushedLevels s₀ s))
    have hlevel := flushLevel_cursor now
    unfold Drain.flushLevels
    generalize Drain.flushLevels now maxLevel fuel = flushRest at ih ⊢
    mvcgen [-Drain.flushLevel_pinned, -Drain.flushLevel_exclusive, hlevel, ih,
      Drain.cursor, Drain.moveCursor]
    -- past the last level nothing is flushed; otherwise what the body gives is handed on, to
    -- the rest of the loop when the cursor passes the level
    all_goals
      dsimp +zetaDelta only at *
      obtain ⟨rfl, hlen⟩ := ‹_ = s₀ ∧ _›
      grind [FlushedLevels.refl]

/-! ## One call -/

/-- The state a call of the drain flushes from: a cursor without a next set for every cache
starts over. -/
def resumed (s : Hierarchy × DrainCursor) : Hierarchy × DrainCursor :=
  (s.1, if s.2.nextSet.length = s.1.caches.size then s.2 else DrainCursor.start s.1)

theorem start_length (h : Hierarchy) : (DrainCursor.start h).nextSet.length = h.caches.size :=
  List.length_replicate ..

/-- One call of the drain: from the state it resumes, the levels flushed up to where the loop
stopped, after which only the cursor may start over; a clean report means a clean hierarchy. -/
theorem step_spec (now : Nat) (s₀ : Hierarchy × DrainCursor) :
    ⦃fun s => ⌜s = s₀⌝⦄ Drain.step now
    ⦃post⟨fun b s => ⌜(∃ mid, FlushedLevels (resumed s₀) mid ∧ mid.1 = s.1 ∧
        (s.2 = mid.2 ∨ s.2 = DrainCursor.start s.1)) ∧ (b = true ↔ s.1.isClean = true)⌝,
      fun _ s => ⌜FlushedLevels (resumed s₀) s⌝⟩⦄ := by
  unfold Drain.step
  mvcgen [-Drain.flushLevels_pinned, -Drain.flushLevels_exclusive, flushLevels_flushes]
  -- the loop ran from `resumed s₀`, in both branches of the first test
  all_goals
    subst_vars
    grind [resumed, start_length, Hierarchy.isClean_eq_false_of_unclean]

/-- One call of the drain, from any hierarchy and any cursor. It only invalidates lines: never
a line locked when the call began, and a line that needs a writeback only once its writeback is
queued. From the cursor it resumes, the caches off the levels it went through keep their lines
and next sets, every set the cursor passed is invalid, and every cache of a level it passed has
all its sets behind the cursor and an empty MSHR. It reports the hierarchy clean exactly when
the directory has no entry, no MSHR holds a packet and every line is invalid. -/
theorem step_drains_level_by_level (now : Nat) (h : Hierarchy) (cur : DrainCursor) :
    let out := Id.run ((Drain.step now).run.run (h, cur))
    h.Drained out.2.1 ∧
    (∃ mid, FlushedLevels (resumed (h, cur)) mid ∧ mid.1 = out.2.1 ∧
      (out.2.2 = mid.2 ∨ out.2.2 = DrainCursor.start out.2.1)) ∧
    ∀ clean, out.1 = .ok clean →
      (clean = true ↔ out.2.1.directory.entries = [] ∧
        ∀ c ∈ out.2.1.caches, c.mshr.count = 0 ∧ ∀ i w, (c.line i w).status = .i) := by
  intro out
  obtain ⟨hok, herr⟩ := run_of_triple_post (step_spec now (h, cur)) (s := (h, cur)) rfl
  -- where the loop over the levels stopped: an error stops the call there
  have hmid : ∃ mid, FlushedLevels (resumed (h, cur)) mid ∧ mid.1 = out.2.1 ∧
      (out.2.2 = mid.2 ∨ out.2.2 = DrainCursor.start out.2.1) := by
    cases hr : out.1 with
    | ok clean => exact (hok clean hr).1
    | error e => exact ⟨out.2, herr e hr, rfl, .inl rfl⟩
  have hd : h.Drained out.2.1 := by
    obtain ⟨mid, hfl, hh, -⟩ := hmid
    exact hh ▸ hfl.progress.drained
  refine ⟨hd, hmid, fun clean hr => ?_⟩
  rw [← Hierarchy.isClean_iff]
  exact (hok clean hr).2

/-- One cache of one set and one way, holding a shared line, and a cursor never started: the
call starts the cursor over, drops the line and reports the hierarchy clean. -/
theorem step_drains_shared_line :
    let c : Cache := { (default : Cache) with
      setCount := 1, ways := 1, lines := #[#[{ tag := 64, status := .s }]] }
    let out := Id.run ((Drain.step 0).run.run (⟨#[c], default⟩, default))
    out.1 = .ok true ∧
      (true = true ↔ out.2.1.directory.entries = [] ∧
        ∀ c ∈ out.2.1.caches, c.mshr.count = 0 ∧ ∀ i w, (c.line i w).status = .i) := by
  intro c out
  have hr : out.1 = .ok true := by decide +kernel
  exact ⟨hr, (step_drains_level_by_level 0 _ default).2.2 true hr⟩

end Drain

end CacheHierarchy
