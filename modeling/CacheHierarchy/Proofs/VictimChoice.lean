import Mathlib
import CacheHierarchy.Proofs.Setup

set_option autoImplicit false

/-! # Which way a cache gives up

To make room for the line of an address it does not hold, a cache picks a way of that
address's set (`Cache.victim`). This module states the pick of each policy on its own terms,
without the scan that makes it, and proves the scan makes it.

* LRU takes the way of least last access among the unlocked ways, and of those the one with the
  highest number (`Cache.IsLru`); it takes nothing when every way is locked (`Cache.LruPick`).
  The scan keeps a running minimum and moves to a way whose access is no later than it, so the
  last of equals wins.
* INVALID_OR_LRU takes the lowest-numbered unlocked invalid way (`Cache.IsFirstInvalid`), else
  what LRU takes (`Cache.InvalidPick`).
* RANDOM draws a way and gives up if it is locked.

Main statement: for an address whose line no way of its set holds, the choice never fails,
never takes a locked way, and takes the way its policy names (`Cache.victim_picks`).
-/

namespace CacheHierarchy

namespace Cache

/-! ## The picks of the policies -/

/-- Way `w`, holding `l`, is the one LRU takes from `ways`: it is unlocked, no unlocked way
was accessed before it, and among the unlocked ways accessed when it was it has the highest
number. -/
structure IsLru (locked : UInt64 → Bool) (ways : List (Nat × Line)) (w : Nat) (l : Line) :
    Prop where
  mem : (w, l) ∈ ways
  unlocked : locked l.tag = false
  oldest : ∀ v l', (v, l') ∈ ways → locked l'.tag = false → l.lastAccess ≤ l'.lastAccess
  last : ∀ v l', (v, l') ∈ ways → locked l'.tag = false → l'.lastAccess = l.lastAccess → v ≤ w

/-- What LRU takes from `ways`: its way, or nothing exactly when every way is locked. -/
def LruPick (locked : UInt64 → Bool) (ways : List (Nat × Line)) (o : Option Nat) : Prop :=
  (∀ w, o = some w ↔ ∃ l, IsLru locked ways w l) ∧
    (o = none ↔ ∀ x ∈ ways, locked x.2.tag = true)

/-- Way `w`, holding `l`, is the lowest-numbered unlocked invalid way of `ways`. -/
structure IsFirstInvalid (locked : UInt64 → Bool) (ways : List (Nat × Line)) (w : Nat) (l : Line) :
    Prop where
  mem : (w, l) ∈ ways
  invalid : l.status = .i
  unlocked : locked l.tag = false
  first : ∀ v l', (v, l') ∈ ways → l'.status = .i → locked l'.tag = false → w ≤ v

/-- What INVALID_OR_LRU takes from `ways`: its first unlocked invalid way, or, when every
invalid way is locked, what LRU takes. -/
def InvalidPick (locked : UInt64 → Bool) (ways : List (Nat × Line)) (o : Option Nat) : Prop :=
  (∃ w l, o = some w ∧ IsFirstInvalid locked ways w l) ∨
    ((∀ x ∈ ways, x.2.status = .i → locked x.2.tag = true) ∧ LruPick locked ways o)

/-- A configuration that passes its checks names an implemented policy. -/
theorem validate_implemented {cfg : CacheConfig} {lineSize : Nat} {u : Unit}
    (h : validate cfg lineSize = .ok u) : cfg.replacement ≠ .fifo ∧ cfg.replacement ≠ .lrf := by
  constructor <;> intro hr <;>
  · simp [validate, hr, throw, throwThe, MonadExceptOf.throw, bind, Except.bind] at h
    split_ifs at h

/-- Every cache as built has an implemented policy. -/
theorem implemented_of_build {id : Nat} {cfg : CacheConfig} {lineSize : Nat} {c : Cache}
    (h : build id cfg lineSize = .ok c) : c.replacement ≠ .fifo ∧ c.replacement ≠ .lrf := by
  obtain ⟨hv, -, -, hrep⟩ := build_keeps h
  rw [hrep]
  exact validate_implemented hv

variable {locked : UInt64 → Bool}

/-- LRU names one way at most. -/
theorem IsLru.unique {ways : List (Nat × Line)} {w w' : Nat} {l l' : Line}
    (h : IsLru locked ways w l) (h' : IsLru locked ways w' l') : w = w' := by
  have hage : l.lastAccess = l'.lastAccess :=
    Nat.le_antisymm (h.oldest w' l' h'.mem h'.unlocked) (h'.oldest w l h.mem h.unlocked)
  exact Nat.le_antisymm (h'.last w l h.mem h.unlocked hage) (h.last w' l' h'.mem h'.unlocked hage.symm)

/-- A way ahead of the LRU way of the rest, locked or accessed later, or numbered lower and
accessed as late, leaves it the LRU way. -/
theorem IsLru.cons {ways : List (Nat × Line)} {w v : Nat} {l l₀ : Line}
    (h : IsLru locked ways w l)
    (hv : locked l₀.tag = false → l.lastAccess ≤ l₀.lastAccess ∧ (l₀.lastAccess = l.lastAccess → v ≤ w)) :
    IsLru locked ((v, l₀) :: ways) w l := by
  refine ⟨List.mem_cons_of_mem _ h.mem, h.unlocked, fun u l' hu hl' => ?_, fun u l' hu hl' => ?_⟩
  · rcases List.mem_cons.1 hu with hu | hu
    · cases hu
      exact (hv hl').1
    · exact h.oldest u l' hu hl'
  · rcases List.mem_cons.1 hu with hu | hu
    · cases hu
      exact (hv hl').2
    · exact h.last u l' hu hl'

/-- An unlocked way accessed before every unlocked way after it is the LRU way. -/
theorem IsLru.head {ways : List (Nat × Line)} {v : Nat} {l₀ : Line} (hl₀ : locked l₀.tag = false)
    (hafter : ∀ x ∈ ways, locked x.2.tag = false → l₀.lastAccess < x.2.lastAccess) :
    IsLru locked ((v, l₀) :: ways) v l₀ := by
  refine ⟨List.mem_cons_self, hl₀, fun u l' hu hl' => ?_, fun u l' hu hl' hage => ?_⟩
  · rcases List.mem_cons.1 hu with hu | hu
    · cases hu
      exact le_rfl
    · exact (hafter _ hu hl').le
  · rcases List.mem_cons.1 hu with hu | hu
    · cases hu
      exact le_rfl
    · exact absurd hage (hafter _ hu hl').ne'

/-! ## The scan of LRU -/

/-- The places of a list, numbered from `k` up. -/
theorem pairwise_zipIdx {α : Type} : ∀ (l : List α) (k : Nat),
    (l.zipIdx k).Pairwise fun x y => x.2 < y.2
  | [], _ => List.Pairwise.nil
  | a :: l, k => by
    rw [List.zipIdx_cons, List.pairwise_cons]
    exact ⟨fun y hy => List.le_snd_of_mem_zipIdx hy, pairwise_zipIdx l (k + 1)⟩

/-- The ways of a set, numbered from 0 up. -/
theorem waysOf_sorted (c : Cache) (index : Nat) :
    (c.waysOf index).Pairwise fun x y => x.1 < y.1 := by
  unfold waysOf
  rw [List.pairwise_map]
  refine (pairwise_zipIdx _ 0).imp ?_
  rintro ⟨l, w⟩ ⟨l', w'⟩ h
  exact h

/-- The scan of LRU, from the best access `best` and way `choice` so far. When some unlocked
way was accessed no later than `best`, the scan ends at the LRU way; when none was, it keeps
`choice`. It never fails on ways that hold another line than the one asked for. -/
theorem lruWay_spec (c : Cache) (addr : UInt64) (locked : UInt64 → Bool) :
    ∀ (ways : List (Nat × Line)), ways.Pairwise (fun x y => x.1 < y.1) →
      (∀ x ∈ ways, c.fields.sameLine x.2.tag addr = false) →
      ∀ (best : Nat) (choice : Option Nat), ∃ r, c.lruWay addr locked ways best choice = .ok r ∧
        ((∃ x ∈ ways, locked x.2.tag = false ∧ x.2.lastAccess ≤ best) →
          ∃ w l, r = some w ∧ IsLru locked ways w l) ∧
        ((∀ x ∈ ways, locked x.2.tag = false → best < x.2.lastAccess) → r = choice) := by
  intro ways
  induction ways with
  | nil =>
    intro _ _ best choice
    exact ⟨choice, rfl, fun ⟨_, hx, _⟩ => absurd hx List.not_mem_nil, fun _ => rfl⟩
  | cons x rest ih =>
    intro hsorted hoff best choice
    obtain ⟨w, l⟩ := x
    obtain ⟨hbelow, hrest⟩ := List.pairwise_cons.1 hsorted
    have hoffRest : ∀ y ∈ rest, c.fields.sameLine y.2.tag addr = false :=
      fun y hy => hoff y (List.mem_cons_of_mem _ hy)
    have hl : c.fields.sameLine l.tag addr = false := hoff (w, l) List.mem_cons_self
    by_cases hlock : locked l.tag = true
    · -- a locked way is passed over
      obtain ⟨r, hr, hsome, hkeep⟩ := ih hrest hoffRest best choice
      refine ⟨r, by simp [lruWay, hlock, hl, hr], fun ⟨y, hy, hyu, hyb⟩ => ?_, fun hall => ?_⟩
      · rcases List.mem_cons.1 hy with rfl | hy
        · simp [hlock] at hyu
        · obtain ⟨w', l', rfl, hlru⟩ := hsome ⟨y, hy, hyu, hyb⟩
          exact ⟨w', l', rfl, hlru.cons fun h => by simp [hlock] at h⟩
      · exact hkeep fun y hy => hall y (List.mem_cons_of_mem _ hy)
    · simp only [Bool.not_eq_true] at hlock
      by_cases hle : l.lastAccess ≤ best
      · -- the way becomes the choice, and its access the best
        obtain ⟨r, hr, hsome, hkeep⟩ := ih hrest hoffRest l.lastAccess (some w)
        refine ⟨r, by simp [lruWay, hlock, hle, hr], fun _ => ?_, fun hall => ?_⟩
        · by_cases hex : ∃ y ∈ rest, locked y.2.tag = false ∧ y.2.lastAccess ≤ l.lastAccess
          · -- a way further on was accessed no later: the LRU way is there
            obtain ⟨w', l', rfl, hlru⟩ := hsome hex
            obtain ⟨y, hy, hyu, hyb⟩ := hex
            have hw' : w < w' := hbelow (w', l') hlru.mem
            refine ⟨w', l', rfl, hlru.cons fun _ => ⟨?_, fun _ => hw'.le⟩⟩
            exact (hlru.oldest y.1 y.2 hy hyu).trans hyb
          · -- every unlocked way further on was accessed later: this way is the LRU way
            have hafter : ∀ y ∈ rest, locked y.2.tag = false → l.lastAccess < y.2.lastAccess :=
              fun y hy hyu => Nat.lt_of_not_le fun hyb => hex ⟨y, hy, hyu, hyb⟩
            exact ⟨w, l, hkeep hafter, IsLru.head hlock hafter⟩
        · exact absurd hle (Nat.not_le.2 (hall (w, l) List.mem_cons_self hlock))
      · -- a way accessed later than the best so far is passed over
        obtain ⟨r, hr, hsome, hkeep⟩ := ih hrest hoffRest best choice
        refine ⟨r, by simp [lruWay, hlock, hle, hr], fun ⟨y, hy, hyu, hyb⟩ => ?_, fun hall => ?_⟩
        · rcases List.mem_cons.1 hy with rfl | hy
          · exact absurd hyb hle
          · obtain ⟨w', l', rfl, hlru⟩ := hsome ⟨y, hy, hyu, hyb⟩
            have hage : l'.lastAccess < l.lastAccess :=
              lt_of_le_of_lt ((hlru.oldest y.1 y.2 hy hyu).trans hyb) (Nat.lt_of_not_le hle)
            exact ⟨w', l', rfl, hlru.cons fun _ => ⟨hage.le, fun h => absurd h hage.ne'⟩⟩
        · exact hkeep fun y hy => hall y (List.mem_cons_of_mem _ hy)

/-- From the start, with every access a word, the scan makes the pick of LRU. -/
theorem lruPick_lruWay (c : Cache) (addr : UInt64) (locked : UInt64 → Bool)
    {ways : List (Nat × Line)} (hsorted : ways.Pairwise (fun x y => x.1 < y.1))
    (hoff : ∀ x ∈ ways, c.fields.sameLine x.2.tag addr = false)
    (hword : ∀ x ∈ ways, x.2.lastAccess ≤ wordMax) :
    ∃ o, c.lruWay addr locked ways wordMax none = .ok o ∧ LruPick locked ways o := by
  obtain ⟨o, ho, hsome, hnone⟩ := c.lruWay_spec addr locked ways hsorted hoff wordMax none
  refine ⟨o, ho, ?_⟩
  by_cases hex : ∃ x ∈ ways, locked x.2.tag = false
  · obtain ⟨x, hx, hxu⟩ := hex
    obtain ⟨w, l, rfl, hlru⟩ := hsome ⟨x, hx, hxu, hword x hx⟩
    refine ⟨fun w' => ⟨?_, fun ⟨l', hlru'⟩ => by rw [hlru.unique hlru']⟩, ?_⟩
    · rintro ⟨⟩
      exact ⟨l, hlru⟩
    · exact ⟨fun h => (by cases h), fun hall => absurd (hall x hx) (by simp [hxu])⟩
  · have hall : ∀ x ∈ ways, locked x.2.tag = true := fun x hx => by
      simpa using fun hxu => hex ⟨x, hx, hxu⟩
    have hno : o = none := hnone fun x hx hxu => absurd (hall x hx) (by simp [hxu])
    subst hno
    exact ⟨fun w => ⟨fun h => (by cases h), fun ⟨l, hlru⟩ => absurd (hall _ hlru.mem)
      (by simp [hlru.unlocked])⟩, ⟨fun _ => hall, fun _ => rfl⟩⟩

/-! ## The first invalid way -/

/-- Whether a way is an unlocked invalid one, the test of INVALID_OR_LRU. -/
theorem isFirstInvalid_of_find? {ways : List (Nat × Line)}
    (hsorted : ways.Pairwise (fun x y => x.1 < y.1)) {w : Nat} {l : Line}
    (h : ways.find? (fun x => x.2.status == .i && !locked x.2.tag) = some (w, l)) :
    IsFirstInvalid locked ways w l := by
  obtain ⟨hp, pre, post, rfl, hpre⟩ := List.find?_eq_some_iff_append.1 h
  simp only [Bool.and_eq_true, beq_iff_eq, Bool.not_eq_eq_eq_not, Bool.not_true] at hp
  refine ⟨by simp, hp.1, hp.2, fun v l' hv hinv hfree => ?_⟩
  -- the ways before the first one that passes fail the test; those after have higher numbers
  rcases List.mem_append.1 hv with hv | hv
  · have := hpre (v, l') hv
    simp [hinv, hfree] at this
  · rcases List.mem_cons.1 hv with hv | hv
    · cases hv
      exact le_rfl
    · exact (List.rel_of_pairwise_cons (List.pairwise_append.1 hsorted).2.1 hv).le

theorem locked_of_find?_eq_none {ways : List (Nat × Line)}
    (h : ways.find? (fun x => x.2.status == .i && !locked x.2.tag) = none) :
    ∀ x ∈ ways, x.2.status = .i → locked x.2.tag = true := by
  intro x hx hinv
  have := List.find?_eq_none.1 h x hx
  simpa [hinv] using this

/-! ## The choice of a victim -/

/-- For an address whose line no way of its set holds, in a cache of an implemented policy
whose accesses are words, the choice of a victim never fails and never takes a locked way; it
takes the way LRU names under LRU and DEAD_OR_LRU, and the way INVALID_OR_LRU names under that
policy. -/
theorem victim_picks (c : Cache) (addr : UInt64) (locked : UInt64 → Bool)
    (himpl : c.replacement ≠ .fifo ∧ c.replacement ≠ .lrf) (hfree : c.findLine addr = none)
    (hword : ∀ x ∈ c.waysOf (c.fields.indexOf addr), x.2.lastAccess ≤ wordMax) :
    ∃ o c', c.victim addr locked = .ok (o.map (c.fields.indexOf addr, ·), c') ∧
      (∀ w ∈ o, locked (c.line (c.fields.indexOf addr) w).tag = false) ∧
      ((c.replacement = .lru ∨ c.replacement = .deadOrLru) →
        LruPick locked (c.waysOf (c.fields.indexOf addr)) o) ∧
      (c.replacement = .invalidOrLru → InvalidPick locked (c.waysOf (c.fields.indexOf addr)) o) := by
  have hsorted := c.waysOf_sorted (c.fields.indexOf addr)
  have hoff : ∀ x ∈ c.waysOf (c.fields.indexOf addr), c.fields.sameLine x.2.tag addr = false := by
    rintro ⟨w, l⟩ hx
    obtain ⟨hw, rfl⟩ := mem_waysOf c _ w l hx
    exact sameLine_of_findLine_eq_none c addr hfree w hw
  -- a way named by a pick is a way of the set, and its line is the one the pick saw
  have hline : ∀ w l, (w, l) ∈ c.waysOf (c.fields.indexOf addr) → locked l.tag = false →
      locked (c.line (c.fields.indexOf addr) w).tag = false := fun w l hx hl => by
    rw [(mem_waysOf c _ w l hx).2]
    exact hl
  obtain ⟨o, ho, hpick⟩ := c.lruPick_lruWay addr locked hsorted hoff hword
  have hlruFree : ∀ w ∈ o, locked (c.line (c.fields.indexOf addr) w).tag = false := by
    intro w hw
    obtain ⟨l, hlru⟩ := (hpick.1 w).1 hw
    exact hline w l hlru.mem hlru.unlocked
  unfold victim
  dsimp only
  split
  · exact ⟨o, c, by simp [ho, bind, Except.bind, pure, Except.pure], hlruFree,
      fun _ => hpick, fun h => by simp_all⟩
  · exact ⟨o, c, by simp [ho, bind, Except.bind, pure, Except.pure], hlruFree,
      fun _ => hpick, fun h => by simp_all⟩
  · rename_i hrep
    split
    · -- an unlocked invalid way is taken first
      rename_i w l hfind
      have hfirst := isFirstInvalid_of_find? hsorted hfind
      exact ⟨some w, c, rfl, fun w' hw' => by cases hw'; exact hline w l hfirst.mem hfirst.unlocked,
        fun h => by simp_all, fun _ => .inl ⟨w, l, rfl, hfirst⟩⟩
    · rename_i hfind
      exact ⟨o, c, by simp [ho, bind, Except.bind, pure, Except.pure], hlruFree,
        fun h => by simp_all, fun _ => .inr ⟨locked_of_find?_eq_none hfind, hpick⟩⟩
  · -- a random way is given up when locked
    rename_i hrep
    refine ⟨if locked (c.line (c.fields.indexOf addr) (c.random.below c.ways).1).tag then none
      else some (c.random.below c.ways).1, { c with random := (c.random.below c.ways).2 }, ?_,
      fun w hw => ?_, fun h => by simp_all, fun h => by simp_all⟩
    · simp only [pure, Except.pure]
      by_cases hl : locked (c.line (c.fields.indexOf addr) (c.random.below c.ways).1).tag = true
      · simp [line] at hl ⊢
        simp [hl]
      · simp [line] at hl ⊢
        simp [hl]
    · split at hw
      · cases hw
      · cases hw
        exact Bool.eq_false_iff.2 ‹_›
  · exact absurd ‹_› himpl.1
  · exact absurd ‹_› himpl.2

/-- One set of four ways, accessed at cycles 5, 3, 3 and 9, under LRU with 64-byte lines. -/
def lruTieCache : Cache :=
  { (default : Cache) with
    ways := 4, replacement := .lru, fields := AddressMap.ofLayout .tagIndexOffset 6 0 0,
    lines := #[#[{ tag := 0x0, lastAccess := 5 }, { tag := 0x40, lastAccess := 3 },
                 { tag := 0x80, lastAccess := 3 }, { tag := 0xc0, lastAccess := 9 }]] }

theorem victim_picks_lru_tie :
    (lruTieCache.replacement ≠ .fifo ∧ lruTieCache.replacement ≠ .lrf) ∧
      lruTieCache.findLine 0x1000 = none ∧
      (∀ x ∈ lruTieCache.waysOf (lruTieCache.fields.indexOf 0x1000), x.2.lastAccess ≤ wordMax) ∧
      ∃ o c', lruTieCache.victim 0x1000 (fun _ => false) =
          .ok (o.map (lruTieCache.fields.indexOf 0x1000, ·), c') ∧
        (∀ w ∈ o, (fun _ => false) (lruTieCache.line (lruTieCache.fields.indexOf 0x1000) w).tag =
          false) ∧
        ((lruTieCache.replacement = .lru ∨ lruTieCache.replacement = .deadOrLru) →
          LruPick (fun _ => false) (lruTieCache.waysOf (lruTieCache.fields.indexOf 0x1000)) o) ∧
        (lruTieCache.replacement = .invalidOrLru →
          InvalidPick (fun _ => false) (lruTieCache.waysOf (lruTieCache.fields.indexOf 0x1000)) o) :=
  ⟨by decide, by decide +kernel, by decide,
    victim_picks lruTieCache 0x1000 (fun _ => false) (by decide) (by decide +kernel) (by decide)⟩

end Cache

end CacheHierarchy
