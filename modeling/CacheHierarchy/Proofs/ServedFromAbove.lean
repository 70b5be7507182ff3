import Mathlib
import CacheHierarchy.Proofs.PinnedRuns

open Std.Do

set_option autoImplicit false
set_option mvcgen.warning false

/-! # A miss served from a cache above

A request that misses at a cache installs its line there and asks the caches above for the
freshest copy (`Hierarchy.ownerAbove`). When a cache above holds the line valid, the request
is served from that copy: it comes back as an answer that the cache treats itself, and it
never goes on to the caches below. Installing the line changes the tags of the missing cache
and of no other (`Action.install_served_above`).

So inclusion towards the last level holds along the way a request travels, not along the
route of the cache that ends up holding the line. A cache linked above two caches may take a
line through one of them, and a cache below the other may then take it from that copy: the
last-level cache on its own route never receives the line. A machine set up with such links
shows it after a few dozen cycles (`Machine.served_line_missing_below`); what an inclusive
policy does enforce is that an eviction clears every copy above
(`Machine.eviction_clears_caches_above`).
-/

namespace CacheHierarchy

/-- A packet enters a phase while the cycle it may move on at is a word. -/
theorem Packet.enter_eq_ok_iff {p q : Packet} {phase : Phase} {now stall : Nat} :
    p.enter phase now stall = .ok q ↔
      now + stall < wordSize ∧ q = { p with phase, ready := now + stall } := by
  unfold Packet.enter Word.add
  split <;> simp [*, eq_comm]

namespace Hierarchy

/-- The tags of cache `j`, if there is one. -/
def tagsAt (h : Hierarchy) (j : Nat) : Option (List (List UInt64)) := (h.caches[j]?).map Cache.tags

/-- `h` has the tags of `h₀` in every cache but `id`. -/
def TagsOff (h₀ h : Hierarchy) (id : Nat) : Prop := ∀ j, j ≠ id → h.tagsAt j = h₀.tagsAt j

theorem tagsAt_of_tags {h h' : Hierarchy} (ht : h'.tags = h.tags) (j : Nat) :
    h'.tagsAt j = h.tagsAt j := by
  have hj := congrArg (fun t => t[j]?) ht
  simpa [tags, tagsAt] using hj

@[simp] theorem tagsAt_modifyDirectory (h : Hierarchy) (f : Directory → Directory) (j : Nat) :
    (h.modifyDirectory f).tagsAt j = h.tagsAt j := rfl

@[simp] theorem tagsAt_ownerAbove (h : Hierarchy) (fuel id : Nat) (addr : UInt64) (b : Bool)
    (j : Nat) : (h.ownerAbove fuel id addr b).2.tagsAt j = h.tagsAt j :=
  tagsAt_of_tags (tags_ownerAbove h fuel id addr b) j

theorem tagsAt_modifyCache_of_ne (h : Hierarchy) {id j : Nat} (hj : j ≠ id) (f : Cache → Cache) :
    (h.modifyCache id f).tagsAt j = h.tagsAt j := by
  rw [tagsAt, caches_modifyCache_of_ne h hj, tagsAt]

@[simp] theorem TagsOff.refl (h : Hierarchy) (id : Nat) : TagsOff h h id := fun _ _ => rfl

/-! Changes of cache `id`, of the directory and of statuses keep the tags off `id`. -/

@[simp] theorem tagsOff_modifyCache_self {h₀ h : Hierarchy} {id : Nat} {f : Cache → Cache} :
    TagsOff h₀ (h.modifyCache id f) id ↔ TagsOff h₀ h id :=
  forall₂_congr fun _ hj => by rw [tagsAt_modifyCache_of_ne h hj]

@[simp] theorem tagsOff_modifyDirectory {h₀ h : Hierarchy} {id : Nat}
    {f : Directory → Directory} : TagsOff h₀ (h.modifyDirectory f) id ↔ TagsOff h₀ h id :=
  Iff.rfl

@[simp] theorem tagsOff_ownerAbove {h₀ h : Hierarchy} {id : Nat} (fuel j : Nat) (addr : UInt64)
    (b : Bool) : TagsOff h₀ (h.ownerAbove fuel j addr b).2 id ↔ TagsOff h₀ h id := by
  simp only [TagsOff, tagsAt_ownerAbove]

end Hierarchy

namespace Action

/-- A request installed at cache `id` changes the tags of no other cache, and when it comes
back as an answer, the cache treats it itself: the line was found valid above, so the request
does not go on below. -/
theorem install_served_above (id : Nat) (c : Cache) (p : Packet) (entry : Option Nat)
    (index way now : Nat) (h₀ : Hierarchy) :
    ⦃fun h => ⌜h = h₀ ∧ p.isAnswer = false⌝⦄ Action.install id c p entry index way now
    ⦃post⟨fun q h => ⌜h₀.TagsOff h id ∧ (q.isAnswer = true → q.phase = .untreated)⌝,
      fun _ h => ⌜h₀.TagsOff h id⌝⟩⦄ := by
  unfold Action.install Action.stampEntry Action.passOn Action.countLineHit
  mvcgen -trivial [Action.updateCache, Action.ownerAbove, Action.directory,
    Action.updateDirectory, Action.cache, Action.ofExcept, Fault.check, Action.fail]
  all_goals
    try dsimp +zetaDelta only at *
    obtain ⟨rfl, hp⟩ := ‹_ = h₀ ∧ _›
  -- a packet that enters a phase keeps what it is, request or answer
  all_goals simp_all [Packet.enter_eq_ok_iff, Packet.route, apply_ite]

end Action

/-- Two first-level caches over one second-level cache, under an inclusive last-level policy.
The first also links to a last-level cache of its own, and the second-level cache to another
one. -/
def Config.twoLastLevels : Config :=
  { lineSize := 64, heartbeat := 0, periodicCheck := 0,
    directory := { inclusion := .inclusiveLlc },
    caches := [
      { label := "L1_0", lineNumber := 4, associativity := 2, mshrRequest := 2,
        lowerLevel := ["LLC_0", "L2"] },
      { label := "L1_1", lineNumber := 4, associativity := 2, mshrRequest := 2,
        lowerLevel := ["L2"] },
      { label := "L2", level := 2, lineNumber := 4, associativity := 2, mshrRequest := 2,
        lowerLevel := ["LLC_1"] },
      { label := "LLC_0", level := 3, lineNumber := 4, associativity := 2, mshrRequest := 2 },
      { label := "LLC_1", level := 3, lineNumber := 4, associativity := 2, mshrRequest := 2 }],
    memory := { latency := 5, bufferSize := 4 },
    cores := [{ label := "core0", dataCache := "L1_0" },
      { label := "core1", dataCache := "L1_1" }] }

/-- The first core reads line `0x1040`, which its first-level cache takes from the first
last-level cache. The second core reads two other lines, then `0x1040`: the second-level cache
misses and takes the line from the first-level copy above it. After 27 cycles the second-level
cache holds the line shared, while the last-level cache on its own route holds no way for it. -/
theorem Machine.served_line_missing_below :
    ∃ m₀ m : Machine, Machine.new Config.twoLastLevels
      [⟨[⟨.read, 0x1040, 8, 0⟩]⟩,
        ⟨[⟨.read, 0x2000, 8, 0⟩, ⟨.read, 0x3000, 8, 0⟩, ⟨.read, 0x1040, 8, 0⟩]⟩] = .ok m₀ ∧
      m₀.Reaches m ∧ ∃ c₂ c₄, m.hierarchy.caches[2]? = some c₂ ∧
        m.hierarchy.caches[4]? = some c₄ ∧ c₂.statusOf 0x1040 = .s ∧
        m.hierarchy.nextHop c₂ 0x1040 = .ok 4 ∧ c₄.isLastLevel = true ∧
        c₄.findLine 0x1040 = none := by
  obtain ⟨m₀, m, hnew, hr, hq⟩ := Machine.exists_reaches_of_sessionPasses (by decide +kernel :
    Machine.sessionPasses Config.twoLastLevels
      [⟨[⟨.read, 0x1040, 8, 0⟩]⟩,
        ⟨[⟨.read, 0x2000, 8, 0⟩, ⟨.read, 0x3000, 8, 0⟩, ⟨.read, 0x1040, 8, 0⟩]⟩]
      [{ mode := .steps 27 }]
      (fun m => (m.hierarchy.caches[2]?).any fun c₂ => (m.hierarchy.caches[4]?).any fun c₄ =>
        c₂.statusOf 0x1040 == .s && decide (m.hierarchy.nextHop c₂ 0x1040 = .ok 4) &&
          c₄.isLastLevel && c₄.findLine 0x1040 == none) = true)
  simp only [Option.any_eq_true, Bool.and_eq_true, beq_iff_eq, decide_eq_true_eq] at hq
  obtain ⟨c₂, h₂, c₄, h₄, ⟨⟨hs, hhop⟩, hlast⟩, hnone⟩ := hq
  exact ⟨m₀, m, hnew, hr, c₂, c₄, h₂, h₄, hs, hhop, hlast, hnone⟩

end CacheHierarchy
