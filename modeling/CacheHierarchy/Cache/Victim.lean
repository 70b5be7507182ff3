import CacheHierarchy.Cache.Basic

set_option autoImplicit false

/-! # Choosing a victim

To make room for the line of an address, a cache picks a way of that address's set. A way
whose tag is locked by a transaction in flight is never picked; if the locked tag is the
very line asked for, the request and the lock contradict each other, which is a protocol
error under the LRU policies.

* LRU (and DEAD_OR_LRU, as no line is ever reported dead) takes the least recently accessed
  unlocked way, the last of equals.
* INVALID_OR_LRU takes the first unlocked invalid way, else as LRU.
* RANDOM draws a way from the cache's stream and gives up if it is locked.
-/

namespace CacheHierarchy

namespace Cache

/-- The least recently accessed unlocked way of `ways`, the last of equals, given the best
access cycle `best` and way `choice` so far. -/
def lruWay (c : Cache) (addr : UInt64) (locked : UInt64 → Bool) :
    List (Nat × Line) → Nat → Option Nat → Except ProtocolError (Option Nat)
  | [], _, choice => .ok choice
  | (w, l) :: rest, best, choice =>
    if locked l.tag then
      if c.fields.sameLine l.tag addr then .error (.evictLockedTag c.id addr)
      else lruWay c addr locked rest best choice
    else if l.lastAccess ≤ best then lruWay c addr locked rest l.lastAccess (some w)
    else lruWay c addr locked rest best choice

def waysOf (c : Cache) (index : Nat) : List (Nat × Line) :=
  (c.lines.getD index #[]).toList.zipIdx.map fun (l, w) => (w, l)

/-- The victim for the line of `addr`, as set and way, or `none` when no way can be taken
now; the cache after the choice (a random choice moves its stream). -/
def victim (c : Cache) (addr : UInt64) (locked : UInt64 → Bool) :
    Except ProtocolError (Option (Nat × Nat) × Cache) := do
  let index := c.fields.indexOf addr
  let ways := c.waysOf index
  let lru : Except ProtocolError (Option (Nat × Nat) × Cache) := do
    let w ← c.lruWay addr locked ways wordMax none
    pure (w.map (index, ·), c)
  match c.replacement with
  | .lru | .deadOrLru => lru
  | .invalidOrLru =>
    match ways.find? fun (_, l) => l.status == .i && !locked l.tag with
    | some (w, _) => pure (some (index, w), c)
    | none => lru
  | .random =>
    let (w, s) := c.random.below c.ways
    let c := { c with random := s }
    pure (if locked (c.line index w).tag then none else some (index, w), c)
  | .fifo | .lrf => throw (.unsupportedReplacement c.id c.replacement)

theorem lruWay_mem (c : Cache) (addr : UInt64) (locked : UInt64 → Bool) :
    ∀ (ways : List (Nat × Line)) (best : Nat) (choice : Option Nat) (w : Nat),
      c.lruWay addr locked ways best choice = .ok (some w) →
        choice = some w ∨ ∃ l, (w, l) ∈ ways ∧ locked l.tag = false := by
  intro ways
  induction ways with
  | nil => intro best choice w h; simp [lruWay] at h; exact .inl h
  | cons hd rest ih =>
    intro best choice w h
    obtain ⟨v, l⟩ := hd
    simp only [lruWay] at h
    split at h
    · split at h
      · cases h
      · rcases ih best choice w h with h | ⟨l', hm, hl⟩
        · exact .inl h
        · exact .inr ⟨l', List.mem_cons_of_mem _ hm, hl⟩
    · rename_i hlock
      split at h
      · rcases ih l.lastAccess (some v) w h with h | ⟨l', hm, hl⟩
        · cases h; exact .inr ⟨l, List.mem_cons_self, by simpa using hlock⟩
        · exact .inr ⟨l', List.mem_cons_of_mem _ hm, hl⟩
      · rcases ih best choice w h with h | ⟨l', hm, hl⟩
        · exact .inl h
        · exact .inr ⟨l', List.mem_cons_of_mem _ hm, hl⟩

end Cache

end CacheHierarchy
