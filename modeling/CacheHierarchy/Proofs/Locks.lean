import Mathlib
import CacheHierarchy.Proofs.Frame

set_option autoImplicit false

/-! # The lock table of the directory

Each transaction in flight holds a lock on the line of the address it started with: a read
lock for an operation that reads, else a write lock. Read locks of several transactions may
share a line; a write lock shares its line with no other lock.

The rule is stated per line (`Directory.LockExclusive`): the entries on a line are all
read-locked, or they are one write-locked entry. The proofs use an equivalent pairwise form
(`Directory.Exclusive`, equivalent by `Directory.exclusive_iff`) on the **lock table**
(`Directory.locks`), the lock and the line of each entry in order. The directory changes its
table in four ways only, and each has its lemma here:

* it changes an entry without touching its lock and address (`locks_modifyEntry`);
* it closes an entry, which keeps the rule (`Exclusive.of_sublist`);
* it opens an entry for a transaction that the lock scan admitted (`Directory.Admits`,
  `Exclusive.openEntry`);
* it opens a write-locked entry for the writeback of a line that no entry holds
  (`Exclusive.append_write`).
-/

namespace CacheHierarchy

namespace Directory

/-- The lock of each entry with the line it holds, oldest first. -/
def locks (d : Directory) : List (Lock × UInt64) :=
  d.entries.map fun e => (e.lock, e.addr &&& d.lineMask)

/-- Two locks that may stand together: on different lines, or both read locks. -/
def Compatible (a b : Lock × UInt64) : Prop := a.2 = b.2 → a.1 = .read ∧ b.1 = .read

/-- Lock exclusivity in pairwise form: any two entries may stand together, and every entry
holds a lock. -/
structure Exclusive (d : Directory) : Prop where
  pairwise : d.locks.Pairwise Compatible
  held : ∀ x ∈ d.locks, x.1 ≠ .free

/-- Lock exclusivity per line: the entries whose address lies on the line of `a` are all
read-locked, or they are one write-locked entry. -/
def LockExclusive (d : Directory) : Prop :=
  ∀ a : UInt64, (∀ e ∈ d.entries, d.sameLine e.addr a = true → e.lock = .read) ∨
    ∃ e, d.entries.filter (fun e => d.sameLine e.addr a) = [e] ∧ e.lock = .write

theorem sameLine_iff (d : Directory) (a b : UInt64) :
    d.sameLine a b = true ↔ a &&& d.lineMask = b &&& d.lineMask := by
  simp [sameLine]

/-- Entries of one line that may stand together pairwise are one entry, if one of them is
not read-locked. -/
theorem eq_singleton_of_pairwise {l : List Entry} {e : Entry}
    (hl : l.Pairwise fun x y => x.lock = .read ∧ y.lock = .read) (he : e ∈ l)
    (hw : e.lock ≠ .read) : l = [e] := by
  match l, hl with
  | x :: [], _ =>
    rw [List.mem_singleton.1 he]
  | x :: y :: rest, hl =>
    rw [List.pairwise_cons] at hl
    exfalso
    rcases List.mem_cons.1 he with rfl | hrest
    · exact hw (hl.1 y List.mem_cons_self).1
    · exact hw (hl.1 e hrest).2

theorem exclusive_iff (d : Directory) : d.Exclusive ↔ d.LockExclusive := by
  have hpair : d.Exclusive ↔ d.entries.Pairwise (fun x y =>
      x.addr &&& d.lineMask = y.addr &&& d.lineMask → x.lock = .read ∧ y.lock = .read) ∧
      ∀ e ∈ d.entries, e.lock ≠ .free := by
    constructor
    · rintro ⟨hp, hh⟩
      refine ⟨List.pairwise_map.1 hp, fun e he => hh _ (List.mem_map_of_mem he)⟩
    · rintro ⟨hp, hh⟩
      refine ⟨List.pairwise_map.2 hp, ?_⟩
      intro x hx
      obtain ⟨e, he, rfl⟩ := List.mem_map.1 hx
      exact hh e he
  rw [hpair]
  constructor
  · rintro ⟨hp, hh⟩ a
    by_cases hall : ∀ e ∈ d.entries, d.sameLine e.addr a = true → e.lock = .read
    · exact .inl hall
    · right
      push Not at hall
      obtain ⟨e, he, hline, hread⟩ := hall
      -- a lock on the line that is not a read lock is a write lock, and stands alone
      have hwrite : e.lock = .write := by
        cases hlock : e.lock with
        | free => exact absurd hlock (hh e he)
        | read => exact absurd hlock hread
        | write => rfl
      refine ⟨e, ?_, hwrite⟩
      apply eq_singleton_of_pairwise _ (List.mem_filter.2 ⟨he, hline⟩) hread
      apply (hp.filter _).imp_of_mem
      intro x y hx hy hxy
      simp only [List.mem_filter, sameLine_iff] at hx hy
      exact hxy (hx.2.trans hy.2.symm)
  · intro hex
    refine ⟨List.pairwise_iff_forall_sublist.2 ?_, ?_⟩
    · intro x y hsub hxy
      have hx := hsub.subset (List.mem_cons_self)
      have hy := hsub.subset (List.mem_cons_of_mem _ List.mem_cons_self)
      rcases hex x.addr with hall | ⟨e, hone, -⟩
      · exact ⟨hall x hx (by simp [sameLine]), hall y hy (by simp [sameLine, hxy])⟩
      · -- two entries on the line of `x` cannot both be the one entry there
        have htwo := (hsub.filter fun e => d.sameLine e.addr x.addr).length_le
        rw [hone] at htwo
        simp [sameLine, hxy] at htwo
    · intro e he
      rcases hex e.addr with hall | ⟨e', hone, hw⟩
      · rw [hall e he (by simp [sameLine])]
        simp
      · have : e ∈ [e'] := hone ▸ List.mem_filter.2 ⟨he, by simp [sameLine]⟩
        rw [List.mem_singleton.1 this, hw]
        simp

/-! ## How the table changes -/

-- Proved by unfolding rather than by `rfl`, so that simp also uses them to discharge side
-- conditions.
@[simp] theorem lineMask_count (d : Directory) (f : DirectoryStat → DirectoryStat) :
    (d.count f).lineMask = d.lineMask := by
  simp only [count, lineMask]

@[simp] theorem lineSize_count (d : Directory) (f : DirectoryStat → DirectoryStat) :
    (d.count f).lineSize = d.lineSize := by
  simp only [count]

@[simp] theorem setup_count (d : Directory) (f : DirectoryStat → DirectoryStat) :
    (d.count f).setup = d.setup := by
  simp only [count, setup]

@[simp] theorem locks_count (d : Directory) (f : DirectoryStat → DirectoryStat) :
    (d.count f).locks = d.locks := by
  simp only [count, locks, lineMask]

@[simp] theorem lineSize_modifyEntry (d : Directory) (k : Nat) (f : Entry → Entry) :
    (d.modifyEntry k f).lineSize = d.lineSize := by
  simp only [modifyEntry]

@[simp] theorem lineSize_close (d : Directory) (k : Nat) : (d.close k).lineSize = d.lineSize := by
  simp only [close]

@[simp] theorem lineSize_openEntry (d : Directory) (p : Packet) (now : Nat) :
    (d.openEntry p now).2.lineSize = d.lineSize := by
  simp only [openEntry]

@[simp] theorem setup_modifyEntry (d : Directory) (k : Nat) (f : Entry → Entry) :
    (d.modifyEntry k f).setup = d.setup := by
  simp only [modifyEntry, setup]

@[simp] theorem setup_close (d : Directory) (k : Nat) : (d.close k).setup = d.setup := by
  simp only [close, setup]

@[simp] theorem setup_openEntry (d : Directory) (p : Packet) (now : Nat) :
    (d.openEntry p now).2.setup = d.setup := by
  simp only [openEntry, setup]

/-- A change of an entry that keeps its lock and address keeps the table. -/
theorem locks_modifyEntry (d : Directory) (k : Nat) (f : Entry → Entry)
    (hf : ∀ e, d.entries[k]? = some e → (f e).lock = e.lock ∧ (f e).addr = e.addr) :
    (d.modifyEntry k f).locks = d.locks :=
  List.map_modify_of_comp _ _ _ _ fun e he => by simp [hf e he]

@[simp] theorem locks_modifyEntry_stamp (d : Directory) (k id : Nat) :
    (d.modifyEntry k (·.stamp id)).locks = d.locks :=
  locks_modifyEntry d k _ fun _ _ => ⟨rfl, rfl⟩

/-- Rewriting entry `k` with a copy of it that keeps its lock and address keeps the table. -/
@[simp] theorem locks_modifyEntry_const (d : Directory) (k : Nat) (e : Entry)
    (hl : e.lock = (d.entries[k]?.getD default).lock)
    (ha : e.addr = (d.entries[k]?.getD default).addr) :
    (d.modifyEntry k fun _ => e).locks = d.locks :=
  d.locks_modifyEntry k _ fun e' he' => by simp_all

/-- The lock a transaction takes: a read lock for an operation that reads. -/
def lockOf (p : Packet) : Lock := if p.op.isRead then .read else .write

@[simp] theorem locks_openEntry (d : Directory) (p : Packet) (now : Nat) :
    (d.openEntry p now).2.locks = d.locks ++ [(lockOf p, p.addr &&& d.lineMask)] := by
  simp [openEntry, locks, lockOf, Entry.new, lineMask]

@[simp] theorem locks_close (d : Directory) (k : Nat) : (d.close k).locks = d.locks.eraseIdx k := by
  simp only [close, locks, lineMask, List.eraseIdx_map]

theorem locks_close_sublist (d : Directory) (k : Nat) : (d.close k).locks.Sublist d.locks :=
  (List.eraseIdx_sublist d.entries k).map _

/-- The lock scan admits a transaction `p` on its line: every entry there is read-locked,
and so is `p`'s. -/
def Admits (d : Directory) (p : Packet) : Prop :=
  ∀ x ∈ d.locks, x.2 = p.addr &&& d.lineMask → p.op.isRead = true ∧ x.1 = .read

/-- Admission depends on the table and the line mask only. -/
theorem Admits.of_frame {d d' : Directory} {p : Packet} (ha : d.Admits p)
    (hl : d'.locks = d.locks) (hm : d'.lineMask = d.lineMask) : d'.Admits p := by
  intro x hx hline
  rw [hl] at hx
  rw [hm] at hline
  exact ha x hx hline

@[simp] theorem admits_count (d : Directory) (f : DirectoryStat → DirectoryStat) (p : Packet) :
    (d.count f).Admits p ↔ d.Admits p :=
  ⟨fun ha => ha.of_frame (locks_count d f).symm (lineMask_count d f).symm,
    fun ha => ha.of_frame (locks_count d f) (lineMask_count d f)⟩

/-- The lock scan of a first-level request admits it exactly when no entry on its line holds
a lock it conflicts with. -/
theorem admits_iff_scan (d : Directory) (p : Packet) :
    d.Admits p ↔ ∀ e ∈ d.entries, d.sameLine e.addr p.addr = true →
      p.op.isRead = true ∧ e.lock = .read := by
  constructor
  · intro ha e he hline
    exact ha _ (List.mem_map.2 ⟨e, he, rfl⟩) ((d.sameLine_iff _ _).1 hline)
  · intro hs x hx hline
    obtain ⟨e, he, rfl⟩ := List.mem_map.1 hx
    exact hs e he ((d.sameLine_iff _ _).2 hline)

namespace Exclusive

variable {d d' : Directory}

theorem of_locks_eq (hl : d'.locks = d.locks) (hd : d.Exclusive) : d'.Exclusive :=
  ⟨hl ▸ hd.pairwise, hl ▸ hd.held⟩

theorem of_sublist (hl : d'.locks.Sublist d.locks) (hd : d.Exclusive) : d'.Exclusive :=
  ⟨hd.pairwise.sublist hl, fun x hx => hd.held x (hl.subset hx)⟩

theorem append (x : Lock × UInt64) (hl : d'.locks = d.locks ++ [x]) (hd : d.Exclusive)
    (hx : x.1 ≠ .free) (hc : ∀ y ∈ d.locks, Compatible y x) : d'.Exclusive := by
  refine ⟨hl ▸ List.pairwise_append.2 ⟨hd.pairwise, List.pairwise_singleton _ _, ?_⟩, ?_⟩
  · intro y hy z hz
    rw [List.mem_singleton.1 hz]
    exact hc y hy
  · intro y hy
    rw [hl] at hy
    rcases List.mem_append.1 hy with hy | hy
    · exact hd.held y hy
    · rw [List.mem_singleton.1 hy]
      exact hx

/-- An admitted transaction may open its entry. -/
theorem openEntry (hd : d.Exclusive) (p : Packet) (now : Nat) (ha : d.Admits p) :
    (d.openEntry p now).2.Exclusive := by
  apply hd.append _ (locks_openEntry d p now)
  · unfold lockOf
    split <;> simp
  · intro y hy hline
    obtain ⟨hread, hy⟩ := ha y hy hline
    simp [hy, lockOf, hread]

/-- A write lock may be opened on a line that no entry holds. -/
theorem append_write (hd : d.Exclusive) (a : UInt64) (hfree : d.isLocked a = false)
    (hl : d'.locks = d.locks ++ [(.write, a &&& d.lineMask)]) : d'.Exclusive := by
  apply hd.append _ hl (by simp)
  intro y hy hline
  obtain ⟨e, he, rfl⟩ := List.mem_map.1 hy
  have := List.any_eq_false.1 hfree e he
  simp only [sameLine_iff] at this
  exact absurd hline this

end Exclusive

end Directory

end CacheHierarchy
