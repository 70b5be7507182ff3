import CacheHierarchy.Status
import CacheHierarchy.Text.Layout

set_option autoImplicit false

/-! # Cache lines and the tag array

A line of a cache holds a tag (the line address it caches), its coherence status, the cycle
of its last access and the number of accesses. The tag array is a set of lines per index,
each set with one line per way. The array is read and written by position; a position
outside the array reads as a fresh invalid line and writing there changes nothing. A caller
that names a position from outside checks it first (`locate`).
-/

namespace CacheHierarchy

/-- One way of one set. -/
structure Line where
  tag : UInt64
  status : Status := .i
  lastAccess : Nat := 0
  usage : Nat := 0
  deriving DecidableEq, Repr, Inhabited

/-- The description of a line in views: status, tag, last access and use count. -/
def Line.render (l : Line) : String :=
  "[" ++ l.status.name ++ "] tag:" ++ Text.hex l.tag.toNat ++ " last_access:" ++
    toString l.lastAccess ++ " usage:" ++ toString l.usage

/-- The lines of a cache, by set index and then by way. -/
abbrev TagArray := Array (Array Line)

/-- A position asked for past the end of a sequence of `len` places. -/
structure OutOfBounds where
  len : Nat
  index : Nat
  deriving DecidableEq, Repr

/-- The message of a position out of bounds. -/
def OutOfBounds.message (e : OutOfBounds) : String :=
  "index out of bounds: the len is " ++ toString e.len ++ " but the index is " ++ toString e.index

namespace TagArray

/-- Check that set `index`, way `way` is a position of the array; the set is checked first. -/
def locate (t : TagArray) (index way : Nat) : Except OutOfBounds Unit :=
  match t[index]? with
  | none => .error ⟨t.size, index⟩
  | some set => if way < set.size then .ok () else .error ⟨set.size, way⟩

def get (t : TagArray) (index way : Nat) : Line :=
  (t.getD index #[]).getD way default

def modify (t : TagArray) (index way : Nat) (f : Line → Line) : TagArray :=
  Array.modify t index (fun set => Array.modify set way f)

/-- Whether every line of set `index` is invalid. -/
def setIsClean (t : TagArray) (index : Nat) : Bool :=
  (t.getD index #[]).all (·.status == .i)

/-- Whether every line is invalid. -/
def isClean (t : TagArray) : Bool := t.all (fun set => set.all (·.status == .i))

/-- Every line with its set and way, set by set. -/
def positions (t : TagArray) : List (Nat × Nat × Line) :=
  (t.toList.zipIdx.map fun (set, i) => set.toList.zipIdx.map fun (l, w) => (i, w, l)).flatten

theorem get_modify_self (t : TagArray) (index way : Nat) (f : Line → Line)
    (hi : index < t.size) (hw : way < (t.getD index #[]).size) :
    (t.modify index way f).get index way = f (t.get index way) := by
  simp only [get, modify, Array.getD_eq_getD_getElem?] at *
  simp only [Array.getElem?_modify, Array.getElem?_eq_getElem hi, if_pos, Option.map_some,
    Option.getD_some] at *
  simp [Array.getElem?_eq_getElem hw]

end TagArray

end CacheHierarchy
