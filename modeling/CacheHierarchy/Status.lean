set_option autoImplicit false

/-! # Coherence status of a line

Every cache line is in one of the five MOESI states: modified (the only copy, dirty), owned
(dirty, other copies may be shared), exclusive (the only copy, clean), shared, or invalid. A
dirty line must be written back before it is dropped; an exclusive owner may answer for the
line.
-/

namespace CacheHierarchy

/-- The MOESI status of a cache line. -/
inductive Status where
  | m
  | o
  | e
  | s
  | i
  deriving DecidableEq, Repr, Inhabited

namespace Status

def all : List Status := [.m, .o, .e, .s, .i]

/-- The one-letter name of a status. -/
def name : Status → String
  | .m => "M"
  | .o => "O"
  | .e => "E"
  | .s => "S"
  | .i => "I"

def ofName? (n : String) : Option Status := all.find? (·.name == n)

/-- Modified and owned lines hold data memory does not have. -/
def isDirty : Status → Bool
  | .m | .o => true
  | _ => false

/-- Modified, owned and exclusive lines are held exclusively or as the owner. -/
def isExclusiveOwner : Status → Bool
  | .m | .o | .e => true
  | _ => false

/-- Whether the line holds data at all. -/
def isValid (st : Status) : Bool := st != .i

theorem ofName?_name (st : Status) : ofName? st.name = some st := by cases st <;> rfl

theorem isExclusiveOwner_of_isDirty {st : Status} (h : st.isDirty = true) :
    st.isExclusiveOwner = true := by
  cases st <;> simp_all [isDirty, isExclusiveOwner]

end Status

end CacheHierarchy
