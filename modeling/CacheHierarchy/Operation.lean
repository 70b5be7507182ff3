import CacheHierarchy.Text.Layout

set_option autoImplicit false

/-! # Memory operations

The five kinds of access that travel through the hierarchy: data reads, instruction
fetches, writes, prefetches, and writebacks of dirty lines. Counters kept per operation are
arrays of five, indexed in this order.
-/

namespace CacheHierarchy

/-- A kind of memory access. -/
inductive Operation where
  | read
  | inst
  | write
  | prefetch
  | writeback
  deriving DecidableEq, Repr, Inhabited

namespace Operation

/-- All operations, in counter order. -/
def all : List Operation := [.read, .inst, .write, .prefetch, .writeback]

/-- The position of the operation in per-operation counters. -/
def index : Operation → Nat
  | .read => 0
  | .inst => 1
  | .write => 2
  | .prefetch => 3
  | .writeback => 4

/-- The name of the operation in upper case, as views and reports print it. -/
def name : Operation → String
  | .read => "READ"
  | .inst => "INST"
  | .write => "WRITE"
  | .prefetch => "PREFETCH"
  | .writeback => "WRITEBACK"

/-- The operation with the given upper-case name. -/
def ofName? (s : String) : Option Operation :=
  all.find? (·.name == s)

/-- Reads, instruction fetches and prefetches bring a line in; writes and writebacks
carry data down. -/
def isRead : Operation → Bool
  | .read | .inst | .prefetch => true
  | .write | .writeback => false

theorem index_lt (o : Operation) : o.index < 5 := by cases o <;> decide

theorem ofName?_name (o : Operation) : ofName? o.name = some o := by cases o <;> rfl

end Operation

/-- A count per operation. -/
structure PerOperation where
  read : Nat := 0
  inst : Nat := 0
  write : Nat := 0
  prefetch : Nat := 0
  writeback : Nat := 0
  deriving DecidableEq, Repr, Inhabited

namespace PerOperation

def get (c : PerOperation) : Operation → Nat
  | .read => c.read
  | .inst => c.inst
  | .write => c.write
  | .prefetch => c.prefetch
  | .writeback => c.writeback

/-- The counts with the count of `o` raised by one. -/
def bump (c : PerOperation) : Operation → PerOperation
  | .read => { c with read := c.read + 1 }
  | .inst => { c with inst := c.inst + 1 }
  | .write => { c with write := c.write + 1 }
  | .prefetch => { c with prefetch := c.prefetch + 1 }
  | .writeback => { c with writeback := c.writeback + 1 }

/-- The five counts, in counter order. -/
def toList (c : PerOperation) : List Nat := Operation.all.map c.get

@[simp] theorem get_bump_self (c : PerOperation) (o : Operation) :
    (c.bump o).get o = c.get o + 1 := by
  cases o <;> rfl

theorem get_bump_of_ne (c : PerOperation) {o p : Operation} (h : p ≠ o) :
    (c.bump o).get p = c.get p := by
  cases o <;> cases p <;> first | rfl | exact absurd rfl h

end PerOperation

end CacheHierarchy
