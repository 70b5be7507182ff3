set_option autoImplicit false

/-! # Blank characters

The characters with the Unicode property White_Space (Unicode 15.0): the ASCII tab, line
feed, vertical tab, form feed, carriage return and space, and eleven more. A trace line made
of these alone holds no access. Main statement: every character that core calls whitespace
is blank here too.
-/

namespace CacheHierarchy.Text

/-- The White_Space code points, as closed ranges in increasing order. -/
def whiteSpace : List (Nat × Nat) := [
  (0x9, 0xD), (0x20, 0x20), (0x85, 0x85), (0xA0, 0xA0), (0x1680, 0x1680),
  (0x2000, 0x200A), (0x2028, 0x2029), (0x202F, 0x202F), (0x205F, 0x205F), (0x3000, 0x3000)]

/-- Whether `c` has the Unicode property White_Space. -/
def isBlank (c : Char) : Bool :=
  whiteSpace.any fun (lo, hi) => lo ≤ c.toNat && c.toNat ≤ hi

/-- Core's ASCII whitespace is blank. -/
theorem isBlank_of_isWhitespace (c : Char) (h : c.isWhitespace = true) : isBlank c = true := by
  simp only [Char.isWhitespace, Bool.or_eq_true, decide_eq_true_eq] at h
  rcases h with ((h | h) | h) | h <;> subst h <;> decide

example : isBlank '\u3000' = true ∧ isBlank '\u00a0' = true ∧ isBlank 'a' = false := by decide
example : whiteSpace.length = 10 := by decide

end CacheHierarchy.Text
