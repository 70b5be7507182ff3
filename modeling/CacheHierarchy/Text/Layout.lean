set_option autoImplicit false

/-! # Plain text layout

Hexadecimal numerals with a `0x` mark, decimal lists in brackets, and padding of a text
to a column width. Widths count characters, not bytes. The error messages, the views of
the hierarchy and the report are written with these.
-/

namespace CacheHierarchy.Text

/-- Lowercase hexadecimal digits of `n`, most significant first, with no leading zero
(`0` for zero). -/
def hexDigits (n : Nat) : String := String.ofList (Nat.toDigits 16 n)

/-- The text `0x` followed by the lowercase hexadecimal digits of `n`. -/
def hex (n : Nat) : String := "0x" ++ hexDigits n

/-- A text of `k` copies of `c`. -/
def fillWith (c : Char) (k : Nat) : String := String.ofList (List.replicate k c)

/-- The text `s` after blanks up to `width` characters; a longer text is kept whole. -/
def alignRight (width : Nat) (s : String) : String :=
  fillWith ' ' (width - s.length) ++ s

/-- The text `s` before blanks up to `width` characters; a longer text is kept whole. -/
def alignLeft (width : Nat) (s : String) : String :=
  s ++ fillWith ' ' (width - s.length)

/-- The text `s` in the middle of `width` characters of `fill`; when the padding is odd the extra
character goes to the right. -/
def center (fill : Char) (width : Nat) (s : String) : String :=
  let pad := width - s.length
  fillWith fill (pad / 2) ++ s ++ fillWith fill (pad - pad / 2)

/-- Numbers separated by a comma and a blank, in square brackets: `[0, 1, 2]`. -/
def bracketList (xs : List Nat) : String :=
  "[" ++ ", ".intercalate (xs.map toString) ++ "]"

/-- The words `true` and `false`. -/
def boolWord (b : Bool) : String := if b then "true" else "false"

example : hex 0 = "0x0" ∧ hex 255 = "0xff" := by decide
example : center '=' 7 "ab" = "==ab===" := by decide
example : bracketList [0, 1, 2] = "[0, 1, 2]" := by decide

end CacheHierarchy.Text
