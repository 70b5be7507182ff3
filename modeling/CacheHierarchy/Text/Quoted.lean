import CacheHierarchy.Text.Layout
import CacheHierarchy.Text.Printable
import CacheHierarchy.Text.GraphemeExtend

set_option autoImplicit false
set_option maxRecDepth 8000

/-! # Quoted text

A text in double quotes, as error messages show a label or the unread part of a line. The
NUL, tab, carriage return and line feed characters, the backslash and the double quote are
written after a backslash; a grapheme extender and a character that is not printable are
written as `\u` followed by their lowercase hexadecimal code point in braces; every other
character stands as it is.
-/

namespace CacheHierarchy.Text

/-- How one character is written between double quotes. -/
def escapeChar (c : Char) : String :=
  if c = '\x00' then "\\0"
  else if c = '\t' then "\\t"
  else if c = '\r' then "\\r"
  else if c = '\n' then "\\n"
  else if c = '\\' then "\\\\"
  else if c = '"' then "\\\""
  else if isGraphemeExtend c || !isPrintable c then "\\u\x7b" ++ hexDigits c.toNat ++ "\x7d"
  else c.toString

/-- The text `s` between double quotes, each character written by `escapeChar`. -/
def quote (s : String) : String :=
  "\"" ++ String.join (s.toList.map escapeChar) ++ "\""

example : quote "a\"b" = "\"a\\\"b\"" := by decide
example : quote "\u00a0x" = "\"\\u\x7ba0\x7dx\"" := by decide

end CacheHierarchy.Text
