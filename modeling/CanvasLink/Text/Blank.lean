/-!
# CanvasLink — blank characters

Blank characters are those with the Unicode property White_Space. This module holds

* `isBlank`, the property itself, as a table of code point ranges;
* `skipBlanks`, `trimEnd` and `trim`, which drop blank characters at the ends of a text.
-/

namespace CanvasLink.Text

/-- The code points of the Unicode property White_Space, as inclusive ranges. -/
def blankRanges : List (Nat × Nat) :=
  [(0x0009, 0x000D), (0x0020, 0x0020), (0x0085, 0x0085), (0x00A0, 0x00A0), (0x1680, 0x1680),
   (0x2000, 0x200A), (0x2028, 0x2029), (0x202F, 0x202F), (0x205F, 0x205F), (0x3000, 0x3000)]

/-- Whether a character has the Unicode property White_Space. -/
def isBlank (c : Char) : Bool :=
  blankRanges.any fun range => range.1 ≤ c.toNat && c.toNat ≤ range.2

/-- The text without its leading blank characters. -/
def skipBlanks (s : List Char) : List Char :=
  s.dropWhile isBlank

/-- The text without its trailing blank characters. -/
def trimEnd (s : List Char) : List Char :=
  (s.reverse.dropWhile isBlank).reverse

/-- The text without blank characters at either end. -/
def trim (s : List Char) : List Char :=
  trimEnd (skipBlanks s)

theorem skipBlanks_suffix (s : List Char) : skipBlanks s <:+ s :=
  List.dropWhile_suffix _

theorem length_skipBlanks_le (s : List Char) : (skipBlanks s).length ≤ s.length :=
  (skipBlanks_suffix s).length_le

end CanvasLink.Text
