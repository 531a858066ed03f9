/-!
# CanvasLink — sets of code points

A character class is stored as a table of inclusive code point ranges, in ascending order.
-/

namespace CanvasLink.Text

/-- A set of code points, as inclusive ranges. -/
abbrev Ranges := Array (Nat × Nat)

/-- Whether the character lies in one of the ranges. -/
def Ranges.contains (ranges : Ranges) (c : Char) : Bool :=
  ranges.any fun range => range.1 ≤ c.toNat && c.toNat ≤ range.2

end CanvasLink.Text
