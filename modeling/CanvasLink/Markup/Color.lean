import CanvasLink.Text.Blank

/-!
# CanvasLink — colors

A color is written as six hexadecimal digits, with an optional `#` in front.
-/

namespace CanvasLink.Markup

open CanvasLink.Text

/-- A 24-bit sRGB color. -/
structure Color where
  red : UInt8
  green : UInt8
  blue : UInt8
deriving DecidableEq, Repr

namespace Color

def white : Color := ⟨255, 255, 255⟩

def black : Color := ⟨0, 0, 0⟩

/-- The value of a hexadecimal digit in either case. -/
def digitValue? (c : Char) : Option Nat :=
  if '0' ≤ c ∧ c ≤ '9' then some (c.toNat - '0'.toNat)
  else if 'a' ≤ c ∧ c ≤ 'f' then some (c.toNat - 'a'.toNat + 10)
  else if 'A' ≤ c ∧ c ≤ 'F' then some (c.toNat - 'A'.toNat + 10)
  else none

/-- The byte written by two hexadecimal digits. -/
def byte? (high low : Char) : Option UInt8 := do
  let h ← digitValue? high
  let l ← digitValue? low
  return UInt8.ofNat (16 * h + l)

/-- The color written by exactly six digits. -/
def ofDigits? : List Char → Option Color
  | [r₁, r₂, g₁, g₂, b₁, b₂] => do
    let r ← byte? r₁ r₂
    let g ← byte? g₁ g₂
    let b ← byte? b₁ b₂
    return ⟨r, g, b⟩
  | _ => none

/-- The text without one leading `#`. -/
def stripHash : List Char → List Char
  | '#' :: s => s
  | s => s

/-- Reads a color; blank characters around it do not count. -/
def ofHex? (s : List Char) : Option Color :=
  ofDigits? (stripHash (trim s))

/-- The lower-case hexadecimal digit of a value below sixteen. -/
def digit (n : Nat) : Char :=
  if n < 10 then Char.ofNat ('0'.toNat + n) else Char.ofNat ('a'.toNat + (n - 10))

/-- The two digits of a byte. -/
def byteDigits (b : UInt8) : List Char :=
  [digit (b.toNat / 16), digit (b.toNat % 16)]

/-- The six digits of a color, in lower case and without `#`. -/
def toHex (c : Color) : List Char :=
  byteDigits c.red ++ byteDigits c.green ++ byteDigits c.blue

/-- A channel as a fraction of full intensity. -/
def channel (b : UInt8) : Float :=
  b.toNat.toFloat / 255

/-- The three channels as fractions of full intensity. -/
def channels (c : Color) : List Float :=
  [channel c.red, channel c.green, channel c.blue]

end Color

end CanvasLink.Markup
