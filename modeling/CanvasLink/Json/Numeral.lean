import CanvasLink.Decimal.Layout
import CanvasLink.Json.Value

/-!
# CanvasLink — JSON numbers as text

Reading a number that is no 64-bit integer is not exact. The significand is made of the leading
digits that fit 64 bits; further digits before the point count as powers of ten and further digits
behind it are dropped. The significand is then rounded and scaled once by a power of ten, which is
rounded too. A number beyond the largest finite one is out of range.
-/

namespace CanvasLink.Json

/-! ## Reading -/

/-- The parts of a number's text, as digits. -/
structure Digits where
  negative : Bool
  whole : List Char
  /-- Digits behind the point; absent without a point. -/
  fraction : Option (List Char)
  /-- Whether the exponent is negative, and its digits; absent without an exponent. -/
  exponent : Option (Bool × List Char)

/-- The value of a digit. -/
def digitValue (c : Char) : Nat :=
  c.toNat - '0'.toNat

/-- The value of a list of digits. -/
def digitsValue (digits : List Char) : Nat :=
  digits.foldl (fun n c => 10 * n + digitValue c) 0

/-- Significands stay below this bound. -/
def significandBound : Nat := UInt64.size

/-- Takes digits before the point into the significand while they fit, and counts the others. -/
def takeWhole : Nat → List Char → Nat × Nat
  | significand, [] => (significand, 0)
  | significand, c :: digits =>
    let next := 10 * significand + digitValue c
    if next < significandBound then takeWhole next digits
    else (significand, (c :: digits).length)

/-- Takes digits behind the point into the significand while they fit, and counts those taken. -/
def takeFraction : Nat → List Char → Nat × Nat
  | significand, [] => (significand, 0)
  | significand, c :: digits =>
    let next := 10 * significand + digitValue c
    if next < significandBound then
      let (result, taken) := takeFraction next digits
      (result, taken + 1)
    else (significand, 0)

/-- The nearest floating-point number to a power of ten up to `10 ^ 308`. -/
def powerOfTen (n : Nat) : Float :=
  Float.ofScientific 1 false n

/-- Scales by a power of ten below one, in steps that stay in range. -/
def scaleDown (x : Float) (places : Nat) : Float :=
  if h : places ≤ 308 then x / powerOfTen places
  else if x == 0 then x
  else scaleDown (x / powerOfTen 308) (places - 308)
termination_by places
decreasing_by omega

/-- Scales by a power of ten; nothing when the result is out of range. -/
def scale? (x : Float) (exponent : Int) : Option Float :=
  if exponent < 0 then some (scaleDown x exponent.natAbs)
  else if x == 0 then some x
  else if 308 < exponent then none
  else
    let y := x * powerOfTen exponent.natAbs
    if y.isInf then none else some y

/-- The exponent that the text writes. -/
def Digits.exponentValue (d : Digits) : Int :=
  match d.exponent with
  | some (true, digits) => -(digitsValue digits : Int)
  | some (false, digits) => digitsValue digits
  | none => 0

/-- Negates when the text has a minus. -/
def withSign (negative : Bool) (x : Float) : Float :=
  if negative then -x else x

/-- The number that the text writes, unless it is out of range. -/
def Digits.number? (d : Digits) : Option Number :=
  let (whole, dropped) := takeWhole 0 d.whole
  if d.fraction.isNone && d.exponent.isNone && dropped == 0 then
    if d.negative then
      if 0 < whole ∧ whole ≤ Nat.pow 2 63 then some (.integer (-(whole : Int)))
      else some (.real (-whole.toFloat))
    else some (.integer whole)
  else
    let (significand, taken) := takeFraction whole (d.fraction.getD [])
    let exponent := (dropped : Int) - taken + d.exponentValue
    (scale? significand.toFloat exponent).map fun x => .real (withSign d.negative x)

/-! ## Writing -/

/-- Numbers keep a point; an exponent is used from `10 ^ 16` on and below `10 ^ -5`, and a tie goes
to the even digit. -/
def layout : Decimal.Layout :=
  { isPositional := fun leading => -5 ≤ leading && leading ≤ 15, wholeMark := ".0", tie := .even }

/-- The text of a number. -/
def Number.text : Number → String
  | .integer i => toString i
  | .real x => layout.render x

end CanvasLink.Json
