import CanvasLink.Decimal.Shortest

/-!
# CanvasLink — writing numbers

A number is written with the fewest digits that read back (`Decimal.shortest`). A `Layout` holds
what a format decides beyond the digits: when an exponent is used, what follows a whole number and
which of two equally near numerals is taken.
-/

namespace CanvasLink.Decimal

/-- The decisions of a number format. -/
structure Layout where
  /-- Whether a number with this exponent of its leading digit is written without an exponent. -/
  isPositional : Int → Bool
  /-- Text behind a whole number in positional form. -/
  wholeMark : String
  tie : Tie

/-- Digits without trailing zeros, with the exponent of the last one kept. -/
def stripZeros (digits : List Char) (exponent : Int) : List Char × Int :=
  let kept := (digits.reverse.dropWhile (· == '0')).reverse
  (kept, exponent + (digits.length - kept.length : Nat))

/-- Digits whose last one stands for `10 ^ exponent`, written with a point and without an
exponent. -/
def positional (wholeMark : String) (digits : List Char) (exponent : Int) : String :=
  if 0 ≤ exponent then
    String.ofList (digits ++ List.replicate exponent.toNat '0') ++ wholeMark
  else
    let places := (-exponent).toNat
    let padded := List.replicate (places + 1 - digits.length) '0' ++ digits
    String.ofList (padded.take (padded.length - places)) ++ "." ++
      String.ofList (padded.drop (padded.length - places))

/-- Digits with a point behind the first one, then the exponent of that digit with its sign. -/
def scientific (digits : List Char) (leading : Int) : String :=
  let fraction := if digits.length ≤ 1 then "" else "." ++ String.ofList (digits.drop 1)
  let sign := if leading < 0 then "e-" else "e+"
  String.ofList (digits.take 1) ++ fraction ++ sign ++ toString leading.natAbs

/-- The text of a positive finite number. -/
def Layout.magnitude (layout : Layout) (x : Float) : String :=
  let numeral := shortest x layout.tie
  let (digits, exponent) := stripZeros (Nat.toDigits 10 numeral.digits) numeral.exponent
  let leading := exponent + digits.length - 1
  if layout.isPositional leading then positional layout.wholeMark digits exponent
  else scientific digits leading

/-- The text of a number. Zero keeps its sign. -/
def Layout.render (layout : Layout) (x : Float) : String :=
  if x.isNaN then "NaN"
  else
    let sign := if x.toBits.toNat / Nat.pow 2 63 == 1 then "-" else ""
    if x.isInf then sign ++ "inf"
    else if x == 0 then sign ++ "0" ++ layout.wholeMark
    else sign ++ layout.magnitude x

/-- The plain form: never an exponent, and nothing behind a whole number. -/
def plain : Layout :=
  { isPositional := fun _ => true, wholeMark := "", tie := .up }

end CanvasLink.Decimal
