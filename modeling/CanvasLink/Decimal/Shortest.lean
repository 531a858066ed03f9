/-!
# CanvasLink — the fewest decimal digits that read back

A finite binary floating-point number stands for every real number that rounds to it. `shortest`
picks the decimal numeral with the fewest digits in that interval and, of several, the one nearest
to the number itself. All arithmetic is exact.

A decimal grid is the set of multiples of a power of ten. If any point of a grid lies in the
interval then so does one of the two neighbours of the number on that grid, so it is enough to try
these two on ever finer grids.
-/

namespace CanvasLink.Decimal

/-- The positive number `digits · 10 ^ exponent`. -/
structure Scientific where
  digits : Nat
  exponent : Int
deriving DecidableEq, Repr, Inhabited

/-- Which of two equally near numerals is taken. -/
inductive Tie where
  /-- The larger one. -/
  | up
  /-- The one whose last digit is even. -/
  | even
deriving DecidableEq, Repr

/-- A positive number `middle / scale` with the bounds of the reals that round to it. -/
structure Interval where
  low : Nat
  middle : Nat
  high : Nat
  scale : Nat
  /-- Whether the bounds themselves round to the number. -/
  closed : Bool
deriving Repr

namespace Interval

/-- The interval of `mantissa · 2 ^ exponent`. The gap below a power of two is half as wide
(`narrow`); a bound rounds to the number when the mantissa is even. -/
def ofBinary (mantissa : Nat) (exponent : Int) (narrow : Bool) : Interval :=
  -- In quarters of the last place, so that both bounds are whole.
  let lift := Nat.pow 2 (exponent - 2).toNat
  { low := (4 * mantissa - if narrow then 1 else 2) * lift
    middle := 4 * mantissa * lift
    high := (4 * mantissa + 2) * lift
    scale := Nat.pow 2 (2 - exponent).toNat
    closed := mantissa % 2 == 0 }

/-- Whether `digits · 10 ^ exponent` rounds to the number. -/
def contains (i : Interval) (digits : Nat) (exponent : Int) : Bool :=
  let point := digits * Nat.pow 10 exponent.toNat * i.scale
  let unit := Nat.pow 10 (-exponent).toNat
  if i.closed then i.low * unit ≤ point && point ≤ i.high * unit
  else i.low * unit < point && point < i.high * unit

/-- The largest multiple of `10 ^ exponent` that is not above the number, as a multiplier. -/
def floorAt (i : Interval) (exponent : Int) : Nat :=
  i.middle * Nat.pow 10 (-exponent).toNat / (i.scale * Nat.pow 10 exponent.toNat)

/-- Compares the distances of the number to the two grid points `digits` and `digits + 1`. -/
def compareNeighbours (i : Interval) (digits : Nat) (exponent : Int) : Ordering :=
  let unit := i.scale * Nat.pow 10 exponent.toNat
  compare (2 * (i.middle * Nat.pow 10 (-exponent).toNat)) ((2 * digits + 1) * unit)

/-- The nearer of the number's two neighbours on a grid, of those that round to the number. -/
def nearestAt? (i : Interval) (tie : Tie) (exponent : Int) : Option Scientific :=
  let below := i.floorAt exponent
  match i.contains below exponent, i.contains (below + 1) exponent with
  | true, true =>
    match i.compareNeighbours below exponent with
    | .lt => some ⟨below, exponent⟩
    | .gt => some ⟨below + 1, exponent⟩
    | .eq => some ⟨if tie = .even && below % 2 == 0 then below else below + 1, exponent⟩
  | true, false => some ⟨below, exponent⟩
  | false, true => some ⟨below + 1, exponent⟩
  | false, false => none

/-- The decimal exponent of the number's leading digit. -/
def leadingExponent (i : Interval) : Int :=
  let whole := i.middle / i.scale
  if 0 < whole then (Nat.toDigits 10 whole).length - 1
  else
    -- Below one, the reciprocal's digits tell the exponent; a power of ten has the next higher one.
    let places := (Nat.toDigits 10 (i.scale / i.middle)).length
    if i.scale ≤ i.middle * Nat.pow 10 (places - 1) then -((places : Int) - 1) else -places

end Interval

/-- The digits of a binary floating-point number never number more than this. -/
def maxDigits : Nat := 17

/-- The numeral of fewest digits that rounds to the number of the interval. -/
def Interval.shortest (i : Interval) (tie : Tie) : Scientific :=
  let found := (List.range maxDigits).findSome? fun (n : Nat) =>
    i.nearestAt? tie (i.leadingExponent - n)
  found.getD default

/-- How many floating-point numbers share a sign and an exponent. -/
def fractionCount : Nat := Nat.pow 2 52

/-- How many exponents a floating-point number may have. -/
def exponentCount : Nat := Nat.pow 2 11

/-- The shortest numeral of a finite number other than zero, its sign aside. -/
def shortest (x : Float) (tie : Tie) : Scientific :=
  let bits := x.toBits.toNat
  let fraction := bits % fractionCount
  let biased : Nat := bits / fractionCount % exponentCount
  -- A number with the least exponent has no hidden leading bit.
  let interval :=
    if biased == 0 then Interval.ofBinary fraction (-1074) false
    else Interval.ofBinary (fractionCount + fraction) ((biased : Int) - 1075)
      (fraction == 0 && 1 < biased)
  interval.shortest tie

end CanvasLink.Decimal
