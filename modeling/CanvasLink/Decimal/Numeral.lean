/-!
# CanvasLink — reading numbers

`read?` reads a whole text as a number: a sign, digits with a point anywhere among them, an
exponent; or one of the words for infinity and for no number, in any letter case. The result is the
nearest floating-point number, infinite beyond the largest one.
-/

namespace CanvasLink.Decimal

/-- The value of a list of digits. -/
def ofDigits (digits : List Char) : Nat :=
  digits.foldl (fun n c => 10 * n + (c.toNat - '0'.toNat)) 0

/-- The nearest floating-point number to `digits · 10 ^ exponent`. -/
def nearest (digits : Nat) (exponent : Int) : Float :=
  Float.ofScientific digits (exponent < 0) exponent.natAbs

/-- Takes a sign off a text: whether it is a minus, and the rest. -/
def splitSign : List Char → Bool × List Char
  | '-' :: s => (true, s)
  | '+' :: s => (false, s)
  | s => (false, s)

theorem splitSign_suffix (s : List Char) : (splitSign s).2 <:+ s := by
  unfold splitSign
  split
  · exact List.suffix_cons _ _
  · exact List.suffix_cons _ _
  · exact List.suffix_refl _

/-- Reads digits and nothing else, at least one. -/
def digits? (s : List Char) : Option Nat :=
  if s.isEmpty || !s.all Char.isDigit then none else some (ofDigits s)

/-- Reads an optional sign and digits. -/
def integer? (s : List Char) : Option Int :=
  let (negative, body) := splitSign s
  (digits? body).map fun n => if negative then -(n : Int) else n

/-- Reads an optional plus sign and digits. -/
def natural? (s : List Char) : Option Nat :=
  let (negative, body) := splitSign s
  if negative then none else digits? body

/-- Reads what may follow the digits: nothing, or an exponent. -/
def exponent? : List Char → Option Int
  | [] => some 0
  | c :: s =>
    if c = 'e' || c = 'E' then integer? s else none

/-- Reads digits with an optional point, then an optional exponent. -/
def decimal? (s : List Char) : Option Float :=
  let whole := s.takeWhile Char.isDigit
  let (fraction, rest) :=
    match s.dropWhile Char.isDigit with
    | '.' :: t => (t.takeWhile Char.isDigit, t.dropWhile Char.isDigit)
    | t => ([], t)
  if whole.isEmpty && fraction.isEmpty then none
  else (exponent? rest).map fun e => nearest (ofDigits (whole ++ fraction)) (e - fraction.length)

/-- Reads a number without its sign. -/
def magnitude? (s : List Char) : Option Float :=
  let word := String.ofList (s.map Char.toLower)
  if word = "inf" || word = "infinity" then some (1 / 0)
  else if word = "nan" then some (0 / 0)
  else decimal? s

/-- Reads a whole text as a number. -/
def read? (s : List Char) : Option Float :=
  let (negative, body) := splitSign s
  (magnitude? body).map fun x => if negative then -x else x

end CanvasLink.Decimal
