import CanvasLink.Text.Unprintable

/-!
# CanvasLink — quoted texts in diagnostics

A diagnostic quotes a text so that every character of it can be told: the quote, the backslash and
the usual controls by a backslash, every other character that is not shown by its code point.
-/

namespace CanvasLink.Text

/-- The digits of `n` in base sixteen, in lower case and without leading zeros. -/
def hexDigits (n : Nat) : List Char :=
  Nat.toDigits 16 n

/-- A character by its code point, as in `\u\x7be9\x7d`. -/
def escapeCodePoint (c : Char) : List Char :=
  ['\\', 'u', '\x7b'] ++ hexDigits c.toNat ++ ['\x7d']

/-- A character inside a text quoted with `quote`. -/
def escapeChar (quote c : Char) : List Char :=
  if c = quote then ['\\', c]
  else match c with
    | '\x00' => ['\\', '0']
    | '\t' => ['\\', 't']
    | '\r' => ['\\', 'r']
    | '\n' => ['\\', 'n']
    | '\\' => ['\\', '\\']
    | c => if isShown c then [c] else escapeCodePoint c

/-- A text in double quotes. -/
def quoted (s : String) : String :=
  String.ofList ('"' :: s.toList.flatMap (escapeChar '"') ++ ['"'])

/-- A single character in single quotes. -/
def quotedChar (c : Char) : String :=
  String.ofList ('\'' :: escapeChar '\'' c ++ ['\''])

end CanvasLink.Text
