import CanvasLink.Text.LetterCase

/-!
# CanvasLink — lower case of a text

`lowerCase` is the full lower-case mapping of Unicode. It is not a mapping of single characters:
U+0130 becomes two characters, and a capital sigma at the end of a word becomes the final form of
the letter.
-/

namespace CanvasLink.Text

/-- Whether the nearest character that is not passed over is a letter with case. -/
def nextIsCased (s : List Char) : Bool :=
  match s.dropWhile isCaseIgnorable with
  | c :: _ => isCased c
  | [] => false

/-- The lower case of one character that stands between `before` (nearest first) and `after`. -/
def lowerChar (before : List Char) (c : Char) (after : List Char) : List Char :=
  if c = '\u03A3' then
    if nextIsCased before && !nextIsCased after then ['\u03C2'] else ['\u03C3']
  else if c = '\u0130' then ['i', '\u0307']
  else [Char.ofNat (lowerCodePoint c)]

/-- The lower case of `s`, which stands behind the reversed text `before`. -/
def lowerBehind (before : List Char) : List Char → List Char
  | [] => []
  | c :: s => lowerChar before c s ++ lowerBehind (c :: before) s

/-- The lower case of a text. -/
def lowerCase (s : List Char) : List Char :=
  lowerBehind [] s

end CanvasLink.Text
