/-!
# CanvasLink — entities

Five entities stand for the characters that markup gives a meaning. Decoding reads a text once
from left to right and never reads its own output; an ampersand that starts no entity stands for
itself.
-/

namespace CanvasLink.Markup

/-- Replaces every entity by its character. -/
def decodeEntities : List Char → List Char
  | '&' :: 'l' :: 't' :: ';' :: s => '<' :: decodeEntities s
  | '&' :: 'g' :: 't' :: ';' :: s => '>' :: decodeEntities s
  | '&' :: 'a' :: 'm' :: 'p' :: ';' :: s => '&' :: decodeEntities s
  | '&' :: 'q' :: 'u' :: 'o' :: 't' :: ';' :: s => '"' :: decodeEntities s
  | '&' :: 'a' :: 'p' :: 'o' :: 's' :: ';' :: s => '\'' :: decodeEntities s
  | c :: s => c :: decodeEntities s
  | [] => []

end CanvasLink.Markup
