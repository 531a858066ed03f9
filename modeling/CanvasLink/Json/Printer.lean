import CanvasLink.Json.Numeral
import CanvasLink.Json.Quoted

/-!
# CanvasLink — JSON values as text

`compact` writes a value without any blank character, `indented` with two blanks for each level
and one item or member a line. Members are written in their order.
-/

namespace CanvasLink.Json

/-- A text as a JSON string. -/
def quoteString (s : String) : List Char :=
  quote s.toList

namespace Value

mutual

/-- The text of a value, without blanks. -/
def compactChars : Value → List Char
  | .null => ['n', 'u', 'l', 'l']
  | .boolean true => ['t', 'r', 'u', 'e']
  | .boolean false => ['f', 'a', 'l', 's', 'e']
  | .number n => n.text.toList
  | .string s => quoteString s
  | .array [] => ['[', ']']
  | .array (item :: items) => '[' :: compactChars item ++ compactItems items ++ [']']
  | .object [] => ['\x7b', '\x7d']
  | .object ((key, value) :: members) =>
    '\x7b' :: quoteString key ++ ':' :: compactChars value ++ compactMembers members ++ ['\x7d']

/-- Items behind the first one. -/
def compactItems : List Value → List Char
  | [] => []
  | item :: items => ',' :: compactChars item ++ compactItems items

/-- Members behind the first one. -/
def compactMembers : List (String × Value) → List Char
  | [] => []
  | (key, value) :: members =>
    ',' :: quoteString key ++ ':' :: compactChars value ++ compactMembers members

end

/-- The text of a value, without blanks. -/
def compact (v : Value) : String :=
  String.ofList v.compactChars

/-- A line break and the indentation of a level. -/
def newLine (level : Nat) : List Char :=
  '\n' :: List.replicate (2 * level) ' '

mutual

/-- The text of a value at a level of indentation. -/
def indentedChars (level : Nat) : Value → List Char
  | .null => ['n', 'u', 'l', 'l']
  | .boolean true => ['t', 'r', 'u', 'e']
  | .boolean false => ['f', 'a', 'l', 's', 'e']
  | .number n => n.text.toList
  | .string s => quoteString s
  | .array [] => ['[', ']']
  | .array (item :: items) =>
    '[' :: newLine (level + 1) ++ indentedChars (level + 1) item ++
      indentedItems (level + 1) items ++ newLine level ++ [']']
  | .object [] => ['\x7b', '\x7d']
  | .object ((key, value) :: members) =>
    '\x7b' :: newLine (level + 1) ++ quoteString key ++ ':' :: ' ' ::
      indentedChars (level + 1) value ++ indentedMembers (level + 1) members ++
      newLine level ++ ['\x7d']

/-- Items behind the first one. -/
def indentedItems (level : Nat) : List Value → List Char
  | [] => []
  | item :: items =>
    ',' :: newLine level ++ indentedChars level item ++ indentedItems level items

/-- Members behind the first one. -/
def indentedMembers (level : Nat) : List (String × Value) → List Char
  | [] => []
  | (key, value) :: members =>
    ',' :: newLine level ++ quoteString key ++ ':' :: ' ' :: indentedChars level value ++
      indentedMembers level members

end

/-- The text of a value, one item or member a line. -/
def indented (v : Value) : String :=
  String.ofList (v.indentedChars 0)

end Value

end CanvasLink.Json
