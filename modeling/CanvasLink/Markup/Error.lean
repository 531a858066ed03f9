import CanvasLink.Text.Escaped

/-!
# CanvasLink — why markup is refused

Every refusal is a cause with its data; `Error.message` is the only place where it is worded.
-/

namespace CanvasLink.Markup

open CanvasLink.Text

/-- The elements whose attributes are read. -/
inductive Element where
  | frame
  | text
deriving DecidableEq, Repr

/-- The element's tag. -/
def Element.tag : Element → String
  | .frame => "Frame"
  | .text => "Text"

/-- What an attribute should have held. -/
inductive Expectation where
  | anyValue
  | number
  | positiveNumber
  | color
  | direction
deriving DecidableEq, Repr

def Expectation.message : Expectation → String
  | .anyValue => "a value"
  | .number => "a number"
  | .positiveNumber => "a positive number"
  | .color => "a 6-digit hex color"
  | .direction => "`row` or `col`"

/-- A structural defect of the markup. -/
inductive Defect where
  | unterminatedComment
  /-- A `<`, or a `</` when `closing`, without a name behind it. -/
  | missingName (closing : Bool)
  | unterminatedTag (name : String)
  | unterminatedEndTag (name : String)
  | unexpectedCharacter (found : Char) (tag : String)
  | unterminatedString (attr : String)
  | unterminatedBraces (attr : String)
  | missingValue (attr : String)
  /-- The input ends, or holds no end tag, before the element is closed. -/
  | missingEnd (name : String)
  | wrongEnd (expected : Element) (found : String)
  | nestedElement
  | trailingContent
deriving DecidableEq, Repr

def Defect.message : Defect → String
  | .unterminatedComment => "unterminated comment"
  | .missingName false => "expected an element name after `<`"
  | .missingName true => "expected an element name after `</`"
  | .unterminatedTag name => "unterminated <" ++ name ++ "> tag"
  | .unterminatedEndTag name => "unterminated </" ++ name ++ "> tag"
  | .unexpectedCharacter found tag => "unexpected " ++ quotedChar found ++ " in <" ++ tag ++ "> tag"
  | .unterminatedString attr => "unterminated string for attribute `" ++ attr ++ "`"
  | .unterminatedBraces attr =>
    "unterminated \x7b...\x7d for attribute `" ++ attr ++ "`"
  | .missingValue attr => "expected \"...\" or \x7b...\x7d after `" ++ attr ++ "=`"
  | .missingEnd name => "missing </" ++ name ++ ">"
  | .wrongEnd expected found => "expected </" ++ expected.tag ++ ">, found </" ++ found ++ ">"
  | .nestedElement => "elements inside <Text> are not supported"
  | .trailingContent => "unexpected content after </Frame>"

/-- Why a unit of markup is refused. `Position` tells where a defect lies: inside the reader it is
the input that is left, outside it an offset. -/
inductive Refusal (Position : Type) where
  /-- The input does not start with a `<Frame>` element. -/
  | missingRoot (found : Option String)
  | malformed (position : Position) (defect : Defect)
  /-- A recognised attribute holds a value of the wrong shape. -/
  | invalidValue (element : Element) (attr value : String) (expected : Expectation)
deriving DecidableEq, Repr

/-- The same refusal with its position told in another way. -/
def Refusal.mapPosition {α β : Type} (f : α → β) : Refusal α → Refusal β
  | .missingRoot found => .missingRoot found
  | .malformed position defect => .malformed (f position) defect
  | .invalidValue element attr value expected => .invalidValue element attr value expected

/-- Why markup cannot be compiled; offsets count bytes. -/
inductive Error where
  | unit (refusal : Refusal Nat)
  /-- A unit of a batch is refused. -/
  | batchUnit (index : Nat) (refusal : Refusal Nat)
deriving DecidableEq, Repr

def Refusal.message : Refusal Nat → String
  | .missingRoot none => "expected a root <Frame> element"
  | .missingRoot (some found) => "expected a root <Frame> element, found <" ++ found ++ ">"
  | .malformed offset defect =>
    "malformed markup at byte " ++ toString offset ++ ": " ++ defect.message
  | .invalidValue element attr value expected =>
    "invalid value " ++ quoted value ++ " for `" ++ attr ++ "` on <" ++ element.tag ++
      ">: expected " ++ expected.message

def Error.message : Error → String
  | .unit refusal => refusal.message
  | .batchUnit index refusal => "markup unit " ++ toString index ++ ": " ++ refusal.message

end CanvasLink.Markup
