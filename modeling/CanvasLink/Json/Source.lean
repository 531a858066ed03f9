import CanvasLink.Json.Token

/-!
# CanvasLink — JSON texts as far as they can be read

A `Source` is what a text says in its own order: members of objects keep their order and their
repetitions, and a text that breaks off or goes wrong is kept up to that place, so that a reader who
asks for a certain shape meets the first thing that is wrong, be it the shape or the text.

The text is read by a machine over its tokens with a stack of the arrays and objects that are still
open. `Source.value?` is the value of a source that can be read whole.
-/

namespace CanvasLink.Json

inductive Source where
  | null
  | boolean (b : Bool)
  | number (n : Number)
  | string (s : String)
  /-- The items up to the closing bracket, or as far as they can be read. -/
  | array (items : List Source) (closed : Bool)
  /-- The members up to the closing brace, or as far as they can be read. -/
  | object (members : List (String × Source)) (closed : Bool)
  /-- A place without a value. -/
  | unreadable

/-! ## Arrays and objects that are still open -/

/-- An array or object that is still open, with its contents in reverse order. -/
inductive Open where
  | array (items : List Source)
  /-- An object between two members. The members end where a key has no value as a text
  (`readable`). -/
  | object (members : List (String × Source)) (readable : Bool)
  /-- An object whose last key still waits for its value. -/
  | member (members : List (String × Source)) (readable : Bool) (key : Option String)

namespace Open

/-- Puts a source where the open array or object waits for one. -/
def add (value : Source) : Open → Open
  | array items => array (value :: items)
  | object members readable => object members readable
  | member members true (some key) => object ((key, value) :: members) true
  | member members _ _ => object members false

/-- The source of an array or object that ends here, with its own bracket or without. -/
def close (closed : Bool) : Open → Source
  | array items => .array items.reverse closed
  | object members readable => .object members.reverse (closed && readable)
  | member members _ _ => .object members.reverse false

end Open

/-- Arrays and objects nested deeper than this have no value. -/
def maxDepth : Nat := 127

/-- An array or object with those of `outer` around it, of which no more are looked at than may
be. -/
def limitDepth (outer : List Open) (source : Source) : Source :=
  if (outer.drop (maxDepth - 1)).isEmpty then source else .unreadable

/-- The source of a text that goes wrong inside the open arrays and objects, where `value` is what
stands at that place. -/
def breakOff (value : Source) : List Open → Source
  | [] => value
  | innermost :: stack =>
    breakOff (limitDepth stack ((innermost.add value).close false)) stack

/-! ## The machine -/

/-- What may come next. -/
inductive Expectation where
  | value
  /-- A value or the end of an array that is still empty. -/
  | firstItem
  | key
  /-- A key or the end of an object that is still empty. -/
  | firstKey
  | colon
  /-- A comma or the end of the innermost array or object. -/
  | next
deriving DecidableEq, Repr

/-- What a token leads to. -/
inductive Progress where
  | more (stack : List Open) (expectation : Expectation)
  | done (value : Source)
  | stuck

/-- A source that is complete: it goes to the innermost open array or object, or is the whole. -/
def deliver (value : Source) : List Open → Progress
  | [] => .done value
  | innermost :: stack => .more (innermost.add value :: stack) .next

/-- Ends the innermost array or object. -/
def closeInnermost : List Open → Progress
  | [] => .stuck
  | innermost :: stack => deliver (limitDepth stack (innermost.close true)) stack

/-- Takes the first token of a value. -/
def startValue (stack : List Open) : Token → Progress
  | .openArray => .more (.array [] :: stack) .firstItem
  | .openObject => .more (.object [] true :: stack) .firstKey
  | .null => deliver .null stack
  | .boolean b => deliver (.boolean b) stack
  | .number (some n) => deliver (.number n) stack
  -- A token without a value takes a place, and only who asks for it is told.
  | .number none => deliver .unreadable stack
  | .string (some s) => deliver (.string s) stack
  | .string none => deliver .unreadable stack
  | _ => .stuck

/-- Takes a key. -/
def startMember : List Open → Token → Progress
  | .object members readable :: stack, .string key =>
    .more (.member members readable key :: stack) .colon
  | _, _ => .stuck

/-- Takes one token. -/
def advance (stack : List Open) : Expectation → Token → Progress
  | .value, token => startValue stack token
  | .firstItem, .closeArray => closeInnermost stack
  | .firstItem, token => startValue stack token
  | .key, token => startMember stack token
  | .firstKey, .closeObject => closeInnermost stack
  | .firstKey, token => startMember stack token
  | .colon, .colon => .more stack .value
  | .colon, _ => .stuck
  | .next, token =>
    match stack, token with
    | .array _ :: _, .comma => .more stack .value
    | .array _ :: _, .closeArray => closeInnermost stack
    | .object _ _ :: _, .comma => .more stack .key
    | .object _ _ :: _, .closeObject => closeInnermost stack
    | _, _ => .stuck

/-- Runs over the tokens: the source they write, and whether they are used up by it. -/
def assemble (stack : List Open) (expectation : Expectation) : List Token → Source × Bool
  | [] => (breakOff .unreadable stack, false)
  | token :: tokens =>
    match advance stack expectation token with
    | .more stack expectation => assemble stack expectation tokens
    | .done value => (value, tokens.isEmpty)
    | .stuck => (breakOff .unreadable stack, false)

/-- A whole text. -/
structure Document where
  root : Source
  /-- The text holds one value and nothing else. -/
  complete : Bool

/-- Reads a text as far as it can be read. -/
def Document.read (text : List Char) : Document :=
  let (root, complete) := assemble [] .value (tokens text)
  ⟨root, complete⟩

/-! ## Values -/

mutual

/-- The value of a source that can be read whole; of members with one key the last one counts. -/
def Source.value? : Source → Option Value
  | .null => some .null
  | .boolean b => some (.boolean b)
  | .number n => some (.number n)
  | .string s => some (.string s)
  | .array items closed => if closed then (itemValues? items).map .array else none
  | .object members closed => if closed then (memberValues? members).map .sorted else none
  | .unreadable => none

/-- The values of all items. -/
def itemValues? : List Source → Option (List Value)
  | [] => some []
  | item :: items => do
    let value ← item.value?
    let values ← itemValues? items
    return value :: values

/-- The values of all members. -/
def memberValues? : List (String × Source) → Option (List (String × Value))
  | [] => some []
  | (key, item) :: members => do
    let value ← item.value?
    let values ← memberValues? members
    return (key, value) :: values

end

/-- Reads a text that holds one value and nothing else. -/
def Value.parse? (text : String) : Option Value :=
  let document := Document.read text.toList
  if document.complete then document.root.value? else none

end CanvasLink.Json
