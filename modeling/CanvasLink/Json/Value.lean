/-!
# CanvasLink — JSON values

A value in memory. Integers that fit 64 bits, signed or unsigned, stay integers; every other
number is a floating-point number. The readers of this library give objects in ascending order of
their keys with each key once (`insert`).
-/

namespace CanvasLink.Json

/-- A JSON number. -/
inductive Number where
  | integer (i : Int)
  | real (x : Float)

/-- A JSON value. -/
inductive Value where
  | null
  | boolean (b : Bool)
  | number (n : Number)
  | string (s : String)
  | array (items : List Value)
  | object (members : List (String × Value))

instance : Inhabited Value := ⟨.null⟩

/-- Puts a member at its place among members with ascending keys; a member of the same key gives
way. -/
def insert {α : Type} (key : String) (value : α) : List (String × α) → List (String × α)
  | [] => [(key, value)]
  | (k, v) :: rest =>
    if key < k then (key, value) :: (k, v) :: rest
    else if key = k then (key, value) :: rest
    else (k, v) :: insert key value rest

/-- The members with ascending keys; the last one of each key is kept. -/
def sortMembers {α : Type} (members : List (String × α)) : List (String × α) :=
  members.foldl (fun sorted member => insert member.1 member.2 sorted) []

namespace Value

/-- A whole number. -/
def int (i : Int) : Value :=
  .number (.integer i)

/-- An object with its members in ascending order. -/
def sorted (members : List (String × Value)) : Value :=
  .object (sortMembers members)

/-- The member of an object. -/
def member? (key : String) : Value → Option Value
  | .object members => members.lookup key
  | _ => none

/-- The member of an object, where a missing one counts as null. -/
def member (key : String) (v : Value) : Value :=
  (v.member? key).getD .null

/-- Whether the value is an object, an array or something without parts, and if so its items. -/
def items : Value → List Value
  | .array items => items
  | _ => []

def string? : Value → Option String
  | .string s => some s
  | _ => none

def boolean? : Value → Option Bool
  | .boolean b => some b
  | _ => none

def integer? : Value → Option Int
  | .number (.integer i) => some i
  | _ => none

end Value

end CanvasLink.Json
