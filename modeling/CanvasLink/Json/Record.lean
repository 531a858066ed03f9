import CanvasLink.Json.Source
import CanvasLink.Text.Escaped

/-!
# CanvasLink — decoding records

A record type is decoded from an object, or from an array that gives its fields in order. Decoding
speaks of anything whose outermost shape can be seen (`Readable`): a value in memory, or a text as
far as it can be read.

The fields of an object are decoded in the order in which they stand, so the first bad one is
reported; only then are missing fields reported, in the order of the record. A record is described
once, as a constructor followed by its slots (`Fields`), and both forms of input follow from that.
-/

namespace CanvasLink.Json

/-! ## Shapes -/

/-- The outermost layer of a JSON input. `closed` tells whether its end is there. -/
inductive Shape (α : Type) where
  | null
  | boolean (b : Bool)
  | number (n : Number)
  | string (s : String)
  | array (items : List α) (closed : Bool)
  | object (members : List (String × α)) (closed : Bool)
  | unreadable

/-- What was found where something else was expected. -/
inductive Found where
  | null
  | boolean (b : Bool)
  | number (n : Number)
  | string (s : String)
  | sequence
  | map

/-- Why an input cannot be decoded. -/
inductive DecodeError where
  | missingField (name : String)
  | duplicateField (name : String)
  | invalidType (found : Found) (expected : String)
  /-- An integer outside the range of its type. -/
  | outOfRange (n : Int) (expected : String)
  | invalidLength (length : Nat) (expected : String)
  | unknownVariant (found : String) (expected : List String)
  /-- The text itself goes wrong. -/
  | unreadable

/-- Inputs whose shape can be seen. -/
class Readable (α : Type) where
  shape : α → Shape α
  /-- The input as a value, if it can be read whole. -/
  value? : α → Option Value
  /-- The error for an array of so many items that holds more than its record has fields. -/
  surplus : Nat → DecodeError

/-- Values in memory are always readable. -/
instance : Readable Value where
  shape
    | .null => .null
    | .boolean b => .boolean b
    | .number n => .number n
    | .string s => .string s
    | .array items => .array items true
    | .object members => .object members true
  value? := some
  surplus length := .invalidLength length "fewer elements in array"

/-- A text in which something stands where an array should end is itself wrong. -/
instance : Readable Source where
  shape
    | .null => .null
    | .boolean b => .boolean b
    | .number n => .number n
    | .string s => .string s
    | .array items closed => .array items closed
    | .object members closed => .object members closed
    | .unreadable => .unreadable
  value? := Source.value?
  surplus _ := .unreadable

/-- Decoding of one type. -/
abbrev Decoder (α β : Type) := α → Except DecodeError β

variable {α : Type} [Readable α] {β τ : Type}

/-- The error for an input that has another shape than expected. -/
def mismatch (expected : String) (input : α) : Except DecodeError β :=
  match Readable.shape input with
  | .null => .error (.invalidType .null expected)
  | .boolean b => .error (.invalidType (.boolean b) expected)
  | .number n => .error (.invalidType (.number n) expected)
  | .string s => .error (.invalidType (.string s) expected)
  | .array _ _ => .error (.invalidType .sequence expected)
  | .object _ _ => .error (.invalidType .map expected)
  | .unreadable => .error .unreadable

/-! ## Plain types -/

def Decode.string : Decoder α String := fun input =>
  match Readable.shape input with
  | .string s => .ok s
  | _ => mismatch "a string" input

def Decode.boolean : Decoder α Bool := fun input =>
  match Readable.shape input with
  | .boolean b => .ok b
  | _ => mismatch "a boolean" input

/-- An integer from `low` up to but not including `high`. -/
def Decode.integer (name : String) (low high : Int) : Decoder α Int := fun input =>
  match Readable.shape input with
  | .number (.integer i) => if low ≤ i ∧ i < high then .ok i else .error (.outOfRange i name)
  | _ => mismatch name input

def Decode.u16 : Decoder α UInt16 := fun input =>
  (Decode.integer "u16" 0 UInt16.size input).map fun i => UInt16.ofNat i.toNat

def Decode.u32 : Decoder α UInt32 := fun input =>
  (Decode.integer "u32" 0 UInt32.size input).map fun i => UInt32.ofNat i.toNat

def Decode.u64 : Decoder α UInt64 := fun input =>
  (Decode.integer "u64" 0 UInt64.size input).map fun i => UInt64.ofNat i.toNat

def Decode.i64 : Decoder α Int64 := fun input =>
  (Decode.integer "i64" Int64.minValue.toInt (Int64.maxValue.toInt + 1) input).map Int64.ofInt

/-- Any value. -/
def Decode.value : Decoder α Value := fun input =>
  match Readable.value? input with
  | some v => .ok v
  | none => .error .unreadable

/-- Null, or what `decode` takes. -/
def Decode.nullable (decode : Decoder α β) : Decoder α (Option β) := fun input =>
  match Readable.shape input with
  | .null => .ok none
  | _ => (decode input).map some

/-- Decodes the items of an array in order. -/
def decodeItems (decode : Decoder α β) (closed : Bool) : List α → Except DecodeError (List β)
  | [] => if closed then .ok [] else .error .unreadable
  | item :: items => do
    let first ← decode item
    let rest ← decodeItems decode closed items
    return first :: rest

def Decode.list (decode : Decoder α β) : Decoder α (List β) := fun input =>
  match Readable.shape input with
  | .array items closed => decodeItems decode closed items
  | _ => mismatch "a sequence" input

/-! ## Records -/

/-- A field of a record. -/
structure Slot (α β : Type) where
  name : String
  decode : Decoder α β
  /-- What stands for a field that an object lacks; without it the field is required. -/
  absent : Option β
  /-- What stands for a field that is missing at the end of an array. -/
  omitted : Option β

/-- A field that must be there. -/
def Slot.required (name : String) (decode : Decoder α β) : Slot α β :=
  ⟨name, decode, none, none⟩

/-- A field that may be null, or absent from an object. -/
def Slot.nullable (name : String) (decode : Decoder α β) : Slot α (Option β) :=
  ⟨name, Decode.nullable decode, some none, none⟩

/-- A field with a default. -/
def Slot.withDefault (name : String) (decode : Decoder α β) (default : β) : Slot α β :=
  ⟨name, decode, some default, some default⟩

/-- A field that may be null or left out anywhere. -/
def Slot.optional (name : String) (decode : Decoder α β) : Slot α (Option β) :=
  ⟨name, Decode.nullable decode, some none, some none⟩

/-- The fields of a record, with the way to make the record from them. -/
structure Fields (α τ : Type) where
  names : List String
  /-- Decodes the field of a name, for its errors. -/
  check : String → Decoder α Unit
  /-- Makes the record from the members of an object. -/
  ofMembers : (String → Option α) → Except DecodeError τ
  /-- Makes the record from the items of an array, given the error for too few items, and returns
  the items that are left. -/
  ofItems : (Nat → DecodeError) → Bool → List α → Except DecodeError (τ × List α)

namespace Fields

/-- A record without fields. -/
def make (result : τ) : Fields α τ :=
  { names := []
    check := fun _ _ => .ok ()
    ofMembers := fun _ => .ok result
    ofItems := fun _ _ items => .ok (result, items) }

/-- The record with one more field. -/
def field (fields : Fields α (β → τ)) (slot : Slot α β) : Fields α τ :=
  { names := fields.names ++ [slot.name]
    check := fun name input =>
      if name = slot.name then (slot.decode input).map fun _ => () else fields.check name input
    ofMembers := fun find => do
      let result ← fields.ofMembers find
      match find slot.name with
      | some input => (slot.decode input).map result
      | none =>
        match slot.absent with
        | some default => .ok (result default)
        | none => .error (.missingField slot.name)
    ofItems := fun short closed items => do
      let (result, rest) ← fields.ofItems short closed items
      match rest with
      | input :: rest => (slot.decode input).map fun decoded => (result decoded, rest)
      | [] =>
        if closed then
          match slot.omitted with
          | some default => .ok (result default, [])
          | none => .error (short fields.names.length)
        else .error .unreadable }

/-- Goes through members in order: a known one must be decodable and stand there once, others are
passed over. -/
def checkMembers (fields : Fields α τ) (seen : List String) :
    List (String × α) → Except DecodeError Unit
  | [] => .ok ()
  | (name, input) :: members =>
    if name ∈ fields.names then
      if name ∈ seen then .error (.duplicateField name)
      else do
        fields.check name input
        checkMembers fields (name :: seen) members
    else checkMembers fields seen members

/-- Decodes the members of an object. -/
def decodeMembers (fields : Fields α τ) (members : List (String × α)) (closed : Bool) :
    Except DecodeError τ := do
  fields.checkMembers [] members
  if closed then fields.ofMembers fun name => members.lookup name
  else .error .unreadable

/-- Decodes the items of an array. `description` names the record in the error for too few items,
`surplus` is the error for too many. -/
def decodeArray (fields : Fields α τ) (description : String) (surplus : Nat → DecodeError)
    (items : List α) (closed : Bool) : Except DecodeError τ := do
  let count := fields.names.length
  let expected := description ++ " with " ++ toString count ++
    (if count == 1 then " element" else " elements")
  let (result, rest) ← fields.ofItems (fun length => .invalidLength length expected) closed items
  if !closed then .error .unreadable
  else if rest.isEmpty then .ok result
  else .error (surplus items.length)

/-- Decodes a record from an object or an array. -/
def decode (fields : Fields α τ) (name : String) : Decoder α τ := fun input =>
  match Readable.shape input with
  | .object members closed => fields.decodeMembers members closed
  | .array items closed =>
    fields.decodeArray ("struct " ++ name) (Readable.surplus α) items closed
  | _ => mismatch ("struct " ++ name) input

end Fields

/-! ## Messages -/

def Found.message : Found → String
  | .null => "null"
  | .boolean b => "boolean `" ++ toString b ++ "`"
  | .number (.integer i) => "integer `" ++ toString i ++ "`"
  | .number (.real x) => "floating point `" ++ (Number.real x).text ++ "`"
  | .string s => "string " ++ Text.quoted s
  | .sequence => "sequence"
  | .map => "map"

def DecodeError.message : DecodeError → String
  | .missingField name => "missing field `" ++ name ++ "`"
  | .duplicateField name => "duplicate field `" ++ name ++ "`"
  | .invalidType found expected => "invalid type: " ++ found.message ++ ", expected " ++ expected
  | .outOfRange n expected =>
    "invalid value: integer `" ++ toString n ++ "`, expected " ++ expected
  | .invalidLength length expected =>
    "invalid length " ++ toString length ++ ", expected " ++ expected
  | .unknownVariant found expected =>
    "unknown variant `" ++ found ++ "`, expected one of " ++
      ", ".intercalate (expected.map fun name => "`" ++ name ++ "`")
  | .unreadable => "the text is not JSON"

/-- Members of an object that are there only when they hold something. -/
def presentMember (name : String) (encode : β → Value) : Option β → List (String × Value)
  | some b => [(name, encode b)]
  | none => []

end CanvasLink.Json
