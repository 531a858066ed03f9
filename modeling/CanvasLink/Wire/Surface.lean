import CanvasLink.Json.Record

/-!
# CanvasLink — bodies of the daemon's request surface

The bodies that clients of the daemon exchange with it: reports on its session, and requests to
evaluate or render with their outcome. An `ExecRequest` names its action in a member of its own,
which decides what the other members are.
-/

namespace CanvasLink.Wire

open CanvasLink.Json

variable {α : Type} [Readable α]

/-- Report on the daemon's session. -/
structure HealthResponse where
  status : String
  /-- There is a session and its transport is open. -/
  connected : Bool
  /-- The session answers the existence probe. -/
  healthy : Bool
deriving DecidableEq, Repr

namespace HealthResponse

/-- The report of a daemon that answers. -/
def report (connected healthy : Bool) : HealthResponse :=
  ⟨"ok", connected, healthy⟩

def fields : Fields α HealthResponse :=
  (Fields.make HealthResponse.mk).field (.required "status" Decode.string)
    |>.field (.required "connected" Decode.boolean)
    |>.field (.required "healthy" Decode.boolean)

def decode : Decoder α HealthResponse :=
  fields.decode "HealthResponse"

def encode (h : HealthResponse) : Value :=
  .object [("status", .string h.status), ("connected", .boolean h.connected),
    ("healthy", .boolean h.healthy)]

end HealthResponse

/-- A failure, with a stable kind and a message for people. -/
structure ErrorBody where
  kind : String
  message : String
deriving DecidableEq, Repr

namespace ErrorBody

def fields : Fields α ErrorBody :=
  (Fields.make ErrorBody.mk).field (.required "kind" Decode.string)
    |>.field (.required "message" Decode.string)

def decode : Decoder α ErrorBody :=
  fields.decode "ErrorBody"

def encode (e : ErrorBody) : Value :=
  .object [("kind", .string e.kind), ("message", .string e.message)]

end ErrorBody

/-- Outcome of a reconnect. -/
structure ReconnectResponse where
  status : Option String
  error : Option ErrorBody
deriving DecidableEq, Repr

namespace ReconnectResponse

def connected : ReconnectResponse :=
  ⟨some "connected", none⟩

def failed (error : ErrorBody) : ReconnectResponse :=
  ⟨none, some error⟩

def fields : Fields α ReconnectResponse :=
  (Fields.make ReconnectResponse.mk).field (.optional "status" Decode.string)
    |>.field (.optional "error" ErrorBody.decode)

def decode : Decoder α ReconnectResponse :=
  fields.decode "ReconnectResponse"

def encode (r : ReconnectResponse) : Value :=
  .object (presentMember "status" .string r.status ++
    presentMember "error" ErrorBody.encode r.error)

end ReconnectResponse

/-- Outcome of an exec request: a result, an error, or both when a batch failed part of the way. -/
structure ExecResponse where
  result : Option Value
  error : Option ErrorBody

namespace ExecResponse

def succeeded (result : Value) : ExecResponse :=
  ⟨some result, none⟩

def failed (error : ErrorBody) : ExecResponse :=
  ⟨none, some error⟩

def partly (result : Value) (error : ErrorBody) : ExecResponse :=
  ⟨some result, some error⟩

def fields : Fields α ExecResponse :=
  (Fields.make ExecResponse.mk).field (.optional "result" Decode.value)
    |>.field (.optional "error" ErrorBody.decode)

def decode : Decoder α ExecResponse :=
  fields.decode "ExecResponse"

def encode (r : ExecResponse) : Value :=
  .object (presentMember "result" (fun v => v) r.result ++
    presentMember "error" ErrorBody.encode r.error)

end ExecResponse

/-! ## Exec requests -/

/-- What to do in the document. -/
inductive ExecRequest where
  /-- Evaluate a script. -/
  | eval (code : String)
  /-- Compile one unit of markup and evaluate it. -/
  | render (markup : String)
  /-- Compile units of markup and evaluate them one after another. -/
  | renderBatch (units : List String)
deriving DecidableEq, Repr

/-- The actions that a request can name. -/
inductive Action where
  | eval
  | render
  | renderBatch
deriving DecidableEq, Repr

namespace Action

def all : List Action :=
  [eval, render, renderBatch]

/-- The action's name on the wire. -/
def name : Action → String
  | eval => "eval"
  | render => "render"
  | renderBatch => "renderBatch"

/-- The action's name in reports on the number of fields. -/
def title : Action → String
  | eval => "Eval"
  | render => "Render"
  | renderBatch => "RenderBatch"

/-- Decodes the name of an action. -/
def decode : Decoder α Action := fun input =>
  match Readable.shape input with
  | .string s =>
    match all.find? fun action => action.name == s with
    | some action => .ok action
    | none => .error (.unknownVariant s (all.map name))
  | _ => mismatch "variant identifier" input

/-- The fields of an action's request, the action itself aside. -/
def fields : Action → Fields α ExecRequest
  | eval => (Fields.make ExecRequest.eval).field (.required "code" Decode.string)
  | render => (Fields.make ExecRequest.render).field (.required "jsx" Decode.string)
  | renderBatch =>
    (Fields.make ExecRequest.renderBatch).field (.required "jsxArray" (Decode.list Decode.string))

end Action

/-- A decoding error, with the place of the input at fault when that place is known. -/
structure LocatedError where
  place : Option String
  error : DecodeError

namespace LocatedError

/-- An error without a place. -/
def ofError (error : DecodeError) : LocatedError :=
  ⟨none, error⟩

def message (e : LocatedError) : String :=
  match e.place with
  | some place => place ++ ": " ++ e.error.message
  | none => e.error.message

end LocatedError

namespace ExecRequest

/-- The action of a request. -/
def action : ExecRequest → Action
  | eval _ => .eval
  | render _ => .render
  | renderBatch _ => .renderBatch

/-- The member that names the action. -/
def tag : String := "action"

/-- Goes through the members of a request: the action, decoded where it stands, and the other
members, which must be readable. -/
def splitMembers (found : Option Action) :
    List (String × α) → Except LocatedError (Option Action × List (String × α))
  | [] => .ok (found, [])
  | (name, input) :: members =>
    if name = tag then
      match found with
      | some _ => .error (.ofError (.duplicateField tag))
      | none =>
        match Action.decode input with
        | .error error => .error ⟨some tag, error⟩
        | .ok action => splitMembers (some action) members
    else
      match Readable.value? input with
      | none => .error (.ofError .unreadable)
      | some _ => do
        let (action, others) ← splitMembers found members
        return (action, (name, input) :: others)

/-- Decodes a request given as an object. -/
def ofMembers (members : List (String × α)) (closed : Bool) : Except LocatedError ExecRequest := do
  let (found, others) ← splitMembers none members
  if !closed then .error (.ofError .unreadable)
  else match found with
    | none => .error (.ofError (.missingField tag))
    | some action => (action.fields.decodeMembers others true).mapError .ofError

/-- Decodes a request given as an array: the action, then its fields. -/
def ofItems (items : List α) (closed : Bool) : Except LocatedError ExecRequest :=
  match items with
  | [] => .error (.ofError (if closed then .missingField tag else .unreadable))
  | first :: others =>
    match Action.decode first with
    | .error error => .error ⟨some "[0]", error⟩
    | .ok action =>
      if !closed || others.any (fun input => (Readable.value? input).isNone) then
        .error (.ofError .unreadable)
      else
        let surplus := fun length => DecodeError.invalidLength length "1 element in sequence"
        (action.fields.decodeArray ("struct variant ExecRequest::" ++ action.title) surplus others
          true).mapError .ofError

/-- Decodes a request and tells where its action is at fault. -/
def decodeLocated (input : α) : Except LocatedError ExecRequest :=
  match Readable.shape input with
  | .object members closed => ofMembers members closed
  | .array items closed => ofItems items closed
  | _ => (mismatch "internally tagged enum ExecRequest" input).mapError .ofError

def decode : Decoder α ExecRequest := fun input =>
  (decodeLocated input).mapError LocatedError.error

def encode : ExecRequest → Value
  | eval code => .object [(tag, .string Action.eval.name), ("code", .string code)]
  | render markup => .object [(tag, .string Action.render.name), ("jsx", .string markup)]
  | renderBatch units =>
    .object [(tag, .string Action.renderBatch.name), ("jsxArray", .array (units.map .string))]

end ExecRequest

end CanvasLink.Wire
