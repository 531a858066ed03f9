import CanvasLink.Json.Record

/-!
# CanvasLink — messages of the debugging channel

Requests carry an id, a method and parameters. An inbound message is a response, which answers the
request with its id, or an event, which has a method and no id; everything else is kept as it is.
Which of the three a message is follows from trying the shapes in that order.
-/

namespace CanvasLink.Wire

open CanvasLink.Json

variable {α : Type} [Readable α]

/-- A request to the target. -/
structure Request where
  id : UInt64
  method : String
  params : Value

namespace Request

def fields : Fields α Request :=
  (Fields.make Request.mk).field (.required "id" Decode.u64)
    |>.field (.required "method" Decode.string)
    |>.field (.withDefault "params" Decode.value .null)

def decode : Decoder α Request :=
  fields.decode "Request"

def encode (r : Request) : Value :=
  .object [("id", .int r.id.toNat), ("method", .string r.method), ("params", r.params)]

end Request

/-- The failure that a response carries. -/
structure ProtocolError where
  code : Int64
  message : String
  data : Option String

namespace ProtocolError

def fields : Fields α ProtocolError :=
  (Fields.make ProtocolError.mk).field (.withDefault "code" Decode.i64 0)
    |>.field (.required "message" Decode.string)
    |>.field (.optional "data" Decode.string)

def decode : Decoder α ProtocolError :=
  fields.decode "ProtocolError"

def encode (e : ProtocolError) : Value :=
  .object ([("code", .int e.code.toInt), ("message", .string e.message)] ++
    presentMember "data" .string e.data)

end ProtocolError

/-- The answer to a request. -/
structure Response where
  id : UInt64
  result : Option Value
  error : Option ProtocolError

namespace Response

def fields : Fields α Response :=
  (Fields.make Response.mk).field (.required "id" Decode.u64)
    |>.field (.nullable "result" Decode.value)
    |>.field (.nullable "error" ProtocolError.decode)

def decode : Decoder α Response :=
  fields.decode "Response"

def encode (r : Response) : Value :=
  .object ([("id", .int r.id.toNat)] ++ presentMember "result" (fun v => v) r.result ++
    presentMember "error" ProtocolError.encode r.error)

end Response

/-- A notification by the target. -/
structure Event where
  method : String
  params : Value

namespace Event

def fields : Fields α Event :=
  (Fields.make Event.mk).field (.required "method" Decode.string)
    |>.field (.withDefault "params" Decode.value .null)

def decode : Decoder α Event :=
  fields.decode "Event"

def encode (e : Event) : Value :=
  .object [("method", .string e.method), ("params", e.params)]

end Event

/-- An inbound message. -/
inductive Message where
  | response (r : Response)
  | event (e : Event)
  | unknown (v : Value)

namespace Message

/-- A message is a response if it decodes as one, else an event if it decodes as one. -/
def ofValue (v : Value) : Message :=
  match Response.decode v with
  | .ok r => .response r
  | .error _ =>
    match Event.decode v with
    | .ok e => .event e
    | .error _ => .unknown v

def encode : Message → Value
  | response r => r.encode
  | event e => e.encode
  | unknown v => v

end Message

end CanvasLink.Wire
