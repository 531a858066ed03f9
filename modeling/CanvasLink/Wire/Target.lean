import CanvasLink.Json.Record

/-!
# CanvasLink — the directory of targets

One entry for each document, worker or other target that the endpoint knows.
-/

namespace CanvasLink.Wire

open CanvasLink.Json

variable {α : Type} [Readable α]

/-- An entry of the endpoint's directory. -/
structure TargetDescriptor where
  id : String
  title : String := ""
  url : String := ""
  /-- What sort of target it is; documents are pages. -/
  kind : String := ""
  /-- Absent while another client is attached. -/
  debuggerUrl : Option String := none
deriving DecidableEq, Repr

namespace TargetDescriptor

def fields : Fields α TargetDescriptor :=
  (Fields.make TargetDescriptor.mk).field (.required "id" Decode.string)
    |>.field (.withDefault "title" Decode.string "")
    |>.field (.withDefault "url" Decode.string "")
    |>.field (.withDefault "type" Decode.string "")
    |>.field (.optional "webSocketDebuggerUrl" Decode.string)

def decode : Decoder α TargetDescriptor :=
  fields.decode "TargetDescriptor"

def encode (t : TargetDescriptor) : Value :=
  .object [("id", .string t.id), ("title", .string t.title), ("url", .string t.url),
    ("type", .string t.kind),
    ("webSocketDebuggerUrl", match t.debuggerUrl with
      | some url => .string url
      | none => .null)]

end TargetDescriptor

end CanvasLink.Wire
