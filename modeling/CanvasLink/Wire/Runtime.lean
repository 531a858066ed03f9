import CanvasLink.Json.Printer
import CanvasLink.Json.Record

/-!
# CanvasLink — evaluating scripts over the debugging channel

The parameters and results of the two methods that are used: one asks for announcements of
scripting contexts, the other evaluates an expression in a context.
-/

namespace CanvasLink.Wire

open CanvasLink.Json

variable {α : Type} [Readable α]

/-- Asks for announcements of scripting contexts. -/
def runtimeEnable : String := "Runtime.enable"

/-- Evaluates an expression. -/
def runtimeEvaluate : String := "Runtime.evaluate"

/-- Announces a scripting context. -/
def contextCreated : String := "Runtime.executionContextCreated"

/-- Announces that every scripting context is gone. -/
def contextsCleared : String := "Runtime.executionContextsCleared"

/-- A scripting context of the target. -/
structure ExecutionContext where
  id : Int64
  origin : String
  name : String
  auxData : Option Value

namespace ExecutionContext

def fields : Fields α ExecutionContext :=
  (Fields.make ExecutionContext.mk).field (.required "id" Decode.i64)
    |>.field (.withDefault "origin" Decode.string "")
    |>.field (.withDefault "name" Decode.string "")
    |>.field (.optional "auxData" Decode.value)

def decode : Decoder α ExecutionContext :=
  fields.decode "ExecutionContextDescription"

def encode (c : ExecutionContext) : Value :=
  .object ([("id", .int c.id.toInt), ("origin", .string c.origin), ("name", .string c.name)] ++
    presentMember "auxData" (fun v => v) c.auxData)

end ExecutionContext

/-- The parameters of an announcement. -/
structure ExecutionContextCreated where
  context : ExecutionContext

namespace ExecutionContextCreated

def fields : Fields α ExecutionContextCreated :=
  (Fields.make ExecutionContextCreated.mk).field (.required "context" ExecutionContext.decode)

def decode : Decoder α ExecutionContextCreated :=
  fields.decode "ExecutionContextCreated"

def encode (c : ExecutionContextCreated) : Value :=
  .object [("context", c.context.encode)]

end ExecutionContextCreated

/-- The parameters of an evaluation. -/
structure EvaluateParams where
  expression : String
  contextId : Option Int64
  awaitPromise : Bool
  returnByValue : Bool
  silent : Bool

namespace EvaluateParams

/-- An evaluation in a context that waits for promises and returns its result by value. -/
def inContext (expression : String) (context : Int64) : EvaluateParams :=
  { expression := expression, contextId := some context, awaitPromise := true
    returnByValue := true, silent := false }

/-- The same evaluation, with exceptions not reported in the target. -/
def silently (p : EvaluateParams) : EvaluateParams :=
  { p with silent := true }

def fields : Fields α EvaluateParams :=
  (Fields.make EvaluateParams.mk).field (.required "expression" Decode.string)
    |>.field (.nullable "contextId" Decode.i64)
    |>.field (.required "awaitPromise" Decode.boolean)
    |>.field (.required "returnByValue" Decode.boolean)
    |>.field (.withDefault "silent" Decode.boolean false)

def decode : Decoder α EvaluateParams :=
  fields.decode "EvaluateParams"

def encode (p : EvaluateParams) : Value :=
  .object ([("expression", .string p.expression)] ++
    presentMember "contextId" (fun id : Int64 => .int id.toInt) p.contextId ++
    [("awaitPromise", .boolean p.awaitPromise), ("returnByValue", .boolean p.returnByValue)] ++
    (if p.silent then [("silent", .boolean true)] else []))

end EvaluateParams

/-- A value of the target, by value as far as it can be told so. -/
structure RemoteObject where
  kind : String := ""
  subtype : Option String := none
  className : Option String := none
  value : Option Value := none
  description : Option String := none

namespace RemoteObject

def fields : Fields α RemoteObject :=
  (Fields.make RemoteObject.mk).field (.withDefault "type" Decode.string "")
    |>.field (.optional "subtype" Decode.string)
    |>.field (.optional "className" Decode.string)
    |>.field (.optional "value" Decode.value)
    |>.field (.optional "description" Decode.string)

def decode : Decoder α RemoteObject :=
  fields.decode "RemoteObject"

def encode (o : RemoteObject) : Value :=
  .object ([("type", .string o.kind)] ++ presentMember "subtype" .string o.subtype ++
    presentMember "className" .string o.className ++ presentMember "value" (fun v => v) o.value ++
    presentMember "description" .string o.description)

/-- The value; whatever cannot be told by value counts as null. -/
def toValue (o : RemoteObject) : Value :=
  o.value.getD .null

end RemoteObject

/-- What an evaluated expression threw. -/
structure ExceptionDetails where
  text : String := ""
  lineNumber : Int64 := 0
  columnNumber : Int64 := 0
  exception : Option RemoteObject := none

namespace ExceptionDetails

def fields : Fields α ExceptionDetails :=
  (Fields.make ExceptionDetails.mk).field (.withDefault "text" Decode.string "")
    |>.field (.withDefault "lineNumber" Decode.i64 0)
    |>.field (.withDefault "columnNumber" Decode.i64 0)
    |>.field (.optional "exception" RemoteObject.decode)

def decode : Decoder α ExceptionDetails :=
  fields.decode "ExceptionDetails"

def encode (d : ExceptionDetails) : Value :=
  .object ([("text", .string d.text), ("lineNumber", .int d.lineNumber.toInt),
    ("columnNumber", .int d.columnNumber.toInt)] ++
    presentMember "exception" RemoteObject.encode d.exception)

/-- The text of a thrown value: a string as it is, anything else but null in compact form. -/
def thrownText? : Option Value → Option String
  | none => none
  | some .null => none
  | some (.string s) => some s
  | some v => some v.compact

/-- The most telling message that the target gives: the description of what was thrown unless it
is empty, else the thrown value, else the general text. -/
def message (d : ExceptionDetails) : String :=
  match d.exception with
  | none => d.text
  | some thrown =>
    match thrown.description.filter (· ≠ "") with
    | some description => description
    | none => (thrownText? thrown.value).getD d.text

end ExceptionDetails

/-- The result of an evaluation. -/
structure EvaluateResult where
  result : RemoteObject
  exceptionDetails : Option ExceptionDetails

namespace EvaluateResult

def fields : Fields α EvaluateResult :=
  (Fields.make EvaluateResult.mk).field (.required "result" RemoteObject.decode)
    |>.field (.optional "exceptionDetails" ExceptionDetails.decode)

def decode : Decoder α EvaluateResult :=
  fields.decode "EvaluateResult"

def encode (r : EvaluateResult) : Value :=
  .object ([("result", r.result.encode)] ++
    presentMember "exceptionDetails" ExceptionDetails.encode r.exceptionDetails)

end EvaluateResult

end CanvasLink.Wire
