import CanvasLink.Broker.Execution
import CanvasLink.Daemon.MediaType
import CanvasLink.Json.Printer
import CanvasLink.Json.Source
import CanvasLink.Text.Search

/-!
# CanvasLink — the daemon's request surface

The daemon takes requests over HTTP: a report on its session, a reconnect, and requests to evaluate
or render. Each is one call on the broker; `respond` is that call, and its result is the answer to
send back. The status of a failure depends on its kind alone.
-/

namespace CanvasLink.Daemon

open CanvasLink.Bridge CanvasLink.Broker CanvasLink.Json CanvasLink.Wire

/-- A request to the daemon. -/
structure HttpRequest where
  method : String
  /-- What the request is for: a path with a query, or a whole address. -/
  target : String
  contentType : Option String
  body : String

/-- The daemon's answer. -/
structure HttpResponse where
  status : Nat
  contentType : Option String := none
  /-- The methods that would do, when the one asked for does not. -/
  allow : Option String := none
  body : String := ""
deriving DecidableEq, Repr

namespace HttpResponse

/-- An answer with a JSON body. -/
def json (status : Nat) (body : Value) : HttpResponse :=
  { status := status, contentType := some "application/json", body := body.compact }

def notFound : HttpResponse :=
  { status := 404 }

def methodNotAllowed (allow : String) : HttpResponse :=
  { status := 405, allow := some allow }

end HttpResponse

/-! ## Outcomes as answers -/

/-- The status of a failure. -/
def statusOf : Bridge.Error → Nat
  | .markup _ => 400
  | .executionTimeout _ => 504
  | _ => 502

/-- A failure as a body. -/
def errorBody (e : Bridge.Error) : ErrorBody :=
  ⟨e.kind, e.message⟩

/-- The answer to a request for the session's state. -/
def healthReply (health : Health) : Nat × HealthResponse :=
  (200, health.report)

/-- The answer to a reconnect. -/
def reconnectReply : Except Bridge.Error SessionId → Nat × ReconnectResponse
  | .ok _ => (200, .connected)
  | .error e => (statusOf e, .failed (errorBody e))

/-- The answer to an exec request. -/
def execReply : Except ExecFailure Value → Nat × ExecResponse
  | .ok result => (200, .succeeded result)
  | .error ⟨e, none⟩ => (statusOf e, .failed (errorBody e))
  | .error ⟨e, some results⟩ => (statusOf e, .partly (.array results) (errorBody e))

/-- The answer to a body that is not an exec request. -/
def badRequest (message : String) : Nat × ExecResponse :=
  (400, .failed ⟨"bad_request", message⟩)

/-! ## Exec bodies -/

/-- Longest body that is read, in bytes. -/
def bodyLimit : Nat := 2 * 1024 * 1024

/-- Why a body is not an exec request. -/
inductive BodyError where
  /-- The body is not declared to be JSON. -/
  | notDeclared
  | tooLong
  | notJson
  /-- The body is JSON of another shape. -/
  | mismatch (error : LocatedError)

def BodyError.message : BodyError → String
  | notDeclared => "Expected request with \x60Content-Type: application/json\x60"
  | tooLong => "Failed to buffer the request body: length limit exceeded"
  | notJson => "Failed to parse the request body as JSON"
  | mismatch error =>
    "Failed to deserialize the JSON body into the target type: " ++ error.message

/-- Whether a body is declared to be JSON. -/
def declaresJson (contentType : Option String) : Bool :=
  (contentType.bind fun s => MediaType.parse? s.toList).any (·.isJson)

/-- Decodes an exec request from the text of a body. A wrong shape that comes before an error in the
text is the one that is told. -/
def decodeBody (text : String) : Except BodyError ExecRequest :=
  let document := Document.read text.toList
  match ExecRequest.decodeLocated document.root with
  | .error error =>
    match error.error with
    | .unreadable => .error .notJson
    | _ => .error (.mismatch error)
  | .ok request => if document.complete then .ok request else .error .notJson

/-- Reads an exec request. -/
def readBody (request : HttpRequest) : Except BodyError ExecRequest :=
  if !declaresJson request.contentType then .error .notDeclared
  else if bodyLimit < request.body.utf8ByteSize then .error .tooLong
  else decodeBody request.body

/-! ## Routes -/

/-- What a path stands for. -/
inductive Route where
  | health
  | reconnect
  | exec
deriving DecidableEq, Repr

namespace Route

/-- The route of a path without its query. -/
def ofPath? (path : String) : Option Route :=
  match path with
  | "/health" => some health
  | "/reconnect" => some reconnect
  | "/exec" => some exec
  | _ => none

/-- The methods that a route takes. -/
def methods : Route → List String
  | health => ["GET", "HEAD"]
  | reconnect => ["GET", "HEAD"]
  | exec => ["POST"]

end Route

/-- What follows the scheme and the authority of an address, which begins with the path. A target
without a scheme is an authority alone. -/
def afterAuthority? (target : List Char) : Option (List Char) :=
  match target.dropWhile (· ≠ ':') with
  | ':' :: '/' :: '/' :: rest => some (rest.dropWhile fun c => c ∉ ['/', '?', '#'])
  | _ => none

/-- A path without its query. -/
def dropQuery (path : List Char) : List Char :=
  path.takeWhile fun c => c ≠ '?' && c ≠ '#'

/-- The path that a target names. The path of an address is `/` where none is written, and an
authority alone has no path. -/
def pathOf (target : String) : String :=
  if target.startsWith "/" then String.ofList (dropQuery target.toList)
  else match afterAuthority? target.toList with
    | none => ""
    | some rest =>
      let path := dropQuery rest
      if path.isEmpty then "/" else String.ofList path

/-- The call that answers a request to a route. -/
def serve (limits : Limits) (route : Route) (request : HttpRequest) : Call HttpResponse :=
  match route with
  | .health => do
    let (status, body) := healthReply (← health limits)
    return .json status body.encode
  | .reconnect => do
    let (status, body) := reconnectReply (← reconnect limits)
    return .json status body.encode
  | .exec =>
    match readBody request with
    | .error error =>
      let (status, body) := badRequest error.message
      return .json status body.encode
    | .ok exec => do
      let (status, body) := execReply (← perform limits exec)
      return .json status body.encode

/-- An answer without its body, as HEAD asks for. -/
def headOnly (request : HttpRequest) (response : HttpResponse) : HttpResponse :=
  if request.method = "HEAD" then { response with body := "" } else response

/-- The call that answers a request. -/
def respond (limits : Limits) (request : HttpRequest) : Call HttpResponse :=
  match Route.ofPath? (pathOf request.target) with
  | none => return .notFound
  | some route =>
    if request.method ∈ route.methods then do
      return headOnly request (← serve limits route request)
    else return .methodNotAllowed (",".intercalate route.methods)

end CanvasLink.Daemon
