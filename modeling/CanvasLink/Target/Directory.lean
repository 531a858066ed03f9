import CanvasLink.Bridge.Error
import CanvasLink.Json.Source
import CanvasLink.Wire.Target

/-!
# CanvasLink — the endpoint's directory

The directory of targets is asked for at a path that most endpoints serve, and at a shorter one
where the first is not found. Every answer but a list of targets is a failure.
-/

namespace CanvasLink.Target

open CanvasLink.Json CanvasLink.Wire

/-- The two forms of the directory. -/
inductive Form where
  | long
  | short
deriving DecidableEq, Repr

/-- Path of the directory. -/
def Form.path : Form → String
  | long => "/json/list"
  | short => "/json"

/-- What comes of a request to the endpoint. -/
inductive Answer where
  /-- There was no answer. -/
  | unsent
  | answered (status : Nat) (body : String)
deriving DecidableEq, Repr

/-- What the statuses of failures are called. -/
def statusName (status : Nat) : String :=
  match status with
  | 400 => "Bad Request"
  | 401 => "Unauthorized"
  | 402 => "Payment Required"
  | 403 => "Forbidden"
  | 404 => "Not Found"
  | 405 => "Method Not Allowed"
  | 406 => "Not Acceptable"
  | 407 => "Proxy Authentication Required"
  | 408 => "Request Timeout"
  | 409 => "Conflict"
  | 410 => "Gone"
  | 411 => "Length Required"
  | 412 => "Precondition Failed"
  | 413 => "Payload Too Large"
  | 414 => "URI Too Long"
  | 415 => "Unsupported Media Type"
  | 416 => "Range Not Satisfiable"
  | 417 => "Expectation Failed"
  | 418 => "I'm a teapot"
  | 421 => "Misdirected Request"
  | 422 => "Unprocessable Entity"
  | 423 => "Locked"
  | 424 => "Failed Dependency"
  | 425 => "Too Early"
  | 426 => "Upgrade Required"
  | 428 => "Precondition Required"
  | 429 => "Too Many Requests"
  | 431 => "Request Header Fields Too Large"
  | 451 => "Unavailable For Legal Reasons"
  | 500 => "Internal Server Error"
  | 501 => "Not Implemented"
  | 502 => "Bad Gateway"
  | 503 => "Service Unavailable"
  | 504 => "Gateway Timeout"
  | 505 => "HTTP Version Not Supported"
  | 506 => "Variant Also Negotiates"
  | 507 => "Insufficient Storage"
  | 508 => "Loop Detected"
  | 510 => "Not Extended"
  | 511 => "Network Authentication Required"
  | _ => "<unknown status code>"

/-- What is wrong with an answer of a status, if something is. -/
def statusProblem? (status : Nat) (url : String) : Option String :=
  let told := fun side =>
    "HTTP status " ++ side ++ " error (" ++ toString status ++ " " ++ statusName status ++
      ") for url (" ++ url ++ ")"
  if 400 ≤ status ∧ status < 500 then some (told "client")
  else if 500 ≤ status ∧ status < 600 then some (told "server")
  else none

/-- The targets of a directory's text. -/
def parseList (body : String) : Except Bridge.Error (List TargetDescriptor) :=
  let document := Document.read body.toList
  match Decode.list TargetDescriptor.decode document.root, document.complete with
  | .ok targets, true => .ok targets
  | _, _ => .error (.http "error decoding response body")

/-- The targets of an answer from a URL. -/
def ofAnswer (url : String) : Answer → Except Bridge.Error (List TargetDescriptor)
  | .unsent => .error (.http ("error sending request for url (" ++ url ++ ")"))
  | .answered status body =>
    match statusProblem? status url with
    | some problem => .error (.http problem)
    | none => parseList body

end CanvasLink.Target
