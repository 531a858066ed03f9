import CanvasLink.Bridge.Settings
import CanvasLink.Markup.Error

/-!
# CanvasLink — errors of the bridge

What can go wrong between a request and its answer. An error is plain data, so that the outcome of
one connect can be handed to everybody who waits for it. Its kind is a stable word for programs,
its message a text for people.
-/

namespace CanvasLink.Bridge

inductive Error where
  /-- No document is eligible, or none matches the selector. -/
  | notFound (message : String)
  /-- The connect sequence did not end in time. -/
  | connectionTimeout (limit : Duration)
  /-- No scripting context exposes the scripting root. -/
  | contextNotFound
  /-- The session has no context to evaluate in. -/
  | notConnected
  /-- The script threw. -/
  | evaluation (message : String)
  | markup (error : Markup.Error)
  /-- One evaluation did not end in time. -/
  | executionTimeout (limit : Duration)
  | transport (message : String)
  /-- The target answered with an error, or with something unexpected. -/
  | protocol (message : String)
  /-- The endpoint's directory could not be read. -/
  | http (message : String)
deriving DecidableEq, Repr

namespace Error

def kind : Error → String
  | notFound _ => "not_found"
  | connectionTimeout _ => "connection_timeout"
  | contextNotFound => "context_not_found"
  | notConnected => "not_connected"
  | evaluation _ => "evaluation"
  | markup _ => "markup_syntax"
  | executionTimeout _ => "execution_timeout"
  | transport _ => "transport"
  | protocol _ => "protocol"
  | http _ => "http"

def message : Error → String
  | notFound message => message
  | connectionTimeout limit =>
    "timed out connecting to the target after " ++ toString limit.millis ++ "ms"
  | contextNotFound => "could not find target context; try refreshing"
  | notConnected => "not connected to a target context"
  | evaluation message => message
  | markup error => error.message
  | executionTimeout limit => "execution timed out after " ++ toString limit.millis ++ "ms"
  | transport message => "transport error: " ++ message
  | protocol message => "protocol error: " ++ message
  | http message => "debugging endpoint request failed: " ++ message

/-- Whether another attempt on a fresh session could succeed. Only refused markup is refused again
for certain. -/
def isRetryable : Error → Bool
  | markup _ => false
  | _ => true

/-- The failure of every call on a connection that is closed. -/
def connectionClosed : Error :=
  .transport "connection closed"

end Error

end CanvasLink.Bridge
