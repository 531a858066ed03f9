import CanvasLink.Json.Printer
import CanvasLink.Json.Source
import CanvasLink.Wire.Surface

/-!
# CanvasLink — talking to the daemon

The requests that a client sends to the daemon, and how it reads the answers. Failures come with a
body of their own, so the status of an answer does not matter, only its body.
-/

namespace CanvasLink.Daemon

open CanvasLink.Json CanvasLink.Wire

/-- Address of a daemon, without slashes at its end. -/
def baseOf (address : String) : String :=
  String.ofList (address.toList.reverse.dropWhile (· = '/')).reverse

/-- Address of the daemon on a port of this machine. -/
def localBase (port : UInt16) : String :=
  baseOf ("http://127.0.0.1:" ++ toString port.toNat)

/-- A request to the daemon. -/
inductive ClientRequest where
  | health
  | reconnect
  | exec (request : ExecRequest)
deriving DecidableEq, Repr

namespace ClientRequest

def method : ClientRequest → String
  | health => "GET"
  | reconnect => "GET"
  | exec _ => "POST"

def path : ClientRequest → String
  | health => "/health"
  | reconnect => "/reconnect"
  | exec _ => "/exec"

/-- The body and its media type, if there is one. -/
def body? : ClientRequest → Option (String × String)
  | exec request => some ("application/json", request.encode.compact)
  | _ => none

end ClientRequest

/-- Why there is no answer to read. -/
inductive ClientError where
  /-- Nothing listens at the address. -/
  | refused
  /-- The exchange broke off, in the words of the network. -/
  | broken (message : String)
  /-- The body is not what was expected. -/
  | badBody
deriving DecidableEq, Repr

/-- Reads the body of an answer. -/
def readAnswer {τ : Type} (decode : Decoder Source τ) (body : String) : Except ClientError τ :=
  let document := Document.read body.toList
  match decode document.root with
  | .error _ => .error .badBody
  | .ok answer => if document.complete then .ok answer else .error .badBody

end CanvasLink.Daemon
