import CanvasLink.Session.Attach
import CanvasLink.Wire.Target

/-!
# CanvasLink — sessions

A session is an attachment to one scripting context of one document. It evaluates in that context
only, over the connection on which it was attached, until it is closed.
-/

namespace CanvasLink

open CanvasLink.Bridge CanvasLink.Json CanvasLink.Wire

/-- The state of a session. -/
structure Session where
  target : TargetDescriptor
  connection : Connection
  /-- The context that expressions are evaluated in, until the session is closed. -/
  context : Option Int64

namespace Session

/-- What happens to a session. -/
inductive Input where
  | evaluate (call : Connection.CallId) (expression : String)
  | deliver (message : Value)
  | cancel (call : Connection.CallId)
  | close
  | hangUp
  | stopReading

/-- Whether the session can still be used. -/
def isOpen (s : Session) : Bool :=
  s.context.isSome && s.connection.isOpen

/-- Passes an input to the connection. -/
def pass (s : Session) (input : Connection.Input) : Session × List Connection.Effect :=
  let (connection, effects) := s.connection.step input
  ({ s with connection := connection }, effects)

/-- One step of a session. -/
def step (s : Session) : Input → Session × List Connection.Effect
  | .evaluate call expression =>
    match s.context with
    | none => (s, [.finished call (.error .notConnected)])
    | some context => s.pass (.evaluate call (EvaluateParams.inContext expression context))
  | .deliver message => s.pass (.deliver message)
  | .cancel call => s.pass (.cancel call)
  | .close =>
    match s.context with
    | none => (s, [])
    | some _ => { s with context := none }.pass .close
  | .hangUp => s.pass .hangUp
  | .stopReading => s.pass .stopReading

/-- The session that attaching has led to, if it has succeeded. -/
def ofAttaching? (target : TargetDescriptor) (a : Attaching) : Option Session :=
  match a.phase with
  | .attached context => some ⟨target, a.connection, some context⟩
  | _ => none

end Session

end CanvasLink
