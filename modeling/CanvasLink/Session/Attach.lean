import CanvasLink.Connection.Basic

/-!
# CanvasLink — attaching to a scripting context

Attaching works over a connection that is already open. It asks for announcements of scripting
contexts, waits for a while, and then probes the contexts that are announced by then, one after
another. The first context in which the probe is exactly true is taken. A probe that fails in any
way only moves on to the next context.

`Attaching.step` is the machine. What comes in over the connection is only taken note of; attaching
goes on from there when it is its turn (`resume`), so that any number of messages may come in
between. Requests are its output. Every failure closes the connection.
-/

namespace CanvasLink

open CanvasLink.Bridge CanvasLink.Json CanvasLink.Wire

/-- Contexts that are announced by events and not gone again, in order. Events of other methods
and announcements that cannot be decoded do not count. -/
def contextsAfter (contexts : List ExecutionContext) : List Event → List ExecutionContext
  | [] => contexts
  | event :: events =>
    if event.method = contextCreated then
      match ExecutionContextCreated.decode event.params with
      | .ok created => contextsAfter (contexts ++ [created.context]) events
      | .error _ => contextsAfter contexts events
    else if event.method = contextsCleared then contextsAfter [] events
    else contextsAfter contexts events

/-- How far attaching has come. -/
inductive AttachPhase where
  /-- The request for announcements is not answered yet. -/
  | enabling
  /-- Announcements are gathered until the wait is over. -/
  | settling
  /-- The probe in a context is not answered yet; others come after it. -/
  | probing (context : Int64) (others : List Int64)
  | attached (context : Int64)
  | failed (error : Bridge.Error)

/-- The state of attaching. -/
structure Attaching where
  connection : Connection
  /-- Events that have come in and not been looked at, in order. -/
  inbox : List Event
  /-- The outcome of the call that is waited for, if it is there. -/
  answer : Option Connection.Outcome
  /-- Number of the next call. -/
  nextCall : Connection.CallId
  phase : AttachPhase

namespace Attaching

/-- What happens while attaching. -/
inductive Input where
  | deliver (message : Value)
  | hangUp
  | stopReading
  /-- It is the turn of attaching to go on. -/
  | resume
  /-- The wait for announcements is over. -/
  | settled

/-- What the connection sees of an input. -/
def Input.transport? : Input → Option Connection.Input
  | .deliver message => some (.deliver message)
  | .hangUp => some .hangUp
  | .stopReading => some .stopReading
  | .resume => none
  | .settled => none

/-- Takes note of what the connection does. -/
def note (a : Attaching) : Connection.Effect → Attaching
  | .wrote _ => a
  | .announced event => { a with inbox := a.inbox ++ [event] }
  | .finished _ outcome => { a with answer := some outcome }

/-- Passes an input to the connection and takes note of what it does. -/
def pass (a : Attaching) (input : Connection.Input) : Attaching :=
  let (connection, effects) := a.connection.step input
  effects.foldl note { a with connection := connection }

/-- Ends with an error and closes the connection. -/
def fail (a : Attaching) (error : Bridge.Error) : Attaching :=
  { a with connection := (a.connection.step .close).1, phase := .failed error }

/-- The parameters of the probe in a context. -/
def probeParams (context : Int64) : EvaluateParams :=
  (EvaluateParams.inContext existenceProbe context).silently

/-- Probes the first context in which a probe can be written. -/
def probe (a : Attaching) : List Int64 → Attaching × List Request
  | [] => (a.fail .contextNotFound, [])
  | context :: others =>
    let (connection, effects) :=
      a.connection.step (.evaluate a.nextCall (probeParams context))
    let a := { a with connection := connection, nextCall := a.nextCall + 1 }
    match effects with
    | [.wrote request] => ({ a with phase := .probing context others }, [request])
    | _ => a.probe others

/-- Goes on with the outcome of the call that was waited for. -/
def conclude (a : Attaching) (outcome : Connection.Outcome) : Attaching × List Request :=
  match a.phase, outcome with
  | .enabling, .ok _ => ({ a with phase := .settling }, [])
  | .enabling, .error e => (a.fail e, [])
  | .probing context _, .ok (.boolean true) => ({ a with phase := .attached context }, [])
  | .probing _ others, _ => a.probe others
  | _, _ => (a, [])

/-- Goes on if the call that is waited for has ended. -/
def resume (a : Attaching) : Attaching × List Request :=
  match a.answer with
  | none => (a, [])
  | some outcome => { a with answer := none }.conclude outcome

/-- Asks for announcements over a connection. -/
def start (connection : Connection) : Attaching × List Request :=
  let (connection, effects) :=
    connection.step (.send 0 runtimeEnable (.object []) .result)
  let a : Attaching :=
    { connection := connection, inbox := [], answer := none, nextCall := 1, phase := .enabling }
  match effects with
  | [.wrote request] => (a, [request])
  | _ => (effects.foldl note a).resume

/-- Attaching over a new connection. What comes in `early` comes in before attaching has asked for
anything; announcements among it are kept. -/
def startBehind (early : List Input) : Attaching × List Request :=
  let (connection, effects) := Connection.opened.run (early.filterMap Input.transport?)
  let (a, requests) := start connection
  ({ a with inbox := Connection.events effects.flatten }, requests)

/-- Looks at the announcements and begins to probe. -/
def settle (a : Attaching) : Attaching × List Request :=
  match a.phase with
  | .settling =>
    { a with inbox := [] }.probe ((contextsAfter [] a.inbox).map ExecutionContext.id)
  | _ => (a, [])

/-- One step of attaching: the new state and the requests that are written. -/
def step (a : Attaching) : Input → Attaching × List Request
  | .deliver message => (a.pass (.deliver message), [])
  | .hangUp => (a.pass .hangUp, [])
  | .stopReading => (a.pass .stopReading, [])
  | .resume => a.resume
  | .settled => a.settle

end Attaching

end CanvasLink
