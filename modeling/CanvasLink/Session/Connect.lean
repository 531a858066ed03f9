import CanvasLink.Session.Basic
import CanvasLink.Target.Directory
import CanvasLink.Target.Selection

/-!
# CanvasLink — connecting to a document

Connecting asks the endpoint for its directory, picks a document, opens a socket to it and attaches
to a scripting context, all within one limit of time. `Connecting.step` is the machine; answers of
the endpoint, the outcome of opening the socket and what comes over it are its inputs.
`Connecting.expire` ends it when the time is over. However it fails, no socket stays open and no
call waits.
-/

namespace CanvasLink

open CanvasLink.Bridge CanvasLink.Json CanvasLink.Wire

/-- The socket of a connect. -/
inductive Socket where
  | unopened
  | opening
  | opened
  /-- Closed, or given up before it was open. -/
  | closed
deriving DecidableEq, Repr

/-- How far connecting has come. -/
inductive ConnectPhase where
  | listing (form : Target.Form)
  | opening (target : TargetDescriptor)
  | attaching (target : TargetDescriptor) (state : Attaching)
  | connected (session : Session)
  /-- With the connection that had been made by then, if there was one. -/
  | failed (error : Bridge.Error) (left : Option Connection)

/-- The connection that has been made, if there is one. -/
def ConnectPhase.connection? : ConnectPhase → Option Connection
  | .attaching _ state => some state.connection
  | .connected session => some session.connection
  | .failed _ left => left
  | _ => none

/-- The state of connecting. -/
structure Connecting where
  settings : Settings
  phase : ConnectPhase
  socket : Socket

/-- A frame that comes over the socket. -/
inductive SocketFrame where
  | text (content : String)
  /-- A frame that carries no message. -/
  | other
  /-- The other side ends the connection, in good order or not. -/
  | close

namespace Connecting

/-- What happens while connecting. -/
inductive Input where
  /-- The endpoint answers, or does not. -/
  | directory (answer : Target.Answer)
  /-- The socket is open, with the frames that are taken in before attaching asks for anything; or
  it cannot be opened. -/
  | opened (outcome : Except String (List SocketFrame))
  | frame (frame : SocketFrame)
  /-- Nothing can be written to the socket any more. -/
  | stopReading
  /-- It is the turn of attaching to go on with the frames that have come. -/
  | resume
  /-- The wait for announcements is over. -/
  | settled

/-- What connecting does. -/
inductive Effect where
  /-- The endpoint is asked for a path. -/
  | asked (url : String)
  /-- A socket to a URL is opened. -/
  | opening (url : String)
  | wrote (request : Request)

/-- The URL of the directory. -/
def directoryUrl (settings : Settings) (form : Target.Form) : String :=
  settings.endpoint ++ form.path

/-- Asks for the directory. -/
def start (settings : Settings) : Connecting × List Effect :=
  (⟨settings, .listing .long, .unopened⟩, [.asked (directoryUrl settings .long)])

/-- Ends with an error; a connection is closed, and so is a socket that is open or being opened. -/
def fail (c : Connecting) (error : Bridge.Error) : Connecting × List Effect :=
  ({ c with
      phase := .failed error (c.phase.connection?.map fun connection => (connection.step .close).1)
      socket := match c.socket with
        | .unopened => .unopened
        | _ => .closed }, [])

/-- The failure of a document that another client is attached to. -/
def alreadyDebugged (target : TargetDescriptor) : Bridge.Error :=
  .notFound ("document \"" ++ target.title ++ "\" is already being debugged")

/-- Goes on with the targets of the directory. -/
def choose (c : Connecting) (targets : List TargetDescriptor) : Connecting × List Effect :=
  match Target.select targets c.settings.patterns c.settings.target with
  | .error e => c.fail e
  | .ok target =>
    match target.debuggerUrl with
    | none => c.fail (alreadyDebugged target)
    | some url => ({ c with phase := .opening target, socket := .opening }, [.opening url])

/-- Takes an answer of the endpoint. -/
def takeDirectory (c : Connecting) (form : Target.Form) (answer : Target.Answer) :
    Connecting × List Effect :=
  let decoded := Target.ofAnswer (directoryUrl c.settings form) answer
  match form, answer with
  | .long, .answered 404 _ =>
    ({ c with phase := .listing .short }, [.asked (directoryUrl c.settings .short)])
  | _, _ =>
    match decoded with
    | .error e => c.fail e
    | .ok targets => c.choose targets

/-- Takes in a step of attaching. -/
def takeAttaching (c : Connecting) (target : TargetDescriptor)
    (result : Attaching × List Request) : Connecting × List Effect :=
  let (state, written) := result
  let effects := written.map Effect.wrote
  match state.phase, Session.ofAttaching? target state with
  | .failed e, _ => (({ c with phase := .attaching target state }.fail e).1, effects)
  | _, some session => ({ c with phase := .connected session }, effects)
  | _, none => ({ c with phase := .attaching target state }, effects)

/-- What a frame is to attaching, if it is anything. A text that is not JSON is passed over. -/
def frameInput? : SocketFrame → Option Attaching.Input
  | .text content => (Value.parse? content).map .deliver
  | .other => none
  | .close => some .hangUp

/-- What an input is to attaching, if it is anything. -/
def Input.attaching? : Input → Option Attaching.Input
  | .frame received => frameInput? received
  | .stopReading => some .stopReading
  | .resume => some .resume
  | .settled => some .settled
  | _ => none

/-- One step of connecting. An input that does not fit the state changes nothing. -/
def step (c : Connecting) (input : Input) : Connecting × List Effect :=
  match c.phase, input with
  | .listing form, .directory answer => c.takeDirectory form answer
  | .opening _, .opened (.error problem) => c.fail (.transport problem)
  | .opening target, .opened (.ok early) =>
    { c with socket := .opened }.takeAttaching target
      (Attaching.startBehind (early.filterMap frameInput?))
  | .attaching target state, input =>
    match input.attaching? with
    | some input => c.takeAttaching target (state.step input)
    | none => (c, [])
  | _, _ => (c, [])

/-- A run over inputs, with all effects. -/
def run (c : Connecting) : List Input → Connecting × List Effect
  | [] => (c, [])
  | input :: inputs =>
    let (c, effects) := c.step input
    let (c, rest) := c.run inputs
    (c, effects ++ rest)

/-- The outcome, once there is one. -/
def outcome? (c : Connecting) : Option (Except Bridge.Error Session) :=
  match c.phase with
  | .connected session => some (.ok session)
  | .failed e _ => some (.error e)
  | _ => none

/-- Ends with a timeout, if there is no outcome when the time is over. -/
def expire (c : Connecting) : Connecting :=
  match c.outcome? with
  | some _ => c
  | none => (c.fail (.connectionTimeout c.settings.connectTimeout)).1

/-- What happens within the limit of time, if everything happens at these instants, in
microseconds. -/
def inTime (settings : Settings) (schedule : List (Nat × Input)) : List Input :=
  (schedule.takeWhile fun entry => entry.1 ≤ settings.connectTimeout.micros).map Prod.snd

/-- Connecting within its limit of time. -/
def connect (settings : Settings) (schedule : List (Nat × Input)) : Connecting × List Effect :=
  let (c, asked) := start settings
  let (c, effects) := c.run (inTime settings schedule)
  (c.expire, asked ++ effects)

end Connecting

end CanvasLink
