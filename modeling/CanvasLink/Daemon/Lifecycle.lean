import CanvasLink.Broker.System
import CanvasLink.Daemon.PidFile
import CanvasLink.Daemon.Surface

/-!
# CanvasLink — the life of the daemon

The daemon takes its port, writes its liveness file, connects ahead of the first request, answers
requests, and on a signal waits for the requests at hand, closes the session and removes the file.
`Daemon.step` is the machine that does all this over the broker and the file system. The file is
written before anything connects and removed after the session is closed, so where there is no file
there is no session.
-/

namespace CanvasLink

open CanvasLink.Broker CanvasLink.Daemon CanvasLink.Files

namespace Daemon

/-- What a call of the daemon ends with. -/
inductive Ending where
  /-- The connect ahead of the first request has ended. -/
  | warmedUp (outcome : Except Bridge.Error SessionId)
  | answered (response : HttpResponse)
  /-- The session is closed for good. -/
  | closed

/-- Why a run of the daemon fails. -/
inductive StartError where
  /-- The port is taken. -/
  | noPort (address : String)
  /-- The liveness file cannot be made. -/
  | noPidFile (message : String)
deriving DecidableEq, Repr

def StartError.message : StartError → String
  | noPort address => "Failed to bind request surface to " ++ address
  | noPidFile message => message

/-- The stages of the daemon's life. -/
inductive Stage where
  /-- The port is being taken. -/
  | binding
  /-- The port is taken, and the liveness file is being written. -/
  | recording
  /-- Requests are answered. -/
  | serving
  /-- The signal has come, and requests at hand are finished. -/
  | draining
  /-- The session is being closed. -/
  | closing
  | ended
  | failed (error : StartError)
deriving DecidableEq, Repr

end Daemon

/-- A daemon, with the file system that it runs on. -/
structure Daemon where
  limits : Limits
  /-- Where its liveness file is. -/
  pidFile : String
  /-- The number of its process. -/
  pid : UInt32
  stage : Daemon.Stage
  files : Tree
  system : System Daemon.Ending
  /-- The number of the next call. -/
  calls : Nat

namespace Daemon

/-- The call that connects ahead of the first request. -/
def warmUp : CallId := 0

/-- The last call of a run, which gives up the session. -/
def giveUp : Call Ending := do
  shutdown
  return .closed

/-- A daemon that is being started. -/
def starting (limits : Limits) (pidFile : String) (pid : UInt32) (files : Tree) : Daemon :=
  { limits, pidFile, pid, stage := .binding, files, system := .empty, calls := warmUp + 1 }

/-- What happens to a daemon. -/
inductive Input where
  /-- The port is the daemon's, or its address cannot be had. -/
  | bound (outcome : Except String Unit)
  /-- The daemon writes its liveness file, unless the system refuses. -/
  | record (refusal : Option PidError)
  /-- The connect ahead of the first request gets its first turn. -/
  | warmUp
  | request (request : HttpRequest)
  /-- Whoever has made a request goes away before it is answered, or the request has panicked and its
  connection is gone. -/
  | hangUp (id : CallId)
  /-- The world answers what a call waits for. -/
  | answer (id : CallId) (answer : Answer)
  | share (id : CallId)
  | connected (attempt : AttemptId) (outcome : Except Bridge.Error Unit)
  | cleared (attempt : AttemptId)
  /-- The daemon is told to end. -/
  | signal
  /-- The server has ended, with no request left. -/
  | drained
  /-- Others change files of their own. -/
  | elsewhere (files : Tree)

/-- Begins a call. -/
def begin (d : Daemon) (call : Call Ending) : Daemon :=
  { d with system := d.system.step (.begin d.calls call), calls := d.calls + 1 }

/-- Whether every call has ended. -/
def isIdle (d : Daemon) : Bool :=
  d.system.calls.all fun entry => entry.2.result?.isSome

/-- Whether requests are answered. -/
def isServing (d : Daemon) : Bool :=
  d.stage = .serving || d.stage = .draining

/-- Whether calls may be at hand. -/
def isUp (d : Daemon) : Bool :=
  d.isServing || d.stage = .closing

/-- Whether a call is closing a session, which it does without a pause. -/
def isClosing (d : Daemon) (id : CallId) : Bool :=
  match d.system.wait? id with
  | some (.close _) => true
  | _ => false

/-- Writes the liveness file, and goes on to answer requests. -/
def record (d : Daemon) : Daemon :=
  match createPidFile d.files d.pidFile d.pid with
  | .ok files => { d with stage := .serving, files := files }
  | .error e => { d with stage := .failed (.noPidFile e.message) }

/-- Removes the liveness file once the session is closed. -/
def moveOn (d : Daemon) : Daemon :=
  if d.stage = .closing ∧ d.isIdle then
    { d with stage := .ended, files := removePidFile d.files d.pidFile }
  else d

/-- Passes an input to the broker. -/
def pass (d : Daemon) (input : System.Input Ending) : Daemon :=
  if d.isUp then { d with system := d.system.step input }.moveOn else d

/-- Takes a call away, which is not closing a session. -/
def takeAway (d : Daemon) (id : CallId) : Daemon :=
  if d.isClosing id then d else { d with system := d.system.step (.abandon id) }

/-- Whether the liveness file is as it was, there or not. -/
def isLeftAlone (d : Daemon) (files : Tree) : Bool :=
  (files.read d.pidFile).toOption = (d.files.read d.pidFile).toOption &&
    files.contains d.pidFile = d.files.contains d.pidFile

/-- One step of the daemon. An input that does not fit its stage changes nothing. -/
def step (d : Daemon) : Input → Daemon
  | .bound (.ok ()) => if d.stage = .binding then { d with stage := .recording } else d
  | .bound (.error address) =>
    if d.stage = .binding then { d with stage := .failed (.noPort address) } else d
  | .record none => if d.stage = .recording then d.record else d
  | .record (some e) =>
    if d.stage = .recording then { d with stage := .failed (.noPidFile e.message) } else d
  | .warmUp =>
    if d.stage = .serving then
      { d with system := d.system.step (.begin warmUp do return .warmedUp (← ensure d.limits)) }
    else d
  | .request request =>
    if d.isServing then d.begin do return .answered (← respond d.limits request) else d
  | .hangUp id => if d.isServing then d.takeAway id else d
  | .answer id answer => d.pass (.answer id answer)
  | .share id => d.pass (.share id)
  | .connected attempt outcome => d.pass (.connected attempt outcome)
  | .cleared attempt => d.pass (.cleared attempt)
  | .signal =>
    if d.stage = .serving ∧ !d.isClosing warmUp then { d.takeAway warmUp with stage := .draining }
    else d
  | .drained =>
    if d.stage = .draining ∧ d.isIdle then
      ({ d with stage := .closing }.begin giveUp).moveOn
    else d
  | .elsewhere files =>
    if d.isLeftAlone files then { d with files := files } else d

/-- A run over inputs. -/
def run (d : Daemon) (inputs : List Input) : Daemon :=
  inputs.foldl step d

/-- How the run has ended, once it has. -/
def outcome? (d : Daemon) : Option (Except StartError Unit) :=
  match d.stage with
  | .ended => some (.ok ())
  | .failed e => some (.error e)
  | _ => none

end Daemon

end CanvasLink
