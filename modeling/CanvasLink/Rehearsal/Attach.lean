import CanvasLink.Rehearsal.Line
import CanvasLink.Session.Basic

/-!
# CanvasLink — rehearsing a session

A rehearsal runs a session over a line to a peer with a script: first attaching, then what is done
to the session one after another.

A wait that ends at an instant ends before the frames of that instant are received. A frame that
comes when the wait for announcements ends comes too late for it, and so does an answer that comes
at the limit.
-/

namespace CanvasLink.Rehearsal

open CanvasLink.Json CanvasLink.Wire

/-! ## Attaching -/

/-- Attaching under rehearsal. -/
structure AttachTask where
  attaching : Attaching
  /-- When the wait for announcements ends, once it has begun. -/
  waitEnd : Option Nat

namespace AttachTask

/-- Takes an input to attaching. -/
def step (task : AttachTask) (input : Attaching.Input) : AttachTask × List Request :=
  let (attaching, written) := task.attaching.step input
  ({ task with attaching := attaching }, written)

instance : Receiver AttachTask where
  receive task message := (task.step (.deliver message)).1
  hangUp task := (task.step .hangUp).1

/-- Whether announcements are waited for. -/
def isSettling (task : AttachTask) : Bool :=
  match task.attaching.phase with
  | .settling => true
  | _ => false

/-- Whether attaching has ended. -/
def isOver (task : AttachTask) : Bool :=
  match task.attaching.phase with
  | .attached _ => true
  | .failed _ => true
  | _ => false

/-- Begins the wait for announcements, which takes `settle` milliseconds, if it is time to. -/
def beginWait (task : AttachTask) (now settle : Nat) : AttachTask :=
  if task.isSettling && task.waitEnd.isNone then { task with waitEnd := some (now + settle) }
  else task

/-- Whether the wait for announcements is over. -/
def hasWaited (task : AttachTask) (now : Nat) : Bool :=
  task.isSettling && task.waitEnd.any (· ≤ now)

end AttachTask

/-- Goes on with attaching, but not beyond `limit`. -/
def attachMove (settle limit : Nat) (line : Line AttachTask) : Line.Move AttachTask Unit :=
  let line := line.act (line.near.step .resume)
  let line := { line with near := line.near.beginWait line.now settle }
  let line :=
    if line.near.hasWaited line.now then line.act (line.near.step .settled) else line
  if line.near.isOver || limit ≤ line.now then .done line ()
  else if line.near.isSettling then .wait line (min limit (line.near.waitEnd.getD limit))
  else .wait line limit

/-- Attaches over a line to a peer with a script, in at most `limit` milliseconds. -/
def rehearseAttach (script : Script) (settle limit : Nat) : Line AttachTask :=
  let (attaching, written) := Attaching.start Connection.opened
  let line := Line.idle { attaching := attaching, waitEnd := none : AttachTask } script
  ((line.act (line.near, written)).play (attachMove settle limit)).1

/-! ## Using a session -/

/-- A session under rehearsal. -/
structure SessionTask where
  session : Session
  nextCall : Connection.CallId
  /-- The outcome of the last call, if it is there. -/
  answer : Option Connection.Outcome

namespace SessionTask

/-- The outcome of a call among effects. -/
def outcome? (call : Connection.CallId) (effects : List Connection.Effect) :
    Option Connection.Outcome :=
  effects.findSome? fun
    | .finished c outcome => if c = call then some outcome else none
    | _ => none

/-- The requests among effects. -/
def requests (effects : List Connection.Effect) : List Request :=
  effects.filterMap fun
    | .wrote request => some request
    | _ => none

/-- Takes an input to the session, with an eye on the last call. -/
def step (task : SessionTask) (input : Session.Input) : SessionTask × List Request :=
  let (session, effects) := task.session.step input
  ({ task with
      session := session
      answer := task.answer.or (outcome? (task.nextCall - 1) effects) }, requests effects)

/-- Begins to evaluate an expression. -/
def evaluate (task : SessionTask) (expression : String) : SessionTask × List Request :=
  { task with nextCall := task.nextCall + 1, answer := none }.step
    (.evaluate task.nextCall expression)

instance : Receiver SessionTask where
  receive task message := (task.step (.deliver message)).1
  hangUp task := (task.step .hangUp).1

end SessionTask

/-- A rehearsal of an attached session. -/
abbrev SessionRehearsal := Line SessionTask

namespace SessionRehearsal

/-- The rehearsal that goes on where attaching has succeeded. -/
def ofAttach? (target : TargetDescriptor) (line : Line AttachTask) : Option SessionRehearsal :=
  (Session.ofAttaching? target line.near.attaching).map fun session =>
    { line with
      near := { session := session, nextCall := line.near.attaching.nextCall, answer := none }
      taken := [] }

/-- What is done to a session. -/
inductive Act where
  | evaluate (expression : String)
  | close
  | hangUp

/-- What came of it: the outcome of an evaluation, or nothing to tell. -/
inductive Result where
  | outcome (outcome : Connection.Outcome)
  /-- The evaluation did not end in time. -/
  | pending
  | silent

/-- Waits for the outcome of the last call, but not beyond `limit`. -/
def awaitMove (limit : Nat) (line : SessionRehearsal) : Line.Move SessionTask Result :=
  match line.near.answer with
  | some outcome => .done line (.outcome outcome)
  | none =>
    if limit ≤ line.now then
      let call := line.near.nextCall - 1
      .done (line.act (line.near.step (.cancel call))) .pending
    else .wait line limit

/-- Plays one act, giving an evaluation so many milliseconds. -/
def perform (line : SessionRehearsal) (patience : Nat) : Act → SessionRehearsal × Result
  | .evaluate expression =>
    let (line, result) :=
      (line.act (line.near.evaluate expression)).play (awaitMove (line.now + patience))
    (line, result.getD .pending)
  | .close => (line.act (line.near.step .close), .silent)
  | .hangUp => ((line.act (line.near.step .stopReading)).leave, .silent)

end SessionRehearsal

end CanvasLink.Rehearsal
