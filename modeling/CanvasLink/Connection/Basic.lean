import CanvasLink.Bridge.Error
import CanvasLink.Wire.Message
import CanvasLink.Wire.Runtime

/-!
# CanvasLink — connections

A connection matches the answers of the target with the calls that asked. Each call gets a fresh
id and a slot in the table of pending calls; a response completes the call in the slot of its id,
in whatever order responses come. When the connection is closed, or no message can come any more,
every pending call fails.

A connection is a machine: `step` takes one input and says what the connection does at once. The
order of inputs is up to its surroundings.
-/

namespace CanvasLink

open CanvasLink.Bridge CanvasLink.Json CanvasLink.Wire

namespace Connection

/-- Number of a call, given by whoever makes it. -/
abbrev CallId := Nat

/-- What a call makes of the result that answers its request. -/
inductive Purpose where
  /-- The result as it is. -/
  | result
  /-- The value of an evaluation, or what it threw. -/
  | evaluation
deriving DecidableEq, Repr

/-- A call that waits for its answer. -/
structure PendingCall where
  id : UInt64
  call : CallId
  purpose : Purpose
deriving DecidableEq, Repr

end Connection

open Connection in
/-- The state of a connection. -/
structure Connection where
  /-- Number of ids given out so far. -/
  issued : Nat
  /-- The calls whose requests are written and not answered. -/
  pending : List PendingCall
  /-- The way out has not been given up by `close`. -/
  holdsSender : Bool
  /-- Somebody reads at the other end of the way out. -/
  peerReads : Bool
  /-- Messages may still come in. -/
  inbound : Bool
  /-- Neither `close` nor the end of the inbound side has been seen. -/
  live : Bool
deriving DecidableEq, Repr

namespace Connection

/-- A connection that has just been made. -/
def opened : Connection :=
  ⟨0, [], true, true, true, true⟩

/-- Whether the connection counts as usable. -/
def isOpen (c : Connection) : Bool :=
  c.live && c.holdsSender

/-- What happens to a connection. -/
inductive Input where
  /-- A call asks for a method. -/
  | send (call : CallId) (method : String) (params : Value) (purpose : Purpose)
  /-- A message comes in. -/
  | deliver (message : Value)
  /-- Whoever made the call does not wait for it any more. -/
  | cancel (call : CallId)
  | close
  /-- The inbound side ends. -/
  | hangUp
  /-- The other end of the way out is gone. -/
  | stopReading

/-- Outcome of a call. -/
abbrev Outcome := Except Bridge.Error Value

/-- What a connection does. -/
inductive Effect where
  /-- A request is written. -/
  | wrote (request : Request)
  /-- A call ends. -/
  | finished (call : CallId) (outcome : Outcome)
  /-- An event is passed on. -/
  | announced (event : Event)

/-- The outcome that a response gives. -/
def Outcome.ofResponse (r : Response) : Outcome :=
  match r.error with
  | some e =>
    .error (.protocol (e.message ++ " (code " ++ toString e.code.toInt ++ ")"))
  | none => .ok (r.result.getD .null)

/-- The outcome of an evaluation that was answered with this result. -/
def Outcome.ofEvaluation (raw : Value) : Outcome :=
  match EvaluateResult.decode raw with
  | .error e => .error (.protocol e.message)
  | .ok result =>
    match result.exceptionDetails with
    | some details => .error (.evaluation details.message)
    | none => .ok result.result.toValue

/-- What a call makes of the outcome of its request. -/
def Purpose.apply (purpose : Purpose) (outcome : Outcome) : Outcome :=
  match purpose, outcome with
  | .result, outcome => outcome
  | .evaluation, .ok raw => .ofEvaluation raw
  | .evaluation, .error e => .error e

/-- Fails every pending call. -/
def failPending (c : Connection) : Connection × List Effect :=
  ({ c with pending := [] },
    c.pending.map fun p => .finished p.call (.error .connectionClosed))

/-- Takes a call: its request is written if the connection can still write, and fails at once
otherwise. The id is used up in both cases. -/
def send (c : Connection) (call : CallId) (method : String) (params : Value) (purpose : Purpose) :
    Connection × List Effect :=
  let id := UInt64.ofNat (c.issued + 1)
  let c := { c with issued := c.issued + 1 }
  if c.live && c.holdsSender && c.peerReads then
    ({ c with pending := c.pending ++ [⟨id, call, purpose⟩] }, [.wrote ⟨id, method, params⟩])
  else (c, [.finished call (.error .connectionClosed)])

/-- Takes a response: it completes the call in the slot of its id, if there is one. -/
def respond (c : Connection) (r : Response) : Connection × List Effect :=
  match c.pending.find? (·.id == r.id) with
  | none => (c, [])
  | some p =>
    ({ c with pending := c.pending.filter (·.id != r.id) },
      [.finished p.call (p.purpose.apply (.ofResponse r))])

/-- Takes a message. After `close` the inbound side still delivers. -/
def deliver (c : Connection) (message : Value) : Connection × List Effect :=
  if c.inbound then
    match Message.ofValue message with
    | .response r => c.respond r
    | .event e => (c, [.announced e])
    | .unknown _ => (c, [])
  else (c, [])

/-- What a message comes to: it ends the call that it answers, it is passed on, or it is dropped. -/
theorem deliver_cases (c : Connection) (message : Value) :
    (∃ r p, Message.ofValue message = .response r ∧
      c.pending.find? (·.id == r.id) = some p ∧
      c.deliver message = ({ c with pending := c.pending.filter (·.id != r.id) },
        [.finished p.call (p.purpose.apply (.ofResponse r))])) ∨
    (∃ event, Message.ofValue message = .event event ∧
      c.deliver message = (c, [.announced event])) ∨
    c.deliver message = (c, []) := by
  unfold deliver
  by_cases hinbound : c.inbound = true
  · rw [if_pos hinbound]
    -- A closed inbound side hears nothing; an open one acts on what the message is.
    cases Message.ofValue message with
    | response r =>
      cases hfind : c.pending.find? (·.id == r.id) with
      | none => exact .inr (.inr (by simp only [respond, hfind]))
      | some p => exact .inl ⟨r, p, rfl, hfind, by simp only [respond, hfind]⟩
    | event event => exact .inr (.inl ⟨event, rfl, rfl⟩)
    | unknown => exact .inr (.inr rfl)
  · rw [if_neg hinbound]
    exact .inr (.inr rfl)

/-- No message changes a connection on which nothing waits. -/
theorem deliver_of_pending_nil {c : Connection} (h : c.pending = []) (message : Value) :
    (c.deliver message).1 = c := by
  rcases c.deliver_cases message with ⟨_, p, _, hfind, _⟩ | ⟨_, _, heq⟩ | heq
  · rw [h] at hfind
    cases hfind
  · rw [heq]
  · rw [heq]

/-- One step of a connection. -/
def step (c : Connection) : Input → Connection × List Effect
  | .send call method params purpose => c.send call method params purpose
  | .deliver message => c.deliver message
  | .cancel call => ({ c with pending := c.pending.filter (·.call != call) }, [])
  | .close => { c with holdsSender := false, live := false }.failPending
  | .hangUp => { c with inbound := false, live := false }.failPending
  | .stopReading => ({ c with peerReads := false }, [])

/-- The input of a call that evaluates. -/
def Input.evaluate (call : CallId) (params : EvaluateParams) : Input :=
  .send call runtimeEvaluate params.encode .evaluation

/-- A run over inputs, with the effects of each. -/
def run (c : Connection) : List Input → Connection × List (List Effect)
  | [] => (c, [])
  | input :: inputs =>
    let (c, effects) := c.step input
    let (c, rest) := c.run inputs
    (c, effects :: rest)

/-- The event that an effect passes on. -/
def Effect.event? : Effect → Option Event
  | .announced event => some event
  | _ => none

/-- All events that effects pass on, in order. -/
def events (effects : List Effect) : List Event :=
  effects.filterMap Effect.event?

end Connection

end CanvasLink
