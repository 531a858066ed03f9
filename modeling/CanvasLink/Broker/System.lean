import CanvasLink.Broker.Call

/-!
# CanvasLink — many calls at once

The broker with all calls on it that have begun. Calls run one at a time, each up to its next wait;
attempts to make a session run beside them, each shared by all calls that wait for it. `step` takes
one input: a call begins, the world answers a wait, an attempt moves on, a call is abandoned. In
which order inputs come is up to the world, so a statement about all lists of inputs is one about
all interleavings.
-/

namespace CanvasLink.Broker

open CanvasLink.Bridge

/-- Number of a call, given by whoever begins it. -/
abbrev CallId := Nat

/-- An attempt to make a session. -/
inductive Attempt where
  | connecting
  /-- The outcome is there, and a session that was left over is being closed. -/
  | closing (previous : SessionId) (outcome : Except Bridge.Error SessionId)
  | ended (outcome : Except Bridge.Error SessionId)

/-- How the world answers a wait. -/
inductive Answer where
  | probed (answer : ProbeAnswer)
  | ran (outcome : Option Outcome)
  | closed
  | paused

/-- The answer as a reply to a wait, if it is one. The end of an attempt is not for the world to
tell, and to a panic there is no answer. -/
def Wait.accept? : (wait : Wait) → Answer → Option wait.Reply
  | probe _ _, .probed answer => some answer
  | run _ _ _, .ran outcome => some outcome
  | close _, .closed => some ()
  | pause _, .paused => some ()
  | _, _ => none

/-- The broker and all calls on it, each of which ends with a `ρ`. -/
structure System (ρ : Type) where
  pool : Pool
  /-- The calls that have begun and are not abandoned. -/
  calls : List (CallId × Call ρ)
  /-- All attempts, by their number. -/
  attempts : List Attempt
  /-- Sessions made so far. -/
  sessions : Nat
  /-- The sessions that have been closed. -/
  closed : List SessionId

namespace System

variable {ρ : Type}

/-- The broker before its first call. -/
def empty : System ρ :=
  ⟨.empty, [], [], 0, []⟩

/-- What happens. -/
inductive Input (ρ : Type) where
  | begin (id : CallId) (call : Call ρ)
  /-- The world answers what a call waits for. -/
  | answer (id : CallId) (answer : Answer)
  /-- A call is told the outcome of the attempt that it waits for. -/
  | share (id : CallId)
  /-- An attempt has made a session or failed to. -/
  | connected (attempt : AttemptId) (outcome : Except Bridge.Error Unit)
  /-- The session that an attempt has found left over is closed. -/
  | cleared (attempt : AttemptId)
  | abandon (id : CallId)

/-- The state of a call. -/
def call? (s : System ρ) (id : CallId) : Option (Call ρ) :=
  s.calls.lookup id

/-- What a call waits for. -/
def wait? (s : System ρ) (id : CallId) : Option Wait :=
  (s.call? id).bind Call.wait?

/-- Whether some call waits for an attempt. An attempt that nobody waits for stands still. -/
def isAwaited (s : System ρ) (attempt : AttemptId) : Bool :=
  s.calls.any fun entry => entry.2.wait? == some (.attempt attempt)

/-- Puts a call in its place. -/
def place (id : CallId) (call : Call ρ) : List (CallId × Call ρ) → List (CallId × Call ρ)
  | [] => [(id, call)]
  | entry :: calls =>
    if entry.1 = id then (id, call) :: calls else entry :: place id call calls

/-- Lets a call run up to its next wait. An attempt that it begins starts connecting. -/
def advance (s : System ρ) (id : CallId) (call : Call ρ) : System ρ :=
  let (pool, call) := call.settle s.pool
  { s with
    pool := pool
    calls := place id call s.calls
    attempts := s.attempts ++ List.replicate (pool.attempts - s.attempts.length) .connecting }

/-- Notes that a session is closed. -/
def noteClosed (s : System ρ) (session : SessionId) : System ρ :=
  { s with closed := s.closed ++ [session] }

/-- Notes what the world's answer to a wait says of sessions. -/
def noteAnswer (s : System ρ) : Wait → System ρ
  | .close session => s.noteClosed session
  | _ => s

/-- Takes the outcome of an attempt. A session that is made has the next number. -/
def conclude (s : System ρ) (attempt : AttemptId) (outcome : Except Bridge.Error Unit) :
    System ρ :=
  let numbered := outcome.map fun _ => s.sessions
  let (pool, previous) := s.pool.conclude numbered
  { s with
    pool := pool
    sessions := match outcome with
      | .ok _ => s.sessions + 1
      | .error _ => s.sessions
    attempts := s.attempts.set attempt (match previous with
      | some session => .closing session numbered
      | none => .ended numbered) }

/-- One step. An input that does not fit the state changes nothing. -/
def step (s : System ρ) : Input ρ → System ρ
  | .begin id call =>
    match s.call? id with
    | some _ => s
    | none => s.advance id call
  | .answer id answer =>
    match s.call? id with
    | some (.await wait rest) =>
      match wait.accept? answer with
      | some reply => (s.noteAnswer wait).advance id (rest reply)
      | none => s
    | _ => s
  | .share id =>
    -- The outcome stays with the attempt, so that every call gets the same one.
    match s.call? id with
    | some (.await (.attempt attempt) rest) =>
      match s.attempts[attempt]? with
      | some (.ended outcome) => s.advance id (rest outcome)
      | _ => s
    | _ => s
  | .connected attempt outcome =>
    match s.attempts[attempt]? with
    | some .connecting => if s.isAwaited attempt then s.conclude attempt outcome else s
    | _ => s
  | .cleared attempt =>
    match s.attempts[attempt]? with
    | some (.closing previous outcome) =>
      if s.isAwaited attempt then
        { s.noteClosed previous with attempts := s.attempts.set attempt (.ended outcome) }
      else s
    | _ => s
  | .abandon id => { s with calls := s.calls.filter fun entry => entry.1 ≠ id }

/-- A run over inputs. -/
def run (s : System ρ) (inputs : List (Input ρ)) : System ρ :=
  inputs.foldl step s

/-- The result of a call that has ended. -/
def result? (s : System ρ) (id : CallId) : Option ρ :=
  (s.call? id).bind Call.result?

end System

end CanvasLink.Broker
