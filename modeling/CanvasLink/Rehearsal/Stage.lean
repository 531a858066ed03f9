import CanvasLink.Broker.Execution

/-!
# CanvasLink — sessions with a script

A script for sessions that are only acted. The n-th attempt to make a session follows the n-th plan
for attempts. A session answers probes after its own plans, and all sessions together answer
everything else after one list of plans. `Stage` is what the script still holds, together with what
has been run so far.
-/

namespace CanvasLink.Rehearsal

open CanvasLink.Bridge CanvasLink.Broker CanvasLink.Json

/-- How something that is run in a session goes. -/
structure Plan where
  /-- Milliseconds until it ends. -/
  after : Nat := 0
  /-- Whether the session is lost at that moment. -/
  drops : Bool := false
  /-- How it ends; without it there is no end. -/
  outcome : Option Outcome

/-- A probe that is passed. -/
def Plan.passed : Plan :=
  { outcome := some (.ok (.boolean true)) }

/-- An evaluation that gives a value at once. -/
def Plan.value (v : Value) : Plan :=
  { outcome := some (.ok v) }

/-- How an attempt to make a session goes. -/
structure ConnectPlan where
  /-- Milliseconds until it ends. -/
  delay : Nat := 50
  /-- The plans for probes of the new session, or the failure; without it there is no end. -/
  outcome : Option (Except Bridge.Error (List Plan)) := some (.ok [])

/-- A session of the script. -/
structure Seat where
  isOpen : Bool
  probes : List Plan

/-- What the script still holds, and what has been run so far. -/
structure Stage where
  connects : List ConnectPlan
  evaluations : List Plan
  /-- The failures still to come of operations that users bring along. -/
  custom : List (List Bridge.Error)
  seats : List Seat
  /-- The expressions that were evaluated, probes aside. -/
  log : List (SessionId × String)

namespace Stage

/-- Whether the transport of a session is open. -/
def isOpen (s : Stage) (session : SessionId) : Bool :=
  (s.seats[session]?).any (·.isOpen)

/-- The sessions that are open. -/
def openSessions (s : Stage) : List SessionId :=
  (List.range s.seats.length).filter s.isOpen

/-- Closes the transport of a session. -/
def shut (s : Stage) (session : SessionId) : Stage :=
  { s with seats := s.seats.modify session fun seat => { seat with isOpen := false } }

/-- Takes the plan for the next probe of a session. -/
def takeProbe (s : Stage) (session : SessionId) : Stage × Plan :=
  match (s.seats[session]?).map (·.probes) with
  | some (plan :: plans) =>
    ({ s with seats := s.seats.modify session fun seat => { seat with probes := plans } }, plan)
  | _ => (s, .passed)

/-- Takes the plan for an evaluation and writes it down. -/
def takeEvaluation (s : Stage) (session : SessionId) (expression : String) : Stage × Plan :=
  let s := { s with log := s.log ++ [(session, expression)] }
  match s.evaluations with
  | plan :: plans => ({ s with evaluations := plans }, plan)
  | [] => (s, .value (.string "ok"))

/-- Takes the outcome of an operation that a user brings along: its failures one after another, then
the number of the session. -/
def takeCustom (s : Stage) (session : SessionId) (number : Nat) : Stage × Plan :=
  match s.custom[number]? with
  | some (error :: errors) =>
    ({ s with custom := s.custom.set number errors }, { outcome := some (.error error) })
  | _ => (s, .value (.int session))

/-- Takes the plan for an operation; in a session that is not open, evaluating fails at once. -/
def take (s : Stage) (session : SessionId) : Operation → Stage × Plan
  | .custom number => s.takeCustom session number
  | .evaluate expression =>
    if !s.isOpen session then (s, { outcome := some (.error .notConnected) })
    else if expression = existenceProbe then s.takeProbe session
    else s.takeEvaluation session expression

/-- Takes the plan for the next attempt. -/
def takeConnect (s : Stage) : Stage × ConnectPlan :=
  match s.connects with
  | plan :: plans => ({ s with connects := plans }, plan)
  | [] => (s, {})

end Stage

end CanvasLink.Rehearsal
