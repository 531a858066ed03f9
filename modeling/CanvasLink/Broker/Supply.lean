import CanvasLink.Broker.Call
import CanvasLink.Wire.Surface

/-!
# CanvasLink — the calls that bring in and give up sessions

`ensure` gives a session that has just passed its probe, or makes one. `reconnect` gives up the
current session first. `shutdown` gives it up and leaves none.
-/

namespace CanvasLink.Broker

open CanvasLink.Bridge CanvasLink.Wire

/-! ## Health -/

/-- State of a session. -/
inductive Health where
  /-- There is no session, or its transport is closed. -/
  | disconnected
  /-- The transport is open, and the scripting root is out of reach. -/
  | unhealthy
  | healthy
deriving DecidableEq, Repr

namespace Health

/-- What a probe tells: only the value true is a sign of health. -/
def ofProbe : ProbeAnswer → Health
  | .closed => disconnected
  | .answered (.ok (.boolean true)) => healthy
  | _ => unhealthy

/-- The report on a session's state. -/
def report : Health → HealthResponse
  | disconnected => .report false false
  | unhealthy => .report true false
  | healthy => .report true true

end Health

/-- The limits that the broker sets. -/
structure Limits where
  retry : RetryPolicy := {}
  /-- Limit on a probe. -/
  probe : Duration := .ofMillis 2000

/-! ## Calls -/

/-- Asks a session for its state. -/
def probe (limits : Limits) (session : SessionId) : Call Health := do
  let answer ← Call.probe session limits.probe
  return .ofProbe answer

/-- Gives up a session, which stops being the current one if it still is. -/
def discard (session : SessionId) : Call Unit := do
  Call.withdraw session
  Call.close session

/-- A session that another call has brought in, or the outcome of an attempt that is shared with all
calls that wait for it. -/
def share (discarded : Option SessionId) : Call (Except Bridge.Error SessionId) := do
  match ← Call.join discarded with
  | .session session => return .ok session
  | .attempt attempt => Call.attempt attempt

/-- A session that is healthy: the current one if it passes its probe, else a new one. -/
def ensure (limits : Limits) : Call (Except Bridge.Error SessionId) := do
  match ← Call.look with
  | none => share none
  | some session =>
    match ← probe limits session with
    | .healthy => return .ok session
    | _ =>
      discard session
      share (some session)

/-- State of the current session, without making one. -/
def health (limits : Limits) : Call Health := do
  match ← Call.look with
  | none => return .disconnected
  | some session => probe limits session

/-- Gives up the current session. -/
def shutdown : Call Unit := do
  match ← Call.release with
  | none => return ()
  | some session => Call.close session

/-- Gives up the current session and counts it. -/
def forceClose : Call Unit := do
  Call.countForced
  shutdown

/-- Gives up the current session and brings in a new one. -/
def reconnect (limits : Limits) : Call (Except Bridge.Error SessionId) := do
  forceClose
  ensure limits

end CanvasLink.Broker
