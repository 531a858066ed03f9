import CanvasLink.Broker.Supply
import CanvasLink.Markup.Compile

/-!
# CanvasLink — executing requests under the retry policy

An attempt brings in a session and runs an operation in it. A failed attempt is made again on a
fresh session, up to the number of attempts that the policy allows; errors that would only come
again are returned at once. A limit on an operation ends the wait for it, not the operation itself:
what it does in the target may still come to pass.
-/

namespace CanvasLink.Broker

open CanvasLink.Bridge CanvasLink.Json CanvasLink.Wire

/-- Brings in a session and runs an operation in it. -/
def tryOnce (limits : Limits) (operation : Operation) : Call Outcome := do
  match ← ensure limits with
  | .error e => return .error e
  | .ok session =>
    match ← Call.run session limits.retry.execTimeout operation with
    | some outcome => return outcome
    | none => return .error (.executionTimeout limits.retry.execTimeout)

/-- Runs an operation, with so many more attempts if the first one fails. -/
def retrying (limits : Limits) (operation : Operation) : Nat → Call Outcome
  | 0 => tryOnce limits operation
  | more + 1 => do
    match ← tryOnce limits operation with
    | .ok value => return .ok value
    | .error e =>
      if e.isRetryable then
        forceClose
        Call.pause limits.retry.retryDelay
        retrying limits operation more
      else return .error e

/-- Runs an operation once, and panics behind a failure that may be retried. -/
def tryOrPanic (limits : Limits) (operation : Operation) : Call Outcome := do
  match ← tryOnce limits operation with
  | .ok value => return .ok value
  | .error e =>
    if e.isRetryable then
      Call.panic
      return .error e
    else return .error e

/-- Runs an operation under the retry policy. The number of attempts is asked for behind each failure
that may be retried, so without one the call panics behind the first of these. -/
def execute (limits : Limits) (operation : Operation) : Call Outcome :=
  match limits.retry.attempts with
  | some attempts => retrying limits operation (attempts.toNat - 1)
  | none => tryOrPanic limits operation

section Execute

variable {limits : Limits} (operation : Operation)

/-- There are as many attempts behind the first one as there are retries. -/
theorem execute_eq_retrying (h : limits.retry.maxRetries ≠ lastWord) :
    execute limits operation = retrying limits operation limits.retry.maxRetries.toNat := by
  unfold execute
  split
  · next attempts hattempts =>
    have hcount : attempts.toNat = limits.retry.maxRetries.toNat + 1 := next?_eq_some_iff.1 hattempts
    rw [hcount, Nat.add_sub_cancel]
  · next hnone => exact absurd (next?_eq_none_iff.1 hnone) h

theorem execute_eq_tryOrPanic (h : limits.retry.maxRetries = lastWord) :
    execute limits operation = tryOrPanic limits operation := by
  have hnone : limits.retry.attempts = none := next?_eq_none_iff.2 h
  rw [execute, hnone]

end Execute

/-- Evaluates a script. -/
def eval (limits : Limits) (code : String) : Call Outcome :=
  execute limits (.evaluate code)

/-- Compiles a unit of markup and evaluates its script. -/
def render (limits : Limits) (markup : String) : Call Outcome :=
  match Markup.compile markup with
  | .ok script => eval limits script
  | .error refusal => return .error (.markup (.unit refusal))

/-! ## Batches -/

/-- Why a request failed. -/
structure ExecFailure where
  error : Bridge.Error
  /-- What the units of a batch gave, up to and including the one that failed. -/
  partialResults : Option (List Value)

/-- What stands for a unit that failed. -/
def failedUnit (error : Bridge.Error) : Value :=
  .object [("error", .string error.message)]

/-- Evaluates scripts one after another up to the first that fails. -/
def evalAll (limits : Limits) (results : List Value) :
    List String → Call (Except ExecFailure (List Value))
  | [] => return .ok results
  | script :: scripts => do
    match ← eval limits script with
    | .ok value => evalAll limits (results ++ [value]) scripts
    | .error e => return .error ⟨e, some (results ++ [failedUnit e])⟩

/-- Compiles every unit, then evaluates their scripts one after another. -/
def renderBatch (limits : Limits) (units : List String) :
    Call (Except ExecFailure (List Value)) :=
  match Markup.compileBatch units with
  | .ok scripts => evalAll limits [] scripts
  | .error e => return .error ⟨.markup e, none⟩

/-- Carries out a request. -/
def perform (limits : Limits) : ExecRequest → Call (Except ExecFailure Value)
  | .eval code => do
    return (← eval limits code).mapError (⟨·, none⟩)
  | .render markup => do
    return (← render limits markup).mapError (⟨·, none⟩)
  | .renderBatch units => do
    return (← renderBatch limits units).map .array

end CanvasLink.Broker
