import CanvasLink.Broker.Pool
import CanvasLink.Json.Value

/-!
# CanvasLink — calls on the broker

A call is a program that acts on the pool at once and waits for the world in between. It is a
finite tree: each step says what is done or waited for, and how the call goes on after each answer.
Between two waits a call runs without interruption (`Call.settle`); other calls run only while it
waits. Calls are put together in the manner of any monad.

A call that panics comes to a wait that nothing answers (`Wait.panic`) and stands there until it is
taken away. What its tree says of the time after that is a form that no run comes to.
-/

namespace CanvasLink.Broker

open CanvasLink.Bridge CanvasLink.Json

/-! ## What a call does at once -/

/-- A critical section on the pool. -/
inductive Act where
  /-- Looks at the current session. -/
  | look
  | release
  | withdraw (session : SessionId)
  | countForced
  | join (discarded : Option SessionId)

/-- What a critical section tells. -/
def Act.Reply : Act → Type
  | look => Option SessionId
  | release => Option SessionId
  | withdraw _ => Unit
  | countForced => Unit
  | join _ => Lead

/-- Runs a critical section. -/
def Act.run (p : Pool) : (act : Act) → Pool × act.Reply
  | look => (p, p.current)
  | release => p.release
  | withdraw session => (p.withdraw session, ())
  | countForced => (p.countForced, ())
  | join discarded => p.join discarded

/-! ## What a call waits for -/

/-- Outcome of something that is run in a session. -/
abbrev Outcome := Except Bridge.Error Value

/-- How a session takes a probe. -/
inductive ProbeAnswer where
  /-- Its transport is closed, so that nothing was asked. -/
  | closed
  /-- It has not answered within the limit. -/
  | late
  | answered (outcome : Outcome)

/-- Something to run in a session. -/
inductive Operation where
  | evaluate (expression : String)
  /-- What a user of the broker brings along, by a number. -/
  | custom (number : Nat)
deriving DecidableEq, Repr

/-- Something to wait for. -/
inductive Wait where
  /-- The answer of a session to the existence probe, for at most so long. -/
  | probe (session : SessionId) (limit : Duration)
  /-- The end of an operation in a session, for at most so long. -/
  | run (session : SessionId) (limit : Duration) (operation : Operation)
  /-- The end of a session that is being closed. -/
  | close (session : SessionId)
  /-- The end of an attempt. -/
  | attempt (attempt : AttemptId)
  | pause (span : Duration)
  /-- Nothing. The call has panicked. -/
  | panic
deriving DecidableEq, Repr

/-- What a wait tells. -/
def Wait.Reply : Wait → Type
  | probe _ _ => ProbeAnswer
  | run _ _ _ => Option Outcome
  | close _ => Unit
  | attempt _ => Except Bridge.Error SessionId
  | pause _ => Unit
  | panic => Unit

/-! ## Calls -/

/-- A call that ends with an `α`. -/
inductive Call (α : Type) where
  | done (result : α)
  | act (act : Act) (rest : act.Reply → Call α)
  | await (wait : Wait) (rest : wait.Reply → Call α)

namespace Call

variable {α β : Type}

/-- Goes on with `next` after the end of a call. -/
def bind (call : Call α) (next : α → Call β) : Call β :=
  match call with
  | done result => next result
  | act a rest => act a fun reply => (rest reply).bind next
  | await wait rest => await wait fun reply => (rest reply).bind next

instance : Monad Call where
  pure := done
  bind := bind

/-- Runs the call up to its end or its next wait. -/
def settle (p : Pool) : Call α → Pool × Call α
  | done result => (p, done result)
  | act a rest =>
    let (p, reply) := a.run p
    (rest reply).settle p
  | await wait rest => (p, await wait rest)

/-- Behind a critical section a call goes on with what that tells. -/
theorem settle_act (a : Act) (rest : a.Reply → Call α) (p : Pool) :
    (act a rest).settle p = (rest (a.run p).2).settle (a.run p).1 :=
  rfl

/-- The result of a call that has ended. -/
def result? : Call α → Option α
  | done result => some result
  | _ => none

/-- The wait of a call that waits. -/
def wait? : Call α → Option Wait
  | await wait _ => some wait
  | _ => none

/-! ## Single steps -/

def look : Call (Option SessionId) :=
  act .look done

def release : Call (Option SessionId) :=
  act .release done

def withdraw (session : SessionId) : Call Unit :=
  act (.withdraw session) done

def countForced : Call Unit :=
  act .countForced done

def join (discarded : Option SessionId) : Call Lead :=
  act (.join discarded) done

def probe (session : SessionId) (limit : Duration) : Call ProbeAnswer :=
  await (.probe session limit) done

def run (session : SessionId) (limit : Duration) (operation : Operation) :
    Call (Option Outcome) :=
  await (.run session limit operation) done

def close (session : SessionId) : Call Unit :=
  await (.close session) done

def attempt (a : AttemptId) : Call (Except Bridge.Error SessionId) :=
  await (.attempt a) done

def pause (span : Duration) : Call Unit :=
  await (.pause span) done

/-- Ends a call for good, without a result. -/
def panic : Call Unit :=
  await .panic done

end Call

end CanvasLink.Broker
