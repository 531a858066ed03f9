import CanvasLink.Broker.System
import CanvasLink.Rehearsal.Agenda
import CanvasLink.Rehearsal.Stage

/-!
# CanvasLink — rehearsing the broker

A rehearsal lets calls on the broker run against sessions with a script, on a clock of its own that
jumps from one event to the next.

Calls run one at a time. One that can go on has its turn behind those that could go on before it,
and goes on until it has to wait. Whoever conducts the rehearsal has a turn when time has just
passed and when no call can go on any more; only then does time pass. At each instant bells ring in
the order in which they were set, and a bell only gives a turn to whom it was set for: what has come
by then is found in that turn. There an answer comes before the end of the time that it was given,
and this before the end of the patience with the call.

Calls that wait for the same attempt have seats. One that comes takes the seat that was left last,
or a new one, and when the attempt may have ended the calls have turns in the order of their seats.
-/

namespace CanvasLink.Rehearsal

open CanvasLink.Bridge CanvasLink.Broker CanvasLink.Json

/-! ## What is rehearsed -/

/-- An attempt that has been begun. -/
structure OpenAttempt where
  attempt : AttemptId
  /-- When its outcome is there, if ever. -/
  due : Option Nat
  /-- The plans for probes of the new session, or the failure. -/
  outcome : Except Bridge.Error (List Plan)
  /-- The calls that wait for it, by their seats. -/
  seats : List (Option CallId)
  /-- The seats that were left, the last one first. -/
  vacant : List Nat

namespace OpenAttempt

/-- The calls that wait, in the order of their seats. -/
def waiting (a : OpenAttempt) : List CallId :=
  a.seats.filterMap id

/-- Gives a call a seat if it has none. -/
def join (a : OpenAttempt) (id : CallId) : OpenAttempt :=
  if a.waiting.contains id then a
  else match a.vacant with
    | seat :: vacant => { a with seats := a.seats.set seat (some id), vacant := vacant }
    | [] => { a with seats := a.seats ++ [some id] }

/-- Takes the seat of a call that does not wait any more. -/
def leave (a : OpenAttempt) (id : CallId) : OpenAttempt :=
  match a.seats.idxOf? (some id) with
  | some seat => { a with seats := a.seats.set seat none, vacant := seat :: a.vacant }
  | none => a

end OpenAttempt

/-- What a call waits for with an eye on the clock. -/
inductive Watch where
  /-- Something runs in a session after a plan until `due`, if it is to end at all, and has time
  until `limit`. -/
  | running (session : SessionId) (plan : Plan) (due : Option Nat) (limit : Nat)
  | pausing (till : Nat)

/-- How far a call has come. -/
inductive Progress where
  /-- It has not had a turn. -/
  | fresh
  /-- It begins at an instant. -/
  | delayed (till : Nat)
  /-- It has begun, and is given up at an instant. -/
  | begun (patienceEnd : Nat) (watch : Option Watch)

/-- A call under rehearsal. -/
structure Part (ρ : Type) where
  /-- Milliseconds before it begins. -/
  delay : Nat
  /-- Milliseconds after which it is given up. -/
  patience : Nat
  /-- A session whose transport is lost when the call begins. -/
  loses : Option SessionId
  call : Call ρ
  progress : Progress

/-- A bell that rings at an instant. -/
inductive Bell where
  /-- For a call: its beginning, or the end of the patience with it. -/
  | part (id : CallId)
  /-- For what a call waits for. -/
  | watch (id : CallId)
  | attempt (attempt : AttemptId)
deriving DecidableEq

/-- A rehearsal of calls that end with a `ρ`. -/
structure BrokerRehearsal (ρ : Type) where
  system : System ρ
  stage : Stage
  now : Nat
  bells : Agenda Bell
  parts : List (CallId × Part ρ)
  /-- The call that the conductor waits for without leaving it to itself. -/
  led : Option CallId
  /-- The calls that can go on, in order. -/
  queue : List CallId
  connecting : List OpenAttempt
  /-- The instants at which calls have ended or were given up. -/
  ended : List (CallId × Nat)
  /-- Steps that the calls begun so far may take. -/
  rounds : Nat

namespace BrokerRehearsal

variable {ρ : Type}

/-- The rehearsal of a script before its first call. -/
def start (stage : Stage) : BrokerRehearsal ρ :=
  { system := .empty, stage := stage, now := 0, bells := [], parts := [], led := none, queue := []
    connecting := [], ended := [], rounds := 0 }

/-- A step of the system. -/
def pass (r : BrokerRehearsal ρ) (input : System.Input ρ) : BrokerRehearsal ρ :=
  { r with system := r.system.step input }

/-- Closes the transport of a session. -/
def shut (r : BrokerRehearsal ρ) (session : SessionId) : BrokerRehearsal ρ :=
  { r with stage := r.stage.shut session }

/-- Sets a bell. -/
def setBell (r : BrokerRehearsal ρ) (due : Nat) (bell : Bell) : BrokerRehearsal ρ :=
  { r with bells := Agenda.add due bell r.bells }

/-- Takes a bell away before it rings. -/
def clearBell (r : BrokerRehearsal ρ) (bell : Bell) : BrokerRehearsal ρ :=
  { r with bells := r.bells.filter fun entry => entry.2 ≠ bell }

/-- Gives a call a turn, unless it is to have one already or is led by the conductor. -/
def wake (r : BrokerRehearsal ρ) (id : CallId) : BrokerRehearsal ρ :=
  if r.led = some id || r.queue.contains id then r else { r with queue := r.queue ++ [id] }

/-- Notes how far a call has come. -/
def note (r : BrokerRehearsal ρ) (id : CallId) (progress : Progress) : BrokerRehearsal ρ :=
  { r with parts := r.parts.map fun entry =>
      if entry.1 = id then (id, { entry.2 with progress := progress }) else entry }

/-- How far a call has come, if it is under rehearsal. -/
def progress? (r : BrokerRehearsal ρ) (id : CallId) : Option Progress :=
  (r.parts.lookup id).map Part.progress

/-- What a call has an eye on. -/
def watch? (r : BrokerRehearsal ρ) (id : CallId) : Option Watch :=
  match r.progress? id with
  | some (.begun _ watch) => watch
  | _ => none

/-- Notes what a call has an eye on. -/
def setWatch (r : BrokerRehearsal ρ) (id : CallId) (watch : Option Watch) : BrokerRehearsal ρ :=
  match r.progress? id with
  | some (.begun patienceEnd _) => r.note id (.begun patienceEnd watch)
  | _ => r

/-! ## Waits -/

/-- What has become of something watched: `inl` if it is still to be watched, else how it has ended,
without an outcome if the time is over. -/
def look (r : BrokerRehearsal ρ) : Watch → BrokerRehearsal ρ × (Watch ⊕ Option Outcome)
  | .running session plan due limit =>
    if due.any (· ≤ r.now) then
      let r := if plan.drops then r.shut session else r
      match plan.outcome with
      | some outcome => (r, .inr (some outcome))
      | none =>
        if limit ≤ r.now then (r, .inr none) else (r, .inl (.running session plan none limit))
    else if limit ≤ r.now then (r, .inr none)
    else (r, .inl (.running session plan due limit))
  | .pausing till => if till ≤ r.now then (r, .inr none) else (r, .inl (.pausing till))

/-- The end of something watched as the answer to a wait. -/
def answerTo (wait : Wait) (outcome : Option Outcome) : Answer :=
  match wait with
  | .probe _ _ =>
    .probed (match outcome with
      | some outcome => .answered outcome
      | none => .late)
  | .run _ _ _ => .ran outcome
  | .pause _ => .paused
  | _ => .closed

/-- Begins to watch what runs in a session after a plan, with so many milliseconds of time. -/
def follow (r : BrokerRehearsal ρ) (id : CallId) (session : SessionId) (plan : Plan)
    (limit : Nat) : BrokerRehearsal ρ × Option Watch :=
  let r := if plan.after = 0 then r else r.setBell (r.now + plan.after) (.watch id)
  let r := if limit = 0 then r else r.setBell (r.now + limit) (.watch id)
  (r, some (.running session plan (some (r.now + plan.after)) (r.now + limit)))

/-- Begins a wait: what is to be watched, or nothing if the wait is over at once. -/
def enter (r : BrokerRehearsal ρ) (id : CallId) : Wait → BrokerRehearsal ρ × Option Watch
  | .probe session limit =>
    if !r.stage.isOpen session then (r, none)
    else
      let (stage, plan) := r.stage.take session (.evaluate existenceProbe)
      { r with stage := stage }.follow id session plan limit.millis
  | .run session limit operation =>
    let (stage, plan) := r.stage.take session operation
    { r with stage := stage }.follow id session plan limit.millis
  | .close session => (r.shut session, none)
  | .attempt _ => (r, none)
  | .pause span =>
    let till := r.now + span.millis
    (if span.millis = 0 then r else r.setBell till (.watch id), some (.pausing till))
  | .panic => (r, none)

/-- Goes on with a wait: an answer if it is over. -/
def proceed (r : BrokerRehearsal ρ) (id : CallId) (wait : Wait) :
    BrokerRehearsal ρ × Option Answer :=
  let (r, watch) := match r.watch? id with
    | some watch => (r, some watch)
    | none => r.enter id wait
  match watch with
  | none =>
    (r, some (match wait with
      | .probe _ _ => .probed .closed
      | _ => .closed))
  | some watch =>
    match r.look watch with
    | (r, .inl watch) => (r.setWatch id (some watch), none)
    | (r, .inr outcome) =>
      ((r.setWatch id none).clearBell (.watch id), some (answerTo wait outcome))

/-! ## Attempts -/

/-- The attempt that a call waits for, begun now if it has not been yet, with a seat for the
call. -/
def joinAttempt (r : BrokerRehearsal ρ) (id : CallId) (attempt : AttemptId) : BrokerRehearsal ρ :=
  if r.connecting.any (·.attempt == attempt) then
    { r with connecting := r.connecting.map fun c =>
        if c.attempt = attempt then c.join id else c }
  else
    let (stage, plan) := r.stage.takeConnect
    let begun : OpenAttempt :=
      { attempt := attempt
        due := plan.outcome.map fun _ => r.now + plan.delay
        outcome := plan.outcome.getD (.ok [])
        seats := [some id]
        vacant := [] }
    let r := { r with stage := stage, connecting := r.connecting ++ [begun] }
    if plan.delay = 0 then r else r.setBell (r.now + plan.delay) (.attempt attempt)

/-- Gives turns to the calls that wait for an attempt. -/
def wakeWaiting (r : BrokerRehearsal ρ) (attempt : AttemptId) : BrokerRehearsal ρ :=
  match r.connecting.find? (·.attempt == attempt) with
  | some connecting => connecting.waiting.foldl wake r
  | none => r

/-- Lets an attempt end if the time for it has come. -/
def conclude (r : BrokerRehearsal ρ) (attempt : AttemptId) : BrokerRehearsal ρ :=
  match r.connecting.find? (·.attempt == attempt) with
  | none => r
  | some connecting =>
    if connecting.due.any (· ≤ r.now) then
      let made := connecting.outcome.map fun _ => ()
      let r := (r.pass (.connected attempt made)).wakeWaiting attempt
      let r := { r with connecting := r.connecting.filter (·.attempt ≠ attempt) }
      match connecting.outcome with
      | .ok probes =>
        { r with stage := { r.stage with seats := r.stage.seats ++ [⟨true, probes⟩] } }
      | .error _ => r
    else r

/-! ## Turns -/

/-- Lets a call that has come to a wait go on as far as it can. -/
def drive (id : CallId) : Nat → BrokerRehearsal ρ → BrokerRehearsal ρ
  | 0, r => r
  | rounds + 1, r =>
    match r.system.wait? id with
    | none => r
    | some (.attempt attempt) =>
      match r.system.attempts[attempt]? with
      | some (.ended _) => drive id rounds (r.pass (.share id))
      | some (.closing previous _) =>
        drive id rounds ((r.shut previous).pass (.cleared attempt))
      | some .connecting =>
        -- An attempt that stood still may be due by now.
        let r := (r.joinAttempt id attempt).conclude attempt
        match r.system.attempts[attempt]? with
        | some .connecting => r
        | _ => drive id rounds r
      | none => r
    | some .panic => r
    | some wait =>
      match r.proceed id wait with
      | (r, some answer) => drive id rounds (r.pass (.answer id answer))
      | (r, none) => r

/-- Takes a call out that has ended or is given up. -/
def takeOut (r : BrokerRehearsal ρ) (id : CallId) : BrokerRehearsal ρ :=
  let r := (r.clearBell (.part id)).clearBell (.watch id)
  { r with
    parts := r.parts.filter (·.1 ≠ id)
    connecting := r.connecting.map (·.leave id)
    ended := r.ended ++ [(id, r.now)] }

/-- Lets a call go on that is given up at an instant. -/
def goOn (r : BrokerRehearsal ρ) (id : CallId) (patienceEnd : Nat) : BrokerRehearsal ρ :=
  let r := drive id r.rounds r
  if (r.system.result? id).isSome then r.takeOut id
  else if patienceEnd ≤ r.now then (r.pass (.abandon id)).takeOut id
  else r

/-- Begins a call. -/
def begin (r : BrokerRehearsal ρ) (id : CallId) (part : Part ρ) : BrokerRehearsal ρ :=
  let patienceEnd := r.now + part.patience
  let r := match part.loses with
    | some session => r.shut session
    | none => r
  let r := ((r.note id (.begun patienceEnd none)).pass (.begin id part.call)).goOn id patienceEnd
  if r.parts.any (·.1 == id) then r.setBell patienceEnd (.part id) else r

/-- The turn of a call. -/
def turn (r : BrokerRehearsal ρ) (id : CallId) : BrokerRehearsal ρ :=
  match r.parts.lookup id with
  | none => r
  | some part =>
    match part.progress with
    | .fresh =>
      if part.delay = 0 then r.begin id part
      else
        let till := r.now + part.delay
        (r.note id (.delayed till)).setBell till (.part id)
    | .delayed till => if till ≤ r.now then r.begin id part else r
    | .begun patienceEnd _ => r.goOn id patienceEnd

/-- Gives turns to calls until none can go on, or so many turns have been given. -/
def turns : Nat → BrokerRehearsal ρ → BrokerRehearsal ρ
  | 0, r => r
  | rounds + 1, r =>
    match r.queue with
    | [] => r
    | id :: queue => turns rounds (turn { r with queue := queue } id)

/-! ## Time -/

/-- Rings a bell. -/
def ring (r : BrokerRehearsal ρ) : Bell → BrokerRehearsal ρ
  | .part id => r.wake id
  | .watch id => r.wake id
  | .attempt attempt => r.wakeWaiting attempt

/-- Lets time pass up to an instant. -/
def advance (r : BrokerRehearsal ρ) (now : Nat) : BrokerRehearsal ρ :=
  (r.bells.upTo now).foldl ring { r with now := now, bells := r.bells.after now }

/-- Steps that a call may take under the limits, which allow each of its units so many attempts. -/
def stepsOf (limits : Limits) (units : Nat) : Nat :=
  16 * (units + 1) * (limits.retry.attempts.toNat + 1)

/-- Turns that all calls together may have: one for each bell that a step sets, and one for each
call when an attempt ends. -/
def turnLimit (r : BrokerRehearsal ρ) : Nat :=
  4 * (r.rounds + 4) * (r.parts.length + 4)

/-- The turn of the conductor, who leads one call at most. -/
def lead (r : BrokerRehearsal ρ) : BrokerRehearsal ρ :=
  match r.led with
  | some id => r.turn id
  | none => r

/-- Conducts the rehearsal until `stop` holds in a turn of the conductor, for at most so many of
them. There is one at the instant `alarm`. -/
def conduct (stop : BrokerRehearsal ρ → Bool) (alarm : Option Nat) :
    Nat → BrokerRehearsal ρ → BrokerRehearsal ρ
  | 0, r => r
  | rounds + 1, r =>
    let r := r.lead
    if stop r then r
    else if r.queue.isEmpty then
      match alarm, r.bells.next? with
      | none, none => r
      | some now, none => conduct stop alarm rounds (r.advance now)
      | none, some now => conduct stop alarm rounds (r.advance now)
      | some last, some now => conduct stop alarm rounds (r.advance (min last now))
    else conduct stop alarm rounds (r.turns r.turnLimit)

/-! ## Conducting -/

/-- Puts a call among those that are rehearsed. -/
def add (r : BrokerRehearsal ρ) (id : CallId) (steps : Nat) (part : Part ρ) : BrokerRehearsal ρ :=
  { r with parts := r.parts ++ [(id, part)], rounds := r.rounds + steps }

/-- Leaves a call to itself. -/
def launch (r : BrokerRehearsal ρ) (id : CallId) (steps : Nat) (part : Part ρ) :
    BrokerRehearsal ρ :=
  (r.add id steps part).wake id

/-- Whether a call has ended or was given up. -/
def hasEnded (r : BrokerRehearsal ρ) (id : CallId) : Bool :=
  r.ended.any (·.1 == id)

/-- Leads a call to its end. -/
def perform (r : BrokerRehearsal ρ) (id : CallId) (steps : Nat) (part : Part ρ) :
    BrokerRehearsal ρ :=
  let r := { r.add id steps part with led := some id }
  { conduct (·.hasEnded id) none r.turnLimit r with led := none }

/-- Waits for calls that are left to themselves, for at most so many milliseconds. -/
def await (r : BrokerRehearsal ρ) (ids : List CallId) (patience : Nat) : BrokerRehearsal ρ :=
  let last := r.now + patience
  conduct (fun r => ids.all r.hasEnded || last ≤ r.now) (some last) r.turnLimit r

/-- Empties the log of evaluations. -/
def clearLog (r : BrokerRehearsal ρ) : BrokerRehearsal ρ :=
  { r with stage := { r.stage with log := [] } }

/-- Puts down failures of an operation that a user brings along; the second part is its number. -/
def bring (r : BrokerRehearsal ρ) (errors : List Bridge.Error) : BrokerRehearsal ρ × Nat :=
  ({ r with stage := { r.stage with custom := r.stage.custom ++ [errors] } },
    r.stage.custom.length)

end BrokerRehearsal

end CanvasLink.Rehearsal
