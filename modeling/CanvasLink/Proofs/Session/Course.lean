import CanvasLink.Proofs.Connection.Routing
import CanvasLink.Proofs.Session.Confinement
import Mathlib.Data.List.DropRight

/-!
# CanvasLink — the course of attaching

Attaching asks for announcements, waits, and probes what is announced by then. This module says
what comes of every run of it, whatever comes in over the connection and whenever.

* `liveContexts` — the contexts that a stream of events leaves.
* `Input.Brings`, `PickedUp`, `Awaited` — how a call that waits comes by its outcome.
* `Probing`, `Course` — the runs of attaching, with the requests they write and the phase they lead
  to.
* `midway` — the state of attaching in terms of the inputs so far; `step_quiet` and `step_brings`
  follow it through one input, `run_awaited` and `run_pickedUp` through the wait for an outcome.
* **`course_attach`** — every run of attaching is a course.
-/

namespace CanvasLink.Attaching

open CanvasLink.Bridge CanvasLink.Json CanvasLink.Wire
open CanvasLink.Connection (PendingCall Outcome announcement? delivered)

/-! ## Runs -/

/-- A run over inputs, with the requests that are written. -/
def run (a : Attaching) : List Input → Attaching × List Request
  | [] => (a, [])
  | input :: inputs =>
    let (a, requests) := a.step input
    let (a, later) := a.run inputs
    (a, requests ++ later)

/-- A whole run: what comes in early, and what happens from then on. -/
def attach (early inputs : List Input) : Attaching × List Request :=
  let (a, requests) := startBehind early
  let (a, later) := a.run inputs
  (a, requests ++ later)

/-! ## What is announced -/

/-- The events that come in with the inputs, in order. -/
def heard (inputs : List Input) : List Event :=
  (delivered (inputs.filterMap Input.transport?)).filterMap announcement?

/-- The context that an event announces, if it does and can be decoded. -/
def created? (event : Event) : Option ExecutionContext :=
  if event.method = contextCreated then
    (ExecutionContextCreated.decode event.params).toOption.map ExecutionContextCreated.context
  else none

/-- The contexts that are announced behind the last event that clears them, in order. -/
def liveContexts (events : List Event) : List ExecutionContext :=
  (events.rtakeWhile (·.method ≠ contextsCleared)).filterMap created?

/-! ## How a call comes by its outcome -/

/-- The input ends the wait of the call, and brings it the outcome: it is the answer to its
request, or the end of the inbound side. -/
inductive Input.Brings (p : PendingCall) : Input → Outcome → Prop
  | answer {message : Value} {r : Response} {outcome : Outcome}
      (hr : Response.decode message = .ok r) (hid : r.id = p.id) (htold : p.Told r outcome) :
      Brings p (.deliver message) outcome
  | hangUp : Brings p .hangUp (.error (.transport "connection closed"))

/-- The first input that ends the wait of the call brings the outcome, and it is the turn of
attaching for the first time since then with the last of the inputs. -/
inductive PickedUp (p : PendingCall) : List Input → Outcome → Prop
  | mk {before : List Input} {input : Input} {between : List Input} {outcome : Outcome}
      (hbefore : ∀ i ∈ before, ∀ o, ¬ i.Brings p o) (hinput : input.Brings p outcome)
      (hbetween : .resume ∉ between) :
      PickedUp p (before ++ input :: (between ++ [.resume])) outcome

/-- The outcome of the call is not there, or it has not been the turn of attaching since then. -/
inductive Awaited (p : PendingCall) : List Input → Prop
  | absent {inputs : List Input} (hnone : ∀ i ∈ inputs, ∀ o, ¬ i.Brings p o) : Awaited p inputs
  | unseen {before : List Input} {input : Input} {after : List Input} {outcome : Outcome}
      (hbefore : ∀ i ∈ before, ∀ o, ¬ i.Brings p o) (hinput : input.Brings p outcome)
      (hafter : .resume ∉ after) : Awaited p (before ++ input :: after)

/-! ## The course of attaching -/

/-- Requests can still be written: the inbound side has not ended, and somebody reads. -/
def Writable (soFar : List Input) : Prop :=
  .hangUp ∉ soFar ∧ .stopReading ∉ soFar

/-- The call that asks for announcements, and its request. -/
def enableCall : PendingCall :=
  ⟨1, 0, .result⟩

def enableRequest : Request :=
  ⟨1, "Runtime.enable", .object []⟩

/-- The probe that comes after `n` other calls. -/
def probeCall (n : Nat) : PendingCall :=
  ⟨UInt64.ofNat (n + 1), n, .evaluation⟩

/-- The request of a probe: a silent evaluation in the context. -/
def probeRequest (n : Nat) (context : Int64) : Request :=
  ⟨UInt64.ofNat (n + 1), "Runtime.evaluate",
    .object [("expression", .string "typeof figma !== 'undefined'"),
      ("contextId", .int context.toInt), ("awaitPromise", .boolean true),
      ("returnByValue", .boolean true), ("silent", .boolean true)]⟩

/-- Probing contexts one after another, after `n` calls and all that has happened `soFar`: the
inputs since then, the requests that are written in them, and the phase they lead to. -/
inductive Probing : List Input → Nat → List Int64 → List Input → List Request → AttachPhase → Prop
  /-- No context is left. -/
  | exhausted {soFar n inputs} : Probing soFar n [] inputs [] (.failed .contextNotFound)
  /-- No probe can be written any more. -/
  | mute {soFar n contexts inputs} : ¬ Writable soFar →
      Probing soFar n contexts inputs [] (.failed .contextNotFound)
  | waiting {soFar n context others inputs} : Writable soFar → Awaited (probeCall n) inputs →
      Probing soFar n (context :: others) inputs [probeRequest n context]
        (.probing context others)
  /-- The probe is exactly true. -/
  | found {soFar n context others inputs later} : Writable soFar →
      PickedUp (probeCall n) inputs (.ok (.boolean true)) →
      Probing soFar n (context :: others) (inputs ++ later) [probeRequest n context]
        (.attached context)
  /-- The probe is anything else, or fails. -/
  | next {soFar n context others inputs outcome later requests phase} : Writable soFar →
      PickedUp (probeCall n) inputs outcome → outcome ≠ .ok (.boolean true) →
      Probing (soFar ++ inputs) (n + 1) others later requests phase →
      Probing soFar n (context :: others) (inputs ++ later) (probeRequest n context :: requests)
        phase

/-- The course of attaching: the inputs from its start on, the requests that are written, and the
phase they lead to. -/
inductive Course (early : List Input) : List Input → List Request → AttachPhase → Prop
  /-- The connection has come to its end before anything could be asked. -/
  | mute {inputs} : ¬ Writable early →
      Course early inputs [] (.failed (.transport "connection closed"))
  | enabling {inputs} : Writable early → Awaited enableCall inputs →
      Course early inputs [enableRequest] .enabling
  | refused {inputs error later} : Writable early → PickedUp enableCall inputs (.error error) →
      Course early (inputs ++ later) [enableRequest] (.failed error)
  | settling {inputs result wait} : Writable early → PickedUp enableCall inputs (.ok result) →
      .settled ∉ wait → Course early (inputs ++ wait) [enableRequest] .settling
  /-- What is announced when the wait ends is probed. -/
  | probing {inputs result wait later requests phase} : Writable early →
      PickedUp enableCall inputs (.ok result) → .settled ∉ wait →
      Probing (early ++ (inputs ++ wait)) 1
        ((liveContexts (heard (early ++ (inputs ++ wait)))).map ExecutionContext.id) later requests
        phase →
      Course early (inputs ++ (wait ++ .settled :: later)) (enableRequest :: requests) phase

/-! ## The contexts that are live -/

/-- Events come one after the other. -/
theorem contextsAfter_append (contexts : List ExecutionContext) (as bs : List Event) :
    contextsAfter contexts (as ++ bs) = contextsAfter (contextsAfter contexts as) bs := by
  induction as generalizing contexts with
  | nil => rfl
  | cons event as ih =>
    rw [List.cons_append, contextsAfter, contextsAfter]
    split
    · cases ExecutionContextCreated.decode event.params with
      | ok created => exact ih _
      | error e => exact ih _
    · split <;> exact ih _

/-- One event clears the contexts, or announces one, or changes nothing. -/
theorem contextsAfter_singleton (contexts : List ExecutionContext) (event : Event) :
    contextsAfter contexts [event] =
      if event.method = contextsCleared then [] else contexts ++ (created? event).toList := by
  have hmethods : contextCreated ≠ contextsCleared := by decide
  unfold contextsAfter created?
  by_cases hcreated : event.method = contextCreated
  · rw [if_pos hcreated, if_pos hcreated, if_neg (hcreated ▸ hmethods)]
    cases ExecutionContextCreated.decode event.params with
    | ok created => rfl
    | error e => exact (List.append_nil contexts).symm
  · rw [if_neg hcreated, if_neg hcreated]
    split
    · rfl
    · exact (List.append_nil contexts).symm

/-- Gathering announcements from the first one on leaves those behind the last clearing. Induction
from the end of the stream. -/
theorem contextsAfter_eq_liveContexts (events : List Event) :
    contextsAfter [] events = liveContexts events := by
  induction events using List.reverseRecOn with
  | nil => rfl
  | append_singleton events event ih =>
    rw [contextsAfter_append, contextsAfter_singleton, ih, liveContexts, liveContexts,
      List.rtakeWhile_concat]
    by_cases hcleared : event.method = contextsCleared
    · simp [hcleared]
    · simp only [hcleared, if_false, ne_eq, not_false_eq_true, decide_true, if_true,
        List.filterMap_append]
      cases hevent : created? event <;> simp [hevent]

/-! ## One input -/

/-- Whether the inbound side has not ended. -/
def hears (soFar : List Input) : Bool :=
  soFar.all fun
    | .hangUp => false
    | _ => true

/-- Whether somebody reads at the other end. -/
def isRead (soFar : List Input) : Bool :=
  soFar.all fun
    | .stopReading => false
    | _ => true

/-- Requests can be written as long as the inbound side has not ended and somebody reads. -/
theorem writable_iff {soFar : List Input} :
    Writable soFar ↔ (hears soFar && isRead soFar) = true := by
  induction soFar with
  | nil => simp [Writable, hears, isRead]
  | cons input soFar ih =>
    simp only [Writable, hears, isRead, List.mem_cons, List.all_cons, not_or, Bool.and_eq_true]
      at ih ⊢
    cases input <;> simp_all

theorem Writable.hears {soFar : List Input} (h : Writable soFar) : hears soFar = true := by
  rw [writable_iff, Bool.and_eq_true] at h
  exact h.1

/-- A message that comes in is heard if it is an event. -/
theorem heard_deliver (message : Value) (inputs : List Input) :
    heard (.deliver message :: inputs) = (announcement? message).toList ++ heard inputs := by
  show List.filterMap announcement? (message :: _) = _
  rw [List.filterMap_cons]
  cases announcement? message <;> rfl

/-- Events are heard until the inbound side ends. -/
theorem heard_append (soFar inputs : List Input) :
    heard (soFar ++ inputs) = heard soFar ++ if hears soFar then heard inputs else [] := by
  induction soFar with
  | nil => rfl
  | cons input soFar ih =>
    cases input with
    | deliver message =>
      rw [List.cons_append, heard_deliver, heard_deliver, ih, List.append_assoc]
      rfl
    | hangUp => rfl
    | stopReading => exact ih
    | resume => exact ih
    | settled => exact ih

/-- What is heard in inputs that come behind others. -/
def heardBehind (soFar inputs : List Input) : List Event :=
  if hears soFar then heard inputs else []

/-- What comes in behind others is heard as long as the inbound side has not ended. -/
theorem heardBehind_append (soFar as bs : List Input) :
    heardBehind soFar (as ++ bs) = heardBehind soFar as ++ heardBehind (soFar ++ as) bs := by
  unfold heardBehind
  rw [heard_append, show hears (soFar ++ as) = (hears soFar && hears as) from List.all_append]
  cases hears soFar <;> rfl

/-- Attaching after all that has happened `soFar` and after `n` calls, with the calls that wait. -/
def midway (soFar : List Input) (n : Nat) (pending : List PendingCall) (inbox : List Event)
    (answer : Option Outcome) (phase : AttachPhase) : Attaching :=
  ⟨⟨n, pending, true, isRead soFar, hears soFar, hears soFar⟩, inbox, answer, n, phase⟩

/-- What a message is to a connection on which one call waits at most. -/
theorem deliver_eq {c : Connection} {message : Value} {p : PendingCall}
    (hpending : c.pending = [] ∨ c.pending = [p]) (hinbound : c.inbound = true)
    (hnone : c.pending = [p] → ∀ o, ¬ (Input.deliver message).Brings p o) :
    c.step (.deliver message) = (c, (announcement? message).toList.map .announced) := by
  simp only [Connection.step, Connection.deliver, hinbound, if_true, Message.ofValue, announcement?]
  cases hr : Response.decode message with
  | ok r =>
    -- No call waits for the response, so it is dropped.
    have hfind : c.pending.find? (·.id == r.id) = none := by
      rcases hpending with h | h
      · rw [h]
        rfl
      · have hne : p.id ≠ r.id := fun hid => hnone h _ (.answer hr hid.symm (p.told_apply r))
        simp [h, hne]
    simp only [Connection.respond, hfind]
    rfl
  | error e => cases Event.decode message <;> rfl

/-- Announcements are put behind those that are there. -/
theorem foldl_note_announced (events : List Event) (a : Attaching) :
    (events.map Connection.Effect.announced).foldl note a = { a with inbox := a.inbox ++ events } := by
  induction events generalizing a with
  | nil =>
    rw [List.append_nil]
    rfl
  | cons event events ih =>
    rw [List.map_cons, List.foldl_cons, ih]
    simp [note]

section Steps

variable {soFar : List Input} {n : Nat} {p : PendingCall} {pending : List PendingCall}
  {inbox : List Event} {answer : Option Outcome} {phase : AttachPhase} {input : Input}
  {outcome : Outcome}

/-- What a step leaves when it only puts announcements into the inbox. -/
theorem midway_append (hhangUp : input ≠ .hangUp) (hstop : input ≠ .stopReading) :
    midway (soFar ++ [input]) n pending inbox answer phase =
      midway soFar n pending inbox answer phase := by
  cases input with
  | hangUp => exact absurd rfl hhangUp
  | stopReading => exact absurd rfl hstop
  | _ => simp [midway, isRead, hears]

/-- A message that answers no call is put into the inbox if it announces something and is heard. -/
theorem step_deliver {message : Value}
    (hpending : pending = [] ∨ pending = [p] ∧ ∀ o, ¬ (Input.deliver message).Brings p o) :
    (midway soFar n pending inbox answer phase).step (.deliver message) =
      (midway soFar n pending (inbox ++ heardBehind soFar [.deliver message]) answer phase, []) := by
  show ((midway soFar n pending inbox answer phase).pass (.deliver message), []) = _
  rw [heardBehind, heard_deliver]
  cases hhears : hears soFar with
  | true =>
    have hstep : (midway soFar n pending inbox answer phase).connection.step (.deliver message) =
        ((midway soFar n pending inbox answer phase).connection,
          (announcement? message).toList.map .announced) := by
      refine deliver_eq (hpending.imp_right And.left) hhears fun hp => ?_
      exact (hpending.resolve_left (by rw [show pending = [p] from hp]; simp)).2
    simp only [pass, hstep, foldl_note_announced]
    rw [show heard [] = [] from rfl, List.append_nil]
    rfl
  | false =>
    -- Nothing is heard any more.
    have hstep : (midway soFar n pending inbox answer phase).connection.step (.deliver message) =
        ((midway soFar n pending inbox answer phase).connection, []) := by
      simp [Connection.step, Connection.deliver, midway, hhears]
    simp only [pass, hstep]
    simp [midway]

/-- An input that neither ends the wait of a call nor is a turn of attaching. -/
theorem step_quiet (hpending : pending = [] ∨ pending = [p] ∧ ∀ o, ¬ input.Brings p o)
    (hresume : input = .resume → answer = none) (hsettled : input = .settled → phase ≠ .settling) :
    (midway soFar n pending inbox answer phase).step input =
      (midway (soFar ++ [input]) n pending (inbox ++ heardBehind soFar [input]) answer phase,
        []) := by
  -- An input that announces nothing adds nothing to the inbox.
  have hsilent (h : heard [input] = []) : inbox ++ heardBehind soFar [input] = inbox := by
    rw [heardBehind, h, ite_self, List.append_nil]
  cases input with
  | deliver message =>
    rw [midway_append (by simp) (by simp)]
    exact step_deliver hpending
  | hangUp =>
    rcases hpending with rfl | ⟨-, hnone⟩
    · rw [hsilent rfl]
      simp [Attaching.step, pass, Connection.step, Connection.failPending, midway, isRead, hears]
    · exact absurd .hangUp (hnone _)
  | stopReading =>
    rw [hsilent rfl]
    simp [Attaching.step, pass, Connection.step, midway, isRead, hears]
  | resume =>
    rw [hsilent rfl, midway_append (by simp) (by simp), hresume rfl]
    rfl
  -- The end of the wait is ignored in every other phase.
  | settled =>
    rw [hsilent rfl, midway_append (by simp) (by simp)]
    have hphase := hsettled rfl
    cases phase with
    | settling => exact absurd rfl hphase
    | _ => rfl

/-- The input that brings a call its outcome. -/
theorem step_brings (hhears : hears soFar = true) (hinput : input.Brings p outcome) :
    (midway soFar n [p] inbox none phase).step input =
      (midway (soFar ++ [input]) n [] (inbox ++ heardBehind soFar [input]) (some outcome) phase,
        []) := by
  cases hinput with
  | @answer message r outcome hr hid htold =>
    -- A response is no event, so the inbox stays as it is.
    have hnone : announcement? message = none := by rw [announcement?, hr]
    rw [midway_append (by simp) (by simp), heardBehind, heard_deliver, hnone]
    have hstep : (midway soFar n [p] inbox none phase).connection.step (.deliver message) =
        ({ (midway soFar n [p] inbox none phase).connection with pending := [] },
          [.finished p.call outcome]) := by
      simp [Connection.step, Connection.deliver, midway, hhears, Connection.ofValue_eq_response hr,
        Connection.respond, hid, htold.eq_apply]
    show ((midway soFar n [p] inbox none phase).pass (.deliver message), []) = _
    simp only [pass, hstep]
    simp [note, midway, heard, delivered]
  | hangUp =>
    simp [Attaching.step, pass, Connection.step, Connection.failPending, note, midway, isRead, hears,
      heardBehind, heard, delivered, Input.transport?, Error.connectionClosed]

end Steps

/-! ## Runs of inputs -/

/-- A run over two lists of inputs is one run after the other. -/
theorem run_append (a : Attaching) (as bs : List Input) :
    a.run (as ++ bs) = (((a.run as).1.run bs).1, (a.run as).2 ++ ((a.run as).1.run bs).2) := by
  induction as generalizing a with
  | nil => rfl
  | cons input as ih =>
    show (((a.step input).1.run (as ++ bs)).1,
      (a.step input).2 ++ ((a.step input).1.run (as ++ bs)).2) = _
    rw [ih, ← List.append_assoc]
    rfl

theorem run_cons (a : Attaching) (input : Input) (inputs : List Input) :
    a.run (input :: inputs) =
      (((a.step input).1.run inputs).1, (a.step input).2 ++ ((a.step input).1.run inputs).2) :=
  rfl

/-- Nothing changes any more behind the end. -/
theorem run_final {a : Attaching} (hfinal : (∃ e, a.phase = .failed e) ∨ ∃ c, a.phase = .attached c)
    (inputs : List Input) : (a.run inputs).1.phase = a.phase ∧ (a.run inputs).2 = [] := by
  induction inputs generalizing a with
  | nil => exact ⟨rfl, rfl⟩
  | cons input inputs ih =>
    -- An attachment that is over takes no turn any more, whatever passes its connection.
    have hstep : (a.step input).1.phase = a.phase ∧ (a.step input).2 = [] := by
      have hpass (i : Connection.Input) : (a.pass i).phase = a.phase := (foldl_note _ _).2.1
      cases input with
      | deliver message => exact ⟨hpass _, rfl⟩
      | hangUp => exact ⟨hpass _, rfl⟩
      | stopReading => exact ⟨hpass _, rfl⟩
      | resume =>
        simp only [step, resume]
        split
        · exact ⟨rfl, rfl⟩
        · unfold conclude
          dsimp only
          rcases hfinal with ⟨e, h⟩ | ⟨c, h⟩ <;> rw [h] <;> exact ⟨rfl, rfl⟩
      | settled =>
        simp only [step, settle]
        rcases hfinal with ⟨e, h⟩ | ⟨c, h⟩ <;> rw [h] <;> exact ⟨h, rfl⟩
    rw [run_cons, hstep.2, List.nil_append, ← hstep.1]
    refine ih ?_
    rw [hstep.1]
    exact hfinal

section Runs

variable {soFar : List Input} {n : Nat} {p : PendingCall} {pending : List PendingCall}
  {inbox : List Event} {answer : Option Outcome} {phase : AttachPhase} {inputs : List Input}
  {outcome : Outcome}

/-- Inputs that do not end the wait of the call, and give attaching no turn that it could use, only
fill the inbox. -/
theorem run_quiet (hpending : pending = [] ∨ pending = [p] ∧ ∀ i ∈ inputs, ∀ o, ¬ i.Brings p o)
    (hresume : .resume ∈ inputs → answer = none) (hsettled : .settled ∈ inputs → phase ≠ .settling) :
    (midway soFar n pending inbox answer phase).run inputs =
      (midway (soFar ++ inputs) n pending (inbox ++ heardBehind soFar inputs) answer phase, []) := by
  induction inputs generalizing soFar inbox with
  | nil =>
    rw [List.append_nil, show heardBehind soFar [] = [] from ite_self _, List.append_nil]
    rfl
  | cons input inputs ih =>
    -- What holds of all inputs holds of the first one.
    have hstep : (midway soFar n pending inbox answer phase).step input =
        (midway (soFar ++ [input]) n pending (inbox ++ heardBehind soFar [input]) answer phase,
          []) :=
      step_quiet (hpending.imp_right fun h => ⟨h.1, h.2 input (by simp)⟩)
        (fun h => hresume (by simp [h])) (fun h => hsettled (by simp [h]))
    rw [run_cons, hstep, ih (hpending.imp_right fun h => ⟨h.1, fun i hi => h.2 i (by simp [hi])⟩)
      (fun h => hresume (by simp [h])) (fun h => hsettled (by simp [h]))]
    have hheard := heardBehind_append soFar [input] inputs
    rw [List.singleton_append] at hheard
    rw [hheard, List.append_assoc, List.append_assoc, List.singleton_append]
    rfl

/-- One more input in front, which is not the answer. -/
theorem Awaited.cons {input : Input} (hnone : ∀ o, ¬ input.Brings p o) (h : Awaited p inputs) :
    Awaited p (input :: inputs) := by
  cases h with
  | absent hall => exact .absent (List.forall_mem_cons.2 ⟨hnone, hall⟩)
  | unseen hbefore ho hafter =>
    rw [← List.cons_append]
    exact .unseen (List.forall_mem_cons.2 ⟨hnone, hbefore⟩) ho hafter

/-- One more input in front, which is not the answer. -/
theorem PickedUp.cons {input : Input} (hnone : ∀ o, ¬ input.Brings p o)
    (h : PickedUp p inputs outcome) : PickedUp p (input :: inputs) outcome := by
  obtain ⟨hbefore, ho, hbetween⟩ := h
  rw [← List.cons_append]
  exact .mk (List.forall_mem_cons.2 ⟨hnone, hbefore⟩) ho hbetween

/-- A call that waits goes on waiting, or its outcome is picked up at some point. -/
theorem awaited_or_pickedUp (p : PendingCall) (inputs : List Input) :
    Awaited p inputs ∨ ∃ first later outcome, inputs = first ++ later ∧ PickedUp p first outcome := by
  induction inputs with
  | nil => exact .inl (.absent (by simp))
  | cons input inputs ih =>
    have hnil : ∀ i ∈ ([] : List Input), ∀ o, ¬ i.Brings p o := by simp
    by_cases hinput : ∃ o, input.Brings p o
    · obtain ⟨o, ho⟩ := hinput
      -- The outcome is there; it is picked up with the next turn of attaching, if there is one.
      by_cases hresume : .resume ∈ inputs
      · obtain ⟨between, later, rfl, hbetween⟩ := List.eq_append_cons_of_mem hresume
        exact .inr ⟨[] ++ input :: (between ++ [.resume]), later, o, by simp,
          .mk hnil ho hbetween⟩
      · left
        rw [← List.nil_append (input :: inputs)]
        exact .unseen hnil ho hresume
    · have hnone : ∀ o, ¬ input.Brings p o := fun o ho => hinput ⟨o, ho⟩
      rcases ih with hawaited | ⟨first, later, o, rfl, hpicked⟩
      · exact .inl (hawaited.cons hnone)
      · exact .inr ⟨input :: first, later, o, rfl, hpicked.cons hnone⟩

/-- The inbound side has not ended as long as a call waits. -/
theorem hears_append (hnone : ∀ i ∈ inputs, ∀ o, ¬ i.Brings p o) (hhears : hears soFar = true) :
    hears (soFar ++ inputs) = true := by
  refine List.all_append.trans (Bool.and_eq_true_iff.2 ⟨hhears, List.all_eq_true.2 ?_⟩)
  intro i hi
  cases i with
  | hangUp => exact absurd .hangUp (hnone _ hi _)
  | _ => rfl

/-- The run up to the input that brings the outcome, and on without a turn of attaching. -/
theorem run_brings {before after : List Input} {input : Input} (hhears : hears soFar = true)
    (hphase : phase ≠ .settling) (hbefore : ∀ i ∈ before, ∀ o, ¬ i.Brings p o)
    (hinput : input.Brings p outcome) (hafter : .resume ∉ after) :
    (midway soFar n [p] inbox none phase).run (before ++ input :: after) =
      (midway (soFar ++ (before ++ input :: after)) n []
        (inbox ++ heardBehind soFar (before ++ input :: after)) (some outcome) phase, []) := by
  rw [run_append, run_quiet (.inr ⟨rfl, hbefore⟩) (fun _ => rfl) (fun _ => hphase), run_cons,
    step_brings (hears_append hbefore hhears) hinput,
    run_quiet (p := p) (.inl rfl) (fun h => absurd h hafter) (fun _ => hphase)]
  have hheard : heardBehind soFar (before ++ input :: after) = heardBehind soFar before ++
      (heardBehind (soFar ++ before) [input] ++ heardBehind (soFar ++ before ++ [input]) after) := by
    rw [heardBehind_append, ← List.singleton_append, heardBehind_append]
  rw [hheard]
  simp only [List.append_assoc, List.singleton_append, List.append_nil]

/-- While the outcome is not there, or not looked at, nothing is done. -/
theorem run_awaited (hawaited : Awaited p inputs) (hhears : hears soFar = true)
    (hphase : phase ≠ .settling) :
    ((midway soFar n [p] inbox none phase).run inputs).1.phase = phase ∧
      ((midway soFar n [p] inbox none phase).run inputs).2 = [] := by
  cases hawaited with
  | absent hnone =>
    rw [run_quiet (.inr ⟨rfl, hnone⟩) (fun _ => rfl) (fun _ => hphase)]
    exact ⟨rfl, rfl⟩
  | unseen hbefore hinput hafter =>
    rw [run_brings hhears hphase hbefore hinput hafter]
    exact ⟨rfl, rfl⟩

/-- When the outcome is there, and it is the turn of attaching, it goes on with it. -/
theorem run_pickedUp (hpicked : PickedUp p inputs outcome) (hhears : hears soFar = true)
    (hphase : phase ≠ .settling) :
    (midway soFar n [p] inbox none phase).run inputs =
      (midway (soFar ++ inputs) n [] (inbox ++ heardBehind soFar inputs) none phase).conclude
        outcome := by
  obtain @⟨before, input, between, _, hbefore, hinput, hbetween⟩ := hpicked
  -- The last input is the turn with which the outcome is picked up.
  have hsplit : before ++ input :: (between ++ [.resume]) =
      (before ++ input :: between) ++ [.resume] := by simp
  rw [hsplit, run_append, run_brings hhears hphase hbefore hinput hbetween]
  generalize before ++ input :: between = body
  have hheard : heardBehind soFar (body ++ [.resume]) = heardBehind soFar body := by
    rw [heardBehind_append, heardBehind.eq_1 _ [.resume]]
    exact (congrArg _ (ite_self _)).trans (List.append_nil _)
  rw [hheard, ← List.append_assoc, midway_append (by simp) (by simp)]
  show (_, [] ++ (_ ++ [])) = _
  rw [List.nil_append, List.append_nil]
  rfl

end Runs

/-! ## Probing -/

section Probes

variable {soFar : List Input} {n : Nat} {inbox : List Event} {phase : AttachPhase}

/-- The first context is probed, if the probe can be written. -/
theorem probe_of_writable (hwritable : Writable soFar) (context : Int64) (others : List Int64) :
    (midway soFar n [] inbox none phase).probe (context :: others) =
      (midway soFar (n + 1) [probeCall n] inbox none (.probing context others),
        [probeRequest n context]) := by
  rw [writable_iff, Bool.and_eq_true] at hwritable
  unfold probe
  simp only [midway, Connection.step, Connection.Input.evaluate, Connection.send, hwritable.1,
    hwritable.2, Bool.and_self, if_true, List.nil_append]
  rfl

/-- If it cannot, all probes fail one after the other, and no context is found. -/
theorem probe_of_mute (hmute : ¬ Writable soFar) (contexts : List Int64) :
    (∃ a, (midway soFar n [] inbox none phase).probe contexts = (a, []) ∧
      a.phase = .failed .contextNotFound) := by
  induction contexts generalizing n with
  | nil => exact ⟨_, rfl, rfl⟩
  | cons context others ih =>
    rw [writable_iff, Bool.not_eq_true] at hmute
    unfold probe
    simp only [midway, Connection.step, Connection.Input.evaluate, Connection.send, hmute,
      Bool.and_true, Bool.false_eq_true, if_false]
    exact ih

/-- A probe that is not exactly true only makes attaching move on. -/
theorem conclude_of_ne_true {a : Attaching} {context : Int64} {others : List Int64}
    {outcome : Outcome} (hphase : a.phase = .probing context others)
    (hne : outcome ≠ .ok (.boolean true)) : a.conclude outcome = a.probe others := by
  unfold conclude
  rw [hphase]
  cases outcome with
  | error e => rfl
  | ok value =>
    cases value with
    | boolean b =>
      cases b with
      | false => rfl
      | true => exact absurd rfl hne
    | _ => rfl

/-- **Probing takes its course.** Induction on the contexts: behind each of them the run goes on
with the next one. -/
theorem probing_probe (contexts : List Int64) (inputs : List Input) :
    Probing soFar n contexts inputs
      (((midway soFar n [] inbox none phase).probe contexts).2 ++
        (((midway soFar n [] inbox none phase).probe contexts).1.run inputs).2)
      (((midway soFar n [] inbox none phase).probe contexts).1.run inputs).1.phase := by
  induction contexts generalizing soFar n inbox phase inputs with
  | nil =>
    obtain ⟨hphase, hnone⟩ := run_final (a := ((midway soFar n [] inbox none phase).probe []).1)
      (.inl ⟨_, rfl⟩) inputs
    rw [hphase, hnone]
    exact .exhausted
  | cons context others ih =>
    by_cases hwritable : Writable soFar
    · rw [probe_of_writable hwritable]
      have hhears := hwritable.hears
      -- The probe is written: either its outcome has not been picked up, or probing goes on from
      -- there.
      rcases awaited_or_pickedUp (probeCall n) inputs with
        hawaited | ⟨first, later, outcome, rfl, hpicked⟩
      · have hrun : ((midway soFar (n + 1) [probeCall n] inbox none (.probing context others)).run
            inputs).1.phase = .probing context others ∧ _ :=
          run_awaited hawaited hhears (by simp)
        rw [hrun.1, hrun.2]
        exact .waiting hwritable hawaited
      · rw [run_append, run_pickedUp hpicked hhears (by simp)]
        by_cases htrue : outcome = .ok (.boolean true)
        · subst htrue
          obtain ⟨hphase, hnone⟩ := run_final (a := ((midway (soFar ++ first) (n + 1) []
            (inbox ++ heardBehind soFar first) none (.probing context others)).conclude
              (.ok (.boolean true))).1) (.inr ⟨_, rfl⟩) later
          simp only [hphase, hnone]
          exact .found hwritable hpicked
        · rw [conclude_of_ne_true rfl htrue]
          exact .next hwritable hpicked htrue (ih later)
    · -- Nothing can be written any more, so all contexts that are left fail at once.
      obtain ⟨a, hprobe, hfailed⟩ : ∃ a, (midway soFar n [] inbox none phase).probe
          (context :: others) = (a, []) ∧ a.phase = .failed .contextNotFound :=
        probe_of_mute hwritable (context :: others)
      obtain ⟨hphase, hnone⟩ := run_final (a := a) (.inl ⟨_, hfailed⟩) inputs
      rw [hprobe, hphase, hnone, hfailed]
      exact .mute hwritable

end Probes

/-! ## The whole course -/

/-- A connection on which nothing has been asked yet. -/
theorem run_opened (early : List Input) :
    (Connection.opened.run (early.filterMap Input.transport?)).1 =
      ⟨0, [], true, isRead early, hears early, hears early⟩ := by
  -- The flags at each point are those of all inputs up to there.
  suffices h : ∀ soFar : List Input,
      ((⟨0, [], true, isRead soFar, hears soFar, hears soFar⟩ : Connection).run
        (early.filterMap Input.transport?)).1 =
          ⟨0, [], true, isRead (soFar ++ early), hears (soFar ++ early), hears (soFar ++ early)⟩ from
    h []
  induction early with
  | nil =>
    intro soFar
    rw [List.append_nil]
    rfl
  | cons input early ih =>
    intro soFar
    have hnext := ih (soFar ++ [input])
    rw [List.append_assoc, List.singleton_append] at hnext
    rw [← hnext]
    cases input with
    | deliver message =>
      show ((Connection.step _ (.deliver message)).1.run _).1 = _
      rw [Connection.step, Connection.deliver_of_pending_nil rfl]
      simp [isRead, hears]
    | hangUp =>
      show ((Connection.step _ .hangUp).1.run _).1 = _
      simp [Connection.step, Connection.failPending, isRead, hears]
    | stopReading =>
      show ((Connection.step _ .stopReading).1.run _).1 = _
      simp [Connection.step, isRead, hears]
    | resume =>
      rw [List.filterMap_cons_none rfl]
      simp [isRead, hears]
    | settled =>
      rw [List.filterMap_cons_none rfl]
      simp [isRead, hears]

/-- Attaching begins on the connection that the early inputs leave, with what they announce in the
inbox. -/
theorem startBehind_eq (early : List Input) :
    startBehind early =
      ({ (start ⟨0, [], true, isRead early, hears early, hears early⟩).1 with inbox := heard early },
        (start ⟨0, [], true, isRead early, hears early, hears early⟩).2) := by
  have hevents : Connection.events
      (Connection.opened.run (early.filterMap Input.transport?)).2.flatten = heard early :=
    Connection.events_run Connection.opened _
  rw [← run_opened, ← hevents]
  rfl

/-- If it can be written the first request asks for announcements. -/
theorem startBehind_of_writable {early : List Input} (hwritable : Writable early) :
    startBehind early =
      (midway early 1 [enableCall] (heard early) none .enabling, [enableRequest]) := by
  rw [writable_iff, Bool.and_eq_true] at hwritable
  rw [startBehind_eq]
  unfold start
  simp only [Connection.step, Connection.send, hwritable.1, hwritable.2, Bool.and_self, if_true,
    List.nil_append, midway]
  rfl

/-- If it cannot, attaching has failed at once. -/
theorem startBehind_of_mute {early : List Input} (hmute : ¬ Writable early) :
    ∃ a, startBehind early = (a, []) ∧ a.phase = .failed (.transport "connection closed") := by
  rw [writable_iff, Bool.not_eq_true] at hmute
  rw [startBehind_eq]
  unfold start
  simp only [Connection.step, Connection.send, hmute, Bool.and_true, Bool.false_eq_true, if_false]
  exact ⟨_, rfl, rfl⟩

/-- **The course behind an acknowledgement.** Attaching waits until the announcements have settled
and then asks the contexts that it knows of. -/
theorem course_acknowledged {early first : List Input} {result : Value} (hwritable : Writable early)
    (hpicked : PickedUp enableCall first (.ok result)) (later : List Input) :
    Course early (first ++ later)
      (enableRequest :: ((midway (early ++ first) 1 [] (heard (early ++ first)) none .settling).run
        later).2)
      ((midway (early ++ first) 1 [] (heard (early ++ first)) none .settling).run later).1.phase := by
  -- Up to the end of the wait the inputs only fill the inbox.
  have hquiet {wait : List Input} (hwait : .settled ∉ wait) :
      (midway (early ++ first) 1 [] (heard (early ++ first)) none .settling).run wait =
        (midway (early ++ (first ++ wait)) 1 [] (heard (early ++ (first ++ wait))) none
          .settling, []) := by
    rw [run_quiet (p := enableCall) (.inl rfl) (fun _ => rfl) (fun h => absurd h hwait),
      ← List.append_assoc early, heard_append (early ++ first)]
    rfl
  by_cases hsettled : .settled ∈ later
  · obtain ⟨wait, rest, rfl, hwait⟩ := List.eq_append_cons_of_mem hsettled
    simp only [run_append, hquiet hwait]
    refine Course.probing hwritable hpicked hwait ?_
    rw [← contextsAfter_eq_liveContexts]
    exact probing_probe _ rest
  · simp only [hquiet hsettled]
    exact .settling hwritable hpicked hsettled

/-- **Attaching takes its course.** -/
theorem course_attach (early inputs : List Input) :
    Course early inputs (attach early inputs).2 (attach early inputs).1.phase := by
  unfold attach
  by_cases hwritable : Writable early
  · have hhears := hwritable.hears
    rw [startBehind_of_writable hwritable]
    dsimp only
    -- The request for announcements is written; its outcome decides how it goes on.
    rcases awaited_or_pickedUp enableCall inputs with hawaited | ⟨first, later, outcome, rfl, hpicked⟩
    · have hrun : ((midway early 1 [enableCall] (heard early) none .enabling).run
          inputs).1.phase = .enabling ∧ _ := run_awaited hawaited hhears (by simp)
      rw [hrun.1, hrun.2]
      exact .enabling hwritable hawaited
    · have hinbox : heard early ++ heardBehind early first = heard (early ++ first) :=
        (heard_append early first).symm
      rw [run_append, run_pickedUp hpicked hhears (by simp), hinbox]
      cases outcome with
      | error e =>
        obtain ⟨hphase, hnone⟩ := run_final (a := ((midway (early ++ first) 1 []
          (heard (early ++ first)) none .enabling).conclude (.error e)).1) (.inl ⟨e, rfl⟩) later
        simp only [hphase, hnone]
        exact .refused hwritable hpicked
      | ok result => exact course_acknowledged hwritable hpicked later
  · obtain ⟨a, hstart, hfailed⟩ := startBehind_of_mute hwritable
    obtain ⟨hphase, hnone⟩ := run_final (a := a) (.inl ⟨_, hfailed⟩) inputs
    rw [hstart]
    dsimp only
    rw [hphase, hnone, hfailed]
    exact .mute hwritable

end CanvasLink.Attaching
