import CanvasLink.Proofs.Connection.Correlation

/-!
# CanvasLink — where a message goes

A message that comes in completes the one call that it answers, or is passed on as an event, or
comes to nothing. It is never two of these, although the shapes of a response and of an event
overlap: an object may have an `id` and a `method`.

* `Fate` — the three cases, each with everything that the connection does.
* `Orderly.fate` — a step that takes a message is one of them.
* `events_run` — the events of a run are read off the messages alone: what is sent, answered,
  cancelled or closed in between has no part in it.
* **`message_routed`** — the headline.
-/

namespace CanvasLink.Connection

open CanvasLink.Bridge CanvasLink.Json CanvasLink.Wire

/-! ## One message -/

/-- What comes of a message. Each case gives the whole step. -/
inductive Fate (c : Connection) (message : Value) : Connection × List Effect → Prop
  /-- It answers the call `p`, and no other call waits with that id. -/
  | completes {p : PendingCall} {r : Response} {outcome : Outcome} (hp : p ∈ c.pending)
    (hr : Response.decode message = .ok r) (hid : r.id = p.id)
    (honly : ∀ q ∈ c.pending, q.id = r.id → q = p) (htold : p.Told r outcome) :
    Fate c message ({ c with pending := c.pending.erase p }, [.finished p.call outcome])
  | announces {event : Event} (hinbound : c.inbound = true)
    (hnot : ∀ r, Response.decode message ≠ .ok r) (hevent : Event.decode message = .ok event) :
    Fate c message (c, [.announced event])
  /-- Nobody waits for this response. -/
  | unclaimed {r : Response} (hr : Response.decode message = .ok r)
    (hnobody : ∀ p ∈ c.pending, p.id ≠ r.id) : Fate c message (c, [])
  | unknown (hnot : ∀ r, Response.decode message ≠ .ok r)
    (hneither : ∀ event, Event.decode message ≠ .ok event) : Fate c message (c, [])
  /-- The inbound side has ended. -/
  | unheard (hended : c.inbound = false) : Fate c message (c, [])

theorem ne_ok_of_error {ε α : Type} {x : Except ε α} {e : ε} (h : x = .error e) (a : α) :
    x ≠ .ok a := by
  rw [h]
  nofun

/-- Taking a call out by its id takes out that call alone. -/
theorem Orderly.filter_id_eq_erase {c : Connection} {inputs : List Input} (h : Orderly c inputs)
    {p : PendingCall} (hp : p ∈ c.pending) :
    c.pending.filter (·.id != p.id) = c.pending.erase p := by
  have hnodup : c.pending.Nodup := h.ids.of_map _
  rw [hnodup.erase_eq_filter]
  apply List.filter_congr
  intro q hq
  have hsame : q.id = p.id ↔ q = p :=
    ⟨List.inj_on_of_nodup_map h.ids hq hp, congrArg PendingCall.id⟩
  rw [Bool.eq_iff_iff, bne_iff_ne, bne_iff_ne, ne_eq, ne_eq, hsame]

/-- **One message has one fate.** -/
theorem Orderly.fate {c : Connection} {inputs : List Input} (h : Orderly c inputs)
    (message : Value) : Fate c message (c.step (.deliver message)) := by
  show Fate c message (c.deliver message)
  cases hr : Response.decode message with
  | ok r =>
    -- A response goes to the call with its id, of which there is one at most.
    by_cases hclaimed : ∃ p ∈ c.pending, p.id = r.id
    · obtain ⟨p, hp, hid⟩ := hclaimed
      rw [h.deliver_of_decode hp hr hid.symm, h.filter_id_eq_erase hp]
      refine .completes hp hr hid.symm ?_ (p.told_apply r)
      intro q hq hqid
      exact List.inj_on_of_nodup_map h.ids hq hp (hqid.trans hid.symm)
    · have hnobody : ∀ p ∈ c.pending, p.id ≠ r.id := fun p hp hid => hclaimed ⟨p, hp, hid⟩
      have hnone : c.pending.find? (·.id == r.id) = none := by
        rw [List.find?_eq_none]
        intro p hp
        simpa using hnobody p hp
      have hsame : c.deliver message = (c, []) := by
        unfold Connection.deliver
        simp only [ofValue_eq_response hr, respond, hnone, ite_self]
      rw [hsame]
      exact .unclaimed hr hnobody
  | error e =>
    -- What is no response is tried as an event, if it is heard at all.
    unfold Connection.deliver
    cases hinbound : c.inbound with
    | false => exact .unheard hinbound
    | true =>
      simp only [if_true, Message.ofValue, hr]
      cases hevent : Event.decode message with
      | ok event => exact .announces hinbound (ne_ok_of_error hr) hevent
      | error e' => exact .unknown (ne_ok_of_error hr) (ne_ok_of_error hevent)

/-! ## The event stream -/

/-- The event that a message is read as. A message that can be read as a response is none. -/
def announcement? (message : Value) : Option Event :=
  match Response.decode message with
  | .ok _ => none
  | .error _ => (Event.decode message).toOption

/-- The messages that are delivered up to the end of the inbound side, in order. -/
def delivered : List Input → List Value
  | [] => []
  | .deliver message :: inputs => message :: delivered inputs
  | .hangUp :: _ => []
  | _ :: inputs => delivered inputs

/-- Whether an input has a part in the event stream: it delivers an event, or it ends the inbound
side. -/
def Input.isHeard : Input → Bool
  | .deliver message => (announcement? message).isSome
  | .hangUp => true
  | _ => false

section EventStream

variable {c : Connection}

theorem events_append (as bs : List Effect) : events (as ++ bs) = events as ++ events bs :=
  List.filterMap_append

/-- The end of a connection passes on no events. -/
theorem events_failPending (c : Connection) : events c.failPending.2 = [] := by
  show (c.pending.map _).filterMap _ = []
  rw [List.filterMap_map, List.filterMap_eq_nil_iff]
  exact fun _ _ => rfl

/-- A message that comes in is passed on exactly if it is an event. -/
theorem events_deliver (c : Connection) (message : Value) :
    events (c.deliver message).2 =
        (if c.inbound then (announcement? message).toList else []) ∧
      (c.deliver message).1.inbound = c.inbound := by
  unfold deliver announcement?
  cases hinbound : c.inbound with
  | false => exact ⟨rfl, hinbound⟩
  | true =>
    simp only [if_true, Message.ofValue]
    cases Response.decode message with
    -- A response is passed on to nobody, whoever it answers.
    | ok r =>
      show events (c.respond r).2 = [] ∧ (c.respond r).1.inbound = true
      unfold respond
      split <;> exact ⟨rfl, hinbound⟩
    | error e =>
      cases Event.decode message with
      | ok event => exact ⟨rfl, hinbound⟩
      | error e' => exact ⟨rfl, hinbound⟩

/-- The inbound side stays as it is in every step but one, and nothing but a message brings an
event. -/
theorem events_step (c : Connection) {input : Input} (hinput : input ≠ .hangUp) :
    events (c.step input).2 =
        (if c.inbound then (delivered [input]).filterMap announcement? else []) ∧
      (c.step input).1.inbound = c.inbound := by
  have hsilent : (if c.inbound then ([] : List Event) else []) = [] := ite_self _
  -- Only messages are passed on, and only the end of the inbound side ends that.
  cases input with
  | send call method params purpose =>
    simp only [step, send]
    split <;> exact ⟨hsilent.symm, rfl⟩
  | deliver message =>
    obtain ⟨hevents, hkept⟩ := events_deliver c message
    refine ⟨hevents.trans ?_, hkept⟩
    rw [delivered, delivered, List.filterMap_cons]
    cases announcement? message <;> rfl
  | cancel call => exact ⟨hsilent.symm, rfl⟩
  | close => exact ⟨(events_failPending _).trans hsilent.symm, rfl⟩
  | hangUp => exact absurd rfl hinput
  | stopReading => exact ⟨hsilent.symm, rfl⟩

/-- An input that does not end the inbound side has no influence on what is delivered after it. -/
theorem delivered_cons {input : Input} (hinput : input ≠ .hangUp) (inputs : List Input) :
    delivered (input :: inputs) = delivered [input] ++ delivered inputs := by
  cases input with
  | hangUp => exact absurd rfl hinput
  | _ => rfl

/-- **The events of a run**, whether its inbound side is still open or has ended at the start.
Induction on the inputs. -/
theorem events_run (c : Connection) (inputs : List Input) :
    events (c.effects inputs) =
      if c.inbound then (delivered inputs).filterMap announcement? else [] := by
  induction inputs generalizing c with
  | nil =>
    show [] = _
    cases c.inbound <;> rfl
  | cons input inputs ih =>
    rw [effects_cons, events_append, ih]
    by_cases hinput : input = .hangUp
    · -- Nothing that is delivered from here on is heard.
      subst hinput
      have hended : (c.step .hangUp).1.inbound = false := rfl
      have hsilent : events (c.step .hangUp).2 = [] := events_failPending _
      rw [hended, hsilent]
      cases c.inbound <;> rfl
    · -- The inbound side is as it was, so the rest is heard if this input is.
      obtain ⟨hevents, hkept⟩ := events_step c hinput
      rw [hevents, hkept]
      cases c.inbound with
      | false => rfl
      | true =>
        rw [delivered_cons hinput inputs, List.filterMap_append]
        rfl

/-- Inputs without a part in the event stream may be left out. -/
theorem announcements_filter_isHeard (inputs : List Input) :
    (delivered (inputs.filter Input.isHeard)).filterMap announcement? =
      (delivered inputs).filterMap announcement? := by
  induction inputs with
  | nil => rfl
  | cons input inputs ih =>
    cases input with
    | deliver message =>
      rw [delivered, List.filterMap_cons, List.filter_cons]
      cases hevent : announcement? message with
      -- A message that is no event may be dropped: nothing would be passed on.
      | none =>
        have hnot : ¬ (Input.deliver message).isHeard = true := by simp [Input.isHeard, hevent]
        rw [if_neg hnot]
        exact ih
      | some event =>
        have hheard : (Input.deliver message).isHeard = true := by simp [Input.isHeard, hevent]
        rw [if_pos hheard, delivered, List.filterMap_cons, hevent, ih]
    | hangUp => rfl
    | _ => exact ih

end EventStream

/-! ## The headline -/

/-- **Each message has exactly one effect**, and the event stream is the messages that are events.
Calls are numbered apart, and ids are words of 64 bits, of which there are enough for all calls. -/
theorem message_routed {inputs : List Input} (hcalls : (inputs.filterMap Input.begins?).Nodup)
    (hroom : (inputs.filterMap Input.begins?).length < UInt64.size) :
    (∀ soFar message later, inputs = soFar ++ .deliver message :: later →
      Fate (opened.run soFar).1 message ((opened.run soFar).1.step (.deliver message))) ∧
    (∀ soFar later, inputs = soFar ++ later →
      events (opened.effects soFar) = (delivered soFar).filterMap announcement?) ∧
    ∀ inputs', inputs'.filter Input.isHeard = inputs.filter Input.isHeard →
      events (opened.effects inputs') = events (opened.effects inputs) := by
  -- The events of a run are told by its messages alone; both statements on the stream follow.
  have hstream (as : List Input) :
      events (opened.effects as) = (delivered as).filterMap announcement? :=
    events_run opened as
  refine ⟨?_, ?_, ?_⟩
  · intro soFar message later hinputs
    subst hinputs
    exact (orderly_opened hcalls hroom).run.fate message
  · intro soFar later _
    exact hstream soFar
  · intro inputs' hsame
    rw [hstream, hstream, ← announcements_filter_isHeard inputs', hsame,
      announcements_filter_isHeard]

/-- A call is answered by an object that also has a method. The same object comes again when nobody
waits, then an event, a list that is one, and a number; the connection is closed, and a last event
comes before the inbound side ends, and one behind it. -/
def mingled : List Input :=
  let both : Value := .object [("id", .int 1), ("method", .string "M"), ("result", .null)]
  let event (name : String) : Value := .object [("method", .string name), ("params", .null)]
  [.send 0 "A" .null .result, .deliver both, .deliver both, .deliver (event "E"),
    .deliver (.array [.string "L", .int 7]), .deliver (.int 1), .close, .deliver (event "F"),
    .hangUp, .deliver (event "G")]

/-- A message that is a response as well as an event answers the call that waits, and is dropped
when it comes again; the events before the end of the inbound side are passed on, also after
`close`. -/
theorem message_routed_mingled :
    ((mingled.filterMap Input.begins?).Nodup ∧
      (mingled.filterMap Input.begins?).length < UInt64.size) ∧
    Fate (opened.run (mingled.take 1)).1
      (.object [("id", .int 1), ("method", .string "M"), ("result", .null)])
      ((opened.run (mingled.take 1)).1.step
        (.deliver (.object [("id", .int 1), ("method", .string "M"), ("result", .null)]))) ∧
    (events (opened.effects mingled)).map Event.method = ["E", "L", "F"] := by
  have hcalls : (mingled.filterMap Input.begins?).Nodup := by decide
  have hroom : (mingled.filterMap Input.begins?).length < UInt64.size := by decide
  obtain ⟨hfate, hstream, -⟩ := message_routed hcalls hroom
  refine ⟨⟨hcalls, hroom⟩, hfate (mingled.take 1) _ (mingled.drop 2) rfl, ?_⟩
  rw [hstream mingled [] (List.append_nil _).symm]
  rfl

end CanvasLink.Connection
