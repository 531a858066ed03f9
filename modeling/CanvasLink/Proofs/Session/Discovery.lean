import CanvasLink.Proofs.Connection.Usability
import CanvasLink.Proofs.Session.Course

/-!
# CanvasLink — how a scripting context is found

What holds of every course of attaching: a failure leaves nothing open, and events that say nothing
about contexts have no part in it.

* `ClosesOnFailure` — carried through every step.
* `Alike` — states that differ in such events only; steps keep them alike, and such an event leads
  from a state to one that is alike.
* **`discovers_first_context`** — the headline.
-/

namespace CanvasLink.Attaching

open CanvasLink.Bridge CanvasLink.Json CanvasLink.Wire
open CanvasLink.Connection (Outcome announcement?)

/-! ## What a failure leaves -/

/-- The connection of an attachment that has failed is closed, and no call waits on it. -/
def ClosesOnFailure (a : Attaching) : Prop :=
  (∃ error, a.phase = .failed error) → a.connection.isOpen = false ∧ a.connection.pending = []

/-- Where no call waits and none begins, none waits afterwards. -/
theorem pending_step_of_nil {c : Connection} (hpending : c.pending = []) {input : Connection.Input}
    (hinput : input.begins? = none) : (c.step input).1.pending = [] := by
  cases input with
  | send => cases hinput
  | deliver message =>
    rw [Connection.step, Connection.deliver_of_pending_nil hpending]
    exact hpending
  | cancel call => simp [Connection.step, hpending]
  | close => rfl
  | hangUp => rfl
  | stopReading => exact hpending

section Failures

variable {a : Attaching}

theorem closesOnFailure_of_phase (hphase : ∀ error, a.phase ≠ .failed error) : a.ClosesOnFailure :=
  fun ⟨error, h⟩ => absurd h (hphase error)

theorem closesOnFailure_fail (a : Attaching) (error : Bridge.Error) :
    (a.fail error).ClosesOnFailure :=
  fun _ => ⟨rfl, rfl⟩

/-- A closed connection stays closed, whatever passes it. -/
theorem ClosesOnFailure.pass (h : a.ClosesOnFailure) {input : Connection.Input}
    (hinput : input.begins? = none) : (a.pass input).ClosesOnFailure := by
  obtain ⟨hconnection, hphase, -⟩ := foldl_note (a.connection.step input).2
    { a with connection := (a.connection.step input).1 }
  rintro ⟨error, hfailed⟩
  obtain ⟨hclosed, hpending⟩ := h ⟨error, hphase.symm.trans hfailed⟩
  rw [show (a.pass input).connection = (a.connection.step input).1 from hconnection]
  refine ⟨?_, pending_step_of_nil hpending hinput⟩
  rw [Bool.eq_false_iff] at hclosed ⊢
  exact fun hopen => hclosed ((Connection.flags_step a.connection input).1.1 hopen).1

/-- Probing fails, if it does, by `fail`. -/
theorem closesOnFailure_probe (contexts : List Int64) (a : Attaching) :
    (a.probe contexts).1.ClosesOnFailure := by
  induction contexts generalizing a with
  | nil => exact closesOnFailure_fail a _
  | cons context others ih =>
    unfold probe
    dsimp only
    split
    · exact closesOnFailure_of_phase (by simp)
    · exact ih _

/-- So does attaching when an outcome is there. -/
theorem ClosesOnFailure.conclude (h : a.ClosesOnFailure) (outcome : Outcome) :
    (a.conclude outcome).1.ClosesOnFailure := by
  unfold Attaching.conclude
  split
  · exact closesOnFailure_of_phase (by simp)
  · exact closesOnFailure_fail a _
  · exact closesOnFailure_of_phase (by simp)
  · exact closesOnFailure_probe _ a
  · exact h

/-- A turn of attaching that does nothing leaves things as they were. -/
theorem ClosesOnFailure.resume (h : a.ClosesOnFailure) : a.resume.1.ClosesOnFailure := by
  unfold Attaching.resume
  split
  · exact h
  · exact ClosesOnFailure.conclude (a := { a with answer := none }) h _

/-- Each input leaves a failed attachment closed. -/
theorem ClosesOnFailure.step (h : a.ClosesOnFailure) (input : Input) :
    (a.step input).1.ClosesOnFailure := by
  cases input with
  | deliver message => exact h.pass rfl
  | hangUp => exact h.pass rfl
  | stopReading => exact h.pass rfl
  | resume => exact h.resume
  | settled =>
    simp only [Attaching.step, settle]
    split
    · exact closesOnFailure_probe _ _
    · exact h

/-- The same along every run. -/
theorem ClosesOnFailure.run (h : a.ClosesOnFailure) (inputs : List Input) :
    (a.run inputs).1.ClosesOnFailure := by
  induction inputs generalizing a with
  | nil => exact h
  | cons input inputs ih => exact ih (h.step input)

/-- Behind every failure the connection is closed and no call waits. -/
theorem closesOnFailure_attach (early inputs : List Input) :
    (attach early inputs).1.ClosesOnFailure := by
  refine ClosesOnFailure.run ?_ inputs
  show ClosesOnFailure { (start _).1 with inbox := _ }
  suffices h : ∀ c : Connection, (start c).1.ClosesOnFailure from h _
  intro c
  unfold start
  dsimp only
  split
  · exact closesOnFailure_of_phase (by simp)
  · refine ClosesOnFailure.resume (closesOnFailure_of_phase ?_)
    rw [(foldl_note _ _).2.1]
    simp

end Failures

/-! ## Inputs without a part -/

/-- An event that changes which contexts are live. -/
def changesContexts (event : Event) : Bool :=
  event.method = contextsCleared || (created? event).isSome

/-- An event of another method, or an announcement that cannot be decoded. -/
def Input.isInert : Input → Bool
  | .deliver message => (announcement? message).any fun event => !changesContexts event
  | _ => false

/-- The state with other events in the inbox. -/
def holding (a : Attaching) (inbox : List Event) : Attaching :=
  { a with inbox := inbox }

/-- The same state, up to events in the inbox that change nothing. -/
structure Alike (a b : Attaching) : Prop where
  same : b = a.holding b.inbox
  inbox : b.inbox.filter changesContexts = a.inbox.filter changesContexts

/-- The contexts that are live depend only on events that change them. -/
theorem contextsAfter_filter (contexts : List ExecutionContext) (events : List Event) :
    contextsAfter contexts (events.filter changesContexts) = contextsAfter contexts events := by
  induction events generalizing contexts with
  | nil => rfl
  | cons event events ih =>
    have hsplit (es : List Event) : contextsAfter contexts (event :: es) =
        contextsAfter (contextsAfter contexts [event]) es := contextsAfter_append contexts [event] es
    rw [List.filter_cons]
    split
    · rw [hsplit (events.filter _), hsplit events, ih]
    · -- An event that neither clears nor creates a context adds nothing.
      next hinert =>
      have hsame : contextsAfter contexts [event] = contexts := by
        simp only [changesContexts, Bool.or_eq_true, decide_eq_true_eq, not_or,
          Option.not_isSome_iff_eq_none] at hinert
        rw [contextsAfter_singleton, if_neg hinert.1, hinert.2]
        exact List.append_nil contexts
      rw [hsplit, hsame, ih]

section Alikeness

variable {a b : Attaching}

theorem Alike.refl (a : Attaching) : a.Alike a :=
  ⟨rfl, rfl⟩

theorem alike_holding {inbox : List Event}
    (h : inbox.filter changesContexts = a.inbox.filter changesContexts) :
    a.Alike (a.holding inbox) :=
  ⟨rfl, h⟩

/-- Effects are noted in the same way, whatever is in the inbox. -/
theorem foldl_note_holding (effects : List Connection.Effect) (a : Attaching)
    (inbox : List Event) : effects.foldl note (a.holding inbox) =
      (effects.foldl note a).holding (inbox ++ Connection.events effects) := by
  induction effects generalizing a inbox with
  | nil =>
    rw [show Connection.events [] = [] from rfl, List.append_nil]
    rfl
  | cons effect effects ih =>
    rw [List.foldl_cons, List.foldl_cons]
    cases effect with
    | wrote request => exact ih a inbox
    | announced event =>
      have hnote : (a.holding inbox).note (.announced event) =
          (a.note (.announced event)).holding (inbox ++ [event]) := rfl
      rw [hnote, ih, List.append_assoc]
      rfl
    | finished call outcome => exact ih (a.note (.finished call outcome)) inbox

/-- What has come in before makes no difference to what passes the connection. -/
theorem pass_holding (a : Attaching) (inbox : List Event) (input : Connection.Input) :
    (a.holding inbox).pass input =
      (a.pass input).holding (inbox ++ Connection.events (a.connection.step input).2) :=
  foldl_note_holding _ { a with connection := (a.connection.step input).1 } inbox

/-- Probing does not look at the inbox. -/
theorem probe_holding (contexts : List Int64) (a : Attaching) (inbox : List Event) :
    (a.holding inbox).probe contexts =
      ((a.probe contexts).1.holding inbox, (a.probe contexts).2) := by
  induction contexts generalizing a with
  | nil => rfl
  | cons context others ih =>
    simp only [probe, holding]
    split
    · rfl
    · exact ih { a with
        connection := (a.connection.step (.evaluate a.nextCall (probeParams context))).1
        nextCall := a.nextCall + 1 }

/-- Neither does an outcome that is picked up. -/
theorem conclude_holding (a : Attaching) (inbox : List Event) (outcome : Outcome) :
    (a.holding inbox).conclude outcome =
      ((a.conclude outcome).1.holding inbox, (a.conclude outcome).2) := by
  unfold conclude
  rw [show (a.holding inbox).phase = a.phase from rfl]
  split
  · rfl
  · rfl
  · rfl
  · exact probe_holding _ a inbox
  · rfl

/-- Neither does a turn of attaching. -/
theorem resume_holding (a : Attaching) (inbox : List Event) :
    (a.holding inbox).resume = (a.resume.1.holding inbox, a.resume.2) := by
  unfold resume
  rw [show (a.holding inbox).answer = a.answer from rfl]
  cases a.answer with
  | none => rfl
  | some outcome => exact conclude_holding { a with answer := none } inbox outcome

/-- What passes the connection leaves states that are alike so. -/
theorem Alike.pass (h : a.Alike b) (input : Connection.Input) :
    (a.pass input).Alike (b.pass input) := by
  have hinbox := congrArg Attaching.inbox (pass_holding a a.inbox input)
  rw [h.same, pass_holding]
  refine alike_holding ?_
  rw [show (a.pass input).inbox = _ from hinbox]
  show _ = List.filter _ (_ ++ _)
  rw [List.filter_append, List.filter_append, h.inbox]

/-- Each input has the same effects in states that are alike, and leaves them so. The end of the
wait is the only one that reads the inbox. -/
theorem Alike.step (h : a.Alike b) (input : Input) :
    (a.step input).1.Alike (b.step input).1 ∧ (a.step input).2 = (b.step input).2 := by
  cases input with
  | deliver message => exact ⟨h.pass (.deliver message), rfl⟩
  | hangUp => exact ⟨h.pass .hangUp, rfl⟩
  | stopReading => exact ⟨h.pass .stopReading, rfl⟩
  | resume =>
    have hinbox : a.resume.1.inbox = a.inbox :=
      congrArg (·.1.inbox) (resume_holding a a.inbox)
    show a.resume.1.Alike b.resume.1 ∧ a.resume.2 = b.resume.2
    rw [h.same, resume_holding]
    exact ⟨alike_holding (hinbox ▸ h.inbox), rfl⟩
  | settled =>
    -- What is decided on settling reads the inbox through `contextsAfter`, which the filter does
    -- not change.
    have hcontexts : contextsAfter [] b.inbox = contextsAfter [] a.inbox := by
      rw [← contextsAfter_filter, h.inbox, contextsAfter_filter]
    obtain ⟨hsame, hinbox⟩ := h
    generalize b.inbox = inbox at hsame hinbox hcontexts
    subst hsame
    simp only [Attaching.step, settle, holding, hcontexts]
    split
    · exact ⟨.refl _, rfl⟩
    · exact ⟨alike_holding hinbox, rfl⟩

/-- An event is passed on, or not heard any more. -/
theorem deliver_announcement (c : Connection) {message : Value} {event : Event}
    (h : announcement? message = some event) :
    ∃ events, c.step (.deliver message) = (c, events.map .announced) ∧
      (events = [] ∨ events = [event]) := by
  simp only [Connection.step, Connection.deliver, Message.ofValue]
  -- The message has no `id`, so it is decoded as an event, which goes to whoever still listens.
  unfold announcement? at h
  cases hr : Response.decode message with
  | ok r => simp [hr] at h
  | error e =>
    cases hevent : Event.decode message with
    | error e' => simp [hr, hevent, Except.toOption] at h
    | ok found =>
      have hfound : found = event := by simpa [hr, hevent, Except.toOption] using h
      subst hfound
      cases c.inbound with
      | true => exact ⟨[found], rfl, .inr rfl⟩
      | false => exact ⟨[], rfl, .inl rfl⟩

/-- What is heard of an event that changes nothing is one more event in the inbox. -/
theorem Alike.step_inert (h : a.Alike b) {input : Input} (hinert : input.isInert = true) :
    (a.step input).1.Alike b ∧ (a.step input).2 = [] := by
  cases input with
  | deliver message =>
    cases hevent : announcement? message with
    | none => simp [Input.isInert, hevent] at hinert
    | some event =>
      obtain ⟨events, hstep, hevents⟩ := deliver_announcement a.connection hevent
      have hpass : a.pass (.deliver message) = a.holding (a.inbox ++ events) := by
        simp only [Attaching.pass, hstep, foldl_note_announced]
        rfl
      refine ⟨⟨?_, ?_⟩, rfl⟩
      · show b = (a.pass (.deliver message)).holding b.inbox
        rw [hpass]
        exact h.same
      · show _ = (a.pass (.deliver message)).inbox.filter changesContexts
        rw [hpass]
        show _ = (a.inbox ++ events).filter changesContexts
        have hnothing : events.filter changesContexts = [] := by
          rcases hevents with rfl | rfl
          · rfl
          · simpa [Input.isInert, hevent] using hinert
        rw [List.filter_append, hnothing, List.append_nil, h.inbox]
  | _ => cases hinert

/-- Runs that agree on all other inputs are alike. -/
theorem Alike.run (h : a.Alike b) (inputs : List Input) :
    (a.run inputs).1.Alike (b.run (inputs.filter (!·.isInert))).1 ∧
      (a.run inputs).2 = (b.run (inputs.filter (!·.isInert))).2 := by
  induction inputs generalizing a b with
  | nil => exact ⟨h, rfl⟩
  | cons input inputs ih =>
    -- An inert input moves the left run only; the others move both alike.
    cases hinert : input.isInert with
    | true =>
      obtain ⟨halike, hnone⟩ := h.step_inert hinert
      rw [List.filter_cons_of_neg (by simp [hinert]), run_cons, hnone]
      exact ih halike
    | false =>
      obtain ⟨halike, hrequests⟩ := h.step input
      obtain ⟨hrun, hlater⟩ := ih halike
      rw [List.filter_cons_of_pos (by simp [hinert]), run_cons, run_cons, hrequests, hlater]
      exact ⟨hrun, rfl⟩

/-- The events that matter are heard whether or not the others come in. -/
theorem heard_filter (inputs : List Input) :
    (heard (inputs.filter (!·.isInert))).filter changesContexts =
      (heard inputs).filter changesContexts := by
  induction inputs with
  | nil => rfl
  | cons input inputs ih =>
    cases input with
    | deliver message =>
      rw [heard_deliver, List.filter_append, ← ih, List.filter_cons]
      split
      · rw [heard_deliver, List.filter_append]
      · next hinert =>
        cases hevent : announcement? message with
        | none => rfl
        | some event =>
          have hnot : changesContexts event = false := by
            simpa [Input.isInert, hevent] using hinert
          simp [hnot]
    | hangUp => rfl
    | _ => exact ih

/-- Attaching begins alike with and without early events that do not matter. -/
theorem startBehind_alike (early : List Input) :
    (startBehind early).1.Alike (startBehind (early.filter (!·.isInert))).1 ∧
      (startBehind early).2 = (startBehind (early.filter (!·.isInert))).2 := by
  have hflag (f : Input → Bool) (hf : ∀ message, f (.deliver message) = true) :
      (early.filter (!·.isInert)).all f = early.all f := by
    rw [List.all_filter]
    congr 1
    funext input
    cases input with
    | deliver message => simp [hf]
    | _ => rfl
  rw [startBehind_eq, startBehind_eq, isRead, isRead, hears, hears, hflag _ (fun _ => rfl),
    hflag _ (fun _ => rfl)]
  exact ⟨alike_holding (heard_filter early), rfl⟩

/-- **Inputs without a part** may come in, or not. -/
theorem attach_alike (early inputs : List Input) :
    (attach early inputs).1.Alike
        (attach (early.filter (!·.isInert)) (inputs.filter (!·.isInert))).1 ∧
      (attach early inputs).2 =
        (attach (early.filter (!·.isInert)) (inputs.filter (!·.isInert))).2 := by
  obtain ⟨hstart, hrequests⟩ := startBehind_alike early
  obtain ⟨hrun, hlater⟩ := hstart.run inputs
  exact ⟨hrun, congrArg₂ (· ++ ·) hrequests hlater⟩

end Alikeness

/-! ## The headline -/

/-- **Attaching finds the first live context that qualifies.** Every run takes its course; when it
fails, the connection is closed and nothing waits on it; and events that change nothing about
contexts may come in at any time. -/
theorem discovers_first_context (early inputs : List Input) :
    Course early inputs (attach early inputs).2 (attach early inputs).1.phase ∧
    ((∃ error, (attach early inputs).1.phase = .failed error) →
      (attach early inputs).1.connection.isOpen = false ∧
        (attach early inputs).1.connection.pending = []) ∧
    ∀ early' inputs', early'.filter (!·.isInert) = early.filter (!·.isInert) →
      inputs'.filter (!·.isInert) = inputs.filter (!·.isInert) →
        (attach early' inputs').1.phase = (attach early inputs).1.phase ∧
          (attach early' inputs').2 = (attach early inputs).2 := by
  refine ⟨course_attach early inputs, closesOnFailure_attach early inputs, ?_⟩
  intro early' inputs' hearly hinputs
  obtain ⟨halike, hrequests⟩ := attach_alike early inputs
  obtain ⟨halike', hrequests'⟩ := attach_alike early' inputs'
  rw [hearly, hinputs] at halike' hrequests'
  have hphase := congrArg Attaching.phase halike.same
  have hphase' := congrArg Attaching.phase halike'.same
  exact ⟨hphase'.symm.trans hphase, hrequests'.trans hrequests.symm⟩

/-- A context is announced and cleared again, and two more are announced with an event of another
kind between them. The first of the two is not taken. -/
def twoContexts : List Input :=
  let created (id : Int) : Value := .object [("method", .string contextCreated),
    ("params", .object [("context", .object [("id", .int id)])])]
  let answer (id : Int) (value : Bool) : Value := .object [("id", .int id),
    ("result", .object [("result", .object [("value", .boolean value)])])]
  [.deliver (created 7), .deliver (.object [("id", .int 1), ("result", .object [])]), .resume,
    .deliver (.object [("method", .string contextsCleared)]), .deliver (created 1),
    .deliver (.object [("method", .string "Log.entryAdded")]), .deliver (created 2), .settled,
    .deliver (answer 2 false), .resume, .deliver (answer 3 true), .resume]

/-- The context that was cleared is not probed, the first of the two that are left does not qualify,
and the second one is taken. -/
theorem discovers_second_of_two :
    ((attach [] twoContexts).1.phase = .attached 2 ∧ (twoContexts.filter Input.isInert).length = 1) ∧
      (attach [] (twoContexts.filter (!·.isInert))).1.phase = .attached 2 ∧
      (attach [.hangUp] twoContexts).1.connection.isOpen = false := by
  obtain ⟨-, -, hsame⟩ := discovers_first_context [] twoContexts
  obtain ⟨-, hclosed, -⟩ := discovers_first_context [.hangUp] twoContexts
  refine ⟨⟨rfl, rfl⟩, (hsame [] (twoContexts.filter (!·.isInert)) rfl ?_).1.trans rfl,
    (hclosed ⟨.connectionClosed, rfl⟩).1⟩
  rw [List.filter_filter]
  simp only [Bool.and_self]

end CanvasLink.Attaching
