import CanvasLink.Proofs.Connection.Pending

/-!
# CanvasLink — answers find the calls that asked

A call whose request is written ends once or never: with the first response that carries its id, or
with the connection, whichever comes first. What else comes in, who else waits and in which order
the others are answered makes no difference to it.

* `Writes` — a run in which a call is written.
* **`outcomes_written`** — the headline.
-/

namespace CanvasLink.Connection

open CanvasLink.Bridge CanvasLink.Json CanvasLink.Wire

/-- A run in which the call `p` is written: what comes before, its own input, and what follows. -/
def around (before : List Input) (p : PendingCall) (method : String) (params : Value)
    (following : List Input) : List Input :=
  before ++ .send p.call method params p.purpose :: following

/-- In this run from the opening on, `p` is written with its id. Calls are numbered apart, and ids
are words of 64 bits, of which there are enough for all calls. -/
structure Writes (before : List Input) (p : PendingCall) (method : String) (params : Value)
    (following : List Input) : Prop where
  calls : ((around before p method params following).filterMap Input.begins?).Nodup
  room : ((around before p method params following).filterMap Input.begins?).length < UInt64.size
  written : .wrote ⟨p.id, method, params⟩ ∈
    ((opened.run before).1.step (.send p.call method params p.purpose)).2

/-- Whether an input can end the wait of a call: a response with its id, the end of the connection,
or that the call is cancelled. -/
def PendingCall.isEndedBy (p : PendingCall) (input : Input) : Bool :=
  (p.ending? input).isSome

/-- What a response tells the call that it answers. A failure of the target is told with its code.
For an evaluation, the result has to be read once more. -/
inductive PendingCall.Told (p : PendingCall) (r : Response) : Outcome → Prop
  | refused {e : ProtocolError} (h : r.error = some e) :
    p.Told r (.error (.protocol (e.message ++ " (code " ++ toString e.code.toInt ++ ")")))
  | result (h : r.error = none) (hp : p.purpose = .result) : p.Told r (.ok (r.result.getD .null))
  | value {result : EvaluateResult} (h : r.error = none) (hp : p.purpose = .evaluation)
    (hresult : EvaluateResult.decode (r.result.getD .null) = .ok result)
    (hnone : result.exceptionDetails = none) : p.Told r (.ok (result.result.value.getD .null))
  | thrown {result : EvaluateResult} {details : ExceptionDetails} (h : r.error = none)
    (hp : p.purpose = .evaluation)
    (hresult : EvaluateResult.decode (r.result.getD .null) = .ok result)
    (hsome : result.exceptionDetails = some details) :
    p.Told r (.error (.evaluation details.message))
  | unreadable {e : DecodeError} (h : r.error = none) (hp : p.purpose = .evaluation)
    (hresult : EvaluateResult.decode (r.result.getD .null) = .error e) :
    p.Told r (.error (.protocol e.message))

/-- What the purpose of a call makes of a response is what the response tells it. -/
theorem PendingCall.told_apply (p : PendingCall) (r : Response) :
    p.Told r (p.purpose.apply (.ofResponse r)) := by
  unfold Outcome.ofResponse
  split
  · -- A failure of the target comes first: the result is not looked at, whatever the purpose.
    next e he =>
    cases hp : p.purpose <;> exact .refused he
  · next hnone =>
    cases hp : p.purpose with
    | result => exact .result hnone hp
    | evaluation =>
      simp only [Purpose.apply, Outcome.ofEvaluation]
      split
      · next e hresult => exact .unreadable hnone hp hresult
      · next result hresult =>
        split
        · next details hsome => exact .thrown hnone hp hresult hsome
        · next hdetails => exact .value hnone hp hresult hdetails

/-- A response tells one thing only. -/
theorem PendingCall.Told.eq_apply {p : PendingCall} {r : Response} {outcome : Outcome}
    (h : p.Told r outcome) : p.purpose.apply (.ofResponse r) = outcome := by
  unfold Outcome.ofResponse
  cases h with
  | refused h =>
    rw [h]
    cases p.purpose <;> rfl
  | result h hp => rw [h, hp, Purpose.apply]
  | value h hp hresult hnone =>
    simp only [h, hp, Purpose.apply, Outcome.ofEvaluation, hresult, hnone]
    rfl
  | thrown h hp hresult hsome =>
    simp only [h, hp, Purpose.apply, Outcome.ofEvaluation, hresult, hsome]
  | unreadable h hp hresult => simp only [h, hp, Purpose.apply, Outcome.ofEvaluation, hresult]

/-- A call whose request is written waits behind that step. -/
theorem mem_pending_of_wrote {c : Connection} {p : PendingCall} {method : String} {params : Value}
    (h : .wrote ⟨p.id, method, params⟩ ∈ (c.step (.send p.call method params p.purpose)).2) :
    (c.step (.send p.call method params p.purpose)).2 = [.wrote ⟨p.id, method, params⟩] ∧
      p ∈ (c.step (.send p.call method params p.purpose)).1.pending := by
  simp only [step, send] at h ⊢
  split at h
  · next hopen =>
    rw [if_pos hopen]
    have hid : p.id = UInt64.ofNat (c.issued + 1) := by
      rw [List.mem_singleton, Effect.wrote.injEq, Request.mk.injEq] at h
      exact h.1
    refine ⟨by rw [hid], List.mem_append_right _ ?_⟩
    rw [← hid]
    exact List.mem_singleton_self p
  · simp at h

/-- Nothing else ends the wait of a call. -/
theorem PendingCall.cases_ending? (p : PendingCall) {input : Input} {outcome? : Option Outcome}
    (h : p.ending? input = some outcome?) :
    (∃ message r outcome, input = .deliver message ∧ Response.decode message = .ok r ∧
        r.id = p.id ∧ outcome? = some outcome ∧ p.Told r outcome) ∨
      (input = .close ∨ input = .hangUp) ∧
        outcome? = some (.error (.transport "connection closed")) ∨
      input = .cancel p.call ∧ outcome? = none := by
  cases input with
  | send call method params purpose => cases h
  | stopReading => cases h
  | close =>
    cases h
    exact .inr (.inl ⟨.inl rfl, rfl⟩)
  | hangUp =>
    cases h
    exact .inr (.inl ⟨.inr rfl, rfl⟩)
  | cancel call =>
    simp only [PendingCall.ending?] at h
    split at h
    · next hcall =>
      cases h
      exact .inr (.inr ⟨congrArg Input.cancel hcall, rfl⟩)
    · -- A response to another call leaves this one waiting.
      cases h
  | deliver message =>
    simp only [PendingCall.ending?] at h
    split at h
    · next r hr =>
      split at h
      · next hid =>
        cases h
        exact .inl ⟨message, r, _, rfl, hr, hid, rfl, p.told_apply r⟩
      · cases h
    · cases h

/-- The first value that a function gives is found among the elements that have one. -/
theorem findSome?_filter_isSome {α β : Type} (f : α → Option β) (as : List α) :
    (as.filter fun a => (f a).isSome).findSome? f = as.findSome? f := by
  induction as with
  | nil => rfl
  | cons a as ih =>
    rw [List.filter_cons, List.findSome?_cons]
    cases ha : f a with
    | none => simpa [ha] using ih
    | some b => simp [ha]

/-- The outcomes of a call that is written are those that follow from its own endings. -/
theorem Writes.outcomes_eq {before following : List Input} {p : PendingCall} {method : String}
    {params : Value} (h : Writes before p method params following) :
    outcomes p.call (opened.effects (around before p method params following)) =
      (following.findSome? p.ending?).join.toList := by
  have hstart := orderly_opened h.calls h.room
  have hnotBefore : p.call ∉ before.filterMap Input.begins? := by
    have hcalls := h.calls
    rw [around, List.filterMap_append, List.nodup_append] at hcalls
    exact fun hmem => hcalls.2.2 _ hmem p.call (by simp [Input.begins?]) rfl
  obtain ⟨hearlier, -⟩ := outcomes_run_of_notMem (c := opened) List.not_mem_nil hnotBefore
  obtain ⟨hwrote, hp⟩ := mem_pending_of_wrote h.written
  have hwaits := outcomes_run_of_mem hstart.run.step hp
  rw [around, effects_append, effects_cons, outcomes_append, outcomes_append, hearlier, hwrote,
    hwaits]
  rfl

/-- **Answers find the calls that asked.** At each point of a run, a call that was written has been
told the outcome of the first input since then that ends it, and nothing else. That input is a
response with its id, or the end of the connection, or else it is cancelled and told nothing. This
is the same for all runs that agree on the inputs that can end it. -/
theorem outcomes_written {before following : List Input} {p : PendingCall} {method : String}
    {params : Value} (h : Writes before p method params following) :
    (∀ soFar later, following = soFar ++ later →
      outcomes p.call (opened.effects (around before p method params soFar)) =
        (soFar.findSome? p.ending?).join.toList) ∧
    (∀ input outcome?, p.ending? input = some outcome? →
      (∃ message r outcome, input = .deliver message ∧ Response.decode message = .ok r ∧
        r.id = p.id ∧ outcome? = some outcome ∧ p.Told r outcome) ∨
      (input = .close ∨ input = .hangUp) ∧
        outcome? = some (.error (.transport "connection closed")) ∨
      input = .cancel p.call ∧ outcome? = none) ∧
    ∀ before' method' params' following', Writes before' p method' params' following' →
      following'.filter p.isEndedBy = following.filter p.isEndedBy →
        outcomes p.call (opened.effects (around before' p method' params' following')) =
          outcomes p.call (opened.effects (around before p method params following)) := by
  -- Each point of the run ends a shorter run of the same kind, to which `outcomes_eq` applies.
  refine ⟨?_, ?_, ?_⟩
  · rintro soFar later rfl
    have hsub : ((around before p method params soFar).filterMap Input.begins?).Sublist
        ((around before p method params (soFar ++ later)).filterMap Input.begins?) := by
      refine List.Sublist.filterMap _ (List.Sublist.append (.refl _) (List.Sublist.cons_cons _ ?_))
      exact List.sublist_append_left soFar later
    have hpart : Writes before p method params soFar :=
      ⟨hsub.nodup h.calls, Nat.lt_of_le_of_lt hsub.length_le h.room, h.written⟩
    exact hpart.outcomes_eq
  · exact fun input outcome? => p.cases_ending?
  · intro before' method' params' following' h' hsame
    -- The outcome is that of the first ending, which is the same in both runs.
    have hfirst : following'.findSome? p.ending? = following.findSome? p.ending? := by
      rw [← findSome?_filter_isSome, ← findSome?_filter_isSome p.ending? following]
      exact congrArg (List.findSome? p.ending?) hsame
    rw [h.outcomes_eq, h'.outcomes_eq, hfirst]

/-- Two calls wait; the first one is cancelled and answered too late, a message in between is
answered to nobody, and the second one is refused and then answered again. -/
def lateAnswers : List Input :=
  [.deliver (.object [("id", .int 7), ("result", .null)]), .cancel 0,
   .deliver (.object [("id", .int 1), ("result", .string "late")]),
   .deliver (.object [("error", .object [("code", .int (-1)), ("message", .string "no")]),
     ("id", .int 2)]),
   .deliver (.object [("id", .int 2), ("result", .string "again")]), .hangUp]

/-- The second of the two calls gets its refusal and nothing else, and the first one nothing. -/
theorem outcomes_written_lateAnswers :
    Writes [.send 0 "A" .null .result] ⟨2, 1, .evaluation⟩ "B" .null lateAnswers ∧
      outcomes 1 (opened.effects
        (around [.send 0 "A" .null .result] ⟨2, 1, .evaluation⟩ "B" .null lateAnswers)) =
          [.error (.protocol "no (code -1)")] := by
  have hwrites : Writes [.send 0 "A" .null .result] ⟨2, 1, .evaluation⟩ "B" .null lateAnswers :=
    ⟨by decide, by decide, List.mem_singleton.2 rfl⟩
  refine ⟨hwrites, ((outcomes_written hwrites).1 lateAnswers [] rfl).trans ?_⟩
  rfl

end CanvasLink.Connection
