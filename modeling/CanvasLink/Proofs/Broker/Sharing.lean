import CanvasLink.Proofs.Broker.Ensuring

/-!
# CanvasLink — sharing an attempt

What an attempt is to the calls that wait for it, and to those that come after it.

* `System.Waits` — a call that waits for an attempt is told the outcome of this one, and of no
  other.
* `System.Vacant` — an attempt that fails leaves neither a session nor an attempt, and the next call
  that needs a session begins an attempt.
* `System.Favours` — the attempts succeed, and the sessions that they make pass their probes.
* `System.Ensuring.ends` — a call that asks for a session waits three times at most and is never
  stuck.
-/

namespace CanvasLink.Broker

open CanvasLink.Bridge

variable {limits : Limits}

/-! ## What a call is told -/

/-- Whether an event is something that a call has waited for. -/
def Call.Event.isTold : Call.Event → Bool
  | .acted _ _ => false
  | .told _ _ => true

theorem countP_acted (act : Act) (reply : act.Reply) (log : List Call.Event) :
    (Call.Event.acted act reply :: log).countP Call.Event.isTold =
      log.countP Call.Event.isTold :=
  List.countP_cons_of_neg Bool.false_ne_true

theorem countP_told (wait : Wait) (reply : wait.Reply) (log : List Call.Event) :
    (Call.Event.told wait reply :: log).countP Call.Event.isTold =
      log.countP Call.Event.isTold + 1 :=
  List.countP_cons_of_pos rfl

/-- Joining is told one thing at most, the outcome of the attempt. -/
theorem countP_joining_le {discarded : Option SessionId} {log : List Call.Event} {result : Reply}
    (h : (joining discarded).Goes log result) : log.countP Call.Event.isTold ≤ 1 := by
  rw [joining_eq {}] at h
  obtain _ | ⟨_, lead, h⟩ := h
  cases lead with
  | session s =>
    obtain ⟨rfl, -⟩ := Call.goes_done_iff.1 h
    exact Nat.zero_le 1
  | attempt a =>
    obtain _ | _ | ⟨_, outcome, h⟩ := h
    obtain ⟨rfl, -⟩ := Call.goes_done_iff.1 h
    exact Nat.le_refl 1

/-- A call that asks for a session waits three times at most: for the probe, for the end of the
session that has not passed it, and for an attempt. -/
theorem countP_ensure_le {log : List Call.Event} {result : Reply}
    (h : (Request.ensure.call limits).Goes log result) : log.countP Call.Event.isTold ≤ 3 := by
  rw [ensure_eq] at h
  obtain _ | ⟨_, current, h⟩ := h
  rw [countP_acted]
  cases current with
  | none => exact Nat.le_trans (countP_joining_le h) (by decide)
  | some session =>
    obtain _ | _ | ⟨_, answer, h⟩ := h
    rw [countP_told]
    -- The probe is one wait; a session that fails it costs the wait for its closing on top of
    -- those for joining.
    unfold judged at h
    split at h
    · obtain ⟨rfl, -⟩ := Call.goes_done_iff.1 h
      exact Nat.le_add_left 1 2
    · obtain _ | ⟨_, reply, h⟩ := h
      obtain _ | _ | ⟨_, reply', h⟩ := h
      rw [countP_acted, countP_told]
      exact Nat.add_le_add_right (countP_joining_le h) 2

/-- A call that asks for a session ends with the answer to that. -/
theorem session_of_goes {log : List Call.Event} {result : Reply}
    (h : (Request.ensure.call limits).Goes log result) : ∃ outcome, result = .session outcome := by
  obtain ⟨outcome, -, rfl⟩ := Call.goes_map_iff.1 h
  exact ⟨outcome, rfl⟩

namespace System

/-! ## Those that wait -/

section Waits

variable {s : System Reply} {id : CallId} {a : AttemptId}

/-- A call that has ended stays as it is until it is abandoned. -/
theorem call?_step_of_done {result : Reply} (hcall : s.call? id = some (.done result))
    {input : Input Reply} (hstay : input.abandons id = false) :
    (s.step input).call? id = some (.done result) := by
  cases htells : input.tells id with
  | false => exact call?_step_of_not_tells hcall hstay htells
  | true =>
    rcases step_of_tells hcall htells with ⟨hsame, -⟩ | ⟨wait, rest, reply, closed, hdone, -⟩
    · rwa [hsame]
    · cases hdone

/-- A call waits for an attempt, or has ended with its outcome. -/
def Waits (limits : Limits) (s : System Reply) (id : CallId) (a : AttemptId) : Prop :=
  s.call? id = some ((Stage.waiting a).call limits) ∨
    ∃ outcome, s.attempts[a]? = some (.ended outcome) ∧ s.call? id = some (give outcome)

/-- A call that waits for an attempt goes on only with its outcome. -/
theorem call?_step_of_waiting (hcall : s.call? id = some ((Stage.waiting a).call limits))
    {input : Input Reply} (hstay : input.abandons id = false) :
    (s.step input).call? id = some ((Stage.waiting a).call limits) ∨
      ∃ outcome, s.attempts[a]? = some (.ended outcome) ∧
        (s.step input).call? id = some (give outcome) := by
  cases htells : input.tells id with
  | false => exact .inl (call?_step_of_not_tells hcall hstay htells)
  | true =>
    have hstep := s.happens_step input
    generalize s.step input = s' at hstep ⊢
    cases hstep with
    | ignored => exact .inl hcall
    | @answered id' answer wait rest reply hother hreply =>
      -- The end of an attempt is not for the world to tell.
      obtain rfl : id' = id := by simpa [Input.tells] using htells
      cases hcall.symm.trans hother
      cases hreply
    | @shared id' b rest outcome hother hended =>
      obtain rfl : id' = id := by simpa [Input.tells] using htells
      cases hcall.symm.trans hother
      refine .inr ⟨outcome, hended, ?_⟩
      rw [call?_advance, if_pos rfl]
      rfl
    | _ => cases htells

/-- A call that waits for an attempt waits on, or has been given what the attempt came to. -/
theorem Waits.step (h : s.Waits limits id a) {input : Input Reply}
    (hstay : input.abandons id = false) : (s.step input).Waits limits id a := by
  rcases h with hcall | ⟨outcome, hended, hcall⟩
  · rcases call?_step_of_waiting hcall hstay with hstill | ⟨outcome, hended, hdone⟩
    · exact .inl hstill
    · exact .inr ⟨outcome, ended_step hended input, hdone⟩
  · exact .inr ⟨outcome, ended_step hended input, call?_step_of_done hcall hstay⟩

theorem Waits.run (h : s.Waits limits id a) {inputs : List (Input Reply)}
    (hstay : ∀ input ∈ inputs, input.abandons id = false) : (s.run inputs).Waits limits id a :=
  run_of_step (P := fun s => s.Waits limits id a) (fun _ hs _ hinput => hs.step hinput) h hstay

/-- **A call that waits for an attempt ends with its outcome.** -/
theorem Ensuring.told_of_waiting (h : s.Ensuring limits) (hwait : s.wait? id = some (.attempt a))
    {inputs : List (Input Reply)} (hstay : ∀ input ∈ inputs, input.abandons id = false) :
    (s.run inputs).wait? id = some (.attempt a) ∨
      ∃ outcome, (s.run inputs).attempts[a]? = some (.ended outcome) ∧
        (s.run inputs).result? id = some (.session outcome) := by
  have hwaits : s.Waits limits id a := .inl (h.waiting_of_wait? hwait)
  rcases hwaits.run hstay with hstill | ⟨outcome, hended, hdone⟩
  · left
    rw [System.wait?, hstill]
    rfl
  · right
    refine ⟨outcome, hended, ?_⟩
    rw [System.result?, hdone]
    rfl

end Waits

/-! ## After an attempt that has failed -/

/-- Neither is there a session, nor is one being made. -/
structure Vacant (s : System Reply) : Prop where
  current : s.pool.current = none
  inFlight : s.pool.inFlight = none

/-- An input has a call begin an attempt and wait for it. -/
structure BeginsAttempt (s : System Reply) (id : CallId) (input : Input Reply) : Prop where
  attempts : (s.step input).attempts = s.attempts ++ [.connecting]
  inFlight : (s.step input).pool.inFlight = some s.attempts.length
  waits : (s.step input).wait? id = some (.attempt s.attempts.length)

/-- Where nothing is in flight and no session is current, joining begins an attempt. -/
theorem Vacant.settle_joining (limits : Limits) {s : System Reply} (h : s.Vacant)
    (discarded : Option SessionId) :
    (joining discarded).settle s.pool =
      ({ s.pool with inFlight := some s.pool.attempts, attempts := s.pool.attempts + 1 },
        (Stage.waiting s.pool.attempts).call limits) := by
  rw [Broker.settle_joining limits, Pool.join_of_none h.current]
  simp only [Pool.joinAttempt, h.inFlight]
  rfl

/-- The attempt that is begun is the next one by number, is in flight, and is the one that the call
waits for. -/
theorem Vacant.advance_joining {s : System Reply} (h : s.Vacant) (hs : s.Sound) (id : CallId)
    (discarded : Option SessionId) :
    (s.advance id (joining discarded)).attempts = s.attempts ++ [.connecting] ∧
      (s.advance id (joining discarded)).pool.inFlight = some s.attempts.length ∧
      (s.advance id (joining discarded)).wait? id = some (.attempt s.attempts.length) := by
  have hlength := hs.tracked.length
  have hsettle := h.settle_joining {} discarded
  refine ⟨?_, ?_, ?_⟩
  · simp [System.advance, hsettle, hlength]
  · simp [System.advance, hsettle, hlength]
  · rw [System.wait?, call?_advance, if_pos rfl, hsettle, hlength]
    rfl

/-- A user asks for a session when there is none. -/
theorem Vacant.begins_ensure {s : System Reply} (h : s.Vacant) (hs : s.Sound) {id : CallId}
    (hnone : s.call? id = none) :
    s.BeginsAttempt id (.begin id (Request.ensure.call limits)) := by
  have hstep : s.step (.begin id (Request.ensure.call limits)) = s.advance id (joining none) := by
    simp only [step, hnone]
    exact advance_congr (settle_ensure_none h.current) id
  obtain ⟨hattempts, hflight, hwait⟩ := h.advance_joining hs id none
  exact ⟨hstep ▸ hattempts, hstep ▸ hflight, hstep ▸ hwait⟩

/-- A call has closed the session that has not passed its probe. -/
theorem Vacant.begins_closed {s : System Reply} (h : s.Vacant) (hs : s.Sound) {id : CallId}
    {session : SessionId} (hcall : s.call? id = some ((Stage.closing session).call limits)) :
    s.BeginsAttempt id (.answer id .closed) := by
  have hstep : s.step (.answer id .closed) =
      (s.noteClosed session).advance id (joining (some session)) := by
    simp only [System.step, hcall]
    rfl
  have hvacant : (s.noteClosed session).Vacant := ⟨h.current, h.inFlight⟩
  obtain ⟨hattempts, hflight, hwait⟩ :=
    hvacant.advance_joining (hs.noteAnswer (.close session)) id (some session)
  exact ⟨hstep ▸ hattempts, hstep ▸ hflight, hstep ▸ hwait⟩

theorem length_le_advance {ρ : Type} (s : System ρ) (id : CallId) (call : Call ρ) :
    s.attempts.length ≤ (s.advance id call).attempts.length := by
  simp [System.advance]

/-- Attempts are not forgotten. -/
theorem length_le_step {ρ : Type} (s : System ρ) (input : Input ρ) :
    s.attempts.length ≤ (s.step input).attempts.length := by
  have hstep := s.happens_step input
  generalize s.step input = s' at hstep ⊢
  -- Attempts are appended when calls go on, and replaced in place when they end.
  cases hstep with
  | ignored => exact Nat.le_refl _
  | begun _ => exact s.length_le_advance _ _
  | @answered id answer wait rest reply _ _ =>
    obtain ⟨closed, hnote⟩ := s.exists_noteAnswer wait
    rw [hnote]
    exact length_le_advance { s with closed := closed } id (rest reply)
  | shared _ _ => exact s.length_le_advance _ _
  | connected _ _ => exact Nat.le_of_eq (List.length_set ..).symm
  | cleared _ _ => exact Nat.le_of_eq (List.length_set ..).symm
  | abandoned id => exact Nat.le_refl _

/-- Attempts are not taken back along a run. -/
theorem length_le_run {ρ : Type} (s : System ρ) (inputs : List (Input ρ)) :
    s.attempts.length ≤ (s.run inputs).attempts.length := by
  induction inputs generalizing s with
  | nil => exact Nat.le_refl _
  | cons input inputs ih => exact Nat.le_trans (s.length_le_step input) (ih _)

/-- After an attempt that has failed nothing is in flight and no session is current. -/
theorem vacant_conclude {s : System Reply} (hs : s.Sound) {a : AttemptId}
    (hconnecting : s.attempts[a]? = some .connecting) (e : Bridge.Error) :
    (s.conclude a (.error e)).Vacant :=
  ⟨hs.current_eq_none hconnecting, s.inFlight_conclude a _⟩

/-- As long as no attempt is begun, nothing fills the place. -/
theorem Vacant.step {s : System Reply} (h : s.Vacant) (hs : s.Ensuring limits)
    {input : Input Reply} (hinput : input.IsEnsuring limits)
    (hlength : (s.step input).attempts.length = s.attempts.length) : (s.step input).Vacant := by
  -- A step that begins an attempt is excluded by the number of attempts.
  have hnew (s' : System Reply) (hs' : s'.attempts = s.attempts ++ [.connecting])
      (hsame : s'.attempts.length = s.attempts.length) : s'.Vacant := by
    rw [hs', List.length_append] at hsame
    exact absurd hsame (Nat.succ_ne_self _)
  have hstep := ensures_step hs.sound hs.staged hinput
  generalize s.step input = s' at hstep hlength ⊢
  cases hstep with
  | ignored => exact h
  | lacking _ _ => exact hnew _ (h.advance_joining hs.sound _ none).1 hlength
  | looked _ hcurrent =>
    -- There is no current session that could be found.
    rw [h.current] at hcurrent
    cases hcurrent
  | passed _ _ => exact ⟨h.current, h.inFlight⟩
  | @failed id session answer _ _ =>
    rw [Pool.withdraw_of_other (h.current ▸ Option.some_ne_none session ∘ Eq.symm)]
    exact ⟨h.current, h.inFlight⟩
  | @closed id session _ =>
    have hvacant : (s.noteClosed session).Vacant := ⟨h.current, h.inFlight⟩
    exact hnew _ (hvacant.advance_joining (hs.sound.noteAnswer (.close session)) id _).1 hlength
  | told _ _ => exact ⟨h.current, h.inFlight⟩
  | connected hconnecting _ =>
    -- No attempt is in flight that could be concluded.
    have hflight := hs.sound.unique _ hconnecting
    rw [h.inFlight] at hflight
    cases hflight
  | abandoned _ => exact ⟨h.current, h.inFlight⟩

/-- It stays so while no further attempt is begun. -/
theorem Vacant.run {s : System Reply} (h : s.Vacant) (hs : s.Ensuring limits)
    {inputs : List (Input Reply)} (hinputs : ∀ input ∈ inputs, input.IsEnsuring limits)
    (hlength : (s.run inputs).attempts.length = s.attempts.length) : (s.run inputs).Vacant := by
  -- Induction on the inputs. Attempts are not forgotten, so none is begun by any of them.
  induction inputs generalizing s with
  | nil => exact h
  | cons input inputs ih =>
    rw [List.forall_mem_cons] at hinputs
    have hfirst := s.length_le_step input
    have hrest : (s.step input).attempts.length ≤ (s.run (input :: inputs)).attempts.length :=
      (s.step input).length_le_run inputs
    have hsame : (s.step input).attempts.length = s.attempts.length := by omega
    exact ih (h.step hs hinputs.1 hsame) (hs.step hinputs.1) hinputs.2 (hlength.trans hsame.symm)

/-- **After an attempt that has failed.** As long as no other is begun, the next call that needs a
session begins it. -/
theorem Ensuring.begins_again {s : System Reply} (h : s.Ensuring limits) {a : AttemptId}
    (hconnecting : s.attempts[a]? = some .connecting) (hawaited : s.isAwaited a = true)
    (e : Bridge.Error) {more : List (Input Reply)} (hmore : ∀ input ∈ more, input.IsEnsuring limits) :
    let later := (s.step (.connected a (.error e))).run more
    later.attempts.length = s.attempts.length →
      later.Vacant ∧
      (∀ id, later.call? id = none →
        later.BeginsAttempt id (.begin id (Request.ensure.call limits))) ∧
      ∀ id session, later.wait? id = some (.close session) →
        later.BeginsAttempt id (.answer id .closed) := by
  intro later hlength
  have hstep : s.step (.connected a (.error e)) = s.conclude a (.error e) := by
    simp only [System.step, hconnecting, hawaited, if_true]
  have hfailed : (Input.connected a (.error e) : Input Reply).IsEnsuring limits := trivial
  have hnext : (s.step (.connected a (.error e))).Ensuring limits := h.step hfailed
  have hsame : (s.step (.connected a (.error e))).attempts.length = s.attempts.length := by
    rw [hstep, h.sound.attempts_conclude hconnecting]
    exact List.length_set ..
  -- The failed attempt leaves nothing behind, and no later input without a new attempt changes
  -- that.
  have hempty : (s.step (.connected a (.error e))).Vacant := by
    rw [hstep]
    exact vacant_conclude h.sound hconnecting e
  have hlater : later.Ensuring limits := hnext.run hmore
  have hvacant : later.Vacant := hempty.run hnext hmore (hlength.trans hsame.symm)
  exact ⟨hvacant, fun id hnone => hvacant.begins_ensure hlater.sound hnone,
    fun id session hwait => hvacant.begins_closed hlater.sound (hlater.closing_of_wait? hwait)⟩

/-! ## Nobody is stuck -/

/-- An input is as one would wish: users ask for sessions only, attempts succeed, and the sessions
that are made from a number on pass their probes. -/
def Input.IsFavourable (limits : Limits) (first : SessionId) (s : System Reply) :
    Input Reply → Prop
  | .begin _ call => call = Request.ensure.call limits
  | .connected _ outcome => outcome = .ok ()
  | .answer id (.probed reply) => ∀ session limit, s.wait? id = some (.probe session limit) →
    first ≤ session → Health.ofProbe reply = .healthy
  | _ => True

/-- What is favourable is a call for a session or an answer of the world. -/
theorem Input.IsFavourable.isEnsuring {first : SessionId} {s : System Reply}
    {input : Input Reply} (h : input.IsFavourable limits first s) : input.IsEnsuring limits := by
  cases input with
  | begin id call => exact h
  | _ => trivial

/-- All inputs of a run are favourable when they come. -/
def Favours (limits : Limits) (first : SessionId) (s : System Reply) : List (Input Reply) → Prop
  | [] => True
  | input :: inputs =>
    input.IsFavourable limits first s ∧ (s.step input).Favours limits first inputs

/-- The favourable world can bring the call to its end, with at most so many inputs. -/
def Ends (limits : Limits) (first : SessionId) (s : System Reply) (id : CallId) (most : Nat) :
    Prop :=
  ∃ more : List (Input Reply), more.length ≤ most ∧ (∀ input ∈ more, input.isOfWorld = true) ∧
    s.Favours limits first more ∧ ∃ outcome, (s.run more).result? id = some (.session outcome)

/-- A call that ends within a number of inputs ends within every larger number. -/
theorem Ends.mono {first : SessionId} {s : System Reply} {id : CallId} {most most' : Nat}
    (h : s.Ends limits first id most) (hle : most ≤ most') : s.Ends limits first id most' := by
  obtain ⟨more, hlength, hmore⟩ := h
  exact ⟨more, Nat.le_trans hlength hle, hmore⟩

/-- From one favourable input of the world earlier, one more of them is needed. -/
theorem Ends.of_step {first : SessionId} {s : System Reply} {id : CallId} {most : Nat}
    {input : Input Reply} (h : (s.step input).Ends limits first id most)
    (hworld : input.isOfWorld = true) (hfavourable : input.IsFavourable limits first s) :
    s.Ends limits first id (most + 1) := by
  obtain ⟨more, hlength, hmore, hfavours, hresult⟩ := h
  exact ⟨input :: more, Nat.succ_le_succ hlength, List.forall_mem_cons.2 ⟨hworld, hmore⟩,
    ⟨hfavourable, hfavours⟩, hresult⟩

/-- A call that has ended needs no further input. -/
theorem ends_of_done {first : SessionId} {s : System Reply} {id : CallId}
    {outcome : Except Bridge.Error SessionId} (hcall : s.call? id = some (give outcome)) :
    s.Ends limits first id 0 :=
  ⟨[], Nat.le_refl _, fun _ hinput => absurd hinput List.not_mem_nil, trivial, outcome, by
    show (s.call? id).bind Call.result? = _
    rw [hcall]
    rfl⟩

section Ends

variable {first : SessionId} {s : System Reply} {id : CallId}

theorem isAwaited_of_call? {ρ : Type} {s : System ρ} {a : AttemptId}
    {rest : Except Bridge.Error SessionId → Call ρ}
    (hcall : s.call? id = some (.await (.attempt a) rest)) : s.isAwaited a = true := by
  obtain ⟨before, after, hcalls, -⟩ := List.lookup_eq_some_iff.1 hcall
  simp [System.isAwaited, hcalls, Call.wait?]

/-- A call that waits for an attempt that has ended is told so, and ends with it. -/
theorem ends_of_ended {a : AttemptId} {outcome : Except Bridge.Error SessionId}
    (hcall : s.call? id = some ((Stage.waiting a).call limits))
    (hended : s.attempts[a]? = some (.ended outcome)) : s.Ends limits first id 1 := by
  have hstep : s.step (.share id) = s.advance id (give outcome) := by
    simp only [step, hcall, Stage.call, hended]
  have hdone : (s.step (.share id)).call? id = some (give outcome) := by
    rw [hstep, call?_advance, if_pos rfl]
    rfl
  exact (ends_of_done hdone).of_step rfl trivial

/-- A call that waits for an attempt ends when the attempt is concluded and it is told. -/
theorem Ensuring.ends_of_waiting (h : s.Ensuring limits) {a : AttemptId}
    (hcall : s.call? id = some ((Stage.waiting a).call limits)) : s.Ends limits first id 2 := by
  rcases h.staged.of_call? hcall with hflight | ⟨outcome, hended⟩
  · -- The attempt is still in flight: the favourable world concludes it, and then tells the call.
    have hconnecting := h.sound.tracked.connecting a hflight
    have hstep : s.step (.connected a (.ok ())) = s.conclude a (.ok ()) := by
      simp only [System.step, hconnecting, isAwaited_of_call? hcall, if_true]
    have hlt : a < s.attempts.length := (List.getElem?_eq_some_iff.1 hconnecting).1
    have hended : (s.step (.connected a (.ok ()))).attempts[a]? =
        some (.ended (numbered s.sessions (.ok ()))) := by
      rw [hstep, h.sound.attempts_conclude hconnecting]
      exact List.getElem?_set_self hlt
    have hstill : (s.step (.connected a (.ok ()))).call? id =
        some ((Stage.waiting a).call limits) := by
      rw [hstep]
      exact hcall
    exact (ends_of_ended hstill hended).of_step rfl rfl
  · exact (ends_of_ended hcall hended).mono (Nat.le_succ 1)

/-- A call that closes a session ends one input later than one that waits: it joins when the close
is answered. -/
theorem Ensuring.ends_of_closing (h : s.Ensuring limits) {session : SessionId}
    (hcall : s.call? id = some ((Stage.closing session).call limits)) :
    s.Ends limits first id 3 := by
  have hstep : s.step (.answer id .closed) =
      (s.noteClosed session).advance id (joining (some session)) := by
    simp only [System.step, hcall]
    rfl
  have hafter : (s.step (.answer id .closed)).call? id =
      some ((joining (some session)).settle s.pool).2 := by
    rw [hstep, call?_advance, if_pos rfl]
    rfl
  have hensuring : (s.step (.answer id .closed)).Ensuring limits := h.step trivial
  -- The close is answered; then the call is given what another one has made meanwhile, or waits.
  rcases settle_joining_cases limits (some session) s.pool with ⟨new, -, hjoin⟩ | ⟨a, -, hwaits⟩
  · rw [hjoin] at hafter
    exact ((ends_of_done hafter).of_step rfl trivial).mono (by omega)
  · rw [hwaits] at hafter
    exact (hensuring.ends_of_waiting hafter).of_step rfl trivial

/-- A call that probes ends with the answer that the session is healthy. -/
theorem ends_of_probing {session : SessionId}
    (hcall : s.call? id = some ((Stage.probing session).call limits)) :
    s.Ends limits first id 1 := by
  have hstep : s.step (.answer id (.probed (.answered (.ok (.boolean true))))) =
      s.advance id (give (.ok session)) := by
    simp only [System.step, hcall]
    rfl
  have hdone : (s.step (.answer id (.probed (.answered (.ok (.boolean true)))))).call? id =
      some (give (.ok session)) := by
    rw [hstep, call?_advance, if_pos rfl]
    rfl
  exact (ends_of_done hdone).of_step rfl fun _ _ _ _ => rfl

/-- **A call comes to its end.** It waits three times at most, and what it waits for can come. -/
theorem Ensuring.ends (h : s.Ensuring limits) (hnone : s.call? id = none)
    {after : List (Input Reply)} (hafter : ∀ input ∈ after, input.IsEnsuring limits)
    (hstay : ∀ input ∈ after, input.abandons id = false) (first : SessionId) :
    let begun := s.step (.begin id (Request.ensure.call limits))
    (begun.path id after).countP Call.Event.isTold ≤ 3 ∧ (begun.run after).Ends limits first id 3 := by
  intro begun
  obtain ⟨later, result, hgoes, hresult⟩ := goes_run hnone (Request.ensure.call limits) hstay
  constructor
  · have hcount := countP_ensure_le hgoes
    rw [List.countP_append, List.countP_append] at hcount
    simp only [begun]
    omega
  · have hbegin : (Input.begin id (Request.ensure.call limits)).IsEnsuring limits := rfl
    have hensuring : (begun.run after).Ensuring limits := (h.step hbegin).run hafter
    obtain ⟨call, hcall, -⟩ := continues_run (call?_begin hnone _) hstay
    -- The call has ended, or stands at a stage, from each of which an end is near.
    rcases hensuring.staged id call hcall with ⟨ended, rfl⟩ | ⟨stage, rfl, -⟩
    · have hended : (begun.run after).result? id = some ended := by
        rw [System.result?, hcall]
        rfl
      obtain ⟨-, rfl⟩ := hresult ended hended
      obtain ⟨outcome, rfl⟩ := session_of_goes hgoes
      exact (ends_of_done hcall).mono (Nat.zero_le 3)
    · cases stage with
      | probing session => exact (ends_of_probing hcall).mono (by decide)
      | closing session => exact hensuring.ends_of_closing hcall
      | waiting a => exact (hensuring.ends_of_waiting hcall).mono (by decide)

end Ends

end System

end CanvasLink.Broker
