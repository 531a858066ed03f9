import CanvasLink.Proofs.Broker.Ownership

/-!
# CanvasLink — what a retry gives up

A call whose attempt has failed gives up the current session before it tries again. It does not look
whether that is still the session in which the attempt was run, so what it gives up may be a session
that another call has brought in since.

* `Call.Retries` — the form of every call: operations are run only in sessions that were shown to
  the call, and a session is given up by force only behind a failure that may be retried.
* `System.Retrying` — what each step preserves: the current session is the newest one, and calls
  have been shown only sessions that exist.
* **`forced_close_takes_current`** — what becomes of the sessions when an operation ends.
* `other_session_closed` — two calls, of which one closes the session in which the other is at work.
-/

namespace CanvasLink.Broker

open CanvasLink.Bridge CanvasLink.Json CanvasLink.Wire

/-! ## The end of an operation -/

/-- What the end of an operation is to the call that waits for it. -/
def ended (limits : Limits) : Option Outcome → Outcome
  | some outcome => outcome
  | none => .error (.executionTimeout limits.retry.execTimeout)

/-- The operation has failed, and another attempt could succeed. -/
def FailedRetryably (limits : Limits) (outcome : Option Outcome) : Prop :=
  ∃ e, ended limits outcome = .error e ∧ e.isRetryable = true

/-- The session that a call is given. -/
def Lead.session? : Lead → Option SessionId
  | session s => some s
  | attempt _ => none

namespace Call

variable {α β γ : Type}

/-- Ending with the result is no further step. -/
theorem bind_done (call : Call α) : call.bind done = call := by
  induction call with
  | done result => rfl
  | act a rest ih =>
    show act a (fun reply => (rest reply).bind done) = act a rest
    congr 1
    funext reply
    exact ih reply
  | await wait rest ih =>
    show await wait (fun reply => (rest reply).bind done) = await wait rest
    congr 1
    funext reply
    exact ih reply

/-- It does not matter how three calls are put together. -/
theorem bind_bind (call : Call α) (next : α → Call β) (last : β → Call γ) :
    (call.bind next).bind last = call.bind fun result => (next result).bind last := by
  induction call with
  | done result => rfl
  | act a rest ih =>
    show act a _ = act a _
    congr 1
    funext reply
    exact ih reply
  | await wait rest ih =>
    show await wait _ = await wait _
    congr 1
    funext reply
    exact ih reply

/-! ## Calls that leave the current session alone -/

/-- Up to its next wait a call takes no session out. -/
def Keeps : Call α → Prop
  | act .look rest => ∀ reply, (rest reply).Keeps
  | act (.join _) rest => ∀ reply, (rest reply).Keeps
  | act _ _ => False
  | _ => True

/-- Up to its next wait such a call leaves the current session and the count of forced closes as
they are. -/
theorem Keeps.settle {call : Call α} (h : call.Keeps) (p : Pool) :
    (call.settle p).1.current = p.current ∧ (call.settle p).1.forced = p.forced := by
  induction call generalizing p with
  | done result => exact ⟨rfl, rfl⟩
  | await wait rest ih => exact ⟨rfl, rfl⟩
  | act a rest ih =>
    cases a with
    | look => exact ih _ (h _) p
    -- Joining may begin an attempt, which is neither the current session nor a forced close.
    | join discarded =>
      have hjoin : (p.join discarded).1.current = p.current ∧
          (p.join discarded).1.forced = p.forced := by
        rcases p.join_cases discarded with ⟨session, -, -, hjoin⟩ | hjoin <;> rw [hjoin]
        · exact ⟨rfl, rfl⟩
        · exact ⟨p.current_joinAttempt, p.forced_joinAttempt⟩
      obtain ⟨hcurrent, hforced⟩ := ih _ (h _) (p.join discarded).1
      exact ⟨hcurrent.trans hjoin.1, hforced.trans hjoin.2⟩
    -- What would take the session away or count a forced close is excluded.
    | release => cases h
    | withdraw session => cases h
    | countForced => cases h

/-- Two such calls one after the other are such a call. -/
theorem Keeps.bind {call : Call α} (h : call.Keeps) {next : α → Call β}
    (hnext : ∀ result, (next result).Keeps) : (call.bind next).Keeps := by
  induction call with
  | done result => exact hnext result
  | await wait rest ih => trivial
  | act a rest ih =>
    cases a with
    | look => exact fun reply => ih reply (h reply)
    | join discarded => exact fun reply => ih reply (h reply)
    | release => cases h
    | withdraw session => cases h
    | countForced => cases h

/-! ## Calls that give up whatever session is current -/

/-- A call takes the current session out and counts that, whichever session it is; it waits until
this session is closed, and then for the pause. -/
inductive Forces (delay : Duration) : Call α → Prop
  | mk {rest : Option SessionId → Call α} {after : SessionId → Unit → Call α}
    (hnone : (rest none).wait? = some (.pause delay))
    (hsome : ∀ session, rest (some session) = await (.close session) (after session))
    (hafter : ∀ session, (after session ()).wait? = some (.pause delay)) :
    Forces delay (act .countForced fun _ => act .release rest)

/-- What giving up does, by what is current. -/
theorem Forces.settle {delay : Duration} {call : Call α} (h : call.Forces delay) (p : Pool) :
    (p.current = none → (call.settle p).1 = { p with forced := p.forced + 1 } ∧
      (call.settle p).2.wait? = some (.pause delay)) ∧
    ∀ session, p.current = some session →
      (call.settle p).1 = { p with current := none, forced := p.forced + 1 } ∧
      ∃ after : Unit → Call α, (call.settle p).2 = await (.close session) after ∧
        (after ()).wait? = some (.pause delay) := by
  obtain ⟨hnone, hsome, hafter⟩ := h
  rename_i rest after
  -- The count and the release come one after the other, with nothing told in between.
  have hrelease : (act .countForced fun _ => act .release rest).settle p =
      (rest p.current).settle { p with current := none, forced := p.forced + 1 } := rfl
  rw [hrelease]
  constructor
  · intro hcurrent
    rw [hcurrent, settle_of_wait? hnone]
    exact ⟨rfl, hnone⟩
  · intro session hcurrent
    rw [hcurrent, hsome]
    exact ⟨rfl, after session, rfl, hafter session⟩

/-- What follows the pause does not matter for what is given up. -/
theorem Forces.bind {delay : Duration} {call : Call α} (h : call.Forces delay)
    (next : α → Call β) : (call.bind next).Forces delay := by
  obtain ⟨hnone, hsome, hafter⟩ := h
  rename_i rest after
  refine @Forces.mk β delay (fun taken => (rest taken).bind next)
    (fun session reply => (after session reply).bind next) (wait?_bind hnone next)
    (fun session => ?_) fun session => wait?_bind (hafter session) next
  rw [hsome]
  rfl

/-! ## The form of calls -/

/-- Whether a call runs operations only in sessions that were shown to it, `made` so far, and goes
on behind an operation by leaving the current session alone, or behind a failure by giving it up. -/
def Retries (limits : Limits) : Call α → List SessionId → Prop
  | done _, _ => True
  | act .look rest, made =>
    ∀ current : Option SessionId, (rest current).Retries limits (current.toList ++ made)
  | act (.join _) rest, made =>
    ∀ lead : Lead, (rest lead).Retries limits (lead.session?.toList ++ made)
  | act _ rest, made => ∀ reply, (rest reply).Retries limits made
  | await (.run session _ _) rest, made =>
    session ∈ made ∧ ∀ outcome : Option Outcome, (rest outcome).Retries limits made ∧
      ((rest outcome).Keeps ∨
        FailedRetryably limits outcome ∧ (rest outcome).Forces limits.retry.retryDelay)
  | await (.attempt _) rest, made => ∀ outcome : Except Bridge.Error SessionId,
    (rest outcome).Retries limits (outcome.toOption.toList ++ made)
  | await _ rest, made => ∀ reply, (rest reply).Retries limits made

/-- A call goes on in this form when what follows starts by leaving the current session alone. -/
theorem Retries.bind {limits : Limits} {call : Call α} {made : List SessionId}
    (h : call.Retries limits made) {next : α → Call β}
    (hnext : ∀ result made, (next result).Retries limits made)
    (hkeeps : ∀ result, (next result).Keeps) : (call.bind next).Retries limits made := by
  induction call generalizing made with
  | done result => exact hnext result made
  | act a rest ih =>
    cases a with
    | look => exact fun current => ih _ (h current)
    | join discarded => exact fun lead => ih _ (h lead)
    | release => exact fun reply => ih _ (h reply)
    | withdraw session => exact fun reply => ih _ (h reply)
    | countForced => exact fun reply => ih _ (h reply)
  | await wait rest ih =>
    -- Only behind an operation does it matter what the call goes on with.
    cases wait with
    | run session limit operation =>
      refine ⟨h.1, fun outcome => ⟨ih outcome (h.2 outcome).1, ?_⟩⟩
      rcases (h.2 outcome).2 with hkeep | ⟨hfailed, hforces⟩
      · exact .inl (hkeep.bind hkeeps)
      · exact .inr ⟨hfailed, hforces.bind next⟩
    | attempt a => exact fun outcome => ih _ (h outcome)
    | probe session limit => exact fun reply => ih _ (h reply)
    | close session => exact fun reply => ih _ (h reply)
    | pause span => exact fun reply => ih _ (h reply)
    | panic => exact fun reply => ih _ (h reply)

end Call

/-! ## The calls of the broker

The calls that bring in a session are taken together with what follows them, because what follows an
operation decides whether the current session is given up. -/

section Calls

variable {limits : Limits} {β : Type} {made : List SessionId}

/-- Whoever is given a session by an attempt has been shown it. -/
theorem retries_share_bind (discarded : Option SessionId)
    {next : Except Bridge.Error SessionId → Call β}
    (hnext : ∀ outcome made, (∀ session ∈ outcome.toOption, session ∈ made) →
      (next outcome).Retries limits made) :
    ((share discarded).bind next).Retries limits made := by
  -- Whichever way the lead goes, the session that it gives has been shown to the call.
  intro lead
  cases lead with
  | session session =>
    apply hnext
    intro other hother
    cases hother
    exact List.mem_cons_self
  | attempt a =>
    intro outcome
    apply hnext
    intro session hsession
    exact List.mem_append_left _ (Option.mem_toList.2 hsession)

/-- A session that is brought in has been shown to the call, by a look, by an attempt, or by whoever
replaced it. -/
theorem retries_ensure_bind {next : Except Bridge.Error SessionId → Call β}
    (hnext : ∀ outcome made, (∀ session ∈ outcome.toOption, session ∈ made) →
      (next outcome).Retries limits made) :
    ((ensure limits).bind next).Retries limits made := by
  intro current
  cases current with
  -- Nothing is current: the session will be one that is made.
  | none => exact retries_share_bind none hnext
  | some session =>
    intro answer
    simp only [Call.bind, pure]
    split
    · -- The session has passed its probe, and is the one that was found current.
      apply hnext
      intro other hother
      cases hother
      exact List.mem_cons_self
    · exact fun _ _ => retries_share_bind (some session) hnext

/-- One attempt, and what follows it. The operation runs in the session that was brought in. -/
theorem retries_tryOnce_bind (operation : Operation) {next : Outcome → Call β}
    (hnext : ∀ outcome made, (next outcome).Retries limits made)
    (hran : ∀ outcome : Option Outcome, (next (ended limits outcome)).Keeps ∨
      FailedRetryably limits outcome ∧
        (next (ended limits outcome)).Forces limits.retry.retryDelay) :
    ((tryOnce limits operation).bind next).Retries limits made := by
  show (((ensure limits).bind _).bind next).Retries limits made
  rw [Call.bind_bind]
  apply retries_ensure_bind
  intro brought made hbrought
  -- Without a session nothing is run, so there is nothing to go on from.
  cases brought with
  | error e => exact hnext _ made
  | ok session =>
    refine ⟨hbrought session rfl, fun outcome => ?_⟩
    cases outcome with
    | none => exact ⟨hnext _ made, hran none⟩
    | some outcome => exact ⟨hnext _ made, hran (some outcome)⟩

/-- A search for a session takes nothing out before it has looked and asked. -/
theorem keeps_ensure_bind {next : Except Bridge.Error SessionId → Call β}
    (hnext : ∀ session, (next (.ok session)).Keeps) : ((ensure limits).bind next).Keeps := by
  intro current
  cases current with
  | none =>
    intro lead
    cases lead with
    | session session => exact hnext session
    | attempt a => trivial
  | some session => trivial

/-- An attempt starts by looking for a session. -/
theorem keeps_tryOnce_bind (operation : Operation) (next : Outcome → Call β) :
    ((tryOnce limits operation).bind next).Keeps := by
  show (((ensure limits).bind _).bind next).Keeps
  rw [Call.bind_bind]
  exact keeps_ensure_bind fun session => trivial

/-- However many attempts there may be, the first one starts by looking for a session. -/
theorem keeps_retrying_bind (operation : Operation) (more : Nat) (next : Outcome → Call β) :
    ((retrying limits operation more).bind next).Keeps := by
  cases more with
  | zero => exact keeps_tryOnce_bind operation next
  | succ more =>
    show (((tryOnce limits operation).bind _).bind next).Keeps
    rw [Call.bind_bind]
    exact keeps_tryOnce_bind operation _

/-- Induction on how many more attempts there may be. -/
theorem retries_retrying (operation : Operation) (more : Nat) (made : List SessionId) :
    (retrying limits operation more).Retries limits made := by
  induction more generalizing made with
  | zero =>
    -- The last attempt: whatever comes of it is the result.
    show (tryOnce limits operation).Retries limits made
    rw [← Call.bind_done (tryOnce limits operation)]
    exact retries_tryOnce_bind operation (fun _ _ => trivial) fun _ => .inl trivial
  | succ more ih =>
    -- What follows a failure begins with a forced close and a pause, whatever follows that.
    have hforce : ((forceClose >>= fun _ => Call.pause limits.retry.retryDelay >>= fun _ =>
        retrying limits operation more) : Call Outcome).Forces limits.retry.retryDelay :=
      .mk rfl (fun _ => rfl) fun _ => rfl
    apply retries_tryOnce_bind
    · intro outcome made
      cases outcome with
      | ok value => trivial
      | error e =>
        dsimp only
        split
        · intro _ taken
          cases taken with
          | none => exact fun _ => ih made
          | some session => exact fun _ _ => ih made
        · trivial
    · intro outcome
      cases houtcome : ended limits outcome with
      | ok value => exact .inl trivial
      | error e =>
        dsimp only
        split
        · next hretry => exact .inr ⟨⟨e, houtcome, hretry⟩, hforce⟩
        · exact .inl trivial

/-- A call that panics leaves the current session alone. -/
theorem retries_tryOrPanic (operation : Operation) (made : List SessionId) :
    (tryOrPanic limits operation).Retries limits made := by
  apply retries_tryOnce_bind
  · -- A failure that could do better is followed by the panic, and by no forced close.
    intro outcome made
    cases outcome with
    | ok value => trivial
    | error e =>
      dsimp only
      split
      · exact fun _ => trivial
      · trivial
  · intro outcome
    cases ended limits outcome with
    | ok value => exact .inl trivial
    | error e =>
      dsimp only
      split
      · exact .inl trivial
      · exact .inl trivial

/-- So does an operation under the retry policy, whatever the number of attempts. -/
theorem keeps_execute_bind (operation : Operation) (next : Outcome → Call β) :
    ((execute limits operation).bind next).Keeps := by
  unfold execute
  split
  · exact keeps_retrying_bind operation _ next
  · -- The first attempt, which may be followed by a panic, starts in the same way.
    show (((tryOnce limits operation).bind _).bind next).Keeps
    rw [Call.bind_bind]
    exact keeps_tryOnce_bind operation _

/-- **An operation under the retry policy has this form.** -/
theorem retries_execute (operation : Operation) (made : List SessionId) :
    (execute limits operation).Retries limits made := by
  unfold execute
  split
  · exact retries_retrying operation _ made
  · exact retries_tryOrPanic operation made

/-- Rendering is an evaluation, or ends at once. -/
theorem retries_render (markup : String) (made : List SessionId) :
    (render limits markup).Retries limits made := by
  unfold render
  split
  · exact retries_execute _ made
  · trivial

/-- The next script of a batch starts by looking for a session, too. -/
theorem keeps_evalAll (results : List Value) (scripts : List String) :
    (evalAll limits results scripts).Keeps := by
  cases scripts with
  | nil => trivial
  | cons script scripts => exact keeps_execute_bind _ _

/-- Induction on the scripts. -/
theorem retries_evalAll (results : List Value) (scripts : List String) (made : List SessionId) :
    (evalAll limits results scripts).Retries limits made := by
  induction scripts generalizing results made with
  | nil => trivial
  | cons script scripts ih =>
    refine (retries_execute _ made).bind (fun outcome made => ?_) fun outcome => ?_
    · cases outcome with
      | ok value => exact ih (results ++ [value]) made
      | error e => trivial
    · cases outcome with
      | ok value => exact keeps_evalAll _ scripts
      | error e => trivial

/-- All that a request may ask for has this form. -/
theorem retries_perform (request : ExecRequest) (made : List SessionId) :
    (perform limits request).Retries limits made := by
  cases request with
  | eval code => exact (retries_execute _ made).bind (fun _ _ => trivial) fun _ => trivial
  | render markup => exact (retries_render _ made).bind (fun _ _ => trivial) fun _ => trivial
  | renderBatch units =>
    refine Call.Retries.bind ?_ (fun _ _ => trivial) fun _ => trivial
    unfold renderBatch
    split
    · exact retries_evalAll [] _ made
    · trivial

/-- **Every request is carried out by a call of this form.** -/
theorem retries_call (request : Request) : (request.call limits).Retries limits [] := by
  -- Only the last two requests run anything in a session.
  cases request with
  | ensure => exact retries_ensure_bind fun _ _ _ => trivial
  | reconnect =>
    intro _ taken
    cases taken with
    | none => exact retries_ensure_bind fun _ _ _ => trivial
    | some session => exact fun _ => retries_ensure_bind fun _ _ _ => trivial
  | health =>
    intro current
    cases current with
    | none => trivial
    | some session => exact fun _ => trivial
  | shutdown =>
    intro taken
    cases taken with
    | none => trivial
    | some session => exact fun _ => trivial
  | execute operation =>
    exact (retries_execute operation []).bind (fun _ _ => trivial) fun _ => trivial
  | perform request => exact (retries_perform request []).bind (fun _ _ => trivial) fun _ => trivial

end Calls

/-! ## The system -/

/-- The session that an attempt has made. -/
def Attempt.made? : Attempt → Option SessionId
  | connecting => none
  | closing _ outcome => outcome.toOption
  | ended outcome => outcome.toOption

/-- A session that is given without an attempt is the current one. -/
theorem current_of_join {p : Pool} {discarded : Option SessionId} {session : SessionId}
    (h : (p.join discarded).2.session? = some session) : p.current = some session := by
  rcases p.join_cases discarded with ⟨current, hcurrent, -, hjoin⟩ | hjoin <;> rw [hjoin] at h
  · exact hcurrent.trans h
  · obtain ⟨a, hattempt⟩ := p.exists_joinAttempt
    rw [hattempt] at h
    cases h

/-- A call up to its next wait. It is shown only the session that is current. Induction on the
call. -/
theorem Call.Retries.settle {α : Type} {limits : Limits} {call : Call α} {p : Pool} {sessions : Nat}
    {made : List SessionId} (h : call.Retries limits made)
    (hcurrent : ∀ session, p.current = some session → session < sessions)
    (hmade : ∀ session ∈ made, session < sessions) :
    ∃ made', (∀ session ∈ made', session < sessions) ∧
      (call.settle p).2.Retries limits made' := by
  induction call generalizing p made with
  | done result => exact ⟨made, hmade, h⟩
  | await wait rest ih => exact ⟨made, hmade, h⟩
  | act a rest ih =>
    have hloses := a.loses_run p
    -- A critical section makes no session current, so the numbers stay below those given out.
    have hcurrent' (session : SessionId) (hs : (a.run p).1.current = some session) :
        session < sessions := by
      rcases hloses with hsame | hnone
      · exact hcurrent session (hsame ▸ hs)
      · exact absurd (hs.symm.trans hnone) (Option.some_ne_none session)
    have hmore (shown : Option SessionId) (hshown : ∀ session ∈ shown, session < sessions) :
        ∀ session ∈ shown.toList ++ made, session < sessions := by
      intro session hsession
      rcases List.mem_append.1 hsession with hsession | hsession
      · exact hshown session (Option.mem_toList.1 hsession)
      · exact hmade session hsession
    -- Two of the sections show a session to the call: the current one.
    cases a with
    | look => exact ih _ (h _) hcurrent' (hmore _ hcurrent)
    | join discarded =>
      exact ih _ (h _) hcurrent' (hmore _ fun session hs => hcurrent session (current_of_join hs))
    | release => exact ih _ (h _) hcurrent' hmade
    | withdraw session => exact ih _ (h _) hcurrent' hmade
    | countForced => exact ih _ (h _) hcurrent' hmade

namespace System

variable {ρ : Type} {limits : Limits}

/-- The current session is the newest one, and calls have been shown only sessions that exist. -/
structure Retrying (limits : Limits) (s : System ρ) : Prop where
  newest : ∀ session, s.pool.current = some session → s.sessions = session + 1
  outcomes : ∀ (a : AttemptId) attempt, s.attempts[a]? = some attempt →
    ∀ session ∈ attempt.made?, session < s.sessions
  calls : ∀ id call, s.call? id = some call →
    ∃ made, (∀ session ∈ made, session < s.sessions) ∧ call.Retries limits made

theorem retrying_empty : (empty : System ρ).Retrying limits where
  newest := by simp [empty, Pool.empty]
  outcomes := by simp [empty]
  calls := by simp [empty, System.call?]

/-- A call goes on that has been shown sessions that exist. -/
theorem Retrying.advance {s : System ρ} (h : s.Retrying limits) (id : CallId) {call : Call ρ}
    {made : List SessionId} (hcall : call.Retries limits made)
    (hmade : ∀ session ∈ made, session < s.sessions) : (s.advance id call).Retrying limits := by
  have hlt (session : SessionId) (hs : s.pool.current = some session) : session < s.sessions := by
    rw [h.newest session hs]
    exact Nat.lt_succ_self session
  refine ⟨fun session hs => ?_, fun a attempt ha => ?_, fun id' call' hcall' => ?_⟩
  · rcases call.loses_settle s.pool with hsame | hnone
    · exact h.newest session (hsame ▸ hs)
    · exact absurd (hs.symm.trans hnone) (Option.some_ne_none session)
  · -- An attempt that the call has begun is connecting, and has made no session yet.
    simp only [System.advance, List.getElem?_append] at ha
    split at ha
    · exact h.outcomes a attempt ha
    · have hmem := List.mem_of_getElem? ha
      obtain rfl := (List.mem_replicate.1 hmem).2
      intro session hsession
      cases hsession
  · rw [call?_advance] at hcall'
    split at hcall'
    · cases hcall'
      exact hcall.settle hlt hmade
    · exact h.calls id' call' hcall'

/-- A call goes on from one of its waits, and may have been shown a session there. -/
theorem Retrying.resume {s : System ρ} (h : s.Retrying limits) (id : CallId) {wait : Wait}
    {call : Call ρ} {made : List SessionId} (hcall : call.Retries limits made)
    (hmade : ∀ session ∈ made, session < s.sessions) :
    ((s.noteAnswer wait).advance id call).Retrying limits := by
  obtain ⟨closed, hnote⟩ := s.exists_noteAnswer wait
  rw [hnote]
  exact Retrying.advance (s := { s with closed := closed }) ⟨h.newest, h.outcomes, h.calls⟩ id
    hcall hmade

/-- An attempt ends, with a session that is newer than all others or with none. -/
theorem Retrying.conclude {s : System ρ} (h : s.Retrying limits) (a : AttemptId)
    (outcome : Except Bridge.Error Unit) : (s.conclude a outcome).Retrying limits := by
  -- Numbers of sessions are only ever added.
  have hle : s.sessions ≤ (s.conclude a outcome).sessions := by
    cases outcome with
    | error e => exact Nat.le_refl _
    | ok _ => exact Nat.le_succ _
  have hnumbered : ∀ session ∈ (numbered s.sessions outcome).toOption,
      session < (s.conclude a outcome).sessions := by
    intro session hsession
    cases outcome with
    | error e => cases hsession
    | ok _ =>
      cases hsession
      exact Nat.lt_succ_self _
  refine ⟨fun session hs => ?_, fun b attempt hb => ?_, fun id call hcall => ?_⟩
  · cases outcome with
    | error e => exact h.newest session hs
    | ok _ => rw [← Option.some.inj hs]; rfl
  · -- The attempt is entered with the session that it made, whether or not that is cleared away.
    obtain ⟨progress, hattempts, hmade⟩ : ∃ progress,
        (s.conclude a outcome).attempts = s.attempts.set a progress ∧
          progress.made? = (numbered s.sessions outcome).toOption := by
      refine ⟨_, rfl, ?_⟩
      split
      all_goals rfl
    rw [hattempts, List.getElem?_set] at hb
    split at hb
    · split at hb
      · obtain rfl := Option.some.inj hb
        rw [hmade]
        exact hnumbered
      · cases hb
    · exact fun session hsession => Nat.lt_of_lt_of_le (h.outcomes b attempt hb session hsession) hle
  · obtain ⟨made, hmade, hretries⟩ := h.calls id call hcall
    exact ⟨made, fun session hsession => Nat.lt_of_lt_of_le (hmade session hsession) hle, hretries⟩

/-- A call that begins has the form of the broker's calls. -/
def Input.Retries (limits : Limits) : Input ρ → Prop
  | .begin _ call => call.Retries limits []
  | _ => True

/-- Users ask for requests only, and these have the form. -/
theorem Input.IsAsked.retries {input : Input Reply} (h : input.IsAsked limits) :
    input.Retries limits := by
  cases input with
  | begin id call =>
    obtain ⟨request, rfl⟩ := h
    exact retries_call request
  | _ => trivial

/-- **One step.** -/
theorem Retrying.step {s : System ρ} (h : s.Retrying limits) {input : Input ρ}
    (hinput : input.Retries limits) : (s.step input).Retrying limits := by
  have hstep := s.happens_step input
  generalize s.step input = s' at hstep ⊢
  cases hstep with
  | ignored => exact h
  | begun _ => exact h.advance _ hinput fun _ hs => absurd hs List.not_mem_nil
  | @answered id answer wait rest reply hcall hreply =>
    obtain ⟨made, hmade, hretries⟩ := h.calls id _ hcall
    -- The attempt and the panic are answered by nobody.
    cases wait with
    | run session limit operation => exact h.resume id (hretries.2 reply).1 hmade
    | attempt a => cases hreply
    | probe session limit => exact h.resume id (hretries reply) hmade
    | close session => exact h.resume id (hretries reply) hmade
    | pause span => exact h.resume id (hretries reply) hmade
    | panic => cases hreply
  | @shared id a rest outcome hcall hended =>
    obtain ⟨made, hmade, hretries⟩ := h.calls id _ hcall
    -- What the attempt gives is one of the sessions that were made.
    refine h.advance id (hretries outcome) fun session hsession => ?_
    rcases List.mem_append.1 hsession with hsession | hsession
    · exact h.outcomes a _ hended session (Option.mem_toList.1 hsession)
    · exact hmade session hsession
  | connected _ _ => exact h.conclude _ _
  | @cleared a previous outcome hclosing _ =>
    refine ⟨h.newest, fun b attempt hb => ?_, h.calls⟩
    rw [List.getElem?_set] at hb
    split at hb
    · split at hb
      · obtain rfl := Option.some.inj hb
        exact h.outcomes a (.closing previous outcome) hclosing
      · cases hb
    · exact h.outcomes b attempt hb
  | abandoned id =>
    exact ⟨h.newest, h.outcomes, fun id' call hcall => h.calls id' call (call?_of_strike hcall)⟩

/-- **A run.** -/
theorem Retrying.run {s : System ρ} (h : s.Retrying limits) {inputs : List (Input ρ)}
    (hinputs : ∀ input ∈ inputs, input.Retries limits) : (s.run inputs).Retrying limits :=
  run_of_step (fun _ hs _ hinput => hs.step hinput) h hinputs

/-! ## What is given up -/

/-- What has become of the sessions when an operation that the call `id` has run in `session` ends
in the state `s`, and the call has gone on to the state `s'`. -/
inductive GoesOn (limits : Limits) (s : System ρ) (id : CallId) (session : SessionId)
    (outcome : Option Outcome) (s' : System ρ) : Prop
  /-- The current session stays. -/
  | kept (hcurrent : s'.pool.current = s.pool.current) (hforced : s'.pool.forced = s.pool.forced)
  /-- A session is given up by force, where none is current. -/
  | nothing (hfailed : FailedRetryably limits outcome) (hnone : s.pool.current = none)
    (hpool : s'.pool = { s.pool with forced := s.pool.forced + 1 })
    (hwait : s'.wait? id = some (.pause limits.retry.retryDelay))
  /-- The session that is current is given up by force, and closed. It is the one in which the
  operation was run, or a newer one; in that case the former has been given up before. -/
  | taken (hfailed : FailedRetryably limits outcome) (other : SessionId)
    (hcurrent : s.pool.current = some other)
    (hpool : s'.pool = { s.pool with current := none, forced := s.pool.forced + 1 })
    (hwait : s'.wait? id = some (.close other))
    (hclosed : (s'.step (.answer id .closed)).closed = s.closed ++ [other])
    (hpause : (s'.step (.answer id .closed)).wait? id = some (.pause limits.retry.retryDelay))
    (hwhich : other = session ∨ session < other ∧ (session ∈ s.closed ∨
      ∃ id', id' ≠ id ∧ s.wait? id' = some (.close session)))

/-- What waits is a call at one of its waits. -/
theorem exists_await_of_wait? {s : System ρ} {id : CallId} {wait : Wait}
    (hwait : s.wait? id = some wait) : ∃ rest, s.call? id = some (.await wait rest) := by
  obtain ⟨call, hcall, hcallwait⟩ := Option.bind_eq_some_iff.1 hwait
  cases call with
  | await other rest =>
    obtain rfl := Option.some.inj hcallwait
    exact ⟨rest, hcall⟩
  | done result => cases hcallwait
  | act a rest => cases hcallwait

/-- Where another session than one that has been made is current, it is newer, and that one has been
given up. -/
theorem Retrying.current_or_given_up {s : System ρ} (h : s.Retrying limits) (howned : s.Owned)
    {session other : SessionId} (hmade : session < s.sessions)
    (hcurrent : s.pool.current = some other) :
    other = session ∨ session < other ∧
      (session ∈ s.closed ∨ ∃ id, s.wait? id = some (.close session)) := by
  -- The current session is the newest there is.
  have hlt : session < other + 1 := h.newest other hcurrent ▸ hmade
  rcases Nat.lt_succ_iff_lt_or_eq.1 hlt with holder | rfl
  · refine .inr ⟨holder, ?_⟩
    rcases howned.accounted session hmade with hstill | hgone | ⟨id, -, hgoing⟩
    · rw [hcurrent] at hstill
      exact absurd (Option.some.inj hstill).symm (Nat.ne_of_lt holder)
    · exact .inl hgone
    · exact .inr ⟨id, hgoing⟩
  · exact .inl rfl

section GoesOn

variable {s : System ρ} {id : CallId} {session : SessionId} {outcome : Option Outcome}
  {call : Call ρ}

theorem GoesOn.of_keeps (h : call.Keeps) :
    s.GoesOn limits id session outcome (s.advance id call) := by
  obtain ⟨hcurrent, hforced⟩ := h.settle s.pool
  exact .kept hcurrent hforced

/-- Behind a failure the call gives up what is current, as `Forces` has it. -/
theorem GoesOn.of_forces (hfailed : FailedRetryably limits outcome)
    (h : call.Forces limits.retry.retryDelay)
    (hwhich : ∀ other, s.pool.current = some other → other = session ∨ session < other ∧
      (session ∈ s.closed ∨ ∃ id', id' ≠ id ∧ s.wait? id' = some (.close session))) :
    s.GoesOn limits id session outcome (s.advance id call) := by
  have hself : (s.advance id call).call? id = some (call.settle s.pool).2 := by
    rw [call?_advance, if_pos rfl]
  have hsettled := h.settle s.pool
  -- What the forced close takes is what is current when the call comes to it.
  cases hcurrent : s.pool.current with
  | none =>
    obtain ⟨hpool, hpause⟩ := hsettled.1 hcurrent
    refine .nothing hfailed hcurrent hpool ?_
    rw [System.wait?, hself]
    exact hpause
  | some other =>
    obtain ⟨hpool, after, hclose, hpause⟩ := hsettled.2 other hcurrent
    have hclosing : (s.advance id call).call? id = some (.await (.close other) after) := by
      rw [hself, hclose]
    have hnext : (s.advance id call).step (.answer id .closed) =
        ((s.advance id call).noteClosed other).advance id (after ()) := by
      simp only [System.step, hclosing, Wait.accept?]
      rfl
    refine .taken hfailed other hcurrent hpool ?_ ?_ ?_ (hwhich other hcurrent)
    · rw [System.wait?, hclosing]
      rfl
    · rw [hnext]
      rfl
    · rw [hnext, System.wait?, call?_advance, if_pos rfl, settle_of_wait? hpause]
      exact hpause

end GoesOn

/-- **What a retry gives up.** When an operation ends, its call leaves the current session alone or,
behind a failure that may be retried, closes whatever session is current by then. -/
theorem forced_close_takes_current (limits : Limits) (inputs : List (Input Reply))
    (hasked : ∀ input ∈ inputs, input.IsAsked limits) {id : CallId} {session : SessionId}
    {limit : Duration} {operation : Operation}
    (hwait : ((empty : System Reply).run inputs).wait? id = some (.run session limit operation))
    (outcome : Option Outcome) :
    let s := (empty : System Reply).run inputs
    let s' := s.step (.answer id (.ran outcome))
    s'.closed = s.closed ∧ (∀ id', id' ≠ id → s'.call? id' = s.call? id') ∧
      s.GoesOn limits id session outcome s' := by
  intro s s'
  have howned : s.Owned := owned_empty.run fun input hinput => (hasked input hinput).isTame
  have hretrying : s.Retrying limits :=
    retrying_empty.run fun input hinput => (hasked input hinput).retries
  obtain ⟨rest, hcall⟩ := exists_await_of_wait? hwait
  have hstep : s' = s.advance id (rest outcome) := by
    show s.step _ = _
    simp only [System.step, show s.call? id = _ from hcall, Wait.accept?]
    rfl
  obtain ⟨made, hmade, hin, hends⟩ := hretrying.calls id _ hcall
  rw [hstep]
  refine ⟨rfl, fun id' hne => by rw [call?_advance, if_neg hne], ?_⟩
  rcases (hends outcome).2 with hkeeps | ⟨hfailed, hforces⟩
  · exact .of_keeps hkeeps
  · refine .of_forces hfailed hforces fun other hcurrent => ?_
    rcases hretrying.current_or_given_up howned (hmade session hin) hcurrent with
      hsame | ⟨hnewer, hgone | ⟨id', hgoing⟩⟩
    · exact .inl hsame
    · exact .inr ⟨hnewer, .inl hgone⟩
    · -- The call itself has waited for its operation, so it is another one that closes the session.
      refine .inr ⟨hnewer, .inr ⟨id', ?_, hgoing⟩⟩
      rintro rfl
      cases hgoing.symm.trans hwait

/-- Two calls run operations in one session. The first one fails, gives the session up and is at work
in the next one while the second is still at work in the old one. -/
def handedOn : List (Input Reply) :=
  [.begin 0 ((Request.execute (.evaluate "a")).call {}), .connected 0 (.ok ()), .share 0,
   .begin 1 ((Request.execute (.evaluate "b")).call {}),
   .answer 1 (.probed (.answered (.ok (.boolean true)))),
   .answer 0 (.ran (some (.error (.evaluation "boom")))), .answer 0 .closed, .answer 0 .paused,
   .connected 1 (.ok ()), .share 0]

/-- The two calls are requests that users may make. -/
theorem isAsked_handedOn : ∀ input ∈ handedOn, input.IsAsked {} := by
  simp only [handedOn, List.forall_mem_cons]
  exact ⟨⟨_, rfl⟩, trivial, trivial, ⟨_, rfl⟩, trivial, trivial, trivial, trivial, trivial, trivial,
    by simp⟩

/-- Here the second call is at work in a session that has been given up before its operation
ends. -/
theorem forced_close_takes_current_handedOn :
    let s := (empty : System Reply).run handedOn
    s.wait? 1 = some (.run 0 (.ofMillis 30000) (.evaluate "b")) ∧
      s.GoesOn {} 1 0 none (s.step (.answer 1 (.ran none))) := by
  have hwait : ((empty : System Reply).run handedOn).wait? 1 =
      some (.run 0 (.ofMillis 30000) (.evaluate "b")) := by rfl
  exact ⟨hwait, (forced_close_takes_current {} handedOn isAsked_handedOn hwait none).2.2⟩

/-- **A retry may close the session in which another call is at work**: the operation of the second
call has failed in session 0, and the call closes session 1. -/
theorem other_session_closed :
    let s := (empty : System Reply).run handedOn
    let s' := s.step (.answer 1 (.ran (some (.error (.evaluation "boom")))))
    (∀ input ∈ handedOn, input.IsAsked {}) ∧
      s.wait? 1 = some (.run 0 (.ofMillis 30000) (.evaluate "b")) ∧
      s.pool.current = some 1 ∧ s.wait? 0 = some (.run 1 (.ofMillis 30000) (.evaluate "a")) ∧
      s'.pool.current = none ∧ s'.wait? 1 = some (.close 1) ∧
      1 ∈ (s'.step (.answer 1 .closed)).closed := by
  refine ⟨isAsked_handedOn, rfl, rfl, rfl, rfl, rfl, ?_⟩
  decide

end System

end CanvasLink.Broker
