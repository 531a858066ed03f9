import CanvasLink.Proofs.Broker.Ways

/-!
# CanvasLink — calls that ask for a session

Any number of calls that only ask for a session, on a broker on which nothing else is going on.

* `Stage` — where such a call stands while it waits, with the rest of the call.
* `System.Ensures` — what a step can do while there are only such calls.
* `System.Ensuring` — what each step preserves: every call has ended or stands at a stage that fits
  the pool and the attempts.
-/

namespace CanvasLink.Broker

open CanvasLink.Bridge CanvasLink.Wire

/-! ## Stages of a call -/

/-- The end of a call that has asked for a session. -/
def give (outcome : Except Bridge.Error SessionId) : Call Reply :=
  .done (.session outcome)

/-- The rest of a call that needs a session after it has discarded one, or has found none. -/
def joining (discarded : Option SessionId) : Call Reply :=
  (share discarded).bind give

/-- The rest of a call that closes a session. -/
def discarding (session : SessionId) : Call Reply :=
  .await (.close session) fun _ => joining (some session)

/-- The rest of a call whose session has answered the probe. -/
def judged (session : SessionId) (answer : ProbeAnswer) : Call Reply :=
  match Health.ofProbe answer with
  | .healthy => give (.ok session)
  | _ => .act (.withdraw session) fun _ => discarding session

/-- Where a call that asks for a session stands while it waits. -/
inductive Stage where
  /-- It asks the session that it has found current for its state. -/
  | probing (session : SessionId)
  /-- It closes the session, which has not passed its probe. -/
  | closing (session : SessionId)
  /-- It waits for an attempt. -/
  | waiting (attempt : AttemptId)

/-- The rest of a call that stands at a stage. -/
def Stage.call (limits : Limits) : Stage → Call Reply
  | probing session => .await (.probe session limits.probe) (judged session)
  | closing session => discarding session
  | waiting attempt => .await (.attempt attempt) give

/-- What a call at a stage waits for. -/
def Stage.wait (limits : Limits) : Stage → Wait
  | probing session => .probe session limits.probe
  | closing session => .close session
  | waiting attempt => .attempt attempt

theorem Stage.wait?_call (limits : Limits) (stage : Stage) :
    (stage.call limits).wait? = some (stage.wait limits) := by
  cases stage <;> rfl

/-- A call that has come to its end, or to a stage with a property. -/
def Stands (limits : Limits) (P : Stage → Prop) (call : Call Reply) : Prop :=
  (∃ result, call = .done result) ∨ ∃ stage : Stage, call = stage.call limits ∧ P stage

/-- What a call does with its lead. -/
def Lead.call (limits : Limits) : Lead → Call Reply
  | session s => give (.ok s)
  | attempt a => (Stage.waiting a).call limits

/-- What a call does with the session that it has found current. -/
def found (limits : Limits) : Option SessionId → Call Reply
  | none => joining none
  | some session => (Stage.probing session).call limits

variable {limits : Limits}

/-- Joining is one critical section, after which the call is at a stage. -/
theorem joining_eq (limits : Limits) (discarded : Option SessionId) :
    joining discarded = .act (.join discarded) fun lead : Lead => lead.call limits := by
  show Call.act (.join discarded) _ = Call.act (.join discarded) _
  congr 1
  funext lead
  cases lead with
  | session s => rfl
  | attempt a => rfl

/-- A call stands at one stage at a time. -/
theorem Stage.call_inj {stage stage' : Stage} (h : stage.call limits = stage'.call limits) :
    stage = stage' := by
  -- Stages of different kinds wait for different things.
  cases stage with
  | probing session =>
    cases stage' with
    | probing other =>
      cases h
      rfl
    | _ => cases h
  | closing session =>
    cases stage' with
    | closing other =>
      cases h
      rfl
    | _ => cases h
  | waiting a =>
    cases stage' with
    | waiting other =>
      cases h
      rfl
    | _ => cases h

/-- Stages are told apart by their calls, so what holds of the stage that a call stands at holds of
every stage with that call. -/
theorem Stands.of_eq {P : Stage → Prop} {call : Call Reply} (h : Stands limits P call)
    (stage : Stage) (hstage : call = stage.call limits) : P stage := by
  rcases h with ⟨result, rfl⟩ | ⟨stage', rfl, hP⟩
  · cases stage <;> cases hstage
  · exact Stage.call_inj hstage ▸ hP

/-- A call that stands at a stage with `P` stands at one with every weaker `Q`. -/
theorem Stands.imp {P Q : Stage → Prop} {call : Call Reply} (h : Stands limits P call)
    (hPQ : ∀ stage, P stage → Q stage) : Stands limits Q call := by
  rcases h with hdone | ⟨stage, hstage, hP⟩
  · exact .inl hdone
  · exact .inr ⟨stage, hstage, hPQ stage hP⟩

/-- **The call as its stages.** -/
theorem ensure_eq (limits : Limits) :
    Request.ensure.call limits = .act .look (found limits) := by
  show Call.act .look _ = Call.act .look _
  congr 1
  funext current
  cases current with
  | none => rfl
  | some session =>
    show Call.await (.probe session limits.probe) _ = Call.await (.probe session limits.probe) _
    congr 1
    funext answer
    -- The program joins in both other cases, and writes them as one.
    unfold judged
    show ((match Health.ofProbe answer with
      | .healthy => pure (.ok session)
      | _ => _) : Call (Except Bridge.Error SessionId)).bind give = _
    cases Health.ofProbe answer with
    | healthy => rfl
    | unhealthy => rfl
    | disconnected => rfl

/-- What a call with a lead from the pool has come to. -/
theorem settle_joining (limits : Limits) (discarded : Option SessionId) (p : Pool) :
    (joining discarded).settle p = ((p.join discarded).1, (p.join discarded).2.call limits) := by
  rw [joining_eq limits]
  show Call.settle (p.join discarded).1 ((p.join discarded).2.call limits) = _
  cases (p.join discarded).2 with
  | session s => rfl
  | attempt a => rfl

/-- Without a current session a call joins at once. -/
theorem settle_ensure_none {p : Pool} (h : p.current = none) :
    (Request.ensure.call limits).settle p = (joining none).settle p := by
  rw [ensure_eq]
  show (found limits p.current).settle p = _
  rw [h]
  rfl

/-- With a current session a call probes it, and the pool stays as it is. -/
theorem settle_ensure_some {p : Pool} {session : SessionId} (h : p.current = some session) :
    (Request.ensure.call limits).settle p = (p, (Stage.probing session).call limits) := by
  rw [ensure_eq]
  show (found limits p.current).settle p = _
  rw [h]
  rfl

theorem settle_judged_healthy {answer : ProbeAnswer} (h : Health.ofProbe answer = .healthy)
    (session : SessionId) (p : Pool) :
    (judged session answer).settle p = (p, give (.ok session)) := by
  rw [judged, h]
  rfl

theorem acts_judged_healthy {answer : ProbeAnswer} (h : Health.ofProbe answer = .healthy)
    (session : SessionId) (p : Pool) : (judged session answer).acts p = [] := by
  rw [judged, h]
  rfl

/-- A session that is not healthy is withdrawn, and the call is about to close it. -/
theorem settle_judged_not_healthy (limits : Limits) {answer : ProbeAnswer} (h : Health.ofProbe answer ≠ .healthy)
    (session : SessionId) (p : Pool) :
    (judged session answer).settle p =
      (p.withdraw session, (Stage.closing session).call limits) := by
  unfold judged
  split
  · next hhealthy => exact absurd hhealthy h
  · rfl

/-! ## Joining -/

/-- A call that joins is given a session at once, or waits for the attempt in flight. -/
theorem settle_joining_cases (limits : Limits) (discarded : Option SessionId) (p : Pool) :
    (∃ session, p.current = some session ∧
        (joining discarded).settle p = (p, give (.ok session))) ∨
      ∃ a, ((joining discarded).settle p).1.inFlight = some a ∧
        ((joining discarded).settle p).2 = (Stage.waiting a).call limits := by
  rw [settle_joining limits]
  rcases p.join_cases discarded with ⟨session, hcurrent, -, hjoin⟩ | hjoin
  · rw [hjoin]
    exact .inl ⟨session, hcurrent, rfl⟩
  · obtain ⟨a, hattempt⟩ := p.exists_joinAttempt
    rw [hjoin, hattempt]
    exact .inr ⟨a, rfl, rfl⟩

/-! ## What a step can do -/

namespace System

/-- A user asks for a session, or the world goes on, or a user goes away. -/
def Input.IsEnsuring (limits : Limits) : Input Reply → Prop
  | .begin _ call => call = Request.ensure.call limits
  | _ => True

/-- What an input can bring about while there are only calls that ask for a session. -/
inductive Ensures (limits : Limits) (s : System Reply) : Input Reply → System Reply → Prop
  | ignored (input : Input Reply) : Ensures limits s input s
  | lacking {id : CallId} (hnone : s.call? id = none) (hcurrent : s.pool.current = none) :
    Ensures limits s (.begin id (Request.ensure.call limits)) (s.advance id (joining none))
  | looked {id : CallId} {session : SessionId} (hnone : s.call? id = none)
    (hcurrent : s.pool.current = some session) :
    Ensures limits s (.begin id (Request.ensure.call limits))
      (s.advance id ((Stage.probing session).call limits))
  | passed {id : CallId} {session : SessionId} {answer : ProbeAnswer}
    (hcall : s.call? id = some ((Stage.probing session).call limits))
    (hhealthy : Health.ofProbe answer = .healthy) :
    Ensures limits s (.answer id (.probed answer)) (s.advance id (give (.ok session)))
  | failed {id : CallId} {session : SessionId} {answer : ProbeAnswer}
    (hcall : s.call? id = some ((Stage.probing session).call limits))
    (hhealthy : Health.ofProbe answer ≠ .healthy) :
    Ensures limits s (.answer id (.probed answer))
      (({ s with pool := s.pool.withdraw session } : System Reply).advance id
        ((Stage.closing session).call limits))
  | closed {id : CallId} {session : SessionId}
    (hcall : s.call? id = some ((Stage.closing session).call limits)) :
    Ensures limits s (.answer id .closed) ((s.noteClosed session).advance id (joining (some session)))
  | told {id : CallId} {a : AttemptId} {outcome : Except Bridge.Error SessionId}
    (hcall : s.call? id = some ((Stage.waiting a).call limits))
    (hended : s.attempts[a]? = some (.ended outcome)) :
    Ensures limits s (.share id) (s.advance id (give outcome))
  | connected {a : AttemptId} {outcome : Except Bridge.Error Unit}
    (hconnecting : s.attempts[a]? = some .connecting) (hawaited : s.isAwaited a = true) :
    Ensures limits s (.connected a outcome) (s.conclude a outcome)
  | abandoned (id : CallId) :
    Ensures limits s (.abandon id) { s with calls := s.calls.filter fun entry => entry.1 ≠ id }

/-- Only what comes of a call up to its next wait counts. -/
theorem advance_congr {ρ : Type} {s : System ρ} {call call' : Call ρ}
    (h : call.settle s.pool = call'.settle s.pool) (id : CallId) :
    s.advance id call = s.advance id call' := by
  simp only [System.advance, h]

/-- Every call has ended, or stands at a stage with a property. -/
def Staged (limits : Limits) (P : Stage → Prop) (s : System Reply) : Prop :=
  ∀ id call, s.call? id = some call → Stands limits P call

section Staged

variable {P Q : Stage → Prop} {s : System Reply}

/-- Where all calls have ended every call stands at a stage, whatever is asked of the stages. -/
theorem staged_of_ended (h : ∀ id call, s.call? id = some call → call.result?.isSome = true) :
    s.Staged limits P := by
  intro id call hcall
  have hresult := h id call hcall
  cases call with
  | done result => exact .inl ⟨result, rfl⟩
  | act a rest => cases hresult
  | await wait rest => cases hresult

/-- What holds of the stages of a system holds of the stage of a call in it. -/
theorem Staged.of_call? (h : s.Staged limits P) {id : CallId} {stage : Stage}
    (hcall : s.call? id = some (stage.call limits)) : P stage :=
  (h id _ hcall).of_eq stage rfl

theorem Staged.imp (h : s.Staged limits P) (hPQ : ∀ stage, P stage → Q stage) :
    s.Staged limits Q :=
  fun id call hcall => (h id call hcall).imp hPQ

/-- The call that runs up to its next wait comes to a stage or to its end; all others stay where they
are. -/
theorem Staged.advance (h : s.Staged limits P) {call : Call Reply}
    (hcall : Stands limits P (call.settle s.pool).2) (id : CallId) :
    (s.advance id call).Staged limits P := by
  intro id' call' hcall'
  rw [call?_advance] at hcall'
  split at hcall'
  · exact Option.some.inj hcall' ▸ hcall
  · exact h id' call' hcall'

/-- The calls that are left when one is abandoned stand where they stood. -/
theorem Staged.abandon (h : s.Staged limits P) (id : CallId) :
    Staged limits P { s with calls := s.calls.filter fun entry => entry.1 ≠ id } :=
  fun id' call' hcall' => h id' call' (call?_of_strike hcall')

end Staged

/-- The call begins with a look at the current session, and goes on from there. -/
theorem ensures_begin {s : System Reply} {id : CallId} (hnone : s.call? id = none) :
    s.Ensures limits (.begin id (Request.ensure.call limits))
      (s.advance id (Request.ensure.call limits)) := by
  cases hcurrent : s.pool.current with
  | none =>
    rw [advance_congr (settle_ensure_none hcurrent) id]
    exact .lacking hnone hcurrent
  | some session =>
    have hsame : (Request.ensure.call limits).settle s.pool =
        ((Stage.probing session).call limits).settle s.pool := settle_ensure_some hcurrent
    rw [advance_congr hsame id]
    exact .looked hnone hcurrent

/-- After its probe a call goes on from the judgement. -/
theorem ensures_judged {s : System Reply} {id : CallId} {session : SessionId}
    (hcall : s.call? id = some ((Stage.probing session).call limits)) (answer : ProbeAnswer) :
    s.Ensures limits (.answer id (.probed answer)) (s.advance id (judged session answer)) := by
  by_cases hhealthy : Health.ofProbe answer = .healthy
  · have hsame : (judged session answer).settle s.pool = (give (.ok session)).settle s.pool :=
      settle_judged_healthy hhealthy session s.pool
    rw [advance_congr hsame id]
    exact .passed hcall hhealthy
  · -- The session is withdrawn before the call waits again, which is when it closes it.
    have hsame : s.advance id (judged session answer) =
        ({ s with pool := s.pool.withdraw session } : System Reply).advance id
          ((Stage.closing session).call limits) := by
      simp only [System.advance, settle_judged_not_healthy limits hhealthy]
      rfl
    rw [hsame]
    exact .failed hcall hhealthy

/-- **What a step can do.** An answer to a call that stands at a stage is an answer to what this stage
waits for. -/
theorem ensures_step {P : Stage → Prop} {s : System Reply} (hs : s.Sound)
    (hstaged : s.Staged limits P) {input : Input Reply} (hinput : input.IsEnsuring limits) :
    s.Ensures limits input (s.step input) := by
  have hstep := s.happens_step input
  generalize s.step input = s' at hstep ⊢
  cases hstep with
  | ignored => exact .ignored _
  | @begun id call hnone =>
    obtain rfl := hinput
    exact ensures_begin hnone
  | @answered id answer wait rest reply hcall hreply =>
    -- The call that is answered stands at a stage, and the answer has to fit its wait.
    rcases hstaged id _ hcall with ⟨result, hdone⟩ | ⟨stage, hstage, -⟩
    · cases hdone
    · cases stage with
      | probing session =>
        cases hstage
        cases answer with
        | probed answer =>
          obtain rfl : answer = reply := Option.some.inj hreply
          exact ensures_judged hcall answer
        | _ => cases hreply
      | closing session =>
        cases hstage
        cases answer with
        | closed => exact .closed hcall
        | _ => cases hreply
      | waiting a =>
        cases hstage
        cases hreply
  | @shared id a rest outcome hcall hended =>
    -- Only a call at the stage of waiting is told the outcome of an attempt.
    rcases hstaged id _ hcall with ⟨result, hdone⟩ | ⟨stage, hstage, -⟩
    · cases hdone
    · cases stage with
      | waiting a =>
        cases hstage
        exact .told hcall hended
      | probing session => cases hstage
      | closing session => cases hstage
  | connected hconnecting hawaited => exact .connected hconnecting hawaited
  | cleared hclosing _ => exact absurd hclosing (hs.clear _ _ _)
  | abandoned id => exact .abandoned id

/-! ## What each step preserves -/

/-- Only what comes after the attempts that there are is new. -/
theorem ended_advance {ρ : Type} {s : System ρ} {a : AttemptId}
    {outcome : Except Bridge.Error SessionId} (h : s.attempts[a]? = some (.ended outcome))
    (id : CallId) (call : Call ρ) : (s.advance id call).attempts[a]? = some (.ended outcome) := by
  have hlt : a < s.attempts.length := (List.getElem?_eq_some_iff.1 h).1
  show (s.attempts ++ _)[a]? = _
  rw [List.getElem?_append_left hlt, h]

/-- An attempt that has ended stays so, whatever happens. -/
theorem ended_step {ρ : Type} {s : System ρ} {a : AttemptId}
    {outcome : Except Bridge.Error SessionId} (h : s.attempts[a]? = some (.ended outcome))
    (input : Input ρ) : (s.step input).attempts[a]? = some (.ended outcome) := by
  -- An attempt that has ended is none of those that are set: these are connecting or closing.
  have hset (b : AttemptId) (progress : Attempt) (hne : s.attempts[b]? ≠ some (.ended outcome)) :
      (s.attempts.set b progress)[a]? = some (.ended outcome) := by
    rw [List.getElem?_set_ne, h]
    rintro rfl
    exact hne h
  have hstep := s.happens_step input
  generalize s.step input = s' at hstep ⊢
  cases hstep with
  | ignored => exact h
  | begun _ => exact ended_advance h _ _
  | @answered id answer wait rest reply _ _ =>
    obtain ⟨closed, hnote⟩ := s.exists_noteAnswer wait
    rw [hnote]
    exact ended_advance (s := { s with closed := closed }) h _ _
  | shared _ _ => exact ended_advance h _ _
  | connected hconnecting _ => exact hset _ _ (by rw [hconnecting]; simp)
  | cleared hclosing _ => exact hset _ _ (by rw [hclosing]; simp)
  | abandoned id => exact h

/-- An attempt in flight stays so until it ends. -/
theorem inFlight_step {ρ : Type} {s : System ρ} (hs : s.Sound) {a : AttemptId}
    (h : s.pool.inFlight = some a) (input : Input ρ) :
    (s.step input).pool.inFlight = some a ∨
      ∃ outcome, (s.step input).attempts[a]? = some (.ended outcome) := by
  -- A call's acts leave an attempt in flight alone; they begin one only where there is none.
  have hadvance (s' : System ρ) (hs' : s'.pool = s.pool) (id : CallId) (call : Call ρ) :
      (s'.advance id call).pool.inFlight = some a := by
    rcases call.attemptsOnly_settle s'.pool with ⟨hflight, -⟩ | ⟨hnone, -⟩
    · exact hflight.trans (hs' ▸ h)
    · rw [hs', h] at hnone
      cases hnone
  have hstep := s.happens_step input
  generalize s.step input = s' at hstep ⊢
  cases hstep with
  | ignored => exact .inl h
  | begun _ => exact .inl (hadvance s rfl _ _)
  | @answered id answer wait rest reply _ _ =>
    obtain ⟨closed, hnote⟩ := s.exists_noteAnswer wait
    exact .inl (hadvance _ (by rw [hnote]) _ _)
  | shared _ _ => exact .inl (hadvance s rfl _ _)
  | @connected b outcome hconnecting _ =>
    -- Only one attempt is connecting at a time, so the one that ends is the one in flight.
    obtain rfl : a = b := Option.some.inj (h.symm.trans (hs.unique b hconnecting))
    have hlt : a < s.attempts.length := (List.getElem?_eq_some_iff.1 hconnecting).1
    rw [hs.attempts_conclude hconnecting]
    exact .inr ⟨_, List.getElem?_set_self hlt⟩
  | cleared hclosing _ => exact absurd hclosing (hs.clear _ _ _)
  | abandoned id => exact .inl h

end System

/-- A stage fits the state of the broker: the session in question exists, and is not current while
it is being closed; the attempt in question is in flight or has ended. -/
def Stage.Fits (s : System Reply) : Stage → Prop
  | probing session => session < s.sessions
  | closing session => session < s.sessions ∧ s.pool.current ≠ some session
  | waiting a => s.pool.inFlight = some a ∨ ∃ outcome, s.attempts[a]? = some (.ended outcome)

/-- What other calls do leaves a stage fitting. -/
theorem Stage.Fits.step {s : System Reply} {stage : Stage} (h : stage.Fits s) (hs : s.Sound)
    (input : System.Input Reply) : stage.Fits (s.step input) := by
  obtain ⟨hle, hcurrent⟩ := s.renews_step input
  cases stage with
  | probing session => exact Nat.lt_of_lt_of_le h hle
  | closing session =>
    refine ⟨Nat.lt_of_lt_of_le h.1 hle, fun hsame => ?_⟩
    rcases hcurrent session hsame with hbefore | hnew
    · exact h.2 hbefore
    · exact Nat.not_lt.2 hnew h.1
  | waiting a =>
    rcases h with hflight | ⟨outcome, hended⟩
    · exact System.inFlight_step hs hflight input
    · exact .inr ⟨outcome, System.ended_step hended input⟩

namespace System

/-- What holds while there are only calls that ask for a session. -/
structure Ensuring (limits : Limits) (s : System Reply) : Prop where
  sound : s.Sound
  staged : s.Staged limits (Stage.Fits s)

/-- A call for a session keeps to the discipline. -/
theorem Input.IsEnsuring.beginsTame {input : Input Reply} (h : input.IsEnsuring limits) :
    input.BeginsTame := by
  cases input with
  | begin id call =>
    obtain rfl := h
    exact tame_call limits .ensure
  | _ => trivial

/-- Where a call stands when it has joined. -/
theorem stands_joining (limits : Limits) (s : System Reply) (id : CallId)
    (discarded : Option SessionId) :
    Stands limits (Stage.Fits (s.advance id (joining discarded)))
      ((joining discarded).settle s.pool).2 := by
  rcases settle_joining_cases limits discarded s.pool with ⟨session, -, hjoin⟩ | ⟨a, hflight, hcall⟩
  · rw [hjoin]
    exact .inl ⟨_, rfl⟩
  · exact .inr ⟨.waiting a, hcall, .inl hflight⟩

/-- **One step.** -/
theorem Ensuring.step {s : System Reply} (h : s.Ensuring limits) {input : Input Reply}
    (hinput : input.IsEnsuring limits) : (s.step input).Ensuring limits := by
  refine ⟨h.sound.step hinput.beginsTame, ?_⟩
  -- What the step does to the pool leaves every call at a stage that fits.
  have hframe : s.Staged limits (Stage.Fits (s.step input)) :=
    h.staged.imp fun _ hfits => hfits.step h.sound input
  have hstep := ensures_step h.sound h.staged hinput
  generalize s.step input = s' at hstep hframe ⊢
  cases hstep with
  | ignored => exact hframe
  | @lacking id _ _ => exact hframe.advance (stands_joining limits s id none) id
  | @looked id session _ hcurrent =>
    have hfits : session < s.sessions := h.sound.pool.current session hcurrent
    exact hframe.advance (.inr ⟨.probing session, rfl, hfits⟩) id
  | @passed id session answer _ _ => exact hframe.advance (.inl ⟨_, rfl⟩) id
  | @failed id session answer hprobing _ =>
    have hfits : session < s.sessions := h.staged.of_call? hprobing
    have hframe' : Staged limits (Stage.Fits _) { s with pool := s.pool.withdraw session } := hframe
    exact hframe'.advance (.inr ⟨.closing session, rfl, hfits, Pool.current_withdraw_ne _ _⟩) id
  | @closed id session _ =>
    have hframe' : (s.noteClosed session).Staged limits (Stage.Fits _) := hframe
    exact hframe'.advance (stands_joining limits (s.noteClosed session) id (some session)) id
  | @told id a outcome _ _ => exact hframe.advance (.inl ⟨_, rfl⟩) id
  | connected _ _ => exact hframe
  | abandoned id => exact hframe.abandon id

/-- When all calls have ended, there is nothing to go by but the pool and the attempts. -/
theorem Sound.ensuring {s : System Reply} (h : s.Sound)
    (hended : ∀ id call, s.call? id = some call → call.result?.isSome = true) :
    s.Ensuring limits :=
  ⟨h, staged_of_ended hended⟩

section Wait

variable {s : System Reply} {id : CallId}

/-- What a call waits for tells at which stage it stands. -/
theorem Ensuring.exists_stage (h : s.Ensuring limits) {wait : Wait}
    (hwait : s.wait? id = some wait) :
    ∃ stage : Stage, s.call? id = some (stage.call limits) ∧ stage.wait limits = wait := by
  obtain ⟨call, hcall, hwait⟩ := Option.bind_eq_some_iff.1 hwait
  rcases h.staged id call hcall with ⟨result, rfl⟩ | ⟨stage, rfl, -⟩
  · cases hwait
  · exact ⟨stage, hcall, Option.some.inj ((stage.wait?_call limits).symm.trans hwait)⟩

/-- A call that waits for a close is at the stage of closing. -/
theorem Ensuring.closing_of_wait? (h : s.Ensuring limits) {session : SessionId}
    (hwait : s.wait? id = some (.close session)) :
    s.call? id = some ((Stage.closing session).call limits) := by
  obtain ⟨stage, hcall, hstage⟩ := h.exists_stage hwait
  cases stage <;> cases hstage
  exact hcall

/-- A call that waits for an attempt is at the stage of waiting for it. -/
theorem Ensuring.waiting_of_wait? (h : s.Ensuring limits) {a : AttemptId}
    (hwait : s.wait? id = some (.attempt a)) :
    s.call? id = some ((Stage.waiting a).call limits) := by
  obtain ⟨stage, hcall, hstage⟩ := h.exists_stage hwait
  cases stage <;> cases hstage
  exact hcall

end Wait

theorem Ensuring.run {s : System Reply} (h : s.Ensuring limits) {inputs : List (Input Reply)}
    (hinputs : ∀ input ∈ inputs, input.IsEnsuring limits) : (s.run inputs).Ensuring limits :=
  run_of_step (fun _ hs _ hinput => hs.step hinput) h hinputs

end System

end CanvasLink.Broker
