import CanvasLink.Proofs.Broker.Sharing

/-!
# CanvasLink — replacing a session once

Calls that ask for a session may find the same one hung, each of them at its own time. As long as
attempts succeed and what they make is sound, all these calls together replace the session once.

* `System.Unreplaced`, `System.Replaced` — before and after the new session is there. A step leads
  from the first to the second, and never back.
* `System.Course` — what one call has been told so far, and where it stands.
* **`System.ensure_shared`** — any number of calls that ask for a session.
-/

namespace CanvasLink.Broker

open CanvasLink.Bridge

variable {limits : Limits} {t s : System Reply}

/-- A stage before the new session is there: the call is concerned with the old one, or waits. -/
def Stage.IsOld (t s : System Reply) : Stage → Prop
  | probing session => t.pool.current = some session
  | closing session => t.pool.current = some session
  | waiting a => s.pool.inFlight = some a

/-- A stage after the new session is there: it may be probed, but it is not closed. -/
def Stage.IsNew (t s : System Reply) : Stage → Prop
  | probing session => t.pool.current = some session ∨ session = t.sessions
  | closing session => t.pool.current = some session
  | waiting a => s.attempts[a]? = some (.ended (.ok t.sessions))

namespace System

/-! ## Before and after -/

/-- One attempt at most has been begun, and none if one was in flight. -/
def Few (t s : System Reply) : Prop :=
  s.attempts.length ≤ t.attempts.length + 1 ∧
    (t.pool.inFlight ≠ none → s.attempts.length = t.attempts.length)

/-- No session has been made since `t`. -/
structure Unreplaced (limits : Limits) (t s : System Reply) : Prop where
  sessions : s.sessions = t.sessions
  current : s.pool.current = t.pool.current ∨ s.pool.current = none
  attempts : s.pool.inFlight = none →
    t.pool.inFlight = none ∧ s.attempts.length = t.attempts.length
  few : Few t s
  staged : s.Staged limits (Stage.IsOld t s)

/-- One session has been made since `t`. -/
structure Replaced (limits : Limits) (t s : System Reply) : Prop where
  sessions : s.sessions = t.sessions + 1
  current : s.pool.current = some t.sessions
  few : Few t s
  staged : s.Staged limits (Stage.IsNew t s)

/-- A call that leaves the pool as it is changes nothing but its own place. -/
theorem advance_eq (hlength : s.attempts.length = s.pool.attempts) {call call' : Call Reply}
    (h : call.settle s.pool = (s.pool, call')) (id : CallId) :
    s.advance id call = { s with calls := place id call' s.calls } := by
  simp [System.advance, h, hlength]

section Unreplaced

/-- A call comes to a stage or to its end without touching the pool. -/
theorem Unreplaced.goes (h : Unreplaced limits t s) (hlength : s.attempts.length = s.pool.attempts)
    {call call' : Call Reply} (hsettle : call.settle s.pool = (s.pool, call'))
    (hcall : Stands limits (Stage.IsOld t s) call') (id : CallId) :
    Unreplaced limits t (s.advance id call) := by
  have hstaged := h.staged.advance (by rwa [hsettle]) id
  rw [advance_eq hlength hsettle] at hstaged ⊢
  exact ⟨h.sessions, h.current, h.attempts, h.few, hstaged⟩

/-- A call joins the attempt in flight, or begins the only one. -/
theorem Unreplaced.joins (h : Unreplaced limits t s) (hs : s.Tracked)
    (hnone : s.pool.current = none) (id : CallId) (discarded : Option SessionId) :
    Unreplaced limits t (s.advance id (joining discarded)) := by
  -- No session is current, so there is nothing to be given but an attempt.
  obtain ⟨a, hflight, hwaits⟩ : ∃ a, (s.advance id (joining discarded)).pool.inFlight = some a ∧
      ((joining discarded).settle s.pool).2 = (Stage.waiting a).call limits := by
    rcases settle_joining_cases limits discarded s.pool with ⟨session, hcurrent, -⟩ | hattempt
    · rw [hnone] at hcurrent
      cases hcurrent
    · exact hattempt
  have hattempts := hs.attempts_advance id (joining discarded)
  have hframe : s.Staged limits (Stage.IsOld t (s.advance id (joining discarded))) := by
    refine h.staged.imp fun stage hold => ?_
    cases stage with
    | waiting b =>
      -- An attempt is begun only when nobody waits for one.
      rcases hattempts with ⟨-, hsame⟩ | ⟨hidle, -⟩
      · exact hsame.trans hold
      · exact absurd (hold.symm.trans hidle) (Option.some_ne_none b)
    | _ => exact hold
  refine ⟨h.sessions, .inr ?_, fun hidle => ?_, ?_,
    hframe.advance (.inr ⟨.waiting a, hwaits, hflight⟩) id⟩
  · rcases (joining discarded).loses_settle s.pool with hsame | hlost
    · exact hsame.trans hnone
    · exact hlost
  · rw [hflight] at hidle
    cases hidle
  · rcases hattempts with ⟨hsame, -⟩ | ⟨hidle, hmore, -⟩
    · rw [Few, hsame]
      exact h.few
    · obtain ⟨htidle, hlength⟩ := h.attempts hidle
      rw [Few, hmore, List.length_append, hlength]
      exact ⟨Nat.le_refl _, fun hsome => absurd htidle hsome⟩

/-- The session with which all began is taken out. -/
theorem Unreplaced.withdraw (h : Unreplaced limits t s) (session : SessionId) :
    Unreplaced limits t { s with pool := s.pool.withdraw session } := by
  rcases s.pool.withdraw_cases session with ⟨-, hpool⟩ | ⟨-, hpool⟩ <;> rw [hpool]
  · exact ⟨h.sessions, .inr rfl, h.attempts, h.few, h.staged⟩
  · exact ⟨h.sessions, h.current, h.attempts, h.few, h.staged⟩

/-- The attempt succeeds. -/
theorem Unreplaced.conclude (h : Unreplaced limits t s) (hs : s.Sound) {a : AttemptId}
    (hconnecting : s.attempts[a]? = some .connecting) :
    Replaced limits t (s.conclude a (.ok ())) := by
  have hattempts := hs.attempts_conclude hconnecting (.ok ())
  refine ⟨congrArg (· + 1) h.sessions, congrArg some h.sessions, ?_, h.staged.imp fun stage hold => ?_⟩
  · rw [Few, hattempts, List.length_set]
    exact h.few
  · -- Before the new session every stage is concerned with the old one, or waits for this attempt.
    cases stage with
    | probing session => exact .inl hold
    | closing session => exact hold
    | waiting b =>
      obtain rfl : b = a := Option.some.inj (hold.symm.trans (hs.unique a hconnecting))
      show (s.conclude b (.ok ())).attempts[b]? = _
      rw [hattempts, ← h.sessions]
      exact List.getElem?_set_self (List.getElem?_eq_some_iff.1 hconnecting).1

/-- That a session is closed changes nothing while the old one has not been replaced. -/
theorem Unreplaced.noteClosed (h : Unreplaced limits t s) (session : SessionId) :
    Unreplaced limits t (s.noteClosed session) :=
  ⟨h.sessions, h.current, h.attempts, h.few, h.staged⟩

/-- A session that is current before the replacement is the old one. -/
theorem Unreplaced.current_of_some (h : Unreplaced limits t s) {session : SessionId}
    (hcurrent : s.pool.current = some session) : t.pool.current = some session := by
  rcases h.current with hsame | hnone
  · exact hsame.symm.trans hcurrent
  · rw [hnone] at hcurrent
    cases hcurrent

/-- **One step before the new session is there.** -/
theorem Unreplaced.step (h : Unreplaced limits t s) (hs : s.Ensuring limits)
    {input : Input Reply} (hinput : input.IsFavourable limits t.sessions s) :
    Unreplaced limits t (s.step input) ∨ Replaced limits t (s.step input) := by
  have hlength := hs.sound.tracked.length
  have hgive (outcome : Except Bridge.Error SessionId) (id : CallId) :
      Unreplaced limits t (s.advance id (give outcome)) :=
    h.goes hlength rfl (.inl ⟨_, rfl⟩) id
  have hstep := ensures_step hs.sound hs.staged hinput.isEnsuring
  generalize s.step input = s' at hstep ⊢
  cases hstep with
  | ignored => exact .inl h
  | lacking _ hcurrent => exact .inl (h.joins hs.sound.tracked hcurrent _ none)
  | @looked id session _ hcurrent =>
    have hold : (Stage.probing session).IsOld t s := h.current_of_some hcurrent
    exact .inl (h.goes hlength rfl (.inr ⟨.probing session, rfl, hold⟩) id)
  | passed _ _ => exact .inl (hgive _ _)
  | @failed id session answer hcall _ =>
    have hold : (Stage.probing session).IsOld t s := h.staged.of_call? hcall
    have htracked : s.attempts.length = (s.pool.withdraw session).attempts := by
      rcases s.pool.withdraw_cases session with ⟨-, hpool⟩ | ⟨-, hpool⟩ <;> rw [hlength, hpool]
    exact .inl ((h.withdraw session).goes htracked rfl (.inr ⟨.closing session, rfl, hold⟩) id)
  | @closed id session hcall =>
    -- The session that is being closed is the one with which all began, so none is current.
    have hold : (Stage.closing session).IsOld t s := h.staged.of_call? hcall
    have hnone : s.pool.current = none := by
      rcases h.current with hsame | hnone
      · exact absurd (hsame.trans hold) (hs.staged.of_call? hcall).2
      · exact hnone
    exact .inl ((h.noteClosed session).joins (hs.sound.noteAnswer (.close session)).tracked hnone id
      (some session))
  | told _ _ => exact .inl (hgive _ _)
  | connected hconnecting _ =>
    obtain rfl := hinput
    exact .inr (h.conclude hs.sound hconnecting)
  | abandoned id =>
    exact .inl ⟨h.sessions, h.current, h.attempts, h.few, h.staged.abandon id⟩

end Unreplaced

section Replaced

/-- A call that leaves the pool as it is goes on to a stage that is right after the replacement. -/
theorem Replaced.goes (h : Replaced limits t s) (hlength : s.attempts.length = s.pool.attempts)
    {call call' : Call Reply} (hsettle : call.settle s.pool = (s.pool, call'))
    (hcall : Stands limits (Stage.IsNew t s) call') (id : CallId) :
    Replaced limits t (s.advance id call) := by
  have hstaged := h.staged.advance (by rwa [hsettle]) id
  rw [advance_eq hlength hsettle] at hstaged ⊢
  exact ⟨h.sessions, h.current, h.few, hstaged⟩

/-- A call that has closed the session with which all began is given the new one. -/
theorem Replaced.settle_joining (h : Replaced limits t s) {session : SessionId}
    (hlt : session < t.sessions) :
    (joining (some session)).settle s.pool = (s.pool, give (.ok t.sessions)) := by
  have hother : some session ≠ some t.sessions := fun hsame =>
    Nat.ne_of_lt hlt (Option.some.inj hsame)
  rw [Broker.settle_joining limits, Pool.join_of_other h.current hother]
  rfl

/-- **One step after the new session is there.** -/
theorem Replaced.step (h : Replaced limits t s) (hs : s.Ensuring limits) (ht : t.Sound)
    {input : Input Reply} (hinput : input.IsFavourable limits t.sessions s) :
    Replaced limits t (s.step input) := by
  have hlength := hs.sound.tracked.length
  have hgive (s : System Reply) (h : Replaced limits t s)
      (hlength : s.attempts.length = s.pool.attempts) {call : Call Reply}
      (outcome : Except Bridge.Error SessionId) (hcall : call.settle s.pool = (s.pool, give outcome))
      (id : CallId) : Replaced limits t (s.advance id call) :=
    h.goes hlength hcall (.inl ⟨_, rfl⟩) id
  have hstep := ensures_step hs.sound hs.staged hinput.isEnsuring
  generalize s.step input = s' at hstep ⊢
  cases hstep with
  | ignored => exact h
  | lacking _ hcurrent =>
    rw [h.current] at hcurrent
    cases hcurrent
  | @looked id session _ hcurrent =>
    have hnew : session = t.sessions := Option.some.inj (hcurrent.symm.trans h.current)
    exact h.goes hlength rfl (.inr ⟨.probing session, rfl, .inr hnew⟩) id
  | passed _ _ => exact hgive s h hlength _ rfl _
  | @failed id session answer hcall hunhealthy =>
    -- The new session passes its probes, so it is the old one that has not.
    have hold : t.pool.current = some session := by
      rcases h.staged.of_call? hcall with hold | rfl
      · exact hold
      · have hwait : s.wait? id = some (.probe t.sessions limits.probe) := by
          rw [System.wait?, hcall]
          rfl
        exact absurd (hinput _ _ hwait (Nat.le_refl _)) hunhealthy
    have hne : s.pool.current ≠ some session := by
      rw [h.current]
      exact fun hsame => Nat.ne_of_gt (ht.pool.current session hold) (Option.some.inj hsame)
    have hsame : s.pool.withdraw session = s.pool := if_neg hne
    rw [hsame]
    exact h.goes hlength rfl (.inr ⟨.closing session, rfl, hold⟩) id
  | @closed id session hcall =>
    have hlt := ht.pool.current session (h.staged.of_call? hcall)
    have hclosed : Replaced limits t (s.noteClosed session) :=
      ⟨h.sessions, h.current, h.few, h.staged⟩
    exact hgive _ hclosed hlength _ (hclosed.settle_joining hlt) id
  | told _ _ => exact hgive s h hlength _ rfl _
  | connected hconnecting _ =>
    have hnone := hs.sound.current_eq_none hconnecting
    rw [h.current] at hnone
    cases hnone
  | abandoned id => exact ⟨h.sessions, h.current, h.few, h.staged.abandon id⟩

end Replaced

/-! ## What each step preserves -/

/-- What holds while calls ask for a session in a favourable world. -/
structure Renewing (limits : Limits) (t s : System Reply) : Prop where
  ensuring : s.Ensuring limits
  phase : Unreplaced limits t s ∨ Replaced limits t s
  /-- Only the session with which all began has been closed since. -/
  closed : ∃ more, s.closed = t.closed ++ more ∧
    ∀ session ∈ more, t.pool.current = some session

/-- A session that a call closes is the one with which all began. -/
theorem Renewing.current_of_closing (h : Renewing limits t s) {id : CallId} {session : SessionId}
    (hcall : s.call? id = some ((Stage.closing session).call limits)) :
    t.pool.current = some session := by
  rcases h.phase with hbefore | hafter
  · exact hbefore.staged.of_call? hcall
  · exact hafter.staged.of_call? hcall

/-- One step, if it is favourable, does not leave the invariant: the session has not been replaced,
or has been replaced once. -/
theorem Renewing.step (h : Renewing limits t s) (ht : t.Sound) {input : Input Reply}
    (hinput : input.IsFavourable limits t.sessions s) : Renewing limits t (s.step input) := by
  refine ⟨h.ensuring.step hinput.isEnsuring, ?_, ?_⟩
  · rcases h.phase with hbefore | hafter
    · exact hbefore.step h.ensuring hinput
    · exact .inr (hafter.step h.ensuring ht hinput)
  · have hstep := ensures_step h.ensuring.sound h.ensuring.staged hinput.isEnsuring
    generalize s.step input = s' at hstep ⊢
    -- Only the answer to a close adds to what is closed.
    cases hstep with
    | @closed id session hcall =>
      obtain ⟨more, hclosed, hmore⟩ := h.closed
      refine ⟨more ++ [session], ?_, fun other hother => ?_⟩
      · show s.closed ++ [session] = _
        rw [hclosed, List.append_assoc]
      · rcases List.mem_append.1 hother with hother | hother
        · exact hmore other hother
        · obtain rfl := List.mem_singleton.1 hother
          exact h.current_of_closing hcall
    | _ => exact h.closed

/-- The invariant holds along every favourable run. -/
theorem Renewing.run (h : Renewing limits t s) (ht : t.Sound) {inputs : List (Input Reply)}
    (hinputs : s.Favours limits t.sessions inputs) : Renewing limits t (s.run inputs) := by
  induction inputs generalizing s with
  | nil => exact h
  | cons input inputs ih => exact ih (h.step ht hinputs.1) hinputs.2

/-! ## What a call is given -/

/-- What a call has been told since it began, when it found `first` current, and where it stands. -/
inductive Course (limits : Limits) (t : System Reply) (first : Option SessionId)
    (s : System Reply) : List Call.Event → Call Reply → Prop
  | asks {session : SessionId} (hfirst : first = some session) :
    Course limits t first s [] ((Stage.probing session).call limits)
  | kept {session : SessionId} {answer : ProbeAnswer} (hfirst : first = some session)
    (hhealthy : Health.ofProbe answer = .healthy) :
    Course limits t first s [.told (.probe session limits.probe) answer] (give (.ok session))
  | closes (log : List Call.Event) (session : SessionId) :
    Course limits t first s log ((Stage.closing session).call limits)
  | waits (log : List Call.Event) (a : AttemptId) :
    Course limits t first s log ((Stage.waiting a).call limits)
  | given (log : List Call.Event) (hmade : t.sessions < s.sessions) :
    Course limits t first s log (give (.ok t.sessions))

section Course

variable {first : Option SessionId} {log : List Call.Event} {call : Call Reply} {id : CallId}

/-- The course of a call stays what it was when sessions are added. -/
theorem Course.mono {s' : System Reply} (h : Course limits t first s log call)
    (hle : s.sessions ≤ s'.sessions) : Course limits t first s' log call := by
  cases h with
  | asks hfirst => exact .asks hfirst
  | kept hfirst hhealthy => exact .kept hfirst hhealthy
  | closes log session => exact .closes log session
  | waits log a => exact .waits log a
  | given log hmade => exact .given log (Nat.lt_of_lt_of_le hmade hle)

/-- A call that has just begun has been told nothing, and its first session is the one current at
that point. -/
theorem course_begin (limits : Limits) (t : System Reply) (hnone : s.call? id = none) :
    ∃ call, (s.step (.begin id (Request.ensure.call limits))).call? id = some call ∧
      Course limits t s.pool.current (s.step (.begin id (Request.ensure.call limits))) [] call := by
  refine ⟨_, call?_begin hnone _, ?_⟩
  -- What is current when the call begins decides whether it has a session to probe.
  cases hcurrent : s.pool.current with
  | some session =>
    rw [settle_ensure_some hcurrent]
    exact .asks rfl
  | none =>
    rw [settle_ensure_none hcurrent]
    rcases settle_joining_cases limits none s.pool with ⟨session, hsome, -⟩ | ⟨a, -, hwaits⟩
    · rw [hcurrent] at hsome
      cases hsome
    · rw [hwaits]
      exact .waits [] a

/-- A call that has closed the session with which all began is given the new one, or waits. -/
theorem Renewing.course_joining (h : Renewing limits t s) {session : SessionId}
    (hcall : s.call? id = some ((Stage.closing session).call limits)) {s' : System Reply}
    (hle : s.sessions ≤ s'.sessions) (log : List Call.Event) :
    Course limits t first s' log ((joining (some session)).settle s.pool).2 := by
  rcases settle_joining_cases limits (some session) s.pool with ⟨new, hnew, hjoin⟩ | ⟨a, -, hwaits⟩
  · rw [hjoin]
    rcases h.phase with hbefore | hafter
    · -- What is current before is the session that has just been closed.
      have hsame := (hbefore.current_of_some hnew).symm.trans (h.current_of_closing hcall)
      obtain rfl := Option.some.inj hsame
      exact absurd hnew (h.ensuring.staged.of_call? hcall).2
    · obtain rfl := Option.some.inj (hafter.current.symm.trans hnew)
      refine .given log (Nat.lt_of_lt_of_le ?_ hle)
      rw [hafter.sessions]
      exact Nat.lt_succ_self _
  · rw [hwaits]
    exact .waits log a

/-- A call that waits is told of the new session. -/
theorem Renewing.eq_of_ended (h : Renewing limits t s) {a : AttemptId}
    (hcall : s.call? id = some ((Stage.waiting a).call limits))
    {outcome : Except Bridge.Error SessionId} (hended : s.attempts[a]? = some (.ended outcome)) :
    outcome = .ok t.sessions ∧ t.sessions < s.sessions := by
  rcases h.phase with hbefore | hafter
  · have hconnecting := h.ensuring.sound.tracked.connecting a (hbefore.staged.of_call? hcall)
    cases hconnecting.symm.trans hended
  · have hok : s.attempts[a]? = some (.ended (.ok t.sessions)) := hafter.staged.of_call? hcall
    cases hok.symm.trans hended
    rw [hafter.sessions]
    exact ⟨rfl, Nat.lt_succ_self _⟩

/-- What a step adds to the log of a call keeps it on course. -/
theorem Course.step (h : Course limits t first s log call) (hs : Renewing limits t s)
    (hcall : s.call? id = some call) {input : Input Reply} (hstay : input.abandons id = false) :
    ∃ call', (s.step input).call? id = some call' ∧
      Course limits t first (s.step input) (log ++ s.moves id input) call' := by
  have hle := (s.renews_step input).1
  cases htells : input.tells id with
  | false =>
    rw [moves_of_not_tells htells, List.append_nil]
    exact ⟨call, call?_step_of_not_tells hcall hstay htells, h.mono hle⟩
  | true =>
    rcases step_of_tells hcall htells with ⟨hsame, hmoves⟩ |
      ⟨wait, rest, reply, closed, hawait, -, hstep, hmoves⟩
    · rw [hsame, hmoves, List.append_nil]
      exact ⟨call, hcall, h⟩
    · have hnext : (s.step input).call? id = some ((rest reply).settle s.pool).2 := by
        rw [hstep, call?_advance, if_pos rfl]
      cases h with
      | kept _ _ => cases hawait
      | given _ _ => cases hawait
      | @asks session hfirst =>
        cases hawait
        refine ⟨_, hnext, ?_⟩
        -- Only the answer of the session that was found matters here, not who is current by now.
        by_cases hhealthy : Health.ofProbe reply = .healthy
        · rw [settle_judged_healthy hhealthy, hmoves, acts_judged_healthy hhealthy]
          exact .kept hfirst hhealthy
        · rw [settle_judged_not_healthy limits hhealthy]
          exact .closes _ session
      | closes _ session =>
        cases hawait
        exact ⟨_, hnext, hs.course_joining hcall hle _⟩
      | waits _ a =>
        rcases call?_step_of_waiting hcall hstay with hstill | ⟨outcome, hended, hdone⟩
        · exact ⟨_, hstill, .waits _ a⟩
        · obtain ⟨rfl, hmade⟩ := hs.eq_of_ended hcall hended
          exact ⟨_, hdone, .given _ (Nat.lt_of_lt_of_le hmade hle)⟩

/-- A call that is not abandoned stays on course along every favourable run. -/
theorem Course.run (h : Course limits t first s log call) (hs : Renewing limits t s)
    (ht : t.Sound) (hcall : s.call? id = some call) {inputs : List (Input Reply)}
    (hinputs : s.Favours limits t.sessions inputs)
    (hstay : ∀ input ∈ inputs, input.abandons id = false) :
    ∃ call', (s.run inputs).call? id = some call' ∧
      Course limits t first (s.run inputs) (log ++ s.path id inputs) call' := by
  induction inputs generalizing s log call with
  | nil => exact ⟨call, hcall, by rwa [path, List.append_nil]⟩
  | cons input inputs ih =>
    rw [List.forall_mem_cons] at hstay
    obtain ⟨call', hcall', hnext⟩ := h.step hs hcall hstay.1
    rw [path, ← List.append_assoc]
    exact ih hnext (hs.step ht hinputs.1) hcall' hinputs.2 hstay.2

end Course

/-- At the start, with all calls ended, nothing has been replaced. -/
theorem Sound.renewing (h : t.Sound)
    (hended : ∀ id call, t.call? id = some call → call.result?.isSome = true) :
    Renewing limits t t := by
  refine ⟨h.ensuring hended, .inl ⟨rfl, .inl rfl, fun hidle => ⟨hidle, rfl⟩,
    ⟨Nat.le_succ _, fun _ => rfl⟩, staged_of_ended hended⟩,
    [], (List.append_nil _).symm, fun _ hother => absurd hother List.not_mem_nil⟩

/-! ## Any number of calls -/

/-- Users ask for what the broker offers, and may go away before it is done. -/
def Input.IsOffered (limits : Limits) : Input Reply → Prop
  | .begin _ call => ∃ request : Request, call = request.call limits
  | _ => True

/-- Of what is offered to the broker every call keeps to the discipline. -/
theorem Input.IsOffered.beginsTame {input : Input Reply} (h : input.IsOffered limits) :
    input.BeginsTame := by
  cases input with
  | begin id call =>
    obtain ⟨request, rfl⟩ := h
    exact tame_call limits request
  | _ => trivial

/-- A run is favourable exactly if its first part is, and its second part from where the first one
ends. -/
theorem favours_append {first : SessionId} {inputs more : List (Input Reply)} :
    s.Favours limits first (inputs ++ more) ↔
      s.Favours limits first inputs ∧ (s.run inputs).Favours limits first more := by
  induction inputs generalizing s with
  | nil => exact (and_iff_right trivial).symm
  | cons input inputs ih =>
    show _ ∧ (s.step input).Favours limits first (inputs ++ more) ↔ (_ ∧ _) ∧ _
    rw [ih, and_assoc]
    rfl

/-- There are few closes and few attempts in either case. -/
theorem Renewing.few (h : Renewing limits t s) : Few t s := by
  rcases h.phase with hbefore | hafter
  · exact hbefore.few
  · exact hafter.few

/-- One session is made at most. -/
theorem Renewing.sessions_le (h : Renewing limits t s) : s.sessions ≤ t.sessions + 1 := by
  rcases h.phase with hbefore | hafter
  · exact hbefore.sessions ▸ Nat.le_succ _
  · exact Nat.le_of_eq hafter.sessions

/-- If a session has been made, the old one has been replaced. -/
theorem Renewing.replaced (h : Renewing limits t s) (hmade : t.sessions < s.sessions) :
    Replaced limits t s := by
  rcases h.phase with hbefore | hafter
  · exact absurd hbefore.sessions (Nat.ne_of_gt hmade)
  · exact hafter

/-- **What a call ends with.** -/
theorem Renewing.result_of_begin (h : Renewing limits t s) (ht : t.Sound) {id : CallId}
    (hnone : s.call? id = none) {after : List (Input Reply)}
    (hafter : s.Favours limits t.sessions (.begin id (Request.ensure.call limits) :: after))
    (hstay : ∀ input ∈ after, input.abandons id = false) {result : Reply}
    (hresult : (s.run (.begin id (Request.ensure.call limits) :: after)).result? id =
      some result) :
    (∃ session answer, s.pool.current = some session ∧
        (s.step (.begin id (Request.ensure.call limits))).path id after =
          [.told (.probe session limits.probe) answer] ∧
        Health.ofProbe answer = .healthy ∧ result = .session (.ok session)) ∨
      t.sessions < (s.run (.begin id (Request.ensure.call limits) :: after)).sessions ∧
        result = .session (.ok t.sessions) := by
  obtain ⟨call, hcall, hbegun⟩ := course_begin limits t hnone
  obtain ⟨call', hcall', hcourse⟩ := hbegun.run (h.step ht hafter.1) ht hcall hafter.2 hstay
  rw [List.nil_append] at hcourse
  have hdone : call'.result? = some result := by
    have hlast : (s.run (.begin id (Request.ensure.call limits) :: after)).call? id = some call' :=
      hcall'
    rwa [System.result?, hlast] at hresult
  generalize hpath : (s.step (.begin id (Request.ensure.call limits))).path id after = log at hcourse
  -- Of the five courses two have come to an end: the session was kept, or the new one given.
  cases hcourse with
  | asks _ => cases hdone
  | closes _ _ => cases hdone
  | waits _ _ => cases hdone
  | @kept session answer hfirst hhealthy =>
    exact .inl ⟨session, answer, hfirst, rfl, hhealthy, (Option.some.inj hdone).symm⟩
  | given _ hmade => exact .inr ⟨hmade, (Option.some.inj hdone).symm⟩

/-- **Calls that ask for a session**, in any number and order, on a broker in any state in which
nothing else is going on. -/
theorem ensure_shared (limits : Limits) {history inputs : List (Input Reply)}
    (hhistory : ∀ input ∈ history, input.IsOffered limits)
    (hended : ∀ id call, ((empty : System Reply).run history).call? id = some call →
      call.result?.isSome = true)
    (hinputs : ∀ input ∈ inputs, input.IsEnsuring limits) :
    let t := (empty : System Reply).run history
    let s := t.run inputs
    -- A call that waits for an attempt ends with the outcome of this attempt.
    (∀ id a, s.wait? id = some (.attempt a) → ∀ more : List (Input Reply),
      (∀ input ∈ more, input.abandons id = false) →
        (s.run more).wait? id = some (.attempt a) ∨
          ∃ outcome, (s.run more).attempts[a]? = some (.ended outcome) ∧
            (s.run more).result? id = some (.session outcome)) ∧
    -- After an attempt that has failed, the next call that needs a session begins another one.
    (∀ (a : AttemptId) e, s.attempts[a]? = some .connecting → s.isAwaited a = true →
      ∀ more : List (Input Reply), (∀ input ∈ more, input.IsEnsuring limits) →
        let later := (s.step (.connected a (.error e))).run more
        later.attempts.length = s.attempts.length →
          later.Vacant ∧
          (∀ id, later.call? id = none →
            later.BeginsAttempt id (.begin id (Request.ensure.call limits))) ∧
          ∀ id session, later.wait? id = some (.close session) →
            later.BeginsAttempt id (.answer id .closed)) ∧
    -- Every call waits three times at most, and what it waits for can come.
    (∀ before id after, inputs = before ++ .begin id (Request.ensure.call limits) :: after →
      (t.run before).call? id = none → (∀ input ∈ after, input.abandons id = false) →
        (((t.run before).step (.begin id (Request.ensure.call limits))).path id after).countP
            Call.Event.isTold ≤ 3 ∧
          s.Ends limits t.sessions id 3) ∧
    -- If attempts succeed and what they make passes its probes, there is one new session at most;
    (t.Favours limits t.sessions inputs →
      s.sessions ≤ t.sessions + 1 ∧ Few t s ∧
      -- it stays, and only the session that was there at first is closed;
      (s.sessions = t.sessions + 1 → s.pool.current = some t.sessions) ∧
      (∃ more, s.closed = t.closed ++ more ∧ ∀ session ∈ more, t.pool.current = some session) ∧
      (∀ id session, s.wait? id = some (.close session) → t.pool.current = some session) ∧
      -- and every call ends with the session that it has found and probed, or with the new one.
      ∀ before id after result,
        inputs = before ++ .begin id (Request.ensure.call limits) :: after →
        (t.run before).call? id = none → (∀ input ∈ after, input.abandons id = false) →
        s.result? id = some result →
          (∃ session answer, (t.run before).pool.current = some session ∧
            ((t.run before).step (.begin id (Request.ensure.call limits))).path id after =
              [.told (.probe session limits.probe) answer] ∧
            Health.ofProbe answer = .healthy ∧ result = .session (.ok session)) ∨
          s.sessions = t.sessions + 1 ∧ result = .session (.ok t.sessions)) := by
  intro t s
  have ht : t.Sound := sound_empty.run fun input hinput => (hhistory input hinput).beginsTame
  have hstart : t.Ensuring limits := ht.ensuring hended
  have hs : s.Ensuring limits := hstart.run hinputs
  refine ⟨fun id a hwait more hstay => hs.told_of_waiting hwait hstay,
    fun a e hconnecting hawaited more hmore => hs.begins_again hconnecting hawaited e hmore, ?_, ?_⟩
  · intro before id after hsplit hnone hstay
    rw [hsplit, List.forall_mem_append, List.forall_mem_cons] at hinputs
    -- The run is cut where the call begins.
    have hrun : s = ((t.run before).step (.begin id (Request.ensure.call limits))).run after := by
      simp only [s, hsplit, run_append]
      rfl
    rw [hrun]
    exact (hstart.run hinputs.1).ends hnone hinputs.2.2 hstay t.sessions
  · intro hfavours
    have hrenewing : Renewing limits t s := (ht.renewing hended).run ht hfavours
    refine ⟨hrenewing.sessions_le, hrenewing.few, fun hmade => ?_, hrenewing.closed,
      fun id session hwait => hrenewing.current_of_closing (hs.closing_of_wait? hwait), ?_⟩
    · exact (hrenewing.replaced (hmade ▸ Nat.lt_succ_self _)).current
    · intro before id after result hsplit hnone hstay hresult
      rw [hsplit, favours_append] at hfavours
      have hrun : s = (t.run before).run (.begin id (Request.ensure.call limits) :: after) := by
        simp only [s, hsplit, run_append]
      rw [hrun] at hresult
      -- Up to where the call begins the run is favourable, too.
      have hbefore : Renewing limits t (t.run before) := (ht.renewing hended).run ht hfavours.1
      rcases hbefore.result_of_begin ht hnone hfavours.2 hstay hresult with hkept | ⟨hmade, hgiven⟩
      · exact .inl hkept
      · rw [← hrun] at hmade
        exact .inr ⟨(hrenewing.replaced hmade).sessions, hgiven⟩

/-- A user has brought in a session. -/
def settled : List (Input Reply) :=
  [.begin 0 (Request.ensure.call {}), .connected 0 (.ok ()), .share 0]

theorem isOffered_settled : ∀ input ∈ settled, input.IsOffered {} := by
  simp only [settled, List.forall_mem_cons]
  exact ⟨⟨.ensure, rfl⟩, trivial, trivial, by simp⟩

/-- Both calls of the settled run have ended. -/
theorem ended_settled (id : CallId) (call : Call Reply)
    (hcall : ((empty : System Reply).run settled).call? id = some call) :
    call.result?.isSome = true := by
  have hcalls : ((empty : System Reply).run settled).calls = [(0, give (.ok 0))] := rfl
  rw [call?_eq hcalls] at hcall
  split at hcall
  · cases hcall
    rfl
  · cases hcall

/-- Two users find that it hangs, the second one when the first one has a new session already. -/
def staggered : List (Input Reply) :=
  [.begin 1 (Request.ensure.call {}), .begin 2 (Request.ensure.call {}),
   .answer 1 (.probed .late), .answer 1 .closed, .connected 1 (.ok ()), .share 1,
   .answer 2 (.probed .late), .answer 2 .closed]

/-- Two calls find that the session hangs, the second one when the first one has a new session
already: both are given the new one. -/
theorem ensure_shared_staggered :
    (∀ input ∈ settled, input.IsOffered {}) ∧
      (∀ id call, ((empty : System Reply).run settled).call? id = some call →
        call.result?.isSome = true) ∧
      (∀ input ∈ staggered, input.IsEnsuring {}) ∧
      ((empty : System Reply).run settled).Favours {} 1 staggered ∧
      (((empty : System Reply).run settled).run staggered).pool.current = some 1 ∧
      (((empty : System Reply).run settled).run staggered).result? 1 = some (.session (.ok 1)) ∧
      (((empty : System Reply).run settled).run staggered).result? 2 = some (.session (.ok 1)) := by
  have hensuring : ∀ input ∈ staggered, input.IsEnsuring {} := by
    simp only [staggered, List.forall_mem_cons]
    exact ⟨rfl, rfl, trivial, trivial, trivial, trivial, trivial, trivial, by simp⟩
  -- Both probe session 0, which was there before.
  have hold (s : System Reply) (id : CallId)
      (hprobes : s.wait? id = some (.probe 0 ({} : Limits).probe)) :
      (Input.answer id (.probed .late)).IsFavourable {} 1 s := by
    intro session limit hwait hnew
    cases hprobes.symm.trans hwait
    exact absurd hnew (by decide)
  have hfavours : ((empty : System Reply).run settled).Favours {} 1 staggered :=
    ⟨rfl, rfl, hold _ 1 rfl, trivial, rfl, trivial, hold _ 2 rfl, trivial, trivial⟩
  obtain ⟨-, -, -, hfavourable⟩ := ensure_shared {} isOffered_settled ended_settled hensuring
  obtain ⟨-, -, hstays, -⟩ := hfavourable hfavours
  exact ⟨isOffered_settled, ended_settled, hensuring, hfavours, hstays rfl, rfl, rfl⟩

end System

end CanvasLink.Broker
