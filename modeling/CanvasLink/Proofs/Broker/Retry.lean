import CanvasLink.Broker.Execution
import CanvasLink.Proofs.Broker.Provision

/-!
# CanvasLink — what retrying does

An operation under the retry policy, called while no other call is in progress.

* `Brings` — how a session is brought in, and `Try` — one attempt at the operation.
* `Retried` — all attempts of a call, with what lies between them; `RetriedFrom` adds what they leave
  in the pool.
* `wp_ensure`, `wp_tryOnce`, `wp_retrying` — one lemma for each call.
* **`execute_retried`** — the headline.
-/

namespace CanvasLink.Broker

open CanvasLink.Bridge CanvasLink.Json

/-! ## Attempts -/

/-- How a session is brought in, by what is current. A session that is kept has passed its probe;
one that has not is closed before a new one is made. -/
inductive Brings (limits : Limits) :
    Option SessionId → List Happening → Except Bridge.Error SessionId → Prop
  | made (a : AttemptId) (session : SessionId) :
    Brings limits none [.connected a (.ok ()), .shared a (.ok session)] (.ok session)
  | failed (a : AttemptId) (e : Bridge.Error) :
    Brings limits none [.connected a (.error e), .shared a (.error e)] (.error e)
  | kept (session : SessionId) (answer : ProbeAnswer) (h : Health.ofProbe answer = .healthy) :
    Brings limits (some session) [.probed session limits.probe answer] (.ok session)
  | replaced (session : SessionId) (answer : ProbeAnswer) (h : Health.ofProbe answer ≠ .healthy)
      {log : List Happening} {outcome : Except Bridge.Error SessionId}
      (hlog : Brings limits none log outcome) :
    Brings limits (some session)
      (.probed session limits.probe answer :: .closed session :: log) outcome

/-- One attempt at an operation: what was told while a session was brought in, and either the error
that left it without one, or the session with the end of the operation in it. -/
inductive Try where
  | stranded (opening : List Happening) (e : Bridge.Error)
  | ran (opening : List Happening) (session : SessionId) (outcome : Option Outcome)

namespace Try

def opening : Try → List Happening
  | stranded opening _ => opening
  | ran opening _ _ => opening

/-- What came of bringing in a session. -/
def brought : Try → Except Bridge.Error SessionId
  | stranded _ e => .error e
  | ran _ session _ => .ok session

/-- The session in which the operation was run. -/
def session? : Try → Option SessionId
  | stranded _ _ => none
  | ran _ session _ => some session

/-- What came of the attempt. An operation that overruns its limit fails. -/
def outcome (limits : Limits) : Try → Outcome
  | stranded _ e => .error e
  | ran _ _ (some outcome) => outcome
  | ran _ _ none => .error (.executionTimeout limits.retry.execTimeout)

/-- All that was told in the attempt. The operation is run once, when there is a session. -/
def told (limits : Limits) (operation : Operation) : Try → List Happening
  | stranded opening _ => opening
  | ran opening session outcome =>
    opening ++ [.ran session limits.retry.execTimeout operation outcome]

/-- What lies between the attempt and the next one: its session is closed, and there is a pause. -/
def between (limits : Limits) (t : Try) : List Happening :=
  (t.session?.map Happening.closed).toList ++ [.paused limits.retry.retryDelay]

/-- All that was told in attempts, one after the other. Nothing follows the last one. -/
def history (limits : Limits) (operation : Operation) : List Try → List Happening
  | [] => []
  | [t] => t.told limits operation
  | t :: ts => t.told limits operation ++ t.between limits ++ history limits operation ts

end Try

/-- A call under the retry policy that has gone through `tries`, with `current` at its start. -/
structure Retried (limits : Limits) (operation : Operation) (attempts : Nat)
    (current : Option SessionId) (log : List Happening) (result : Outcome) (tries : List Try) :
    Prop where
  /-- One attempt at least is made, and no more than the policy allows. -/
  length : 1 ≤ tries.length ∧ tries.length ≤ attempts
  log_eq : log = Try.history limits operation tries
  /-- The first attempt starts from the session that is current, all others from none. -/
  brings : ∀ i t, tries[i]? = some t →
    Brings limits (if i = 0 then current else none) t.opening t.brought
  /-- The result is the outcome of the last attempt. -/
  result_eq : tries.getLast?.map (Try.outcome limits) = some result
  /-- Every attempt before it has failed, and could do better the next time. -/
  failed : ∀ t ∈ tries.dropLast, ∃ e, t.outcome limits = .error e ∧ e.isRetryable = true
  /-- Such a failure is the result only when no attempts are left. -/
  last : ∀ e, result = .error e → e.isRetryable = true → tries.length = attempts
  /-- No session is used twice. -/
  sessions : (tries.filterMap Try.session?).Nodup

/-! ## One call after the other -/

/-- No attempt is in flight, and the current session is one of those that were made. -/
structure Pool.IsIdle (p : Pool) (sessions : Nat) : Prop where
  inFlight : p.inFlight = none
  current : ∀ session, p.current = some session → session < sessions

variable {limits : Limits} {operation : Operation} {p : Pool} {sessions : Nat}

/-- What bringing in a session leaves: the session that it gives is current, and is either the one
that was or a new one. -/
structure Brought (p p' : Pool) (sessions sessions' : Nat) (session? : Option SessionId) :
    Prop where
  inFlight : p'.inFlight = none
  forced : p'.forced = p.forced
  current : p'.current = session?
  le : sessions ≤ sessions'
  fresh : ∀ session, session? = some session →
    session < sessions' ∧ (p.current = some session ∨ sessions ≤ session)

/-- Without a current session what is told is the connect and its outcome. -/
theorem brings_connect (limits : Limits) (sessions : Nat) (a : AttemptId)
    (outcome : Except Bridge.Error Unit) :
    Brings limits none [.connected a outcome, .shared a (numbered sessions outcome)]
      (numbered sessions outcome) := by
  cases outcome with
  | ok _ => exact .made a sessions
  | error e => exact .failed a e

/-- A session that a connect has made is a new one. -/
theorem Provided.brought {p' : Pool} {sessions' : Nat} {outcome : Except Bridge.Error Unit}
    (h : Provided p p' sessions sessions' outcome) :
    Brought p p' sessions sessions' (numbered sessions outcome).toOption := by
  refine ⟨h.inFlight, h.forced, h.current, ?_, ?_⟩
  · rw [h.sessions]
    -- A session that was made has the number up to which there were none.
    cases outcome with
    | ok _ => exact Nat.le_succ sessions
    | error e => exact Nat.le_refl sessions
  · intro session hsession
    rw [h.sessions]
    cases outcome with
    | error e => cases hsession
    | ok _ =>
      cases hsession
      exact ⟨Nat.lt_succ_self _, .inr (Nat.le_refl _)⟩

/-- The search for a session in an idle pool ends with one of the openings, and the pool has what
was brought. -/
theorem wp_ensure (hp : p.IsIdle sessions) :
    (ensure limits).wp p sessions fun log outcome p' sessions' =>
      Brings limits p.current log outcome ∧ Brought p p' sessions sessions' outcome.toOption := by
  refine Call.wp_mono wp_ensure_supplied ?_
  intro log result p' sessions' hsupplied
  cases hsupplied with
  | @kept session hcurrent =>
    rw [hcurrent]
    refine ⟨.kept session _ rfl, hp.inFlight, rfl, hcurrent, Nat.le_refl _, ?_⟩
    rintro s ⟨⟩
    exact ⟨hp.current session hcurrent, .inl hcurrent⟩
  | @renewed before a outcome _ _ hunfit hprovided =>
    refine ⟨?_, hprovided.brought⟩
    have hbrings := brings_connect limits sessions a outcome
    generalize p.current = current at hunfit ⊢
    -- What was found unfit, if anything was, stands in front of the connect.
    cases hunfit with
    | absent => exact hbrings
    | found hanswer => exact .replaced _ _ (fun h => hanswer (healthy_iff.1 h)) hbrings

/-- One attempt in an idle pool tells its opening and then its evaluation, and its outcome is that
of the evaluation, or of the opening if that failed. -/
theorem wp_tryOnce (hp : p.IsIdle sessions) :
    (tryOnce limits operation).wp p sessions fun log outcome p' sessions' =>
      ∃ t : Try, Brings limits p.current t.opening t.brought ∧ log = t.told limits operation ∧
        outcome = t.outcome limits ∧ Brought p p' sessions sessions' t.session? := by
  refine Call.wp_bind (Call.wp_mono (wp_ensure hp) ?_)
  rintro log (e | session) p' sessions' ⟨hbrings, hbrought⟩
  · exact ⟨.stranded log e, hbrings, by simp [Try.told], rfl, hbrought⟩
  · refine Call.wp_bind fun outcome => ?_
    cases outcome with
    | none => exact ⟨.ran log session none, hbrings, by simp [Try.told], rfl, hbrought⟩
    | some outcome =>
      exact ⟨.ran log session (some outcome), hbrings, by simp [Try.told], rfl, hbrought⟩

/-- A forced close tells the close of the session that is current, if there is one, and is
counted. -/
theorem wp_forceClose :
    forceClose.wp p sessions fun log _ p' sessions' =>
      log = (p.current.map Happening.closed).toList ∧ sessions = sessions' ∧
        p' = { p with current := none, forced := p.forced + 1 } := by
  refine Call.wp_bind (Call.wp_bind ?_)
  simp only [Call.release, Call.wp, Act.run, Pool.countForced, Pool.release]
  cases hcurrent : p.current with
  | none => exact ⟨rfl, rfl, rfl⟩
  | some session => exact ⟨rfl, rfl, rfl⟩

/-! ## All attempts -/

/-- The first attempt is the last one if it succeeds, fails for good or is the only one left. -/
theorem Retried.single {attempts : Nat} {current : Option SessionId} {t : Try} (hpos : 1 ≤ attempts)
    (hbrings : Brings limits current t.opening t.brought)
    (hlast : ∀ e, t.outcome limits = .error e → e.isRetryable = true → 1 = attempts) :
    Retried limits operation attempts current (t.told limits operation) (t.outcome limits) [t] := by
  refine ⟨⟨Nat.le_refl 1, hpos⟩, rfl, ?_, rfl, by simp, hlast, ?_⟩
  · intro i t' ht'
    obtain ⟨rfl, rfl⟩ : i = 0 ∧ t = t' := by
      cases i with
      | zero => exact ⟨rfl, by simpa using ht'⟩
      | succ i => cases ht'
    exact hbrings
  · cases t with
    | stranded opening e => exact List.nodup_nil
    | ran opening session outcome => exact List.pairwise_singleton _ session

/-- An attempt that has failed, and then all others. -/
theorem Retried.cons {attempts : Nat} {current : Option SessionId} {t : Try}
    {log : List Happening} {result : Outcome} {tries : List Try} {e : Bridge.Error}
    (hbrings : Brings limits current t.opening t.brought) (he : t.outcome limits = .error e)
    (hretry : e.isRetryable = true) (h : Retried limits operation attempts none log result tries)
    (hfresh : ∀ session, t.session? = some session → ∀ t' ∈ tries, t'.session? ≠ some session) :
    Retried limits operation (attempts + 1) current
      (t.told limits operation ++ t.between limits ++ log) result (t :: tries) := by
  obtain ⟨t', ts, htries⟩ : ∃ t' ts, tries = t' :: ts := by
    cases htries : tries with
    | nil =>
      have := h.length.1
      simp [htries] at this
    | cons t' ts => exact ⟨t', ts, rfl⟩
  -- The rest has one attempt at least, so the last one is among them.
  refine ⟨?_, ?_, ?_, ?_, ?_, ?_, ?_⟩
  · have := h.length
    simp only [List.length_cons]
    omega
  · rw [h.log_eq, htries]
    rfl
  · intro i t'' ht''
    cases i with
    -- The first attempt starts from what is current, and the others from none.
    | zero =>
      obtain rfl : t = t'' := by simpa using ht''
      exact hbrings
    | succ i =>
      have hnone := h.brings i t'' (by simpa using ht'')
      simpa using hnone
  · have hresult := h.result_eq
    rw [htries] at hresult ⊢
    simpa using hresult
  · intro t'' ht''
    rw [htries, List.dropLast_cons_cons, List.mem_cons, ← htries] at ht''
    rcases ht'' with rfl | ht''
    · exact ⟨e, he, hretry⟩
    · exact h.failed t'' ht''
  · intro e' hresult hretryable
    rw [List.length_cons, h.last e' hresult hretryable]
  · cases hsession : t.session? with
    | none => simpa [hsession] using h.sessions
    | some session =>
      rw [List.filterMap_cons_some hsession, List.nodup_cons]
      refine ⟨fun hmem => ?_, h.sessions⟩
      -- The session of the new attempt is used by no later one.
      obtain ⟨t'', ht'', hsame⟩ := List.mem_filterMap.1 hmem
      exact hfresh session hsession t'' ht'' hsame

/-- A call under the retry policy that has gone through `tries`, with the pool and the number of
sessions at its start and the pool that it leaves. -/
structure RetriedFrom (limits : Limits) (operation : Operation) (attempts : Nat) (p : Pool)
    (sessions : Nat) (log : List Happening) (result : Outcome) (p' : Pool) (tries : List Try) :
    Prop where
  retried : Retried limits operation attempts p.current log result tries
  /-- One session is given up by force between two attempts. -/
  forced : p'.forced = p.forced + (tries.length - 1)
  /-- Only the session that was current and new ones are used. -/
  used : ∀ t ∈ tries, ∀ session, t.session? = some session →
    p.current = some session ∨ sessions ≤ session

/-- The attempts of a call end with the first one if it succeeds, fails for good or is the only one
left. -/
theorem RetriedFrom.single {attempts : Nat} {p' : Pool} {sessions' : Nat} {t : Try}
    (hpos : 1 ≤ attempts) (hbrings : Brings limits p.current t.opening t.brought)
    (hbrought : Brought p p' sessions sessions' t.session?)
    (hlast : ∀ e, t.outcome limits = .error e → e.isRetryable = true → 1 = attempts) :
    RetriedFrom limits operation attempts p sessions (t.told limits operation) (t.outcome limits) p'
      [t] := by
  refine ⟨.single hpos hbrings hlast, hbrought.forced, fun t' ht' session hsession => ?_⟩
  obtain rfl := List.mem_singleton.1 ht'
  exact (hbrought.fresh session hsession).2

/-- An attempt that has failed, the session that is given up behind it, and then all others. -/
theorem RetriedFrom.cons {attempts : Nat} {p' p'' : Pool} {sessions' : Nat} {t : Try}
    {log : List Happening} {result : Outcome} {tries : List Try} {e : Bridge.Error}
    (hbrings : Brings limits p.current t.opening t.brought)
    (hbrought : Brought p p' sessions sessions' t.session?) (he : t.outcome limits = .error e)
    (hretry : e.isRetryable = true)
    (h : RetriedFrom limits operation attempts
      { p' with current := none, forced := p'.forced + 1 } sessions' log result p'' tries) :
    RetriedFrom limits operation (attempts + 1) p sessions
      (t.told limits operation ++ t.between limits ++ log) result p'' (t :: tries) := by
  -- No session is current between two attempts, so all later ones use new sessions.
  have hlater : ∀ t' ∈ tries, ∀ session, t'.session? = some session → sessions' ≤ session :=
    fun t' ht' session hsession => (h.used t' ht' session hsession).resolve_left (by simp)
  refine ⟨.cons hbrings he hretry h.retried ?_, ?_, ?_⟩
  · intro session hsession t' ht' hsame
    have hlt := (hbrought.fresh session hsession).1
    exact absurd hlt (Nat.not_lt.2 (hlater t' ht' session hsame))
  · have hcount := h.retried.length.1
    have hforced := h.forced
    have hforced' := hbrought.forced
    simp only [List.length_cons] at hforced ⊢
    omega
  · intro t' ht' session hsession
    rcases List.mem_cons.1 ht' with rfl | ht'
    · exact (hbrought.fresh session hsession).2
    · exact .inr (Nat.le_trans hbrought.le (hlater t' ht' session hsession))

/-- All attempts. Induction on how many more there may be. -/
theorem wp_retrying (more : Nat) (hp : p.IsIdle sessions) :
    (retrying limits operation more).wp p sessions fun log result p' _ =>
      ∃ tries, RetriedFrom limits operation (more + 1) p sessions log result p' tries := by
  induction more generalizing p sessions with
  | zero =>
    refine Call.wp_mono (wp_tryOnce hp) ?_
    rintro log outcome p' sessions' ⟨t, hbrings, rfl, rfl, hbrought⟩
    exact ⟨[t], .single (Nat.le_refl 1) hbrings hbrought fun _ _ _ => rfl⟩
  | succ more ih =>
    refine Call.wp_bind (Call.wp_mono (wp_tryOnce hp) ?_)
    rintro log outcome p' sessions' ⟨t, hbrings, rfl, rfl, hbrought⟩
    -- Where the first attempt is not retried it is the only one.
    have hone (hlast : ∀ e, t.outcome limits = .error e → e.isRetryable ≠ true) :
        ∃ tries, RetriedFrom limits operation (more + 1 + 1) p sessions
          (t.told limits operation) (t.outcome limits) p' tries :=
      ⟨[t], .single (by omega) hbrings hbrought fun e he hretry => absurd hretry (hlast e he)⟩
    cases houtcome : t.outcome limits with
    | ok value =>
      rw [houtcome] at hone
      simpa [Call.wp, pure] using hone fun e he => by cases he
    | error e =>
      cases hretry : e.isRetryable with
      | false =>
        rw [houtcome] at hone
        simpa [Call.wp, pure, hretry] using hone fun e' he' => by
          cases he'
          simp [hretry]
      | true =>
        simp only [hretry, if_true]
        refine Call.wp_bind (Call.wp_mono wp_forceClose ?_)
        rintro _ _ _ _ ⟨rfl, rfl, rfl⟩
        refine Call.wp_bind ?_
        simp only [Call.pause, Call.wp, Wait.wp]
        -- The forced close leaves the pool without a session, from which the rest starts.
        have hidle : Pool.IsIdle { p' with current := none, forced := p'.forced + 1 } sessions' :=
          ⟨hbrought.inFlight, fun s hs => by cases hs⟩
        refine Call.wp_mono (ih hidle) ?_
        rintro log result p'' sessions'' ⟨tries, hretried⟩
        refine ⟨t :: tries, ?_⟩
        simpa [Try.between, hbrought.current] using
          RetriedFrom.cons hbrings hbrought houtcome hretry hretried

/-! ## How much is told -/

/-- An opening tells four things at most, and two where there is no session to begin with. -/
theorem Brings.length_le {current : Option SessionId} {log : List Happening}
    {outcome : Except Bridge.Error SessionId} (h : Brings limits current log outcome) :
    log.length ≤ 4 ∧ (current = none → log.length ≤ 2) := by
  induction h with
  | made a session => exact ⟨by simp, by simp⟩
  | failed a e => exact ⟨by simp, by simp⟩
  | kept session answer h => exact ⟨by simp, by simp⟩
  | replaced session answer h hlog ih =>
    have hle := ih.2 rfl
    exact ⟨by simp; omega, by simp⟩

/-- Seven things are told of each attempt at most: four of its opening, the evaluation, the forced
close and the pause. -/
theorem Try.length_history_le (limits : Limits) (operation : Operation) {tries : List Try}
    (h : ∀ t ∈ tries, t.opening.length ≤ 4) :
    (Try.history limits operation tries).length ≤ 7 * tries.length := by
  -- An attempt tells its opening and the evaluation; the close and the pause come in between.
  have htold (t : Try) (ht : t.opening.length ≤ 4) : (t.told limits operation).length ≤ 5 := by
    cases t with
    | stranded opening e =>
      have hle : opening.length ≤ 4 := ht
      simp only [Try.told]
      omega
    | ran opening session outcome =>
      have hle : opening.length ≤ 4 := ht
      simp only [Try.told, List.length_append, List.length_singleton]
      omega
  have hbetween (t : Try) : (t.between limits).length ≤ 2 := by
    cases t <;> simp [Try.between, Try.session?]
  induction tries with
  | nil => simp [Try.history]
  | cons t ts ih =>
    have hhead := htold t (h t (by simp))
    have hrest := ih fun t' ht' => h t' (List.mem_cons_of_mem t ht')
    cases ts with
    | nil =>
      simp only [Try.history, List.length_singleton]
      omega
    | cons t' ts =>
      have hpause := hbetween t
      simp only [Try.history, List.length_append, List.length_cons] at hrest ⊢
      omega

/-- The world tells at most seven things for each attempt that the policy allows. -/
theorem Retried.length_log_le {attempts : Nat} {current : Option SessionId}
    {log : List Happening} {result : Outcome} {tries : List Try}
    (h : Retried limits operation attempts current log result tries) :
    log.length ≤ 7 * attempts := by
  have hopening : ∀ t ∈ tries, t.opening.length ≤ 4 := by
    intro t ht
    obtain ⟨i, hi⟩ := List.mem_iff_getElem?.1 ht
    exact (h.brings i t hi).length_le.1
  have hle := Try.length_history_le limits operation hopening
  have hcount := h.length.2
  rw [h.log_eq]
  omega

/-! ## The call on the broker -/

/-- No call is in progress, no attempt is in flight, and the current session, if there is one, is
any of those that were made. -/
structure System.IsQuiet {ρ : Type} (s : System ρ) : Prop where
  calls : s.calls = []
  idle : s.pool.IsIdle s.sessions
  attempts : s.attempts.length = s.pool.attempts

/-- **The retry policy.** A call that runs alone from any session, with any answers of the world: it
ends when the world has told all that it can tell, and it has then gone through attempts as the
policy has it. What has been told before that is the beginning of such a call, and never more than
seven happenings for each attempt. -/
theorem execute_retried (limits : Limits) (operation : Operation)
    (hattempts : limits.retry.maxRetries.toNat + 1 < UInt32.size) (s : System Outcome) (hs : s.IsQuiet)
    (id : CallId) (inputs : List (System.Input Outcome))
    (hworld : ∀ input ∈ inputs, input.isOfWorld = true) :
    let start := s.step (.begin id (execute limits operation))
    let final := start.run inputs
    (∀ result, final.result? id = some result →
      ∃ tries, Retried limits operation (limits.retry.maxRetries.toNat + 1) s.pool.current
          (start.history inputs) result tries ∧
        final.pool.forced = s.pool.forced + (tries.length - 1)) ∧
    (final.result? id = none →
      (∃ input, input.isOfWorld = true ∧ final.observed input ≠ []) ∧
      ∃ later result tries, Retried limits operation (limits.retry.maxRetries.toNat + 1)
        s.pool.current (start.history inputs ++ later) result tries) ∧
    (start.history inputs).length ≤ 7 * (limits.retry.maxRetries.toNat + 1) := by
  intro start final
  have hless : limits.retry.maxRetries ≠ lastWord := by
    intro hlast
    rw [hlast] at hattempts
    exact absurd hattempts (Nat.lt_irrefl _)
  have hcall : (execute limits operation).wp s.pool s.sessions fun log result p' _ =>
      ∃ tries, Retried limits operation (limits.retry.maxRetries.toNat + 1) s.pool.current log
          result tries ∧
        p'.forced = s.pool.forced + (tries.length - 1) := by
    rw [execute_eq_retrying operation hless]
    refine Call.wp_mono (wp_retrying _ hs.idle) ?_
    rintro log result p' sessions' ⟨tries, htries⟩
    exact ⟨tries, htries.retried, htries.forced⟩
  have htracked : s.Tracked := ⟨hs.attempts, fun a ha => by
    rw [hs.idle.inFlight] at ha
    cases ha⟩
  have hstart : start = s.advance id (execute limits operation) := by
    simp [start, System.step, System.call?, hs.calls]
  have hleads : System.Leads start id _ := hstart ▸ System.leads_advance htracked (.inl hs.calls) hcall
  have hfinal := hleads.run hworld
  -- However the run goes on, its whole history has at most seven happenings to an attempt.
  have hbound : (start.history inputs).length ≤ 7 * (limits.retry.maxRetries.toNat + 1) := by
    obtain ⟨later, result, -, -, tries, hretried, -⟩ := hfinal.exists_log
    have hle := hretried.length_log_le
    rw [List.length_append] at hle
    omega
  -- Either the call has its result by now, or it waits for an input the world can still give.
  rcases hfinal.progress with ⟨result, hresult, tries, hretried, hforced⟩ | ⟨hnone, hinput⟩
  · refine ⟨fun result' hresult' => ?_, fun hnone => ?_, hbound⟩
    · obtain rfl : result = result' := Option.some.inj (hresult.symm.trans hresult')
      exact ⟨tries, by simpa using hretried, hforced⟩
    · rw [hresult] at hnone
      cases hnone
  · refine ⟨fun result' hresult' => ?_, fun _ => ⟨hinput, ?_⟩, hbound⟩
    · rw [hnone] at hresult'
      cases hresult'
    · obtain ⟨later, result, -, -, tries, hretried, -⟩ := hfinal.exists_log
      exact ⟨later, result, tries, hretried⟩

/-- The first attempt finds no context, the second one succeeds. -/
def recovery : List (System.Input Outcome) :=
  [.connected 0 (.error .contextNotFound), .share 0, .answer 0 .paused, .connected 1 (.ok ()),
   .share 0, .answer 0 (.ran (some (.ok .null)))]

/-- The first attempt finds no context, and after a pause the second one succeeds in a session of
its own. -/
theorem execute_retried_recovery :
    (({} : Limits).retry.maxRetries.toNat + 1 < UInt32.size ∧ (System.empty : System Outcome).IsQuiet ∧
        ∀ input ∈ recovery, input.isOfWorld = true) ∧
      ∃ tries, Retried {} (.custom 7) 3 none
          ((System.empty.step (.begin 0 (execute {} (.custom 7)))).history recovery) (.ok .null)
          tries ∧
        ((System.empty.step (.begin 0 (execute {} (.custom 7)))).run recovery).pool.forced =
          tries.length - 1 := by
  have hattempts : ({} : Limits).retry.maxRetries.toNat + 1 < UInt32.size := by decide
  have hquiet : (System.empty : System Outcome).IsQuiet :=
    ⟨rfl, ⟨rfl, fun session hsession => by cases hsession⟩, rfl⟩
  have hworld : ∀ input ∈ recovery, input.isOfWorld = true := by
    simp [recovery, System.Input.isOfWorld]
  have hresult : ((System.empty.step (.begin 0 (execute {} (.custom 7)))).run recovery).result? 0 =
      some (.ok .null) := rfl
  have hall := (execute_retried {} (.custom 7) hattempts System.empty hquiet 0 recovery hworld).1
  obtain ⟨tries, hretried, hforced⟩ := hall _ hresult
  exact ⟨⟨hattempts, hquiet, hworld⟩, tries, hretried, hforced.trans (Nat.zero_add _)⟩

end CanvasLink.Broker
