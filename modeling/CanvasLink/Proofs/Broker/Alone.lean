import CanvasLink.Broker.System

/-!
# CanvasLink — a call alone on the broker

What a call does when no other call is in progress, for every way in which the world can answer it.

* `Happening`, `System.history` — what the world has told in a run, in order; `tells_step` says what a
  step can do and what it tells.
* `Call.wp` — what has to hold for all that a call may go through to meet a condition on its
  happenings, its result and what it leaves behind.
* `Leads.step`, `Leads.progress` — a system whose only call meets a condition goes on meeting it,
  and does not stand still before the call has ended.
* **`Leads.run`** — the headline: a condition that is proved of the call holds of every run.
-/

namespace CanvasLink.Broker

open CanvasLink.Bridge

/-! ## Happenings -/

/-- Something that the world has told. -/
inductive Happening where
  | probed (session : SessionId) (limit : Duration) (answer : ProbeAnswer)
  | ran (session : SessionId) (limit : Duration) (operation : Operation)
      (outcome : Option Outcome)
  | closed (session : SessionId)
  | paused (span : Duration)
  /-- The connector has ended an attempt. -/
  | connected (attempt : AttemptId) (outcome : Except Bridge.Error Unit)
  /-- An attempt has closed the session that it has found left over. -/
  | cleared (attempt : AttemptId)
  /-- A call has been told the outcome of an attempt. -/
  | shared (attempt : AttemptId) (outcome : Except Bridge.Error SessionId)
  /-- A call has gone on behind a panic. This is never told (`System.revived_not_mem_history`). -/
  | revived

/-- A reply to a wait, as something that the world has told. -/
def Wait.happening : (wait : Wait) → wait.Reply → Happening
  | .probe session limit, answer => .probed session limit answer
  | .run session limit operation, outcome => .ran session limit operation outcome
  | .close session, _ => .closed session
  | .attempt a, outcome => .shared a outcome
  | .pause span, _ => .paused span
  | .panic, _ => .revived

theorem Wait.ne_attempt_of_accept? {wait : Wait} {answer : Answer} {reply : wait.Reply}
    (h : wait.accept? answer = some reply) : ∀ a, wait ≠ .attempt a := by
  rintro a rfl
  cases answer <;> cases h

/-- Nothing that the world can answer is an answer to a panic. -/
theorem Wait.ne_panic_of_accept? {wait : Wait} {answer : Answer} {reply : wait.Reply}
    (h : wait.accept? answer = some reply) : wait ≠ .panic := by
  rintro rfl
  cases answer <;> cases h

namespace System

variable {ρ : Type}

/-- What an input tells in a state; nothing when it does not fit. -/
def observed (s : System ρ) : Input ρ → List Happening
  | .answer id answer =>
    match s.call? id with
    | some (.await wait _) =>
      match wait.accept? answer with
      | some reply => [wait.happening reply]
      | none => []
    | _ => []
  | .share id =>
    match s.call? id with
    | some (.await (.attempt a) _) =>
      match s.attempts[a]? with
      | some (.ended outcome) => [.shared a outcome]
      | _ => []
    | _ => []
  | .connected a outcome =>
    match s.attempts[a]? with
    | some .connecting => if s.isAwaited a then [.connected a outcome] else []
    | _ => []
  | .cleared a =>
    match s.attempts[a]? with
    | some (.closing _ _) => if s.isAwaited a then [.cleared a] else []
    | _ => []
  | _ => []

/-- All that inputs tell, one after the other. -/
def history (s : System ρ) : List (Input ρ) → List Happening
  | [] => []
  | input :: inputs => s.observed input ++ (s.step input).history inputs

/-- Whether an input comes from the world and not from a user of the broker. -/
def Input.isOfWorld : Input ρ → Bool
  | .begin _ _ => false
  | .abandon _ => false
  | _ => true

/-! ### What a step does and tells -/

/-- What an input can bring about, and what it tells. -/
inductive Tells (s : System ρ) : Input ρ → System ρ → List Happening → Prop
  | ignored (input : Input ρ) : Tells s input s []
  | begun {id : CallId} {call : Call ρ} (hnone : s.call? id = none) :
    Tells s (.begin id call) (s.advance id call) []
  | answered {id : CallId} {answer : Answer} {wait : Wait} {rest : wait.Reply → Call ρ}
    {reply : wait.Reply} (hcall : s.call? id = some (.await wait rest))
    (hreply : wait.accept? answer = some reply) :
    Tells s (.answer id answer) ((s.noteAnswer wait).advance id (rest reply))
      [wait.happening reply]
  | shared {id : CallId} {a : AttemptId} {rest : Except Bridge.Error SessionId → Call ρ}
    {outcome : Except Bridge.Error SessionId} (hcall : s.call? id = some (.await (.attempt a) rest))
    (hended : s.attempts[a]? = some (.ended outcome)) :
    Tells s (.share id) (s.advance id (rest outcome)) [.shared a outcome]
  | connected {a : AttemptId} {outcome : Except Bridge.Error Unit}
    (hconnecting : s.attempts[a]? = some .connecting) (hawaited : s.isAwaited a = true) :
    Tells s (.connected a outcome) (s.conclude a outcome) [.connected a outcome]
  | cleared {a : AttemptId} {previous : SessionId} {outcome : Except Bridge.Error SessionId}
    (hclosing : s.attempts[a]? = some (.closing previous outcome))
    (hawaited : s.isAwaited a = true) :
    Tells s (.cleared a)
      { s.noteClosed previous with attempts := s.attempts.set a (.ended outcome) } [.cleared a]
  | abandoned (id : CallId) :
    Tells s (.abandon id) { s with calls := s.calls.filter fun entry => entry.1 ≠ id } []

/-- **One step**, and what is told in it. -/
theorem tells_step (s : System ρ) (input : Input ρ) :
    Tells s input (s.step input) (s.observed input) := by
  cases input with
  | begin id call =>
    simp only [step, observed]
    cases hcall : s.call? id with
    | none => exact .begun hcall
    | some _ => exact .ignored _
  | answer id answer =>
    simp only [step, observed]
    cases hcall : s.call? id with
    | none => exact .ignored _
    | some call =>
      cases call with
      | done result => exact .ignored _
      | act a rest => exact .ignored _
      | await wait rest =>
        dsimp only
        cases hreply : wait.accept? answer with
        | none => exact .ignored _
        | some reply => exact .answered hcall hreply
  | share id =>
    simp only [step, observed]
    cases hcall : s.call? id with
    | none => exact .ignored _
    | some call =>
      cases call with
      | done result => exact .ignored _
      | act a rest => exact .ignored _
      | await wait rest =>
        cases wait with
        | attempt a =>
          dsimp only
          cases hprogress : s.attempts[a]? with
          | none => exact .ignored _
          | some progress =>
            cases progress with
            | ended outcome => exact .shared hcall hprogress
            | connecting => exact .ignored _
            | closing previous outcome => exact .ignored _
        -- Only a call that waits for an attempt can be told the outcome of one.
        | _ => exact .ignored _
  | connected a outcome =>
    simp only [step, observed]
    cases hprogress : s.attempts[a]? with
    | none => exact .ignored _
    | some progress =>
      cases progress with
      | connecting =>
        cases hawaited : s.isAwaited a with
        | false => exact .ignored _
        | true => exact .connected hprogress hawaited
      | closing previous outcome => exact .ignored _
      | ended outcome => exact .ignored _
  | cleared a =>
    simp only [step, observed]
    cases hprogress : s.attempts[a]? with
    | none => exact .ignored _
    | some progress =>
      cases progress with
      | closing previous outcome =>
        cases hawaited : s.isAwaited a with
        | false => exact .ignored _
        | true => exact .cleared hprogress hawaited
      | connecting => exact .ignored _
      | ended outcome => exact .ignored _
  | abandon id => exact .abandoned id

/-- What the world tells in a step is never the end of a panic. -/
theorem revived_not_mem_observed (s : System ρ) (input : Input ρ) :
    .revived ∉ s.observed input := by
  have htells := s.tells_step input
  generalize s.step input = s', s.observed input = told at htells ⊢
  intro hrevived
  cases htells with
  | @answered id answer wait rest reply _ hreply =>
    have hhappening : wait.happening reply = .revived := (List.mem_singleton.1 hrevived).symm
    -- `revived` would have to be the happening of the wait answered, and none of the world's waits
    -- has it: only a panic does, which no reply ends.
    cases wait with
    | panic => exact Wait.ne_panic_of_accept? hreply rfl
    | _ => cases hhappening
  | shared _ _ => cases List.mem_singleton.1 hrevived
  | connected _ _ => cases List.mem_singleton.1 hrevived
  | cleared _ _ => cases List.mem_singleton.1 hrevived
  | _ => exact absurd hrevived List.not_mem_nil

/-- **No call goes on behind a panic**, in any run. -/
theorem revived_not_mem_history (s : System ρ) (inputs : List (Input ρ)) :
    .revived ∉ s.history inputs := by
  induction inputs generalizing s with
  | nil => exact List.not_mem_nil
  | cons input inputs ih =>
    rw [history, List.mem_append, not_or]
    exact ⟨s.revived_not_mem_observed input, ih (s.step input)⟩

end System

/-! ## What a call may go through -/

/-- A condition on the happenings of a call, its result, and the pool and the number of sessions
that it leaves behind. -/
abbrev Post (α : Type) := List Happening → α → Pool → Nat → Prop

/-- The outcome of an attempt, with the number of the session that it has made. -/
def numbered (sessions : Nat) (outcome : Except Bridge.Error Unit) :
    Except Bridge.Error SessionId :=
  outcome.map fun _ => sessions

/-- The number of sessions after an attempt. -/
def sessionsAfter (sessions : Nat) : Except Bridge.Error Unit → Nat
  | .ok _ => sessions + 1
  | .error _ => sessions

/-- What has to hold for `next` to hold behind a wait, whatever the world tells. Only the attempt in
flight is waited for, and no session is current while it connects. Nothing holds behind a panic. -/
def Wait.wp (p : Pool) (sessions : Nat) :
    (wait : Wait) → (List Happening → wait.Reply → Pool → Nat → Prop) → Prop
  | .attempt a, next =>
    p.inFlight = some a ∧ p.current = none ∧ ∀ outcome,
      next [.connected a outcome, .shared a (numbered sessions outcome)] (numbered sessions outcome)
        (p.conclude (numbered sessions outcome)).1 (sessionsAfter sessions outcome)
  | .probe session limit, next => ∀ answer, next [.probed session limit answer] answer p sessions
  | .run session limit operation, next =>
    ∀ outcome, next [.ran session limit operation outcome] outcome p sessions
  | .close session, next => next [.closed session] () p sessions
  | .pause span, next => next [.paused span] () p sessions
  | .panic, _ => False

namespace Call

variable {α β : Type}

/-- What has to hold for a call that runs alone to end in `Q`, whatever the world tells. -/
def wp : Call α → Pool → Nat → Post α → Prop
  | done result, p, sessions, Q => Q [] result p sessions
  | act a rest, p, sessions, Q => (rest (a.run p).2).wp (a.run p).1 sessions Q
  | await wait rest, p, sessions, Q =>
    wait.wp p sessions fun told reply p sessions =>
      (rest reply).wp p sessions fun log => Q (told ++ log)

end Call

/-- A weaker condition holds behind a wait whenever a stronger one does. -/
theorem Wait.wp_mono {wait : Wait} {p : Pool} {sessions : Nat}
    {next next' : List Happening → wait.Reply → Pool → Nat → Prop} (h : wait.wp p sessions next)
    (himp : ∀ told reply p sessions, next told reply p sessions → next' told reply p sessions) :
    wait.wp p sessions next' := by
  cases wait with
  | attempt a => exact ⟨h.1, h.2.1, fun outcome => himp _ _ _ _ (h.2.2 outcome)⟩
  | probe session limit => exact fun answer => himp _ _ _ _ (h answer)
  | run session limit operation => exact fun outcome => himp _ _ _ _ (h outcome)
  | close session => exact himp _ _ _ _ h
  | pause span => exact himp _ _ _ _ h
  | panic => exact h

namespace Call

variable {α β : Type}

/-- A call that ends in `Q` ends in every weaker condition. -/
theorem wp_mono {call : Call α} {p : Pool} {sessions : Nat} {Q Q' : Post α}
    (h : call.wp p sessions Q)
    (himp : ∀ log result p sessions, Q log result p sessions → Q' log result p sessions) :
    call.wp p sessions Q' := by
  induction call generalizing p sessions Q Q' with
  | done result => exact himp _ _ _ _ h
  | act a rest ih => exact ih _ h himp
  | await wait rest ih =>
    refine Wait.wp_mono h fun told reply p sessions hrest => ?_
    exact ih reply hrest fun log result p sessions => himp (told ++ log) result p sessions

/-- A call and then another: the second one starts from what the first one leaves. -/
theorem wp_bind {call : Call α} {next : α → Call β} {p : Pool} {sessions : Nat} {Q : Post β}
    (h : call.wp p sessions fun log result p sessions =>
      (next result).wp p sessions fun log' => Q (log ++ log')) :
    (call >>= next).wp p sessions Q := by
  change (call.bind next).wp p sessions Q
  induction call generalizing p sessions Q with
  | done result => exact h
  | act a rest ih => exact ih _ h
  | await wait rest ih =>
    refine Wait.wp_mono h fun told reply p sessions hrest => ih reply ?_
    refine wp_mono hrest fun log result p sessions hnext => ?_
    simpa only [List.append_assoc] using hnext

/-- Whatever a call meets can come to pass. -/
theorem exists_of_wp {call : Call α} {p : Pool} {sessions : Nat} {Q : Post α}
    (h : call.wp p sessions Q) : ∃ log result p' sessions', Q log result p' sessions' := by
  induction call generalizing p sessions Q with
  | done result => exact ⟨_, _, _, _, h⟩
  | act a rest ih => exact ih _ h
  | await wait rest ih =>
    have hrest : ∃ told reply p' sessions', (rest reply).wp p' sessions' fun log => Q (told ++ log) := by
      -- Some reply always satisfies the side condition of the wait: a refusal where one is
      -- allowed, and success for the attempt.
      cases wait with
      | attempt a => exact ⟨_, _, _, _, h.2.2 (.ok ())⟩
      | probe session limit => exact ⟨_, _, _, _, h .closed⟩
      | run session limit operation => exact ⟨_, _, _, _, h none⟩
      | close session => exact ⟨_, _, _, _, h⟩
      | pause span => exact ⟨_, _, _, _, h⟩
      | panic => exact h.elim
    obtain ⟨told, reply, p', sessions', hreply⟩ := hrest
    obtain ⟨log, result, p'', sessions'', hQ⟩ := ih reply hreply
    exact ⟨told ++ log, result, p'', sessions'', hQ⟩

/-! ## Up to the next wait -/

/-- Whether a call has ended or waits. -/
def IsSettled : Call α → Prop
  | act _ _ => False
  | _ => True

/-- A call runs on until it ends or waits, and not less. -/
theorem isSettled_settle (call : Call α) (p : Pool) : (call.settle p).2.IsSettled := by
  induction call generalizing p with
  | done result => trivial
  | act a rest ih => exact ih _ _
  | await wait rest ih => trivial

/-- Up to the next wait the world tells nothing, so a condition carries over as it is. -/
theorem wp_settle {call : Call α} {p : Pool} {sessions : Nat} {Q : Post α}
    (h : call.wp p sessions Q) : (call.settle p).2.wp (call.settle p).1 sessions Q := by
  induction call generalizing p with
  | done result => exact h
  | act a rest ih => exact ih _ h
  | await wait rest ih => exact h

end Call

/-- How the attempts of a pool may change between two waits: the attempt in flight stays, and one is
begun only when there is none. -/
def Pool.AttemptsOnly (p p' : Pool) : Prop :=
  p'.inFlight = p.inFlight ∧ p'.attempts = p.attempts ∨
    p.inFlight = none ∧ p'.inFlight = some p.attempts ∧ p'.attempts = p.attempts + 1

/-- Whoever joins takes the attempt in flight, or begins one where there is none. -/
theorem Pool.attemptsOnly_joinAttempt (p : Pool) : p.AttemptsOnly p.joinAttempt.1 := by
  rcases p.joinAttempt_cases with ⟨a, -, hjoin⟩ | ⟨hnone, hjoin⟩ <;> rw [hjoin]
  · exact .inl ⟨rfl, rfl⟩
  · exact .inr ⟨hnone, rfl, rfl⟩

/-- Of all critical sections only `join` begins an attempt. -/
theorem Act.attemptsOnly_run (p : Pool) (a : Act) : p.AttemptsOnly (a.run p).1 := by
  cases a with
  | look => exact .inl ⟨rfl, rfl⟩
  | release => exact .inl ⟨rfl, rfl⟩
  | withdraw session =>
    rcases p.withdraw_cases session with ⟨-, hpool⟩ | ⟨-, hpool⟩ <;> rw [Act.run, hpool] <;>
      exact .inl ⟨rfl, rfl⟩
  | countForced => exact .inl ⟨rfl, rfl⟩
  | join discarded =>
    rcases p.join_cases discarded with ⟨session, -, -, hjoin⟩ | hjoin <;> rw [Act.run, hjoin]
    · exact .inl ⟨rfl, rfl⟩
    · exact p.attemptsOnly_joinAttempt

/-- At most one attempt is begun between two waits: the second one to be begun would find the first
in flight. -/
theorem Pool.AttemptsOnly.trans {p p' p'' : Pool} (h : p.AttemptsOnly p') (h' : p'.AttemptsOnly p'') :
    p.AttemptsOnly p'' := by
  rcases h with ⟨hflight, hcount⟩ | ⟨hnone, hflight, hcount⟩
  · rcases h' with ⟨hflight', hcount'⟩ | ⟨hnone', hflight', hcount'⟩
    · exact .inl ⟨hflight'.trans hflight, hcount'.trans hcount⟩
    · exact .inr ⟨hflight.symm.trans hnone', hflight'.trans (congrArg some hcount), by omega⟩
  · rcases h' with ⟨hflight', hcount'⟩ | ⟨hnone', -, -⟩
    · exact .inr ⟨hnone, hflight'.trans hflight, hcount'.trans hcount⟩
    · rw [hflight] at hnone'
      cases hnone'

/-- Between two waits a call begins one attempt at most, and only if there is none in flight. -/
theorem Call.attemptsOnly_settle {α : Type} (call : Call α) (p : Pool) :
    p.AttemptsOnly (call.settle p).1 := by
  induction call generalizing p with
  | done result => exact .inl ⟨rfl, rfl⟩
  | act a rest ih => exact (a.attemptsOnly_run p).trans (ih _ _)
  | await wait rest ih => exact .inl ⟨rfl, rfl⟩

/-! ## The system -/

namespace System

variable {ρ : Type}

/-- The attempts are numbered by the pool, and the one in flight is connecting. -/
structure Tracked (s : System ρ) : Prop where
  length : s.attempts.length = s.pool.attempts
  connecting : ∀ a, s.pool.inFlight = some a → s.attempts[a]? = some .connecting

/-- What a call does to the attempts: it leaves them as they are, or begins one when none is in
flight. -/
theorem Tracked.attempts_advance {s : System ρ} (h : s.Tracked) (id : CallId) (call : Call ρ) :
    (s.advance id call).attempts = s.attempts ∧
        (s.advance id call).pool.inFlight = s.pool.inFlight ∨
      s.pool.inFlight = none ∧ (s.advance id call).attempts = s.attempts ++ [.connecting] ∧
        (s.advance id call).pool.inFlight = some s.attempts.length := by
  have hlength := h.length
  rcases call.attemptsOnly_settle s.pool with ⟨hflight, hcount⟩ | ⟨hnone, hflight, hcount⟩
  · left
    simp [System.advance, hcount, hlength, hflight]
  · right
    simp [System.advance, hcount, hlength, hflight, hnone]

/-- The table of attempts and the pool keep in step while a call runs on. -/
theorem Tracked.advance {s : System ρ} (h : s.Tracked) (id : CallId) (call : Call ρ) :
    (s.advance id call).Tracked := by
  have hlength := h.length
  have hcount := call.attemptsOnly_settle s.pool
  constructor
  · rcases hcount with ⟨-, hcount⟩ | ⟨-, -, hcount⟩ <;> simp [System.advance, hcount, hlength]
  · intro a ha
    rcases h.attempts_advance id call with ⟨hattempts, hflight⟩ | ⟨-, hattempts, hflight⟩
    · rw [hattempts]
      exact h.connecting a (hflight ▸ ha)
    · obtain rfl : s.attempts.length = a := Option.some.inj (hflight.symm.trans ha)
      rw [hattempts]
      exact List.getElem?_concat_length

/-- The only call of a system takes its own place. -/
theorem place_eq (id : CallId) (call : Call ρ) (calls : List (CallId × Call ρ))
    (h : calls = [] ∨ ∃ old, calls = [(id, old)]) : place id call calls = [(id, call)] := by
  rcases h with rfl | ⟨old, rfl⟩
  · rfl
  · simp [place]

/-- A system whose only call goes on to end in `Q`. Either the pool's attempt is still the one that
the call waits for, if it waits for any, or that attempt has ended and the call has not been told. -/
inductive Leads (s : System ρ) (id : CallId) (Q : Post ρ) : Prop
  | going (call : Call ρ) (hcalls : s.calls = [(id, call)]) (hsettled : call.IsSettled)
      (htracked : s.Tracked) (hwp : call.wp s.pool s.sessions Q)
  | ended (a : AttemptId) (rest : Except Bridge.Error SessionId → Call ρ)
      (outcome : Except Bridge.Error SessionId)
      (hcalls : s.calls = [(id, .await (.attempt a) rest)]) (htracked : s.Tracked)
      (hended : s.attempts[a]? = some (.ended outcome))
      (hwp : (rest outcome).wp s.pool s.sessions fun log => Q (.shared a outcome :: log))

/-- A call that runs alone goes on towards its condition. -/
theorem leads_advance {s : System ρ} {id : CallId} {call : Call ρ} {Q : Post ρ} (hs : s.Tracked)
    (hcalls : s.calls = [] ∨ ∃ old, s.calls = [(id, old)])
    (hwp : call.wp s.pool s.sessions Q) : Leads (s.advance id call) id Q := by
  refine .going (call.settle s.pool).2 ?_ (call.isSettled_settle s.pool) (hs.advance id call)
    (Call.wp_settle hwp)
  exact place_eq id _ s.calls hcalls

/-- Looking a call up in a table with one more entry. -/
theorem lookup_cons (id id' : CallId) (call : Call ρ) (calls : List (CallId × Call ρ)) :
    ((id, call) :: calls).lookup id' = if id' = id then some call else calls.lookup id' := by
  by_cases h : id' = id
  · simp [h]
  · have hne : (id' == id) = false := beq_eq_false_iff_ne.2 h
    simp [List.lookup_cons, h, hne]

section Singleton

variable {s : System ρ} {id : CallId} {call : Call ρ}

theorem call?_eq (hcalls : s.calls = [(id, call)]) (id' : CallId) :
    s.call? id' = if id' = id then some call else none := by
  rw [System.call?, hcalls, lookup_cons, List.lookup_nil]

/-- What is noted about sessions touches nothing else. -/
theorem exists_noteAnswer (s : System ρ) (wait : Wait) :
    ∃ closed, s.noteAnswer wait = { s with closed := closed } := by
  cases wait <;> exact ⟨_, rfl⟩

/-- Where an attempt is waited for, it is by the only call there is. -/
theorem exists_await_of_isAwaited (hcalls : s.calls = [(id, call)]) {a : AttemptId}
    (h : s.isAwaited a = true) : ∃ rest, call = .await (.attempt a) rest := by
  have hwait : call.wait? = some (.attempt a) := by
    simpa [System.isAwaited, hcalls] using h
  cases call with
  | await wait rest =>
    have hsame : wait = .attempt a := by simpa [Call.wait?] using hwait
    subst hsame
    exact ⟨rest, rfl⟩
  | done result => cases hwait
  | act a rest => cases hwait

end Singleton

namespace Leads

variable {s : System ρ} {id : CallId} {Q : Post ρ}

/-- The system has one call. -/
theorem exists_call (h : Leads s id Q) : ∃ call, s.calls = [(id, call)] := by
  cases h with
  | going call hcalls => exact ⟨call, hcalls⟩
  | ended a rest outcome hcalls => exact ⟨_, hcalls⟩

/-- What is left of a call that does not wait for an attempt. -/
theorem wp_of_await (h : Leads s id Q) {wait : Wait} {rest : wait.Reply → Call ρ}
    (hcalls : s.calls = [(id, .await wait rest)]) (hwait : ∀ a, wait ≠ .attempt a) :
    s.Tracked ∧ (Call.await wait rest).wp s.pool s.sessions Q := by
  cases h with
  | going call hcalls' _ htracked hwp =>
    have hcall : call = .await wait rest := by
      have hboth := hcalls'.symm.trans hcalls
      simpa using hboth
    exact ⟨htracked, hcall ▸ hwp⟩
  | ended a rest' outcome hcalls' =>
    have hboth := hcalls'.symm.trans hcalls
    simp only [List.cons.injEq, Prod.mk.injEq] at hboth
    injection hboth.1.2 with hsame _
    exact absurd hsame.symm (hwait a)

/-- What is left of a call that waits for an attempt. -/
theorem of_attempt (h : Leads s id Q) {a : AttemptId}
    {rest : Except Bridge.Error SessionId → Call ρ}
    (hcalls : s.calls = [(id, .await (.attempt a) rest)]) :
    s.Tracked ∧
      (s.attempts[a]? = some .connecting ∧ (Call.await (.attempt a) rest).wp s.pool s.sessions Q ∨
        ∃ outcome, s.attempts[a]? = some (.ended outcome) ∧
          (rest outcome).wp s.pool s.sessions fun log => Q (.shared a outcome :: log)) := by
  cases h with
  | going call hcalls' _ htracked hwp =>
    have hsame : call = .await (.attempt a) rest := by
      simpa using hcalls'.symm.trans hcalls
    subst hsame
    exact ⟨htracked, .inl ⟨htracked.connecting a hwp.1, hwp⟩⟩
  | ended a' rest' outcome hcalls' htracked hended hwp =>
    -- The same wait stands in both, so its continuation is the one the outcome is handed to.
    have hboth := hcalls'.symm.trans hcalls
    simp only [List.cons.injEq, Prod.mk.injEq, true_and, and_true] at hboth
    injection hboth with hwait hrest
    cases hwait
    cases hrest
    exact ⟨htracked, .inr ⟨outcome, hended, hwp⟩⟩

end Leads

end System

/-- What was shown for all answers of the world holds for the one that has come. -/
theorem Wait.wp_accept? {wait : Wait} {answer : Answer} {reply : wait.Reply} {p : Pool}
    {sessions : Nat} {next : List Happening → wait.Reply → Pool → Nat → Prop}
    (h : wait.wp p sessions next) (hreply : wait.accept? answer = some reply) :
    next [wait.happening reply] reply p sessions := by
  cases wait with
  | attempt a => exact absurd rfl (Wait.ne_attempt_of_accept? hreply a)
  | probe session limit => exact h reply
  | run session limit operation => exact h reply
  | close session => exact h
  | pause span => exact h
  | panic => exact h.elim

namespace System.Leads

variable {ρ : Type} {s : System ρ} {id : CallId} {Q : Post ρ}

/-- Whoever is told something is the call. -/
theorem eq_of_call? (h : Leads s id Q) {id' : CallId} {call : Call ρ}
    (hcall : s.call? id' = some call) : id' = id ∧ s.calls = [(id', call)] := by
  obtain ⟨call', hcalls⟩ := h.exists_call
  rw [call?_eq hcalls] at hcall
  split at hcall
  · next hid =>
    cases hcall
    exact ⟨hid, hid ▸ hcalls⟩
  · cases hcall

/-- The world answers the wait of the call. -/
theorem answered (h : Leads s id Q) {id' : CallId} {answer : Answer} {wait : Wait}
    {rest : wait.Reply → Call ρ} {reply : wait.Reply}
    (hcall : s.call? id' = some (.await wait rest)) (hreply : wait.accept? answer = some reply) :
    Leads ((s.noteAnswer wait).advance id' (rest reply)) id
      fun log => Q ([wait.happening reply] ++ log) := by
  obtain ⟨rfl, hcalls⟩ := h.eq_of_call? hcall
  obtain ⟨htracked, hwp⟩ := h.wp_of_await hcalls (Wait.ne_attempt_of_accept? hreply)
  have hrest := Wait.wp_accept? hwp hreply
  obtain ⟨closed, hnote⟩ := s.exists_noteAnswer wait
  rw [hnote]
  exact leads_advance ⟨htracked.length, htracked.connecting⟩ (.inr ⟨_, hcalls⟩) hrest

/-- The call is told the outcome of its attempt, which has ended before. -/
theorem shared (h : Leads s id Q) {id' : CallId} {a : AttemptId}
    {rest : Except Bridge.Error SessionId → Call ρ} {outcome : Except Bridge.Error SessionId}
    (hcall : s.call? id' = some (.await (.attempt a) rest))
    (hended : s.attempts[a]? = some (.ended outcome)) :
    Leads (s.advance id' (rest outcome)) id fun log => Q ([.shared a outcome] ++ log) := by
  obtain ⟨rfl, hcalls⟩ := h.eq_of_call? hcall
  obtain ⟨htracked, ⟨hconnecting, -⟩ | ⟨outcome', hended', hwp⟩⟩ := h.of_attempt hcalls
  · rw [hended] at hconnecting
    cases hconnecting
  · obtain rfl : outcome' = outcome := by
      simpa using hended'.symm.trans hended
    exact leads_advance htracked (.inr ⟨_, hcalls⟩) hwp

/-- The attempt that ends is the one for which the call waits. -/
theorem connected (h : Leads s id Q) {a : AttemptId} (outcome : Except Bridge.Error Unit)
    (hconnecting : s.attempts[a]? = some .connecting) (hawaited : s.isAwaited a = true) :
    Leads (s.conclude a outcome) id fun log => Q ([.connected a outcome] ++ log) := by
  obtain ⟨call, hcalls⟩ := h.exists_call
  obtain ⟨rest, rfl⟩ := exists_await_of_isAwaited hcalls hawaited
  obtain ⟨htracked, ⟨-, hwp⟩ | ⟨outcome', hended, -⟩⟩ := h.of_attempt hcalls
  · obtain ⟨-, hcurrent, hrest⟩ := hwp
    have hlt : a < s.attempts.length := (List.getElem?_eq_some_iff.1 hconnecting).1
    have hlength := htracked.length
    refine .ended a rest (numbered s.sessions outcome) hcalls ⟨?_, ?_⟩ ?_ ?_
    · cases outcome <;> simpa [System.conclude, Pool.conclude, Except.map] using hlength
    · cases outcome <;> simp [System.conclude, Pool.conclude, Except.map]
    · cases outcome <;>
        simp [System.conclude, Pool.conclude, Except.map, numbered, hcurrent, hlt]
    · cases outcome <;> exact hrest _
  · -- An attempt still connecting has no outcome to share yet.
    rw [hconnecting] at hended
    cases hended

/-- A call alone finds no session left over. -/
theorem not_closing (h : Leads s id Q) {a : AttemptId} {previous : SessionId}
    {outcome : Except Bridge.Error SessionId} (hawaited : s.isAwaited a = true) :
    s.attempts[a]? ≠ some (.closing previous outcome) := by
  intro hclosing
  obtain ⟨call, hcalls⟩ := h.exists_call
  obtain ⟨rest, rfl⟩ := exists_await_of_isAwaited hcalls hawaited
  obtain ⟨-, ⟨hother, -⟩ | ⟨outcome', hother, -⟩⟩ := h.of_attempt hcalls
  all_goals
    rw [hclosing] at hother
    cases hother

/-- **One step.** -/
theorem step (h : Leads s id Q) {input : Input ρ} (hworld : input.isOfWorld = true) :
    Leads (s.step input) id fun log => Q (s.observed input ++ log) := by
  have htells := s.tells_step input
  generalize s.step input = s', s.observed input = told at htells ⊢
  cases htells with
  | ignored => exact h
  | begun _ => cases hworld
  | answered hcall hreply => exact h.answered hcall hreply
  | shared hcall hended => exact h.shared hcall hended
  | connected hconnecting hawaited => exact h.connected _ hconnecting hawaited
  | cleared hclosing hawaited => exact absurd hclosing (h.not_closing hawaited)
  | abandoned _ => cases hworld

/-- **A run.** Induction on the inputs. -/
theorem run (h : Leads s id Q) {inputs : List (Input ρ)}
    (hworld : ∀ input ∈ inputs, input.isOfWorld = true) :
    Leads (s.run inputs) id fun log => Q (s.history inputs ++ log) := by
  induction inputs generalizing s Q with
  | nil => exact h
  | cons input inputs ih =>
    have hfirst := h.step (hworld input (by simp))
    have hrest := ih hfirst fun other hother => hworld other (List.mem_cons_of_mem input hother)
    simp only [history, List.append_assoc]
    exact hrest

/-- The call has ended and meets its condition, or the world has something to tell. -/
theorem progress (h : Leads s id Q) :
    (∃ result, s.result? id = some result ∧ Q [] result s.pool s.sessions) ∨
      s.result? id = none ∧ ∃ input, input.isOfWorld = true ∧ s.observed input ≠ [] := by
  obtain ⟨call, hcalls⟩ := h.exists_call
  have hcall : s.call? id = some call := by rw [call?_eq hcalls, if_pos rfl]
  cases h with
  | going call' hcalls' hsettled htracked hwp =>
    obtain rfl : call' = call := by
      simpa using hcalls'.symm.trans hcalls
    cases call' with
    | done result => exact .inl ⟨result, by simp [result?, hcall, Call.result?], hwp⟩
    | act a rest => exact hsettled.elim
    | await wait rest =>
      refine .inr ⟨by simp [result?, hcall, Call.result?], ?_⟩
      -- For each wait the input of the world that ends it.
      cases wait with
      | probe session limit =>
        exact ⟨.answer id (.probed .closed), rfl, by simp [observed, hcall, Wait.accept?]⟩
      | run session limit operation =>
        exact ⟨.answer id (.ran none), rfl, by simp [observed, hcall, Wait.accept?]⟩
      | close session => exact ⟨.answer id .closed, rfl, by simp [observed, hcall, Wait.accept?]⟩
      | pause span => exact ⟨.answer id .paused, rfl, by simp [observed, hcall, Wait.accept?]⟩
      | panic => exact hwp.elim
      | attempt a =>
        have hconnecting := htracked.connecting a hwp.1
        have hawaited : s.isAwaited a = true := by
          simp [System.isAwaited, hcalls, Call.wait?]
        exact ⟨.connected a (.ok ()), rfl, by simp [observed, hconnecting, hawaited]⟩
  -- The attempt is over and the call has not heard: sharing its outcome is the input.
  | ended a rest outcome hcalls' htracked hended hwp =>
    obtain rfl : Call.await (.attempt a) rest = call := by
      simpa using hcalls'.symm.trans hcalls
    refine .inr ⟨by simp [result?, hcall, Call.result?], .share id, rfl, ?_⟩
    simp [observed, hcall, hended]

/-- Whatever has happened so far can go on to meet the condition. -/
theorem exists_log (h : Leads s id Q) : ∃ log result p sessions, Q log result p sessions := by
  cases h with
  | going call hcalls hsettled htracked hwp => exact Call.exists_of_wp hwp
  | ended a rest outcome hcalls htracked hended hwp =>
    obtain ⟨log, hlog⟩ := Call.exists_of_wp hwp
    exact ⟨_, hlog⟩

end System.Leads

end CanvasLink.Broker
