import CanvasLink.Proofs.Broker.Ownership

/-!
# CanvasLink — the ways of a call

What one call does and is told, whatever other calls do and the world tells meanwhile. A way of a
call is one path through its tree, with the replies on it; the ways of a composed call are the ways
of its parts one after the other.

* `Call.Goes` — a call goes a way to its end; `Call.goes_bind_iff` takes a composed call apart.
* `Call.OnlyRuns` — the operations on all ways of a call, and whether it may panic.
* `System.path` — what a call does and is told in a run of the system. It leads past no panic
  (`System.panic_not_mem_path`).
* `System.continues_run` — whatever else happens, a call goes on along its ways.
* `System.exists_left` — what is left of a call at the end of a run.
* **`System.goes_run`** — in every run, a call that is not abandoned goes one of its ways.
-/

namespace CanvasLink.Broker

/-- Whether a wait runs nothing but one operation, and is no panic unless there may be one. -/
def Wait.OnlyRuns (operation : Operation) (panics : Prop) : Wait → Prop
  | run _ _ other => other = operation
  | panic => panics
  | _ => True

namespace Call

variable {α β : Type}

/-- Something that a call does to the pool or waits for, with the reply. -/
inductive Event where
  | acted (act : Act) (reply : act.Reply)
  | told (wait : Wait) (reply : wait.Reply)

/-- A call goes through events to its result. -/
inductive Goes : Call α → List Event → α → Prop
  | done (result : α) : Goes (done result) [] result
  | act (a : Act) {rest : a.Reply → Call α} (reply : a.Reply) {log : List Event} {result : α}
    (h : Goes (rest reply) log result) : Goes (act a rest) (.acted a reply :: log) result
  | await (wait : Wait) {rest : wait.Reply → Call α} (reply : wait.Reply) {log : List Event}
    {result : α} (h : Goes (rest reply) log result) :
    Goes (await wait rest) (.told wait reply :: log) result

/-- A call that has ended goes nowhere. -/
theorem goes_done_iff {result result' : α} {log : List Event} :
    (done result).Goes log result' ↔ log = [] ∧ result' = result := by
  constructor
  · rintro ⟨⟩
    exact ⟨rfl, rfl⟩
  · rintro ⟨rfl, rfl⟩
    exact .done _

/-- **A call and then another.** -/
theorem goes_bind_iff {call : Call α} {next : α → Call β} {log : List Event} {result : β} :
    (call >>= next).Goes log result ↔
      ∃ first middle second, call.Goes first middle ∧ (next middle).Goes second result ∧
        log = first ++ second := by
  change (call.bind next).Goes log result ↔ _
  induction call generalizing log with
  -- All of the log is that of the second part.
  | done middle =>
    constructor
    · exact fun h => ⟨[], middle, log, .done middle, h, rfl⟩
    · rintro ⟨first, middle', second, hfirst, hsecond, rfl⟩
      obtain ⟨rfl, rfl⟩ := goes_done_iff.1 hfirst
      exact hsecond
  | act a rest ih =>
    constructor
    · rintro (_ | ⟨_, reply, h⟩)
      obtain ⟨first, middle, second, hfirst, hsecond, rfl⟩ := (ih reply).1 h
      exact ⟨_, middle, second, .act a reply hfirst, hsecond, rfl⟩
    · rintro ⟨first, middle, second, hfirst, hsecond, rfl⟩
      obtain _ | ⟨_, reply, hfirst⟩ := hfirst
      exact .act a reply ((ih reply).2 ⟨_, middle, second, hfirst, hsecond, rfl⟩)
  | await wait rest ih =>
    constructor
    · rintro (_ | _ | ⟨_, reply, h⟩)
      obtain ⟨first, middle, second, hfirst, hsecond, rfl⟩ := (ih reply).1 h
      exact ⟨_, middle, second, .await wait reply hfirst, hsecond, rfl⟩
    · rintro ⟨first, middle, second, hfirst, hsecond, rfl⟩
      obtain _ | _ | ⟨_, reply, hfirst⟩ := hfirst
      exact .await wait reply ((ih reply).2 ⟨_, middle, second, hfirst, hsecond, rfl⟩)

/-- A call whose result is made into another. -/
theorem goes_map_iff {call : Call α} {f : α → β} {log : List Event} {result : β} :
    (call >>= fun a => pure (f a)).Goes log result ↔ ∃ a, call.Goes log a ∧ result = f a := by
  rw [goes_bind_iff]
  constructor
  · rintro ⟨first, a, second, hfirst, hsecond, rfl⟩
    obtain ⟨rfl, rfl⟩ := goes_done_iff.1 hsecond
    rw [List.append_nil]
    exact ⟨a, hfirst, rfl⟩
  · rintro ⟨a, h, rfl⟩
    exact ⟨log, a, [], h, .done _, (List.append_nil log).symm⟩

/-- Every call has a way to an end, if only one that leads on behind a panic. -/
theorem exists_goes (call : Call α) : ∃ log result, call.Goes log result := by
  induction call with
  | done result => exact ⟨[], result, .done result⟩
  | act a rest ih =>
    obtain ⟨log, result, h⟩ := ih (a.run .empty).2
    exact ⟨_, result, .act a _ h⟩
  | await wait rest ih =>
    -- No wait is without a reply.
    have hreply : Nonempty wait.Reply := by
      cases wait with
      | probe session limit => exact ⟨ProbeAnswer.closed⟩
      | run session limit operation => exact ⟨(none : Option Outcome)⟩
      | close session => exact ⟨()⟩
      | attempt a => exact ⟨(.ok a : Except Bridge.Error SessionId)⟩
      | pause span => exact ⟨()⟩
      | panic => exact ⟨()⟩
    obtain ⟨reply⟩ := hreply
    obtain ⟨log, result, h⟩ := ih reply
    exact ⟨_, result, .await wait reply h⟩

/-! ## Operations -/

/-- The operations that are run on a way, in order. -/
def operations (log : List Event) : List Operation :=
  log.filterMap fun
    | .told (.run _ _ operation) _ => some operation
    | _ => none

/-- Whether a call runs nothing but one operation, whatever it is told, and does not panic unless it
may. -/
def OnlyRuns (operation : Operation) (panics : Prop) : Call α → Prop
  | done _ => True
  | act _ rest => ∀ reply, (rest reply).OnlyRuns operation panics
  | await wait rest =>
    wait.OnlyRuns operation panics ∧ ∀ reply, (rest reply).OnlyRuns operation panics

section OnlyRuns

variable {operation : Operation} {panics : Prop} {call : Call α}

/-- Two calls that run nothing but the operation do so one after the other. -/
theorem OnlyRuns.bind {next : α → Call β} (h : call.OnlyRuns operation panics)
    (hnext : ∀ result, (next result).OnlyRuns operation panics) :
    (call >>= next).OnlyRuns operation panics := by
  change (call.bind next).OnlyRuns operation panics
  induction call with
  | done result => exact hnext result
  | act a rest ih => exact fun reply => ih reply (h reply)
  | await wait rest ih => exact ⟨h.1, fun reply => ih reply (h.2 reply)⟩

/-- All operations on a way are the one. -/
theorem OnlyRuns.of_goes (h : call.OnlyRuns operation panics) {log : List Event} {result : α}
    (hgoes : call.Goes log result) : ∀ other ∈ operations log, other = operation := by
  induction hgoes with
  | done result => exact fun other hother => absurd hother List.not_mem_nil
  | act a reply _ ih => exact ih (h reply)
  | await wait reply _ ih =>
    have hrest := ih (h.2 reply)
    cases wait with
    | run session limit other => exact List.forall_mem_cons.2 ⟨h.1, hrest⟩
    | _ => exact hrest

/-- Only a call that may panic has a way that leads past a panic. -/
theorem OnlyRuns.panics_of_goes (h : call.OnlyRuns operation panics) {log : List Event} {result : α}
    (hgoes : call.Goes log result) (hpanic : .told .panic () ∈ log) : panics := by
  induction hgoes with
  | done result => exact absurd hpanic List.not_mem_nil
  | act a reply _ ih =>
    rcases List.mem_cons.1 hpanic with heq | hlater
    · cases heq
    · exact ih (h reply) hlater
  -- The panic is this wait, of which the property speaks, or a later one.
  | await wait reply _ ih =>
    rcases List.mem_cons.1 hpanic with heq | hlater
    · cases heq
      exact h.1
    · exact ih (h.2 reply) hlater

end OnlyRuns

/-! ## Up to the next wait -/

/-- What a call does to the pool before it ends or waits. -/
def acts (p : Pool) : Call α → List Event
  | act a rest => .acted a (a.run p).2 :: (rest (a.run p).2).acts (a.run p).1
  | _ => []

/-- Between two waits nothing is told. -/
theorem told_not_mem_acts {call : Call α} {p : Pool} {wait : Wait} {reply : wait.Reply} :
    .told wait reply ∉ call.acts p := by
  induction call generalizing p with
  | done result => exact List.not_mem_nil
  | act a rest ih =>
    intro hmem
    rcases List.mem_cons.1 hmem with heq | hlater
    · cases heq
    · exact ih _ hlater
  | await wait rest ih => exact List.not_mem_nil

/-- A call whose way begins with the end of a wait stands at that wait. -/
theorem wait?_of_goes {call : Call α} {wait : Wait} {reply : wait.Reply} {log : List Event}
    {result : α} (h : call.Goes (.told wait reply :: log) result) : call.wait? = some wait := by
  cases h
  rfl

/-- A call that has ended has nowhere to go. -/
theorem goes_of_result? {call : Call α} {log : List Event} {result ended : α}
    (hended : call.result? = some ended) (h : call.Goes log result) : log = [] ∧ ended = result := by
  cases call with
  | done other =>
    obtain ⟨rfl, rfl⟩ := goes_done_iff.1 h
    exact ⟨rfl, (Option.some.inj hended).symm⟩
  | act a rest => cases hended
  | await wait rest => cases hended

/-- A call that has nothing to go through has ended. -/
theorem result?_of_goes {call : Call α} {result : α} (h : call.Goes [] result) :
    call.result? = some result := by
  cases h
  rfl

/-- A call that waits has a way that starts with the end of its wait. -/
theorem exists_goes_of_wait? {call : Call α} {wait : Wait} (h : call.wait? = some wait) :
    ∃ reply log result, call.Goes (.told wait reply :: log) result := by
  cases call with
  | done result => cases h
  | act a rest => cases h
  | await other rest =>
    obtain rfl := Option.some.inj h
    obtain ⟨log, result, hgoes⟩ := exists_goes (await other rest)
    cases hgoes with
    | await _ reply hrest => exact ⟨reply, _, result, .await other reply hrest⟩

/-- A way of what is left behind the first acts, with these in front, is a way of the whole call. -/
theorem goes_of_settle {call : Call α} {p : Pool} {log : List Event} {result : α}
    (h : (call.settle p).2.Goes log result) : call.Goes (call.acts p ++ log) result := by
  induction call generalizing p with
  | done result => exact h
  | act a rest ih => exact .act a _ (ih _ h)
  | await wait rest ih => exact h

end Call

/-! ## What the calls of the broker run -/

section OnlyRuns

variable (limits : Limits) (operation : Operation) {panics : Prop}

/-- Joining an attempt runs nothing in a session. -/
theorem onlyRuns_share (discarded : Option SessionId) :
    (share discarded).OnlyRuns operation panics := by
  intro lead
  cases lead with
  | session session => trivial
  | attempt a => exact ⟨trivial, fun _ => trivial⟩

/-- Bringing in a session runs its probe and nothing else. -/
theorem onlyRuns_ensure : (ensure limits).OnlyRuns operation panics := by
  intro current
  cases current with
  | none => exact onlyRuns_share operation none
  | some session =>
    refine ⟨trivial, fun answer => ?_⟩
    simp only [Call.bind, pure]
    split
    · trivial
    · exact fun _ => ⟨trivial, fun _ => onlyRuns_share operation (some session)⟩

/-- Giving up a session runs nothing in it. -/
theorem onlyRuns_forceClose : forceClose.OnlyRuns operation panics := by
  intro _ current
  cases current with
  | none => trivial
  | some session => exact ⟨trivial, fun _ => trivial⟩

/-- One attempt runs the operation in the session that it is given. -/
theorem onlyRuns_tryOnce : (tryOnce limits operation).OnlyRuns operation panics := by
  refine (onlyRuns_ensure limits operation).bind fun brought => ?_
  cases brought with
  | error e => trivial
  | ok session =>
    refine ⟨rfl, fun outcome => ?_⟩
    cases outcome <;> trivial

/-- Every attempt runs the operation, and nothing panics between them. -/
theorem onlyRuns_retrying (more : Nat) :
    (retrying limits operation more).OnlyRuns operation panics := by
  -- Every attempt runs the operation, and nothing is run between two of them.
  induction more with
  | zero => exact onlyRuns_tryOnce limits operation
  | succ more ih =>
    refine (onlyRuns_tryOnce limits operation).bind fun outcome => ?_
    cases outcome with
    | ok value => trivial
    | error e =>
      cases hretry : e.isRetryable with
      | false => simp [hretry, Call.OnlyRuns, pure]
      | true =>
        simp only [hretry, if_true]
        exact (onlyRuns_forceClose operation).bind fun _ => ⟨trivial, fun _ => ih⟩

/-- A call without a number of attempts runs the operation too. -/
theorem onlyRuns_tryOrPanic : (tryOrPanic limits operation).OnlyRuns operation True := by
  refine (onlyRuns_tryOnce limits operation).bind fun outcome => ?_
  cases outcome with
  | ok value => trivial
  | error e =>
    dsimp only
    split
    · exact ⟨trivial, fun _ => trivial⟩
    · trivial

/-- **The retry policy runs the operation and no other.** -/
theorem onlyRuns_execute : (execute limits operation).OnlyRuns operation True := by
  unfold execute
  split
  · exact onlyRuns_retrying limits operation _
  · exact onlyRuns_tryOrPanic limits operation

end OnlyRuns

/-! ## The system -/

namespace System

variable {ρ : Type}

theorem length_advance {s : System ρ} (h : s.attempts.length = s.pool.attempts) (id : CallId)
    (call : Call ρ) : (s.advance id call).attempts.length = (s.advance id call).pool.attempts := by
  rcases call.attemptsOnly_settle s.pool with ⟨-, hcount⟩ | ⟨-, -, hcount⟩ <;>
    simp [System.advance, hcount, h]

/-- Every attempt has its entry in the table, whatever calls there are and who abandons them. -/
theorem length_step {s : System ρ} (h : s.attempts.length = s.pool.attempts) (input : Input ρ) :
    (s.step input).attempts.length = (s.step input).pool.attempts := by
  have hstep := s.happens_step input
  generalize s.step input = s' at hstep ⊢
  -- An attempt is entered where it is begun, and replaced in place where it ends.
  cases hstep with
  | ignored => exact h
  | begun _ => exact length_advance h _ _
  | @answered id answer wait rest reply _ _ =>
    obtain ⟨closed, hnote⟩ := s.exists_noteAnswer wait
    rw [hnote]
    exact length_advance (s := { s with closed := closed }) h id (rest reply)
  | shared _ _ => exact length_advance h _ _
  | @connected a outcome _ _ => cases outcome <;> exact (List.length_set ..).trans h
  | cleared _ _ => exact (List.length_set ..).trans h
  | abandoned id => exact h

/-- In every run the table has one entry for each attempt. -/
theorem length_run {s : System ρ} (h : s.attempts.length = s.pool.attempts)
    (inputs : List (Input ρ)) : (s.run inputs).attempts.length = (s.run inputs).pool.attempts := by
  induction inputs generalizing s with
  | nil => exact h
  | cons input inputs ih => exact ih (length_step h input)

/-- What the call `id` does and is told in a step once it has begun. -/
def moves (s : System ρ) (id : CallId) : Input ρ → List Call.Event
  | .answer id' answer =>
    match s.call? id with
    | some (.await wait rest) =>
      match wait.accept? answer with
      | some reply => if id' = id then .told wait reply :: (rest reply).acts s.pool else []
      | none => []
    | _ => []
  | .share id' =>
    match s.call? id with
    | some (.await (.attempt a) rest) =>
      match s.attempts[a]? with
      | some (.ended outcome) =>
        if id' = id then .told (.attempt a) outcome :: (rest outcome).acts s.pool else []
      | _ => []
    | _ => []
  | _ => []

/-- What the call `id` does and is told in a run. -/
def path (s : System ρ) (id : CallId) : List (Input ρ) → List Call.Event
  | [] => []
  | input :: inputs => s.moves id input ++ (s.step input).path id inputs

/-- Whether an input abandons the call `id`. -/
def Input.abandons (id : CallId) : Input ρ → Bool
  | .abandon id' => id' == id
  | _ => false

/-- Whether an input tells the call `id` something. -/
def Input.tells (id : CallId) : Input ρ → Bool
  | .answer id' _ => id' == id
  | .share id' => id' == id
  | _ => false

/-- The second call has the ways that complete what the first one has gone through. -/
def Continues (call : Call ρ) (log : List Call.Event) (call' : Call ρ) : Prop :=
  ∀ later result, call'.Goes later result → call.Goes (log ++ later) result

section Goes

variable {s : System ρ} {id : CallId} {call : Call ρ} {input : Input ρ}

/-- What is told to nobody or to another call leaves a call where it is. -/
theorem call?_step_of_not_tells (hcall : s.call? id = some call)
    (hstay : input.abandons id = false) (htells : input.tells id = false) :
    (s.step input).call? id = some call := by
  have hstep := s.happens_step input
  generalize s.step input = s' at hstep ⊢
  cases hstep with
  | ignored => exact hcall
  | @begun id' other hnone =>
    rw [call?_advance, if_neg, hcall]
    rintro rfl
    rw [hcall] at hnone
    cases hnone
  -- What is told is told to another call.
  | @answered id' answer wait rest reply _ _ =>
    have hne : id ≠ id' := Ne.symm (by simpa [Input.tells] using htells)
    obtain ⟨closed, hnote⟩ := s.exists_noteAnswer wait
    rw [hnote, call?_advance, if_neg hne]
    exact hcall
  | @shared id' a rest outcome _ _ =>
    have hne : id ≠ id' := Ne.symm (by simpa [Input.tells] using htells)
    rw [call?_advance, if_neg hne, hcall]
  | connected _ _ => exact hcall
  | cleared _ _ => exact hcall
  | abandoned id' =>
    have hne : id' ≠ id := by simpa [Input.abandons] using hstay
    show (s.calls.filter fun entry => entry.1 ≠ id').lookup id = some call
    rw [lookup_strike, if_neg (Ne.symm hne)]
    exact hcall

/-- A call moves only when it is told something. -/
theorem moves_of_not_tells (htells : input.tells id = false) : s.moves id input = [] := by
  -- An answer or a share to another call is no move of this one.
  cases input with
  | answer id' answer =>
    have hne : id' ≠ id := by simpa [Input.tells] using htells
    simp only [moves, if_neg hne]
    split
    · split <;> rfl
    · rfl
  | share id' =>
    have hne : id' ≠ id := by simpa [Input.tells] using htells
    simp only [moves, if_neg hne]
    split
    · split <;> rfl
    · rfl
  | _ => rfl

/-- A call that is told something goes on, and has not panicked, or what it is told does not fit. -/
theorem step_of_tells (hcall : s.call? id = some call) (htells : input.tells id = true) :
    (s.step input = s ∧ s.moves id input = []) ∨
      ∃ wait rest reply closed, call = .await wait rest ∧ wait ≠ .panic ∧
        s.step input = { s with closed := closed }.advance id (rest reply) ∧
        s.moves id input = .told wait reply :: (rest reply).acts s.pool := by
  cases input with
  -- The call that it is for waits for such an answer, or the input is ignored.
  | answer id' answer =>
    obtain rfl : id' = id := by simpa [Input.tells] using htells
    cases call with
    | done result => exact .inl (by simp [step, moves, hcall])
    | act a rest => exact .inl (by simp [step, moves, hcall])
    | await wait rest =>
      cases hreply : wait.accept? answer with
      | none => exact .inl (by simp [step, moves, hcall, hreply])
      | some reply =>
        obtain ⟨closed, hnote⟩ := s.exists_noteAnswer wait
        exact .inr ⟨wait, rest, reply, closed, rfl, Wait.ne_panic_of_accept? hreply,
          by simp [step, hcall, hreply, hnote], by simp [moves, hcall, hreply]⟩
  -- The call that it is for waits for an attempt that has ended, or the input is ignored.
  | share id' =>
    obtain rfl : id' = id := by simpa [Input.tells] using htells
    cases call with
    | done result => exact .inl (by simp [step, moves, hcall])
    | act a rest => exact .inl (by simp [step, moves, hcall])
    | await wait rest =>
      cases wait with
      | attempt a =>
        cases hended : s.attempts[a]? with
        | none => exact .inl (by simp [step, moves, hcall, hended])
        | some progress =>
          cases progress with
          | ended outcome =>
            exact .inr ⟨.attempt a, rest, outcome, s.closed, rfl, by simp,
              by simp [step, hcall, hended], by simp [moves, hcall, hended]⟩
          | _ => exact .inl (by simp [step, moves, hcall, hended])
      | _ => exact .inl (by simp [step, moves, hcall])
  | _ => cases htells

/-- **One step goes on along a way.** -/
theorem continues_step (hcall : s.call? id = some call) (hstay : input.abandons id = false) :
    ∃ call', (s.step input).call? id = some call' ∧ Continues call (s.moves id input) call' := by
  cases htells : input.tells id with
  | false =>
    rw [moves_of_not_tells htells]
    exact ⟨call, call?_step_of_not_tells hcall hstay htells, fun _ _ h => h⟩
  | true =>
    rcases step_of_tells hcall htells with ⟨hstep, hmoves⟩ |
      ⟨wait, rest, reply, closed, rfl, -, hstep, hmoves⟩
    · rw [hstep, hmoves]
      exact ⟨call, hcall, fun _ _ h => h⟩
    · -- Behind the answer the call runs on to its next wait.
      rw [hstep, hmoves, call?_advance, if_pos rfl]
      exact ⟨_, rfl, fun _ _ h => .await wait reply (Call.goes_of_settle h)⟩

/-- **Every run goes along a way.** -/
theorem continues_run (hcall : s.call? id = some call) {inputs : List (Input ρ)}
    (hstay : ∀ input ∈ inputs, input.abandons id = false) :
    ∃ call', (s.run inputs).call? id = some call' ∧ Continues call (s.path id inputs) call' := by
  induction inputs generalizing s call with
  | nil => exact ⟨call, hcall, fun _ _ h => h⟩
  | cons input inputs ih =>
    obtain ⟨call', hcall', hfirst⟩ := continues_step hcall (hstay input List.mem_cons_self)
    obtain ⟨call'', hcall'', hrest⟩ := ih hcall' fun other hother =>
      hstay other (List.mem_cons_of_mem input hother)
    refine ⟨call'', hcall'', fun later result h => ?_⟩
    rw [path, List.append_assoc]
    exact hfirst _ _ (hrest _ _ h)

/-- What a call is told in a step is no answer to a panic. -/
theorem panic_not_mem_moves (s : System ρ) (id : CallId) (input : Input ρ) :
    .told .panic () ∉ s.moves id input := by
  cases htells : input.tells id with
  | false =>
    rw [moves_of_not_tells htells]
    exact List.not_mem_nil
  | true =>
    cases hcall : s.call? id with
    | none =>
      have hmoves : s.moves id input = [] := by cases input <;> simp only [moves, hcall]
      rw [hmoves]
      exact List.not_mem_nil
    | some call =>
      rcases step_of_tells hcall htells with ⟨-, hmoves⟩ |
        ⟨wait, rest, reply, closed, rfl, hwait, -, hmoves⟩
      · rw [hmoves]
        exact List.not_mem_nil
      · -- What is told answers a wait, and nothing answers the panic.
        rw [hmoves, List.mem_cons, not_or]
        refine ⟨fun heq => hwait ?_, Call.told_not_mem_acts⟩
        cases heq
        rfl

/-- **Nothing is told behind a panic**, in any run. -/
theorem panic_not_mem_path (s : System ρ) (id : CallId) (inputs : List (Input ρ)) :
    .told .panic () ∉ s.path id inputs := by
  induction inputs generalizing s with
  | nil => exact List.not_mem_nil
  | cons input inputs ih =>
    rw [path, List.mem_append, not_or]
    exact ⟨panic_not_mem_moves s id input, ih (s.step input)⟩

/-- A call that has panicked stands still. -/
theorem wait?_run_of_panic (hwait : s.wait? id = some .panic) {inputs : List (Input ρ)}
    (hstay : ∀ input ∈ inputs, input.abandons id = false) :
    (s.run inputs).wait? id = some .panic := by
  induction inputs generalizing s with
  | nil => exact hwait
  | cons input inputs ih =>
    obtain ⟨hinput, hinputs⟩ := List.forall_mem_cons.1 hstay
    refine ih ?_ hinputs
    obtain ⟨call, hcall, hpanic⟩ := Option.bind_eq_some_iff.1 hwait
    cases htells : input.tells id with
    | false => rw [System.wait?, call?_step_of_not_tells hcall hinput htells, Option.bind_some, hpanic]
    | true =>
      rcases step_of_tells hcall htells with ⟨hstep, -⟩ | ⟨wait, rest, _, _, rfl, hne, -, -⟩
      · rw [hstep, hwait]
      · -- What the call is told would be the end of another wait.
        exact absurd (Option.some.inj hpanic) hne

theorem call?_begin (hid : s.call? id = none) (call : Call ρ) :
    (s.step (.begin id call)).call? id = some (call.settle s.pool).2 := by
  simp only [step, hid, call?_advance, if_true]

/-- **What is left of a call** at the end of a run completes one of its ways. -/
theorem exists_left (hid : s.call? id = none) (call : Call ρ) {inputs : List (Input ρ)}
    (hstay : ∀ input ∈ inputs, input.abandons id = false) :
    ∃ left, ((s.step (.begin id call)).run inputs).call? id = some left ∧
      ∀ later result, left.Goes later result →
        call.Goes (call.acts s.pool ++ (s.step (.begin id call)).path id inputs ++ later) result := by
  obtain ⟨left, hleft, hcontinues⟩ := continues_run (call?_begin hid call) hstay
  refine ⟨left, hleft, fun later result h => ?_⟩
  rw [List.append_assoc]
  exact Call.goes_of_settle (hcontinues later result h)

/-- A call panics in a run only if it may panic. -/
theorem wait?_ne_panic (hid : s.call? id = none) {call : Call ρ} {operation : Operation}
    (hcall : call.OnlyRuns operation False) {inputs : List (Input ρ)}
    (hstay : ∀ input ∈ inputs, input.abandons id = false) :
    ((s.step (.begin id call)).run inputs).wait? id ≠ some .panic := by
  intro hwait
  obtain ⟨left, hleft, hgoes⟩ := exists_left hid call hstay
  rw [System.wait?, hleft, Option.bind_some] at hwait
  obtain ⟨reply, log, result, hway⟩ := Call.exists_goes_of_wait? hwait
  exact hcall.panics_of_goes (hgoes _ _ hway) (List.mem_append_right _ List.mem_cons_self)

/-- **A call that begins goes one of its ways**, and has gone to its end when it has ended. -/
theorem goes_run (hid : s.call? id = none) (call : Call ρ) {inputs : List (Input ρ)}
    (hstay : ∀ input ∈ inputs, input.abandons id = false) :
    ∃ later result,
      call.Goes (call.acts s.pool ++ (s.step (.begin id call)).path id inputs ++ later) result ∧
      ∀ ended, ((s.step (.begin id call)).run inputs).result? id = some ended →
        later = [] ∧ ended = result := by
  obtain ⟨left, hleft, hgoes⟩ := exists_left hid call hstay
  -- A call that is still on its way may go on to some end, whichever it will be.
  obtain ⟨later, result, h⟩ := left.exists_goes
  refine ⟨later, result, hgoes later result h, fun ended hended => ?_⟩
  rw [result?, hleft, Option.bind_some] at hended
  exact Call.goes_of_result? hended h

end Goes

end System

end CanvasLink.Broker
