import CanvasLink.Proofs.Broker.Replacement

/-!
# CanvasLink — giving up the session for good

A shutdown gives up the session that is current when it begins. Calls that ask for a session and
began before may still wait then, and an attempt that succeeds afterwards puts its session into the
place that the shutdown has cleared.

* `Call.Spares` — a call that takes out no session that is made from a number on.
* `Pool.Yields` — the place after a shutdown: it is empty, or the first session made since is there
  to stay.
* `System.ShutDown` — what each step preserves after a shutdown, until another call begins.
* **`System.disconnected_iff_none_made`** — the broker is left without a session exactly if none was
  made after the shutdown began.
-/

namespace CanvasLink.Broker

open CanvasLink.Bridge

/-! ## The place of the current session -/

/-- A shutdown has begun when the number of sessions was `first`. Since then no session is current;
or one was made, it is current, and no other one is being made. -/
inductive Pool.Yields (first : SessionId) (p : Pool) : Nat → Prop
  | vacant (hcurrent : p.current = none) : Yields first p first
  | filled (hcurrent : p.current = some first) (hidle : p.inFlight = none) :
    Yields first p (first + 1)

section Yields

variable {first : SessionId} {p : Pool} {sessions : Nat}

/-- Either there is no current session and none was made, or the current one is the only one
made. -/
theorem Pool.Yields.current_cases (h : p.Yields first sessions) :
    p.current = none ∧ sessions = first ∨ p.current = some first ∧ sessions = first + 1 := by
  cases h with
  | vacant hcurrent => exact .inl ⟨hcurrent, rfl⟩
  | filled hcurrent _ => exact .inr ⟨hcurrent, rfl⟩

/-- To withdraw an older session takes nothing away. -/
theorem Pool.Yields.withdraw (h : p.Yields first sessions) {session : SessionId}
    (hlt : session < first) : (p.withdraw session).Yields first sessions := by
  cases h with
  | vacant hcurrent =>
    rw [Pool.withdraw_of_other (hcurrent ▸ Option.some_ne_none session ∘ Eq.symm)]
    exact .vacant hcurrent
  | filled hcurrent hidle =>
    have hother : p.current ≠ some session := by
      rw [hcurrent]
      exact fun hsame => Nat.ne_of_gt hlt (Option.some.inj hsame)
    rw [Pool.withdraw_of_other hother]
    exact .filled hcurrent hidle

/-- Who has discarded an earlier session is given the one that is there. -/
theorem Pool.Yields.join (h : p.Yields first sessions) {discarded : Option SessionId}
    (hlt : ∀ session ∈ discarded, session < first) : (p.join discarded).1.Yields first sessions := by
  cases h with
  | vacant hcurrent =>
    rw [Pool.join_of_none hcurrent]
    exact .vacant (p.current_joinAttempt.trans hcurrent)
  | filled hcurrent hidle =>
    have hother : discarded ≠ some first := fun hsame => Nat.lt_irrefl _ (hlt first hsame)
    rw [Pool.join_of_other hcurrent hother]
    exact .filled hcurrent hidle

end Yields

/-! ## Calls that go on after a shutdown -/

namespace Call

variable {α : Type}

/-- A call that does not look at what is current, and takes out no session from `first` on. -/
def Spares (first : SessionId) : Call α → Prop
  | done _ => True
  | act (.withdraw session) rest => session < first ∧ (rest ()).Spares first
  | act (.join discarded) rest =>
    (∀ session ∈ discarded, session < first) ∧ ∀ lead : Lead, (rest lead).Spares first
  | act _ _ => False
  | await _ rest => ∀ reply, (rest reply).Spares first

/-- Up to its next wait such a call leaves the place as it may be. Induction on the call. -/
theorem Spares.settle {call : Call α} {first : SessionId} (h : call.Spares first) {p : Pool}
    {sessions : Nat} (hp : p.Yields first sessions) :
    (call.settle p).1.Yields first sessions ∧ (call.settle p).2.Spares first := by
  induction call generalizing p with
  | done result => exact ⟨hp, h⟩
  | await wait rest ih => exact ⟨hp, h⟩
  | act a rest ih =>
    cases a with
    | withdraw session => exact ih () h.2 (hp.withdraw h.1)
    | join discarded => exact ih _ (h.2 _) (hp.join h.1)
    | look => exact h.elim
    | release => exact h.elim
    | countForced => exact h.elim

end Call

variable {limits : Limits}

/-- Joining does no harm to sessions made since, where the one that is discarded is older. -/
theorem spares_joining {first : SessionId} {discarded : Option SessionId}
    (h : ∀ session ∈ discarded, session < first) : (joining discarded).Spares first := by
  rw [joining_eq {}]
  refine ⟨h, fun lead => ?_⟩
  cases lead with
  | session s => trivial
  | attempt a => exact fun outcome => trivial

/-- To discard an older session does no harm to sessions made since. -/
theorem spares_discarding {first session : SessionId} (h : session < first) :
    (discarding session).Spares first :=
  fun _ => spares_joining fun _ hsession => Option.mem_some.1 hsession ▸ h

/-- A call that has asked for a session has looked already, and whatever it may still take out was
there when it did. -/
theorem Stage.spares {stage : Stage} {p : Pool} {sessions : Nat} {made gone : List SessionId}
    (htame : (stage.call limits).Tame made gone) (hknows : Knows p sessions made gone) :
    (stage.call limits).Spares sessions := by
  cases stage with
  | probing session =>
    have hmade : session ∈ made := (htame ProbeAnswer.closed).1
    intro answer
    show (judged session answer).Spares sessions
    -- A session that answers is kept, and the call is over; one that does not is discarded.
    unfold judged
    split
    · trivial
    · exact ⟨hknows.made session hmade, spares_discarding (hknows.made session hmade)⟩
  | closing session =>
    have hjoining : (joining (some session)).Tame made gone := htame ()
    rw [joining_eq {}] at hjoining
    exact spares_discarding (hknows.gone session (hjoining.1 session rfl)).1
  | waiting a => exact fun outcome => trivial

/-- The rest of a shutdown that has taken out what was current. -/
def closingDown : Option SessionId → Call Reply
  | none => .done .none
  | some session => .await (.close session) fun _ => .done .none

/-- A shutdown is the release of the current session, and then its close. -/
theorem shutdown_eq (limits : Limits) :
    Request.shutdown.call limits = .act .release closingDown := by
  show Call.act .release _ = Call.act .release _
  congr 1
  funext current
  cases current <;> rfl

/-- A shutdown takes the current session away at once, before anything is told. -/
theorem settle_shutdown (limits : Limits) (p : Pool) :
    (Request.shutdown.call limits).settle p =
      ({ p with current := none }, closingDown p.current) := by
  rw [shutdown_eq]
  show (closingDown p.current).settle { p with current := none } = _
  cases p.current <;> rfl

/-- What is left of a shutdown is a close, which touches nothing in the pool. -/
theorem spares_closingDown (first : SessionId) (current : Option SessionId) :
    (closingDown current).Spares first := by
  cases current with
  | none => trivial
  | some session => exact fun _ => trivial

namespace System

/-! ## After a shutdown -/

/-- What holds after a shutdown until another call begins, where `first` sessions were made when it
began. -/
structure ShutDown (first : SessionId) (s : System Reply) : Prop where
  sound : s.Sound
  pool : s.pool.Yields first s.sessions
  calls : ∀ id call, s.call? id = some call → call.Spares first

section ShutDown

variable {first : SessionId} {s : System Reply}

/-- That an answer has been noted changes nothing after a shutdown. -/
theorem ShutDown.noteAnswer (h : s.ShutDown first) (wait : Wait) :
    (s.noteAnswer wait).ShutDown first := by
  have hsound := h.sound.noteAnswer wait
  obtain ⟨closed, hnote⟩ := s.exists_noteAnswer wait
  rw [hnote] at hsound ⊢
  exact ⟨hsound, h.pool, h.calls⟩

/-- A call goes on from one of its waits. -/
theorem ShutDown.resume (h : s.ShutDown first) {id : CallId} {wait : Wait}
    {rest : wait.Reply → Call Reply} (hcall : s.call? id = some (.await wait rest))
    (reply : wait.Reply) : ((s.noteAnswer wait).advance id (rest reply)).ShutDown first := by
  have hrest : (rest reply).Spares first := h.calls id _ hcall reply
  have hnoted := h.noteAnswer wait
  obtain ⟨hpool, hspares⟩ := hrest.settle hnoted.pool
  refine ⟨h.sound.resume hcall reply, hpool, fun id' call' hcall' => ?_⟩
  rw [call?_advance] at hcall'
  split at hcall'
  · exact Option.some.inj hcall' ▸ hspares
  · exact hnoted.calls id' call' hcall'

/-- An attempt ends, which leaves the first session since the shutdown or none. -/
theorem ShutDown.conclude (h : s.ShutDown first) {a : AttemptId}
    (hconnecting : s.attempts[a]? = some .connecting) (outcome : Except Bridge.Error Unit) :
    (s.conclude a outcome).ShutDown first := by
  refine ⟨h.sound.conclude hconnecting outcome, ?_, h.calls⟩
  have hnone := h.sound.current_eq_none hconnecting
  obtain rfl : s.sessions = first := by
    rcases h.pool.current_cases with ⟨-, hsame⟩ | ⟨hcurrent, -⟩
    · exact hsame
    · exact absurd (hcurrent.symm.trans hnone) (Option.some_ne_none first)
  cases outcome with
  | error e => exact .vacant hnone
  | ok _ => exact .filled rfl rfl

/-- **One step.** -/
theorem ShutDown.step (h : s.ShutDown first) {input : Input Reply}
    (hworld : input.isOfWorld = true) : (s.step input).ShutDown first := by
  have hstep := s.happens_step input
  generalize s.step input = s' at hstep ⊢
  cases hstep with
  | ignored => exact h
  | begun _ => cases hworld
  | answered hcall _ => exact h.resume hcall _
  | shared hcall _ => exact h.resume hcall _
  | connected hconnecting _ => exact h.conclude hconnecting _
  | cleared hclosing _ => exact absurd hclosing (h.sound.clear _ _ _)
  | abandoned id => cases hworld

theorem ShutDown.run (h : s.ShutDown first) {inputs : List (Input Reply)}
    (hworld : ∀ input ∈ inputs, input.isOfWorld = true) : (s.run inputs).ShutDown first :=
  run_of_step (fun _ hs _ hinput => hs.step hinput) h hworld

end ShutDown

/-! ## When all calls have returned -/

/-- The invariant holds from the shutdown on: what is current later was made later. -/
theorem shutDown_begin {s : System Reply} (h : s.Sound) (hensuring : s.Staged limits fun _ => True)
    {id : CallId} (hid : s.call? id = none) :
    (s.step (.begin id (Request.shutdown.call limits))).ShutDown s.sessions := by
  refine ⟨h.step (tame_call limits .shutdown), ?_, fun id' call' hcall' => ?_⟩
  · simp only [step, hid]
    refine .vacant ?_
    show ((Request.shutdown.call limits).settle s.pool).1.current = none
    rw [settle_shutdown]
  · simp only [step, hid, call?_advance] at hcall'
    split at hcall'
    · obtain rfl := Option.some.inj hcall'
      rw [settle_shutdown]
      exact spares_closingDown _ _
    · -- The other calls stand in stages of ensuring a session, which close older sessions only.
      rcases hensuring id' call' hcall' with ⟨result, rfl⟩ | ⟨stage, rfl, -⟩
      · trivial
      · obtain ⟨made, gone, hknows, htame⟩ := h.calls id' _ hcall'
        exact Stage.spares htame hknows

/-- No session is current, none that was made is open, and the broker says that it has none. -/
structure Disconnected (limits : Limits) (s : System Reply) : Prop where
  current : s.pool.current = none
  closed : ∀ session < s.sessions, session ∈ s.closed
  health : ∀ id, s.call? id = none →
    (s.step (.begin id (Request.health.call limits))).result? id = some (.health .disconnected)

/-- What a report on the session goes on with. -/
def reporting (limits : Limits) : Option SessionId → Call Reply
  | none => .done (.health .disconnected)
  | some session => .await (.probe session limits.probe) fun answer => .done (.health (.ofProbe answer))

/-- A look at the health is a look at the current session, and then the report on it. -/
theorem health_eq (limits : Limits) : Request.health.call limits = .act .look (reporting limits) := by
  show Call.act .look _ = Call.act .look _
  congr 1
  funext current
  cases current <;> rfl

/-- A look at the health reports on the session that is current when it begins. -/
theorem call?_begin_health {s : System Reply} {id : CallId} (hid : s.call? id = none) :
    (s.step (.begin id (Request.health.call limits))).call? id =
      some (reporting limits s.pool.current) := by
  rw [call?_begin hid, health_eq]
  show some ((reporting limits s.pool.current).settle s.pool).2 = _
  cases s.pool.current <;> rfl

/-- **A shutdown beside calls that ask for a session.** -/
theorem disconnected_iff_none_made (limits : Limits) {earlier later : List (Input Reply)}
    {id : CallId} (hoffered : ∀ input ∈ earlier, input.IsOffered limits)
    -- Nobody goes away while their call is closing a session.
    (hkeeps : ∀ before input after, earlier = before ++ input :: after →
      ∀ session, input.Keeps ((empty : System Reply).run before) session) :
    let s := (empty : System Reply).run earlier
    let s' := (s.step (.begin id (Request.shutdown.call limits))).run later
    -- All calls in progress when the shutdown begins have asked for a session.
    s.Staged limits (fun _ => True) → s.call? id = none →
    -- No further call is made, and all that there are return.
    (∀ input ∈ later, input.isOfWorld = true) →
    (∀ other call, s'.call? other = some call → call.result?.isSome = true) →
      (s'.Disconnected limits ↔ s'.sessions = s.sessions) ∧
      -- What was there before is closed in any case.
      (∀ session < s.sessions, session ∈ s'.closed) ∧
      -- A session that was made after the shutdown began stays.
      (s'.sessions ≠ s.sessions →
        s'.sessions = s.sessions + 1 ∧ s'.pool.current = some s.sessions ∧
          ∀ other, s'.call? other = none →
            (s'.step (.begin other (Request.health.call limits))).wait? other =
              some (.probe s.sessions limits.probe)) := by
  intro s s' hensuring hid hworld hended
  have howned : s.Owned :=
    owned_empty.run_of_keeps (fun input hinput => (hoffered input hinput).beginsTame) hkeeps
  have hshutDown : s'.ShutDown s.sessions := (shutDown_begin howned.sound hensuring hid).run hworld
  have hbegun : (s.step (.begin id (Request.shutdown.call limits))).Owned :=
    howned.step (tame_call limits .shutdown) fun _ => trivial
  have hall : s'.Owned :=
    hbegun.run fun input hinput => Input.isTame_of_isOfWorld (hworld input hinput)
  -- No session is current, or the one that was made behind the shutdown.
  rcases hshutDown.pool.current_cases with ⟨hnone, hsessions⟩ | ⟨hcurrent, hsessions⟩
  · have hclosed (session : SessionId) (hlt : session < s'.sessions) : session ∈ s'.closed :=
      hall.closed_of_ended hended hlt (hnone ▸ (Option.some_ne_none session).symm)
    refine ⟨iff_of_true ⟨hnone, hclosed, fun other hother => ?_⟩ hsessions,
      fun session hlt => hclosed session (hsessions ▸ hlt), fun hne => absurd hsessions hne⟩
    rw [result?, call?_begin_health hother, hnone]
    rfl
  · have hmore : s'.sessions ≠ s.sessions := hsessions ▸ Nat.succ_ne_self _
    refine ⟨iff_of_false (fun hleft => ?_) hmore, fun session hlt => ?_,
      fun _ => ⟨hsessions, hcurrent, fun other hother => ?_⟩⟩
    · exact Option.some_ne_none _ (hcurrent.symm.trans hleft.current)
    · have hother : s'.pool.current ≠ some session := fun hsame =>
        Nat.ne_of_lt hlt (Option.some.inj (hsame.symm.trans hcurrent))
      exact hall.closed_of_ended hended (hsessions ▸ Nat.lt_succ_of_lt hlt) hother
    · rw [wait?, call?_begin_health hother, hcurrent]
      rfl

/-- A session is made, and a call probes it. -/
def probing : List (Input Reply) :=
  [.begin 0 (Request.ensure.call {}), .connected 0 (.ok ()), .share 0,
   .begin 1 (Request.ensure.call {})]

/-- The session turns out to be closed, is closed by the calls 2 and 1, and the call 1 connects in
vain. -/
def vainConnect : List (Input Reply) :=
  [.answer 1 (.probed .closed), .answer 2 .closed, .answer 1 .closed,
   .connected 1 (.error .notConnected), .share 1]

/-- A connect that fails during the shutdown makes no session, and the broker ends disconnected. -/
theorem outcome_vainConnect :
    let s := (((empty : System Reply).run probing).step (.begin 2 (Request.shutdown.call {}))).run
      vainConnect
    s.sessions = 1 ∧
      s.calls = [(0, .done (.session (.ok 0))), (1, .done (.session (.error .notConnected))),
        (2, .done .none)] :=
  ⟨rfl, rfl⟩

/-- The general statement at that run: all calls return, and the broker is disconnected since none
was made. -/
theorem disconnected_iff_none_made_vainConnect :
    let s := (empty : System Reply).run probing
    let s' := (s.step (.begin 2 (Request.shutdown.call {}))).run vainConnect
    (∀ input ∈ probing, input.IsOffered {}) ∧ s.Staged {} (fun _ => True) ∧ s.call? 2 = none ∧
      (∀ input ∈ vainConnect, input.isOfWorld = true) ∧
      (∀ other call, s'.call? other = some call → call.result?.isSome = true) ∧
      s'.sessions = s.sessions ∧ s'.Disconnected {} := by
  intro s s'
  have hoffered : ∀ input ∈ probing, input.IsOffered {} := by
    simp only [probing, List.forall_mem_cons]
    exact ⟨⟨.ensure, rfl⟩, trivial, trivial, ⟨.ensure, rfl⟩, by simp⟩
  have hkeeps : ∀ before input after, probing = before ++ input :: after →
      ∀ session, input.Keeps ((empty : System Reply).run before) session := by
    intro before input after hsplit session
    have hmem : input ∈ probing := hsplit ▸ List.mem_append_right before List.mem_cons_self
    cases input with
    | abandon id => simp [probing] at hmem
    | _ => trivial
  have hensuring : s.Staged {} fun _ => True := by
    have hempty : (empty : System Reply).Ensuring {} := sound_empty.ensuring nofun
    refine (hempty.run ?_).staged.imp fun _ _ => trivial
    simp only [probing, List.forall_mem_cons]
    exact ⟨rfl, trivial, trivial, rfl, by simp⟩
  have hid : s.call? 2 = none := rfl
  have hworld : ∀ input ∈ vainConnect, input.isOfWorld = true := by
    simp [vainConnect, Input.isOfWorld]
  have hended : ∀ id call, s'.call? id = some call → call.result?.isSome = true := by
    intro id call hcall
    have hmem := mem_of_call? hcall
    rw [outcome_vainConnect.2] at hmem
    simp only [List.mem_cons, List.not_mem_nil, or_false, Prod.mk.injEq] at hmem
    rcases hmem with ⟨-, rfl⟩ | ⟨-, rfl⟩ | ⟨-, rfl⟩ <;> rfl
  have hsessions : s'.sessions = s.sessions := outcome_vainConnect.1
  have hiff := (disconnected_iff_none_made {} hoffered hkeeps hensuring hid hworld hended).1
  exact ⟨hoffered, hensuring, hid, hworld, hended, hsessions, hiff.2 hsessions⟩

/-- An attempt is under way when the shutdown begins, and succeeds when the shutdown is over. -/
theorem shutdown_overtaken :
    let s := (empty : System Reply).run [.begin 0 (Request.ensure.call {})]
    let s' := (s.step (.begin 1 (Request.shutdown.call {}))).run [.connected 0 (.ok ()), .share 0]
    (∀ id call, s'.call? id = some call → call.result?.isSome = true) ∧
      s'.pool.current = some 0 ∧ s'.sessions = 1 ∧ s'.closed = [] ∧ ¬ s'.Disconnected {} := by
  intro s s'
  have hcalls : s'.calls = [(0, give (.ok 0)), (1, .done .none)] := rfl
  refine ⟨fun id call hcall => ?_, rfl, rfl, rfl, fun h => nomatch h.current⟩
  have hmem := mem_of_call? hcall
  rw [hcalls] at hmem
  simp only [List.mem_cons, List.not_mem_nil, or_false, Prod.mk.injEq] at hmem
  rcases hmem with ⟨-, rfl⟩ | ⟨-, rfl⟩ <;> rfl

end System

end CanvasLink.Broker
