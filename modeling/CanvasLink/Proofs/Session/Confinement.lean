import CanvasLink.Proofs.Connection.Table
import CanvasLink.Session.Basic

/-!
# CanvasLink — what a session says, and how long

A session has two notions of being open: it holds a context until it is closed, and its connection
is live until it is closed or can be heard no more. This module follows both through a run, from the
first step of attaching on.

* `Attaching.Sound` — while attaching goes on, one call waits at most; when a context is chosen,
  none does.
* `Moment` — what may happen to a session. An evaluation copies the connection and the context out
  first, so that it may come to use them when the session is closed.
* `run_within` — as long as the session is not closed, a run is one of its connection.
* `Closed` — the session behind `close`; `Closed.run` keeps it so.
* **`speaks_to_context`** — the headline.
-/

namespace CanvasLink

open CanvasLink.Bridge CanvasLink.Json CanvasLink.Wire

/-! ## Attaching -/

/-- An input that begins no call takes calls out of the table at most, and ends none that was not
in it. -/
theorem Connection.step_of_begins?_none {c : Connection} {input : Connection.Input}
    (hinput : input.begins? = none) (hinbound : c.live = true → c.inbound = true) :
    ((c.step input).1.live = true → (c.step input).1.inbound = true) ∧
      (c.step input).1.pending.Sublist c.pending ∧
      ∀ call outcome, .finished call outcome ∈ (c.step input).2 →
        c.pending ≠ [] ∧ (c.pending.length ≤ 1 → (c.step input).1.pending = []) := by
  have hfail (call : CallId) (outcome : Outcome)
      (h : .finished call outcome ∈ c.failPending.2) : c.pending ≠ [] := by
    intro hnil
    simp [failPending, hnil] at h
  cases input with
  | send call method params purpose => cases hinput
  | deliver message =>
    rw [step]
    rcases c.deliver_cases message with ⟨r, p, -, hfind, heq⟩ | ⟨_, _, heq⟩ | heq
    · have hmem := List.mem_of_find?_eq_some hfind
      rw [heq]
      refine ⟨hinbound, List.filter_sublist, fun _ _ _ => ⟨List.ne_nil_of_mem hmem, fun hfew => ?_⟩⟩
      -- The only call that waits is the one that has just been found.
      obtain ⟨q, hq⟩ := List.length_eq_one_iff.1
        (Nat.le_antisymm hfew (List.length_pos_of_mem hmem))
      have hp : c.pending = [p] := by
        rw [hq, List.mem_singleton] at hmem
        rw [hq, hmem]
      have hid : p.id = r.id := by simpa using List.find?_some hfind
      simp [hp, hid]
    · rw [heq]
      exact ⟨hinbound, .refl _, by simp⟩
    · rw [heq]
      exact ⟨hinbound, .refl _, by simp⟩
  | cancel call => exact ⟨hinbound, List.filter_sublist, by simp [step]⟩
  | close =>
    refine ⟨fun hlive => absurd hlive Bool.false_ne_true, List.nil_sublist _, ?_⟩
    exact fun call outcome h => ⟨hfail call outcome h, fun _ => rfl⟩
  | hangUp =>
    refine ⟨fun hlive => absurd hlive Bool.false_ne_true, List.nil_sublist _, ?_⟩
    exact fun call outcome h => ⟨hfail call outcome h, fun _ => rfl⟩
  | stopReading => exact ⟨hinbound, .refl _, by simp [step]⟩

namespace Attaching

/-- States of attaching over a connection that has just been opened. -/
inductive Reached : Attaching → Prop
  | start : Reached (Attaching.start .opened).1
  | step {a : Attaching} (input : Input) : Reached a → Reached (a.step input).1

/-- Whether the outcome of a call is waited for. -/
def isAwaiting (a : Attaching) : Bool :=
  match a.phase with
  | .enabling => true
  | .probing _ _ => true
  | _ => false

/-- What holds while attaching goes on. -/
structure Sound (a : Attaching) : Prop where
  inbound : a.connection.live = true → a.connection.inbound = true
  few : a.connection.pending.length ≤ 1
  /-- No call waits when its outcome is there, or none is waited for. -/
  idle : a.answer ≠ none ∨ a.isAwaiting = false → a.connection.pending = []
  awaiting : a.answer ≠ none → a.isAwaiting = true

section Sound

variable {a : Attaching}

/-- To note effects changes the answer at most, and that only if a call has ended. -/
theorem foldl_note (effects : List Connection.Effect) (a : Attaching) :
    (effects.foldl note a).connection = a.connection ∧ (effects.foldl note a).phase = a.phase ∧
      ((effects.foldl note a).answer ≠ none →
        a.answer ≠ none ∨ ∃ call outcome, .finished call outcome ∈ effects) := by
  induction effects generalizing a with
  | nil => exact ⟨rfl, rfl, .inl⟩
  | cons effect effects ih =>
    obtain ⟨hconnection, hphase, hanswer⟩ := ih (a.note effect)
    rw [List.foldl_cons]
    cases effect with
    | wrote request =>
      refine ⟨hconnection, hphase, fun h => (hanswer h).imp_right ?_⟩
      exact fun ⟨call, outcome, hmem⟩ => ⟨call, outcome, List.mem_cons_of_mem _ hmem⟩
    | announced event =>
      refine ⟨hconnection, hphase, fun h => (hanswer h).imp_right ?_⟩
      exact fun ⟨call, outcome, hmem⟩ => ⟨call, outcome, List.mem_cons_of_mem _ hmem⟩
    -- Of all effects only the end of a call brings an answer.
    | finished call outcome =>
      exact ⟨hconnection, hphase, fun _ => .inr ⟨call, outcome, List.mem_cons_self⟩⟩

/-- What passes the connection while attaching goes on can end the one call that waits, and no
more. -/
theorem Sound.pass (h : a.Sound) (input : Connection.Input) (hinput : input.begins? = none) :
    (a.pass input).Sound := by
  obtain ⟨hinbound, hfewer, hfinished⟩ :=
    Connection.step_of_begins?_none (c := a.connection) hinput h.inbound
  obtain ⟨hconnection, hphase, hanswer⟩ := foldl_note (a.connection.step input).2
    { a with connection := (a.connection.step input).1 }
  have hpass : a.pass input = (a.connection.step input).2.foldl note
      { a with connection := (a.connection.step input).1 } := rfl
  rw [← hpass] at hconnection hphase hanswer
  have hawaiting : (a.pass input).isAwaiting = a.isAwaiting := by
    unfold isAwaiting
    rw [hphase]
  have hstillIdle (hidle : a.connection.pending = []) :
      (a.connection.step input).1.pending = [] := by
    rw [hidle] at hfewer
    exact List.sublist_nil.1 hfewer
  refine ⟨?_, ?_, ?_, ?_⟩
  · rw [hconnection]
    exact hinbound
  · rw [hconnection]
    exact Nat.le_trans hfewer.length_le h.few
  · rw [hconnection, hawaiting]
    rintro (hsome | hnot)
    · rcases hanswer hsome with hold | ⟨call, outcome, hmem⟩
      · exact hstillIdle (h.idle (.inl hold))
      · exact (hfinished call outcome hmem).2 h.few
    · exact hstillIdle (h.idle (.inr hnot))
  · rw [hawaiting]
    intro hsome
    rcases hanswer hsome with hold | ⟨call, outcome, hmem⟩
    · exact h.awaiting hold
    · -- A call has ended, so that one was waited for.
      rw [← Bool.not_eq_false]
      exact fun hnot => (hfinished call outcome hmem).1 (h.idle (.inr hnot))

/-- Attaching goes on from a state in which no call waits. -/
theorem sound_of_idle (hinbound : a.connection.live = true → a.connection.inbound = true)
    (hpending : a.connection.pending = []) (hanswer : a.answer = none) : a.Sound :=
  ⟨hinbound, by simp [hpending], fun _ => hpending, fun h => absurd hanswer h⟩

theorem sound_fail (hanswer : a.answer = none) (error : Bridge.Error) : (a.fail error).Sound :=
  sound_of_idle (fun hlive => absurd hlive Bool.false_ne_true) rfl hanswer

/-- Probing: the first probe that is written is the one call that waits. Induction on the
contexts. -/
theorem sound_probe (contexts : List Int64)
    (hinbound : a.connection.live = true → a.connection.inbound = true)
    (hpending : a.connection.pending = []) (hanswer : a.answer = none) :
    (a.probe contexts).1.Sound := by
  induction contexts generalizing a with
  | nil => exact sound_fail hanswer _
  | cons context others ih =>
    unfold probe
    simp only [Connection.step, Connection.Input.evaluate, Connection.send]
    cases a.connection.live && a.connection.holdsSender && a.connection.peerReads with
    -- A probe that cannot be sent is passed over for the next context.
    | false => exact ih hinbound hpending hanswer
    | true =>
      refine ⟨hinbound, ?_, ?_, fun h => absurd hanswer h⟩
      · show (a.connection.pending ++ [_]).length ≤ 1
        simp [hpending]
      · rintro (hsome | hnot)
        · exact absurd hanswer hsome
        · cases hnot

/-- Attaching begins with one call, and no answer. -/
theorem sound_start : (start .opened).1.Sound := by
  refine ⟨fun _ => rfl, Nat.le_refl 1, ?_, fun h => absurd rfl h⟩
  rintro (hsome | hnot)
  · exact absurd rfl hsome
  · cases hnot

/-- It is the turn of attaching when the answer of its call is there; it then makes the next call or
is over. -/
theorem Sound.resume (h : a.Sound) : a.resume.1.Sound := by
  unfold Attaching.resume
  cases hanswer : a.answer with
  | none => exact h
  | some outcome =>
    have hpending := h.idle (.inl (by simp [hanswer]))
    unfold conclude
    dsimp only
    split
    · -- What each awaited answer leads to; only a refused probe sends another request.
      exact sound_of_idle h.inbound hpending rfl
    · exact sound_fail rfl _
    · exact sound_of_idle h.inbound hpending rfl
    · exact sound_probe _ h.inbound hpending rfl
    · exact sound_of_idle h.inbound hpending rfl

/-- No call waits while attaching settles; behind that the first context is probed. -/
theorem Sound.settle (h : a.Sound) : a.settle.1.Sound := by
  unfold Attaching.settle
  split
  · next hphase =>
    have hnot : a.isAwaiting = false := by
      unfold isAwaiting
      rw [hphase]
    have hanswer : a.answer = none := by
      by_contra hsome
      exact Bool.false_ne_true (hnot.symm.trans (h.awaiting hsome))
    exact sound_probe _ h.inbound (h.idle (.inr hnot)) hanswer
  · exact h

/-- Each input keeps attaching sound. -/
theorem Sound.step (h : a.Sound) (input : Input) : (a.step input).1.Sound := by
  cases input with
  | deliver message => exact h.pass (.deliver message) rfl
  | hangUp => exact h.pass .hangUp rfl
  | stopReading => exact h.pass .stopReading rfl
  | resume => exact h.resume
  | settled => exact h.settle

/-- Every state of attaching is sound. -/
theorem Reached.sound (h : a.Reached) : a.Sound := by
  induction h with
  | start => exact sound_start
  | step input _ ih => exact ih.step input

end Sound

end Attaching

namespace Session

open Connection (CallId Effect Orderly Ended outcomes)

/-! ## Runs -/

/-- What may happen to a session. -/
inductive Moment where
  | input (input : Input)
  /-- An evaluation that has copied the connection and the context out before goes on with them. -/
  | resume (call : CallId) (expression : String)

/-- The call and the expression of an evaluation. -/
def Moment.evaluates? : Moment → Option (CallId × String)
  | .input (.evaluate call expression) => some (call, expression)
  | .resume call expression => some (call, expression)
  | _ => none

/-- The call that begins at a moment. -/
def Moment.begins? (moment : Moment) : Option CallId :=
  moment.evaluates?.map Prod.fst

/-- What the connection sees of a moment, as long as the session has its context. -/
def Moment.within (context : Int64) : Moment → Connection.Input
  | .input (.evaluate call expression) => .evaluate call (.inContext expression context)
  | .input (.deliver message) => .deliver message
  | .input (.cancel call) => .cancel call
  | .input .close => .close
  | .input .hangUp => .hangUp
  | .input .stopReading => .stopReading
  | .resume call expression => .evaluate call (.inContext expression context)

/-- What happens at a moment. The context is the one that evaluations have copied out. -/
def undergo (context : Int64) (s : Session) : Moment → Session × List Effect
  | .input input => s.step input
  | .resume call expression => s.pass (.evaluate call (.inContext expression context))

/-- A run over moments, with the effects of each. -/
def run (context : Int64) (s : Session) : List Moment → Session × List (List Effect)
  | [] => (s, [])
  | moment :: moments =>
    let (s, effects) := s.undergo context moment
    let (s, rest) := s.run context moments
    (s, effects :: rest)

/-- All effects of a run, in order. -/
def effects (context : Int64) (s : Session) (moments : List Moment) : List Effect :=
  (s.run context moments).2.flatten

/-- The parameters with which an expression is evaluated in a context. -/
def evaluationIn (context : Int64) (expression : String) : Value :=
  .object [("expression", .string expression), ("contextId", .int context.toInt),
    ("awaitPromise", .boolean true), ("returnByValue", .boolean true)]

section Within

variable {context : Int64} {s : Session} {moment : Moment} {moments : List Moment}

/-- The connection sees a call begin where one does in the session. -/
theorem begins?_within (context : Int64) (moment : Moment) :
    (moment.within context).begins? = moment.begins? := by
  cases moment with
  | input input => cases input <;> rfl
  | resume call expression => rfl

theorem filterMap_begins?_within (context : Int64) (moments : List Moment) :
    (moments.map (Moment.within context)).filterMap Connection.Input.begins? =
      moments.filterMap Moment.begins? := by
  rw [List.filterMap_map]
  exact List.filterMap_congr fun moment _ => begins?_within context moment

/-- What evaluates at a moment is a call with the parameters of the context. -/
theorem within_of_evaluates? {call : CallId} {expression : String}
    (h : moment.evaluates? = some (call, expression)) :
    moment.within context =
      .send call runtimeEvaluate (evaluationIn context expression) .evaluation := by
  cases moment with
  | resume call' expression' =>
    cases h
    rfl
  | input input =>
    cases input <;> cases h
    rfl

/-- No other call is made. -/
theorem evaluates?_of_within {call : CallId} {method : String} {params : Value}
    {purpose : Connection.Purpose} (h : moment.within context = .send call method params purpose) :
    ∃ expression, moment.evaluates? = some (call, expression) ∧ method = runtimeEvaluate ∧
      params = evaluationIn context expression := by
  cases moment with
  | resume call' expression =>
    cases h
    exact ⟨expression, rfl, rfl, rfl⟩
  | input input =>
    cases input <;> cases h
    exact ⟨_, rfl, rfl, rfl⟩

/-- Only a call that is cancelled in the session is cancelled on the connection. -/
theorem eq_cancel_of_within {call : CallId} (h : moment.within context = .cancel call) :
    moment = .input (.cancel call) := by
  cases moment with
  | resume call' expression => cases h
  | input input =>
    cases input <;> cases h
    rfl

/-- A run over two lists of moments is one run after the other. -/
theorem run_append (context : Int64) (s : Session) (as bs : List Moment) :
    s.run context (as ++ bs) = (((s.run context as).1.run context bs).1,
      (s.run context as).2 ++ ((s.run context as).1.run context bs).2) := by
  induction as generalizing s with
  | nil => rfl
  | cons a as ih =>
    show (((s.undergo context a).1.run context (as ++ bs)).1,
      (s.undergo context a).2 :: ((s.undergo context a).1.run context (as ++ bs)).2) = _
    rw [ih]
    rfl

theorem effects_append (context : Int64) (s : Session) (as bs : List Moment) :
    s.effects context (as ++ bs) =
      s.effects context as ++ (s.run context as).1.effects context bs := by
  rw [effects, run_append, List.flatten_append]
  rfl

/-- The effects of a run are those of its first moment and those of the rest. -/
theorem effects_cons (context : Int64) (s : Session) (a : Moment) (as : List Moment) :
    s.effects context (a :: as) =
      (s.undergo context a).2 ++ (s.undergo context a).1.effects context as :=
  rfl

/-- Before its end a session does with a moment what its connection does with what it sees. -/
theorem undergo_within (hcontext : s.context = some context) (hmoment : moment ≠ .input .close) :
    s.undergo context moment = s.pass (moment.within context) := by
  cases moment with
  | resume call expression => rfl
  | input input =>
    cases input with
    | close => exact absurd rfl hmoment
    -- The one moment that depends on the session: it names the context the session has.
    | evaluate call expression =>
      simp only [undergo, step, hcontext]
      rfl
    | deliver message => rfl
    | cancel call => rfl
    | hangUp => rfl
    | stopReading => rfl

/-- **As long as it is not closed, a session is its connection.** Induction on the moments. -/
theorem run_within (hcontext : s.context = some context) (hkept : .input .close ∉ moments) :
    (s.run context moments).1.context = some context ∧
      (s.run context moments).1.connection =
        (s.connection.run (moments.map (Moment.within context))).1 ∧
      (s.run context moments).2 = (s.connection.run (moments.map (Moment.within context))).2 := by
  induction moments generalizing s with
  | nil => exact ⟨hcontext, rfl, rfl⟩
  | cons moment moments ih =>
    obtain ⟨hmoment, hrest⟩ := not_or.1 (mt List.mem_cons.2 hkept)
    -- Without `close` the context stays, so each moment is the connection's own input.
    have hstep := undergo_within hcontext (Ne.symm hmoment)
    obtain ⟨hcontext', hconnection, heffects⟩ := ih (s := (s.undergo context moment).1)
      (by rw [hstep]; exact hcontext) hrest
    rw [hstep] at hcontext' hconnection heffects
    show ((s.undergo context moment).1.run context moments).1.context = _ ∧
      ((s.undergo context moment).1.run context moments).1.connection = _ ∧
      (s.undergo context moment).2 :: ((s.undergo context moment).1.run context moments).2 = _
    rw [hstep, hcontext', hconnection, heffects]
    exact ⟨rfl, rfl, rfl⟩

end Within

/-! ## Behind the end -/

/-- A session behind `close`: it has no context, and its connection has ended. -/
structure Closed (s : Session) : Prop where
  context : s.context = none
  ended : s.connection.Ended

namespace Closed

variable {s : Session}

/-- A session that is closed has lost its context, and its connection has ended. -/
theorem of_close {context : Int64} (hcontext : s.context = some context) :
    (s.step .close).1.Closed := by
  unfold Session.step
  rw [hcontext]
  exact ⟨rfl, Ended.of_step s.connection (.inl rfl)⟩

/-- What passes the connection of a closed session does not open it. -/
theorem pass (h : s.Closed) (input : Connection.Input) : (s.pass input).1.Closed :=
  ⟨h.context, h.ended.step input⟩

theorem step_evaluate (h : s.Closed) (call : CallId) (expression : String) :
    s.step (.evaluate call expression) = (s, [.finished call (.error .notConnected)]) := by
  unfold Session.step
  rw [h.context]

theorem step_close (h : s.Closed) : s.step .close = (s, []) := by
  unfold Session.step
  rw [h.context]

/-- An evaluation that has copied the connection out in time fails all the same. -/
theorem undergo_resume (h : s.Closed) (context : Int64) (call : CallId) (expression : String) :
    (s.undergo context (.resume call expression)).2 =
      [.finished call (.error (.transport "connection closed"))] := by
  show (s.connection.send call runtimeEvaluate _ .evaluation).2 = _
  rw [h.ended.send_eq]

/-- A moment passes by without any effect but one, or the connection alone has a part in it. -/
theorem undergo_cases (h : s.Closed) (context : Int64) (moment : Moment) :
    (s.undergo context moment).1 = s ∧ Connection.requests (s.undergo context moment).2 = [] ∨
      s.undergo context moment = s.pass (moment.within context) := by
  cases moment with
  | resume call expression => exact .inr rfl
  | input input =>
    cases input with
    | evaluate call expression =>
      left
      show (s.step _).1 = s ∧ Connection.requests (s.step _).2 = []
      rw [h.step_evaluate]
      exact ⟨rfl, rfl⟩
    | close =>
      left
      show (s.step _).1 = s ∧ Connection.requests (s.step _).2 = []
      rw [h.step_close]
      exact ⟨rfl, rfl⟩
    | deliver message => exact .inr rfl
    | cancel call => exact .inr rfl
    | hangUp => exact .inr rfl
    | stopReading => exact .inr rfl

/-- A closed session stays closed, also when an evaluation goes on that began before. -/
theorem undergo (h : s.Closed) (context : Int64) (moment : Moment) :
    (s.undergo context moment).1.Closed := by
  obtain ⟨hsame, -⟩ | hpass := h.undergo_cases context moment
  · rw [hsame]
    exact h
  · rw [hpass]
    exact h.pass _

/-- The same along every run. -/
theorem run (h : s.Closed) (context : Int64) (moments : List Moment) :
    (s.run context moments).1.Closed := by
  induction moments generalizing s with
  | nil => exact h
  | cons moment moments ih => exact ih (h.undergo context moment)

theorem isOpen (h : s.Closed) : s.isOpen = false := by
  rw [Session.isOpen, h.context]
  rfl

end Closed

/-- At each point of a run, a session still has its context or is closed. Induction on the
moments. -/
theorem run_cases {context : Int64} {s : Session} (hcontext : s.context = some context)
    (moments : List Moment) :
    .input .close ∉ moments ∧ (s.run context moments).1.context = some context ∨
      .input .close ∈ moments ∧ (s.run context moments).1.Closed := by
  induction moments generalizing s with
  | nil => exact .inl ⟨List.not_mem_nil, hcontext⟩
  | cons moment moments ih =>
    -- The first `close` decides: before it the context is kept, after it the session is closed.
    by_cases hmoment : moment = .input .close
    · subst hmoment
      exact .inr ⟨List.mem_cons_self, (Closed.of_close hcontext).run context moments⟩
    · have hcontext' : (s.undergo context moment).1.context = some context := by
        rw [undergo_within hcontext hmoment]
        exact hcontext
      refine (ih hcontext').imp (And.imp_left fun hrest => ?_) (And.imp_left ?_)
      · rw [List.mem_cons, not_or]
        exact ⟨Ne.symm hmoment, hrest⟩
      · exact List.mem_cons_of_mem _

/-! ## What is written -/

section Written

variable {context : Int64} {s : Session} {moment : Moment} {request : Request}

/-- What a session does at a moment is what its connection does, also at its end. -/
theorem undergo_effects (hcontext : s.context = some context) (moment : Moment) :
    (s.undergo context moment).2 = (s.connection.step (moment.within context)).2 := by
  by_cases hmoment : moment = .input .close
  · subst hmoment
    simp only [undergo, step, hcontext]
    rfl
  · rw [undergo_within hcontext hmoment]
    rfl

/-- A session that has its context writes evaluations in it, and nothing else. -/
theorem wrote_of_context (hcontext : s.context = some context)
    (h : .wrote request ∈ (s.undergo context moment).2) :
    ∃ call expression, moment.evaluates? = some (call, expression) ∧
      request.method = "Runtime.evaluate" ∧ request.params = evaluationIn context expression := by
  rw [undergo_effects hcontext] at h
  have hwritten : request ∈ Connection.requests (s.connection.step (moment.within context)).2 :=
    List.mem_filterMap.2 ⟨_, h, rfl⟩
  obtain ⟨call, method, params, purpose, hsend, -, hrequests, -⟩ | ⟨hnone, -⟩ :=
    Connection.requests_step s.connection (moment.within context)
  · obtain ⟨expression, hevaluates, hmethod, hparams⟩ := evaluates?_of_within hsend
    rw [hrequests, List.mem_singleton] at hwritten
    subst hwritten
    exact ⟨call, expression, hevaluates, hmethod, hparams⟩
  · rw [hnone] at hwritten
    cases hwritten

/-- A session behind `close` writes nothing. -/
theorem Closed.not_wrote (h : s.Closed) (context : Int64) (moment : Moment) (request : Request) :
    .wrote request ∉ (s.undergo context moment).2 := by
  have hnone : Connection.requests (s.undergo context moment).2 = [] := by
    obtain ⟨-, hnone⟩ | hpass := h.undergo_cases context moment
    · exact hnone
    · rw [hpass, ← h.ended.requests_effects [moment.within context]]
      exact congrArg Connection.requests (List.append_nil _).symm
  intro hmem
  have hwritten : request ∈ Connection.requests (s.undergo context moment).2 :=
    List.mem_filterMap.2 ⟨_, hmem, rfl⟩
  rw [hnone] at hwritten
  cases hwritten

end Written

/-! ## What is in flight -/

section InFlight

variable {context : Int64} {s : Session} {p : Connection.PendingCall}
  {following later : List Moment}

/-- The first `close` fails a call that waits and has met nothing so far. -/
theorem outcomes_first_close (hcontext : s.context = some context)
    (hfirst : .input .close ∉ following)
    (horderly : Orderly s.connection ((following ++ .input .close :: later).map
      (Moment.within context)))
    (hp : p ∈ s.connection.pending)
    (huntold : outcomes p.call (s.effects context following) = [])
    (hwaits : .input (.cancel p.call) ∉ following) :
    outcomes p.call ((s.run context following).1.step .close).2 =
      [.error (.transport "connection closed")] := by
  obtain ⟨hcontext', hconnection, heffects⟩ := run_within hcontext hfirst
  rw [List.map_append, List.map_cons] at horderly
  have hwaits' : .cancel p.call ∉ following.map (Moment.within context) := by
    intro hmem
    obtain ⟨moment, hmoment, heq⟩ := List.mem_map.1 hmem
    rw [eq_cancel_of_within heq] at hmoment
    exact hwaits hmoment
  -- The call has met nothing that ends it, so that it still waits when `close` comes.
  have hp' : p ∈ (s.run context following).1.connection.pending := by
    rw [hconnection, Connection.mem_pending_run_iff horderly.of_append hp,
      Connection.findSome?_ending?_eq_none_iff]
    refine ⟨?_, hwaits'⟩
    rw [← Connection.outcomes_run_of_mem horderly.of_append hp, ← huntold, effects, heffects]
    rfl
  have hclose := undergo_effects hcontext' (.input .close)
  show outcomes p.call ((s.run context following).1.undergo context (.input .close)).2 = _
  rw [hclose]
  rw [hconnection] at hp' ⊢
  exact (Connection.step_of_ending?_some horderly.run hp' rfl).1

/-- Every `close` does, since there is no call left for a second one. -/
theorem outcomes_close (hcontext : s.context = some context)
    (horderly : Orderly s.connection ((following ++ .input .close :: later).map
      (Moment.within context)))
    (hp : p ∈ s.connection.pending)
    (huntold : outcomes p.call (s.effects context following) = [])
    (hwaits : .input (.cancel p.call) ∉ following) :
    outcomes p.call ((s.run context following).1.step .close).2 =
      [.error (.transport "connection closed")] := by
  by_cases hclose : .input .close ∈ following
  · obtain ⟨as, bs, rfl, hfirst⟩ := List.eq_append_cons_of_mem hclose
    rw [effects_append, effects_cons, Connection.outcomes_append, Connection.outcomes_append,
      List.append_eq_nil_iff, List.append_eq_nil_iff] at huntold
    obtain ⟨hbefore, hat, -⟩ := huntold
    rw [List.append_assoc, List.cons_append] at horderly
    -- The first `close` has told the call, so that it is not true that it has been told nothing.
    have htold := outcomes_first_close hcontext hfirst horderly hp hbefore
      (fun hmem => hwaits (List.mem_append_left _ hmem))
    cases htold.symm.trans hat
  · exact outcomes_first_close hcontext hclose horderly hp huntold hwaits

/-- A call waits behind the moment at which it is written, so that `close` fails it. -/
theorem outcomes_close_of_wrote {moment : Moment} {call : CallId} {expression : String}
    {request : Request} (hcontext : s.context = some context)
    (horderly : Orderly s.connection ((moment :: (following ++ .input .close :: later)).map
      (Moment.within context)))
    (hevaluates : moment.evaluates? = some (call, expression))
    (hwrote : .wrote request ∈ (s.undergo context moment).2)
    (huntold : outcomes call ((s.undergo context moment).1.effects context following) = [])
    (hwaits : .input (.cancel call) ∉ following) :
    outcomes call (((s.undergo context moment).1.run context following).1.step .close).2 =
      [.error (.transport "connection closed")] := by
  obtain ⟨call', expression', hsame, hmethod, hparams⟩ := wrote_of_context hcontext hwrote
  obtain ⟨rfl, rfl⟩ := Prod.mk.inj (Option.some.inj (hsame.symm.trans hevaluates))
  have hnotClose : moment ≠ .input .close := by
    rintro rfl
    cases hevaluates
  have hstep := undergo_within hcontext hnotClose
  have hwithin : moment.within context =
      .send call' runtimeEvaluate (evaluationIn context expression') .evaluation :=
    within_of_evaluates? hevaluates
  have hrequest : request = ⟨request.id, runtimeEvaluate, evaluationIn context expression'⟩ := by
    rw [← hparams, show runtimeEvaluate = request.method from hmethod.symm]
  rw [undergo_effects hcontext, hwithin, hrequest] at hwrote
  let p : Connection.PendingCall := ⟨request.id, call', .evaluation⟩
  -- The request written is the entry that waits in the table until `close` fails it.
  have hp : p ∈ (s.undergo context moment).1.connection.pending := by
    rw [hstep, hwithin]
    exact (Connection.mem_pending_of_wrote hwrote).2
  have hcontext' : (s.undergo context moment).1.context = some context := by
    rw [hstep]
    exact hcontext
  have horderly' : Orderly (s.undergo context moment).1.connection
      ((following ++ .input .close :: later).map (Moment.within context)) := by
    rw [hstep]
    exact horderly.step
  exact outcomes_close hcontext' horderly' hp huntold hwaits

end InFlight

/-! ## The headline -/

/-- What attaching leaves behind: the context that it chose, and a connection on which nobody
waits. -/
theorem of_attached {a : Attaching} {target : TargetDescriptor} {s : Session}
    (hreached : a.Reached) (hs : ofAttaching? target a = some s) {context : Int64}
    (hchosen : a.phase = .attached context) :
    s.context = some context ∧ s.connection.pending = [] ∧
      (s.connection.live = true → s.connection.inbound = true) := by
  have hnot : a.isAwaiting = false := by
    unfold Attaching.isAwaiting
    rw [hchosen]
  unfold ofAttaching? at hs
  rw [hchosen] at hs
  cases hs
  exact ⟨rfl, hreached.sound.idle (.inr hnot), hreached.sound.inbound⟩

/-- **A session speaks to its own context only, and only while it is open.** This is so for every
run behind an attachment that has succeeded. Calls are numbered apart, and ids are words of 64 bits,
of which enough are left for all calls. -/
theorem speaks_to_context {a : Attaching} {target : TargetDescriptor} {s : Session}
    {context : Int64} {moments : List Moment} (hreached : a.Reached)
    (hchosen : a.phase = .attached context) (hs : ofAttaching? target a = some s)
    (hcalls : (moments.filterMap Moment.begins?).Nodup)
    (hroom : s.connection.issued + (moments.filterMap Moment.begins?).length < UInt64.size) :
    s.context = some context ∧
    -- All that is written is an evaluation in the context that was chosen, and none after `close`.
    (∀ soFar moment later, moments = soFar ++ moment :: later →
      ∀ request, .wrote request ∈ ((s.run context soFar).1.undergo context moment).2 →
        .input .close ∉ soFar ∧ ∃ call expression, moment.evaluates? = some (call, expression) ∧
          request.method = "Runtime.evaluate" ∧
          request.params = .object [("expression", .string expression),
            ("contextId", .int context.toInt), ("awaitPromise", .boolean true),
            ("returnByValue", .boolean true)]) ∧
    -- What was written, and has been told nothing and not dropped since, fails with `close`.
    (∀ before moment call expression request following later,
      moments = before ++ moment :: (following ++ .input .close :: later) →
      moment.evaluates? = some (call, expression) →
      .wrote request ∈ ((s.run context before).1.undergo context moment).2 →
      outcomes call
        (((s.run context before).1.undergo context moment).1.effects context following) = [] →
      .input (.cancel call) ∉ following →
        outcomes call ((s.run context (before ++ moment :: following)).1.step .close).2 =
          [.error (.transport "connection closed")]) ∧
    -- From `close` on there is no context, and an evaluation fails without having any effect. One
    -- that has copied the connection out before fails, too.
    (∀ before after later, moments = before ++ .input .close :: (after ++ later) →
      let s' := (s.run context (before ++ .input .close :: after)).1
      s'.isOpen = false ∧ s'.context = none ∧ s'.step .close = (s', []) ∧
        ∀ call expression,
          s'.step (.evaluate call expression) = (s', [.finished call (.error .notConnected)]) ∧
          (s'.undergo context (.resume call expression)).2 =
            [.finished call (.error (.transport "connection closed"))]) ∧
    -- Without `close`, the end of the inbound side alone leaves no evaluation a chance.
    ∀ soFar later, moments = soFar ++ later → .input .close ∉ soFar →
      s.connection.inbound = false ∨ .input .hangUp ∈ soFar →
      let s' := (s.run context soFar).1
      s'.isOpen = false ∧ s'.context = some context ∧ ∀ call expression,
        (s'.step (.evaluate call expression)).2 =
          [.finished call (.error (.transport "connection closed"))] := by
  obtain ⟨hcontext, hpending, hinbound⟩ := of_attached hreached hs hchosen
  -- The table is empty when the session begins, so its calls are the moments' own.
  have hstart : Orderly s.connection (moments.map (Moment.within context)) := by
    refine ⟨?_, ?_, ?_, ?_, hinbound, fun hne => absurd hpending hne⟩
    · rw [hpending, filterMap_begins?_within]
      exact hcalls
    · rw [hpending]
      exact List.nodup_nil
    · rw [hpending]
      exact fun p hp => absurd hp List.not_mem_nil
    · rw [filterMap_begins?_within]
      exact hroom
  refine ⟨hcontext, ?_, ?_, ?_, ?_⟩
  · intro soFar moment later _ request hwrote
    obtain ⟨hopen, hcontext'⟩ | ⟨-, hclosed⟩ := run_cases hcontext soFar
    · exact ⟨hopen, wrote_of_context hcontext' hwrote⟩
    · exact absurd hwrote (hclosed.not_wrote context moment request)
  · intro before moment call expression request following later hmoments hevaluates hwrote
      huntold hwaits
    subst hmoments
    rw [run_append]
    obtain ⟨hopen, hcontext'⟩ | ⟨-, hclosed⟩ := run_cases hcontext before
    · obtain ⟨-, hconnection, -⟩ := run_within hcontext hopen
      rw [List.map_append] at hstart
      have horderly := hstart.run
      rw [← hconnection] at horderly
      exact outcomes_close_of_wrote hcontext' horderly hevaluates hwrote huntold hwaits
    · exact absurd hwrote (hclosed.not_wrote context moment request)
  · rintro before after later rfl s'
    have hclosed : s'.Closed := by
      obtain ⟨hnot, -⟩ | ⟨-, hclosed⟩ := run_cases hcontext (before ++ .input .close :: after)
      · exact absurd (List.mem_append_right _ List.mem_cons_self) hnot
      · exact hclosed
    refine ⟨hclosed.isOpen, hclosed.context, hclosed.step_close, fun call expression => ?_⟩
    exact ⟨hclosed.step_evaluate call expression, hclosed.undergo_resume context call expression⟩
  · intro soFar later _ hnot hstop s'
    obtain ⟨hcontext', hconnection, -⟩ := run_within hcontext hnot
    have hended : s'.connection.Ended := by
      show ((s.run context soFar).1.connection).Ended
      rw [hconnection]
      -- The inbound side had ended before the session began, or ends while it runs.
      rcases hstop with hdeaf | hhangUp
      · have hdead : s.connection.live = false := by
          rw [Bool.eq_false_iff]
          exact fun hlive => Bool.false_ne_true (hdeaf.symm.trans (hinbound hlive))
        exact Ended.run ⟨hdead, hpending⟩ _
      · exact Ended.of_mem _ (.inr rfl) (List.mem_map_of_mem (f := Moment.within context) hhangUp)
    refine ⟨?_, hcontext', fun call expression => ?_⟩
    · show (s'.context.isSome && s'.connection.isOpen) = false
      rw [hended.isOpen, Bool.and_false]
    · have hstep := undergo_effects hcontext' (.input (.evaluate call expression))
      show (s'.undergo context (.input (.evaluate call expression))).2 = _
      rw [hstep]
      show (s'.connection.send call runtimeEvaluate _ .evaluation).2 = _
      rw [hended.send_eq]

/-- Attaching in which one context is announced and the probe in it succeeds. -/
def attachment : Attaching :=
  let created : Value := .object [("method", .string "Runtime.executionContextCreated"),
    ("params", .object [("context", .object [("id", .int 7)])])]
  let found : Value := .object [("id", .int 2),
    ("result", .object [("result", .object [("value", .boolean true)])])]
  [.deliver (.object [("id", .int 1), ("result", .object [])]), .resume, .deliver created, .settled,
    .deliver found, .resume].foldl (fun a input => (a.step input).1) (Attaching.start .opened).1

/-- The session that it leads to. -/
def inSeven : Session where
  target := { id := "B", title := "Landing page", url := "", kind := "page" }
  connection := ⟨2, [], true, true, true, true⟩
  context := some 7

/-- Two evaluations are written, and the second one is answered. A third one has copied the
connection out when the session is closed, and a fourth one comes behind that. -/
def interrupted : List Moment :=
  let answer : Value := .object [("id", .int 4),
    ("result", .object [("result", .object [("value", .int 1)])])]
  [.input (.evaluate 10 "a"), .input (.evaluate 11 "b"), .input (.deliver answer), .input .close,
    .resume 12 "c", .input (.evaluate 13 "d")]

/-- The second evaluation is answered before the end, the first one fails with it, and the third and
fourth behind it. -/
theorem speaks_to_context_interrupted :
    (attachment.Reached ∧ attachment.phase = .attached 7 ∧
      ofAttaching? inSeven.target attachment = some inSeven ∧
      (interrupted.filterMap Moment.begins?).Nodup ∧
      inSeven.connection.issued + (interrupted.filterMap Moment.begins?).length < UInt64.size) ∧
    outcomes 10 ((inSeven.run 7 (interrupted.take 3)).1.step .close).2 =
      [.error (.transport "connection closed")] ∧
    (inSeven.run 7 interrupted).1.isOpen = false ∧
    (inSeven.run 7 interrupted).1.context = none ∧
    ((inSeven.run 7 (interrupted.take 4)).1.undergo 7 (.resume 12 "c")).2 =
      [.finished 12 (.error (.transport "connection closed"))] ∧
    (inSeven.run 7 (interrupted.take 5)).1.step (.evaluate 13 "d") =
      ((inSeven.run 7 (interrupted.take 5)).1, [.finished 13 (.error .notConnected)]) := by
  have hreached : attachment.Reached := by
    unfold attachment
    repeat apply Attaching.Reached.step
    exact .start
  have hchosen : attachment.phase = .attached 7 := rfl
  have hs : ofAttaching? inSeven.target attachment = some inSeven := rfl
  have hcalls : (interrupted.filterMap Moment.begins?).Nodup := by decide
  have hroom : inSeven.connection.issued + (interrupted.filterMap Moment.begins?).length <
      UInt64.size := by decide
  obtain ⟨-, -, hfailed, hclosed, -⟩ := speaks_to_context hreached hchosen hs hcalls hroom
  obtain ⟨-, -, -, hcopied⟩ := hclosed (interrupted.take 3) [] (interrupted.drop 4) rfl
  obtain ⟨-, -, -, hlate⟩ := hclosed (interrupted.take 3) [.resume 12 "c"] (interrupted.drop 5) rfl
  obtain ⟨hopen, hcontext, -⟩ := hclosed (interrupted.take 3) (interrupted.drop 4) [] rfl
  refine ⟨⟨hreached, hchosen, hs, hcalls, hroom⟩, ?_, hopen, hcontext, (hcopied 12 "c").2,
    (hlate 13 "d").1⟩
  refine hfailed [] (.input (.evaluate 10 "a")) 10 "a" _ ((interrupted.take 3).drop 1)
    (interrupted.drop 4) rfl rfl (List.mem_singleton.2 rfl) rfl ?_
  simp [interrupted]

end Session

end CanvasLink
