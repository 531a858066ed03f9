import CanvasLink.Proofs.Broker.Discipline
import CanvasLink.Proofs.Broker.Steps

/-!
# CanvasLink — who owns a session

However calls on the broker are interleaved:

* one attempt at most is connecting, and it is the one that calls join;
* no session is current while an attempt is in flight, so that an attempt finds none left over;
* a session that is no longer current never becomes so again;
* every session that was made is current, or closed, or being closed by a call, as long as no call
  is abandoned.

`Sound` is what each step preserves, and `Held` what each step preserves for one session, unless it
abandons the call that is about to close it. `Sound.advance` and `Held.advance` are the two lemmas
for a call that runs up to its next wait.
-/

namespace CanvasLink.Broker

open CanvasLink.Bridge

/-! ## Between two waits -/

/-- No session is current while an attempt is in flight, and sessions are numbered from 0. -/
structure Pool.IsSound (p : Pool) (sessions : Nat) : Prop where
  exclusive : p.inFlight ≠ none → p.current = none
  current : ∀ session, p.current = some session → session < sessions

/-- What a call has learnt is so. -/
structure Knows (p : Pool) (sessions : Nat) (made gone : List SessionId) : Prop where
  made : ∀ session ∈ made, session < sessions
  gone : ∀ session ∈ gone, session < sessions ∧ p.current ≠ some session

/-- A pool whose current session is the same, or none. -/
def Pool.Loses (p p' : Pool) : Prop :=
  p'.current = p.current ∨ p'.current = none

/-- Losing the current session twice is losing it once. -/
theorem Pool.Loses.trans {p p' p'' : Pool} (h : p.Loses p') (h' : p'.Loses p'') : p.Loses p'' := by
  rcases h' with h' | h'
  · exact h.imp h'.trans h'.trans
  · exact .inr h'

/-- A session that is not current is not made so by losing the current one. -/
theorem Pool.Loses.ne {p p' : Pool} (h : p.Loses p') {session : SessionId}
    (hne : p.current ≠ some session) : p'.current ≠ some session := by
  rcases h with h | h
  · rwa [h]
  · rw [h]
    exact Option.some_ne_none session ∘ Eq.symm

/-- What is known of sessions stays true when the current one is lost. -/
theorem Knows.loses {p p' : Pool} {sessions : Nat} {made gone : List SessionId}
    (h : Knows p sessions made gone) (hloses : p.Loses p') : Knows p' sessions made gone :=
  ⟨h.made, fun session hsession =>
    ⟨(h.gone session hsession).1, hloses.ne (h.gone session hsession).2⟩⟩

/-- Withdrawing a session brings no other in. -/
theorem Pool.loses_withdraw (p : Pool) (session : SessionId) : p.Loses (p.withdraw session) := by
  rcases p.withdraw_cases session with ⟨-, hpool⟩ | ⟨-, hpool⟩ <;> rw [hpool]
  · exact .inr rfl
  · exact .inl rfl

/-- No critical section makes a session current. -/
theorem Act.loses_run (p : Pool) (a : Act) : p.Loses (a.run p).1 := by
  cases a with
  | look => exact .inl rfl
  | release => exact .inr rfl
  | withdraw session => exact p.loses_withdraw session
  | countForced => exact .inl rfl
  | join discarded =>
    rcases p.join_cases discarded with ⟨session, -, -, hjoin⟩ | hjoin <;> rw [Act.run, hjoin]
    · exact .inl rfl
    · exact .inl p.current_joinAttempt

/-- Between two waits no session becomes current; only the end of an attempt brings one in. -/
theorem Call.loses_settle {α : Type} (call : Call α) (p : Pool) : p.Loses (call.settle p).1 := by
  induction call generalizing p with
  | done result => exact .inl rfl
  | act a rest ih => exact (a.loses_run p).trans (ih _ _)
  | await wait rest ih => exact .inl rfl

/-! ### What the operations keep -/

section Operations

variable {p : Pool} {sessions : Nat} {made gone : List SessionId}

/-- Without a current session there is nothing that could be wrong with it. -/
theorem Pool.isSound_of_current (h : p.current = none) : p.IsSound sessions :=
  ⟨fun _ => h, fun session hs => absurd (h.symm.trans hs).symm (Option.some_ne_none session)⟩

/-- A sound pool stays sound when a session is withdrawn, whichever it is. -/
theorem Pool.IsSound.withdraw (h : p.IsSound sessions) (session : SessionId) :
    (p.withdraw session).IsSound sessions := by
  rcases p.withdraw_cases session with ⟨-, hpool⟩ | ⟨-, hpool⟩ <;> rw [hpool]
  · exact isSound_of_current rfl
  · exact h

/-- The session that is current can be shown to a call. -/
theorem Knows.look (h : Knows p sessions made gone) (hp : p.IsSound sessions) :
    Knows p sessions (p.current.toList ++ made) gone := by
  refine ⟨fun session hsession => ?_, h.gone⟩
  rcases List.mem_append.1 hsession with hcurrent | hmade
  · exact hp.current session (Option.mem_toList.1 hcurrent)
  · exact h.made session hmade

/-- A session that has been withdrawn will not be current again. -/
theorem Knows.withdraw (h : Knows p sessions made gone) {session : SessionId}
    (hmade : session ∈ made) : Knows (p.withdraw session) sessions made (session :: gone) := by
  refine ⟨h.made, fun other hother => ?_⟩
  rcases List.mem_cons.1 hother with rfl | hgone
  · exact ⟨h.made other hmade, p.current_withdraw_ne other⟩
  · exact (h.loses (p.loses_withdraw session)).gone other hgone

end Operations

/-- What a tame call leaves behind when it waits: a session that it has taken out is what it waits
for to be closed. -/
structure Settled {α : Type} (p p' : Pool) (sessions : Nat) (call : Call α) : Prop where
  isSound : p'.IsSound sessions
  knows : ∃ made gone, Knows p' sessions made gone ∧ call.Tame made gone
  closes : ∀ session, p.current = some session →
    p'.current = some session ∨ call.wait? = some (.close session)

/-- Of the pool that a call has started from, only the current session counts. -/
theorem Settled.of_current {α : Type} {p p₁ p' : Pool} {sessions : Nat} {call : Call α}
    (h : Settled p₁ p' sessions call) (hcurrent : p₁.current = p.current) :
    Settled p p' sessions call :=
  ⟨h.isSound, h.knows, fun session hs => h.closes session (hcurrent.trans hs)⟩

/-- A call that waits does not run on by itself. -/
theorem settle_of_wait? {α : Type} {call : Call α} {wait : Wait} (h : call.wait? = some wait)
    (p : Pool) : call.settle p = (p, call) := by
  cases call with
  | await other rest => rfl
  | done result => cases h
  | act a rest => cases h

/-- A tame call up to its next wait. Induction on the call. -/
theorem Call.Tame.settle {α : Type} {call : Call α} {p : Pool} {sessions : Nat}
    {made gone : List SessionId} (h : call.Tame made gone) (hp : p.IsSound sessions)
    (hknows : Knows p sessions made gone) :
    Settled p (call.settle p).1 sessions (call.settle p).2 := by
  induction call generalizing p made gone with
  | done result => exact ⟨hp, ⟨made, gone, hknows, h⟩, fun _ hs => .inl hs⟩
  | await wait rest ih => exact ⟨hp, ⟨made, gone, hknows, h⟩, fun _ hs => .inl hs⟩
  | act a rest ih =>
    rw [Call.settle_act]
    cases a with
    | look => exact ih p.current (h p.current) hp (hknows.look hp)
    | release =>
      have hvacant : Pool.IsSound { p with current := none } sessions := Pool.isSound_of_current rfl
      have hgone : Knows { p with current := none } sessions made gone := hknows.loses (.inr rfl)
      cases hcurrent : p.current with
      | none =>
        rw [Act.run, Pool.release, hcurrent]
        exact (ih none h.1 hvacant hgone).of_current hcurrent.symm
      | some session =>
        -- The call closes what it has taken out before it does anything else.
        obtain ⟨hwait, htame⟩ := h.2 session
        rw [Act.run, Pool.release, hcurrent, settle_of_wait? hwait]
        refine ⟨hvacant, ⟨made, gone, hgone, htame⟩, fun s hs => .inr ?_⟩
        obtain rfl := Option.some.inj (hcurrent.symm.trans hs)
        exact hwait
    | withdraw session =>
      obtain ⟨hmade, hwait, htame⟩ := h
      rw [Act.run, settle_of_wait? hwait]
      refine ⟨hp.withdraw session, ⟨made, session :: gone, hknows.withdraw hmade, htame⟩, ?_⟩
      intro s hs
      rcases p.withdraw_cases session with ⟨hcurrent, -⟩ | ⟨-, hsame⟩
      · obtain rfl := Option.some.inj (hcurrent.symm.trans hs)
        exact .inr hwait
      · exact .inl (hsame.symm ▸ hs)
    | countForced =>
      have hrest := ih () h (p := p.countForced) ⟨hp.exclusive, hp.current⟩
        ⟨hknows.made, hknows.gone⟩
      exact hrest.of_current rfl
    | join discarded =>
      obtain ⟨hgone, hrest⟩ := h
      cases hcurrent : p.current with
      | some session =>
        -- What the call has discarded is gone, so that it is not what is current.
        have hother : discarded ≠ some session := fun hsame =>
          (hknows.gone session (hgone session hsame)).2 hcurrent
        rw [Act.run, Pool.join_of_other hcurrent hother]
        exact ih (.session session) (hrest _) hp hknows
      | none =>
        rw [Act.run, Pool.join_of_none hcurrent]
        have hsame := p.current_joinAttempt
        exact (ih _ (hrest _) (Pool.isSound_of_current (hsame.trans hcurrent))
          (hknows.loses (.inl hsame))).of_current hsame

/-! ## The system -/

namespace System

variable {ρ : Type}

/-- The pool and the attempts agree, and every call keeps to the discipline. -/
structure Sound (s : System ρ) : Prop where
  tracked : s.Tracked
  /-- The only attempt that is connecting is the one in flight. -/
  unique : ∀ a : AttemptId, s.attempts[a]? = some .connecting → s.pool.inFlight = some a
  /-- No attempt has found a session left over. -/
  clear : ∀ (a : AttemptId) previous outcome, s.attempts[a]? ≠ some (.closing previous outcome)
  pool : s.pool.IsSound s.sessions
  calls : ∀ id call, s.call? id = some call →
    ∃ made gone, Knows s.pool s.sessions made gone ∧ call.Tame made gone

/-- The session is current, or closed, or being closed by a call other than those in `others`. -/
def Held (s : System ρ) (others : CallId → Prop) (session : SessionId) : Prop :=
  s.pool.current = some session ∨ session ∈ s.closed ∨
    ∃ id, ¬ others id ∧ s.wait? id = some (.close session)

/-- Every session that was made is held. -/
def Accounted (s : System ρ) (others : CallId → Prop) : Prop :=
  ∀ session < s.sessions, s.Held others session

/-- A call in its place is found there, and all others where they were. -/
theorem lookup_place (id id' : CallId) (call : Call ρ) (calls : List (CallId × Call ρ)) :
    (place id call calls).lookup id' = if id' = id then some call else calls.lookup id' := by
  induction calls with
  | nil => exact lookup_cons id id' call []
  | cons entry calls ih =>
    obtain ⟨other, old⟩ := entry
    rw [place]
    -- The call takes the first place with its number, so later ones do not matter.
    split
    · next hother =>
      obtain rfl : other = id := hother
      rw [lookup_cons, lookup_cons]
      split <;> rfl
    · next hother =>
      rw [lookup_cons, lookup_cons, ih]
      split
      · next h => rw [if_neg fun h' => hother (h.symm.trans h')]
      · rfl

/-- Striking a call out leaves all others where they are. -/
theorem lookup_strike (id id' : CallId) (calls : List (CallId × Call ρ)) :
    (calls.filter fun entry => entry.1 ≠ id).lookup id' =
      if id' = id then none else calls.lookup id' := by
  induction calls with
  | nil => simp
  | cons entry calls ih =>
    obtain ⟨other, old⟩ := entry
    -- An entry with the number is gone, and would not have been found either.
    by_cases hother : other = id
    · subst hother
      rw [List.filter_cons_of_neg (by simp), ih, lookup_cons]
      split
      · rfl
      · rfl
    · rw [List.filter_cons_of_pos (by simpa using hother), lookup_cons, ih, lookup_cons]
      split
      · next h => rw [if_neg fun h' => hother (h.symm.trans h')]
      · rfl

/-- A call that is left has not been struck out. -/
theorem call?_of_strike {s : System ρ} {id id' : CallId} {call : Call ρ}
    (h : (s.calls.filter fun entry => entry.1 ≠ id).lookup id' = some call) :
    s.call? id' = some call := by
  rw [lookup_strike] at h
  split at h
  · cases h
  · exact h

theorem call?_advance (s : System ρ) (id id' : CallId) (call : Call ρ) :
    (s.advance id call).call? id' =
      if id' = id then some (call.settle s.pool).2 else s.call? id' :=
  lookup_place id id' _ s.calls

section Advance

variable {s : System ρ} {id : CallId} {call : Call ρ} {made gone : List SessionId}

/-- **A tame call that runs on keeps the system sound.** -/
theorem Sound.advance (h : s.Sound) (hcall : call.Tame made gone)
    (hknows : Knows s.pool s.sessions made gone) : (s.advance id call).Sound := by
  have hsettled := hcall.settle h.pool hknows
  have hattempts := h.tracked.attempts_advance id call
  refine ⟨h.tracked.advance id call, ?_, ?_, hsettled.isSound, ?_⟩
  · intro a ha
    -- Either no attempt is begun, or one is, and then none was in flight before.
    rcases hattempts with ⟨hsame, hflight⟩ | ⟨hnone, hmore, hflight⟩
    · rw [hsame] at ha
      exact hflight.trans (h.unique a ha)
    · rw [hmore, List.getElem?_append] at ha
      split at ha
      · have hsome := h.unique a ha
        rw [hnone] at hsome
        cases hsome
      · next hlt =>
        have hzero : a - s.attempts.length < 1 := (List.getElem?_eq_some_iff.1 ha).1
        have hlast : s.attempts.length = a :=
          Nat.le_antisymm (Nat.not_lt.1 hlt) (Nat.le_of_sub_eq_zero (Nat.lt_one_iff.1 hzero))
        exact hlast ▸ hflight
  · intro a previous outcome ha
    rcases hattempts with ⟨hsame, -⟩ | ⟨-, hmore, -⟩
    · rw [hsame] at ha
      exact h.clear a previous outcome ha
    · rw [hmore, List.getElem?_append] at ha
      split at ha
      · exact h.clear a previous outcome ha
      · have hmem := List.mem_of_getElem? ha
        cases List.mem_singleton.1 hmem
  · intro id' call' hcall'
    -- The call itself is tame by its own rest; of the others it may only have taken the current
    -- session.
    rw [call?_advance] at hcall'
    split at hcall'
    · cases hcall'
      exact hsettled.knows
    · obtain ⟨made', gone', hknows', htame'⟩ := h.calls id' call' hcall'
      exact ⟨made', gone', hknows'.loses (call.loses_settle s.pool), htame'⟩

/-- A session that is held by others than the call is held still when the call has run on. -/
theorem Held.advance {session : SessionId} (h : s.Sound) (hheld : s.Held (· = id) session)
    (hcall : call.Tame made gone) (hknows : Knows s.pool s.sessions made gone) :
    (s.advance id call).Held (fun _ => False) session := by
  have hsettled := hcall.settle h.pool hknows
  have hself : (s.advance id call).wait? id = (call.settle s.pool).2.wait? := by
    simp [System.wait?, call?_advance]
  -- A current session stays current or is about to be closed by this call; the rest is not its
  -- concern.
  rcases hheld with hcurrent | hclosed | ⟨id', hne, hwait⟩
  · rcases hsettled.closes session hcurrent with hstill | hcloses
    · exact .inl hstill
    · exact .inr (.inr ⟨id, not_false, hself.trans hcloses⟩)
  · exact .inr (.inl hclosed)
  · refine .inr (.inr ⟨id', not_false, ?_⟩)
    rw [System.wait?, call?_advance, if_neg hne]
    exact hwait

end Advance

/-! ## Steps of a sound system -/

/-- What an answer says of sessions that are closed bears on nothing else. -/
theorem Sound.noteAnswer {s : System ρ} (h : s.Sound) (wait : Wait) : (s.noteAnswer wait).Sound := by
  obtain ⟨closed, hnote⟩ := s.exists_noteAnswer wait
  rw [hnote]
  exact ⟨⟨h.tracked.length, h.tracked.connecting⟩, h.unique, h.clear, h.pool, h.calls⟩

/-- A call that goes on from one of its waits still keeps to the discipline. -/
theorem Sound.exists_tame {s : System ρ} (h : s.Sound) {id : CallId} {wait : Wait}
    {rest : wait.Reply → Call ρ} (hcall : s.call? id = some (.await wait rest))
    (reply : wait.Reply) : ∃ made gone,
      Knows (s.noteAnswer wait).pool (s.noteAnswer wait).sessions made gone ∧
        (rest reply).Tame made gone := by
  obtain ⟨made, gone, hknows, htame⟩ := h.calls id _ hcall
  obtain ⟨closed, hnote⟩ := s.exists_noteAnswer wait
  rw [hnote]
  exact ⟨made, gone, hknows, htame reply⟩

theorem Sound.resume {s : System ρ} (h : s.Sound) {id : CallId} {wait : Wait}
    {rest : wait.Reply → Call ρ} (hcall : s.call? id = some (.await wait rest))
    (reply : wait.Reply) : ((s.noteAnswer wait).advance id (rest reply)).Sound := by
  obtain ⟨made, gone, hknows, htame⟩ := h.exists_tame hcall reply
  exact (h.noteAnswer wait).advance htame hknows

theorem knows_nil (p : Pool) (sessions : Nat) : Knows p sessions [] [] :=
  ⟨fun _ hs => absurd hs List.not_mem_nil, fun _ hs => absurd hs List.not_mem_nil⟩

/-- The attempts after one of them has ended: none of the others has changed. -/
theorem getElem?_set_ended {attempts : List Attempt} {a b : AttemptId}
    {outcome : Except Bridge.Error SessionId} {attempt : Attempt}
    (h : (attempts.set a (.ended outcome))[b]? = some attempt)
    (hattempt : ∀ outcome, attempt ≠ .ended outcome) : b ≠ a ∧ attempts[b]? = some attempt := by
  rw [List.getElem?_set] at h
  split at h
  · split at h
    · exact absurd (Option.some.inj h).symm (hattempt outcome)
    · cases h
  · next hne => exact ⟨Ne.symm hne, h⟩

section Conclude

variable {s : System ρ} {a : AttemptId}

/-- No session is current while an attempt is connecting. -/
theorem Sound.current_eq_none (h : s.Sound) (ha : s.attempts[a]? = some .connecting) :
    s.pool.current = none :=
  h.pool.exclusive (by simp [h.unique a ha])

/-- There is no session that an attempt could find left over when it ends. -/
theorem Sound.attempts_conclude (h : s.Sound) (ha : s.attempts[a]? = some .connecting)
    (outcome : Except Bridge.Error Unit) :
    (s.conclude a outcome).attempts =
      s.attempts.set a (.ended (numbered s.sessions outcome)) := by
  have hnone := h.current_eq_none ha
  cases outcome <;> simp [System.conclude, Pool.conclude, Except.map, hnone, numbered]

theorem inFlight_conclude (s : System ρ) (a : AttemptId) (outcome : Except Bridge.Error Unit) :
    (s.conclude a outcome).pool.inFlight = none := by
  cases outcome <;> rfl

/-- An attempt that ends leaves a session that is new, or none. -/
theorem Sound.current_conclude (h : s.Sound) (ha : s.attempts[a]? = some .connecting)
    {outcome : Except Bridge.Error Unit} {session : SessionId}
    (hs : (s.conclude a outcome).pool.current = some session) :
    session < (s.conclude a outcome).sessions ∧ s.sessions ≤ session := by
  cases outcome with
  | error e => exact absurd (hs.symm.trans (h.current_eq_none ha)) (Option.some_ne_none session)
  | ok _ =>
    obtain rfl : s.sessions = session := Option.some.inj hs
    exact ⟨Nat.lt_succ_self _, Nat.le_refl _⟩

/-- Sessions are only added. -/
theorem sessions_le_conclude (s : System ρ) (a : AttemptId) (outcome : Except Bridge.Error Unit) :
    s.sessions ≤ (s.conclude a outcome).sessions := by
  cases outcome
  · exact Nat.le_refl _
  · exact Nat.le_succ _

/-- An attempt ends. -/
theorem Sound.conclude (h : s.Sound) (ha : s.attempts[a]? = some .connecting)
    (outcome : Except Bridge.Error Unit) : (s.conclude a outcome).Sound := by
  -- There is one attempt that is connecting, so none is left when it ends.
  have hother (b : AttemptId) (hb : s.attempts[b]? = some .connecting) : b = a :=
    Option.some.inj ((h.unique b hb).symm.trans (h.unique a ha))
  have hattempts := h.attempts_conclude ha outcome
  have hidle := s.inFlight_conclude a outcome
  have hle := s.sessions_le_conclude a outcome
  refine ⟨⟨?_, ?_⟩, ?_, ?_, ⟨?_, fun session hs => (h.current_conclude ha hs).1⟩, ?_⟩
  · rw [hattempts, List.length_set, h.tracked.length]
    cases outcome <;> rfl
  · intro b hb
    rw [hidle] at hb
    cases hb
  · intro b hb
    rw [hattempts] at hb
    obtain ⟨hne, hb⟩ := getElem?_set_ended hb (by simp)
    exact absurd (hother b hb) hne
  · intro b previous outcome' hb
    rw [hattempts] at hb
    exact h.clear b previous outcome' (getElem?_set_ended hb (by simp)).2
  · exact fun hsome => absurd hidle hsome
  · intro id call hcall
    obtain ⟨made, gone, hknows, htame⟩ := h.calls id call hcall
    -- Sessions that are gone are older than the one that was made.
    refine ⟨made, gone, ⟨fun session hs => Nat.lt_of_lt_of_le (hknows.made session hs) hle,
      fun session hs => ?_⟩, htame⟩
    have hlt := (hknows.gone session hs).1
    exact ⟨Nat.lt_of_lt_of_le hlt hle, fun hc => Nat.not_lt.2 (h.current_conclude ha hc).2 hlt⟩

end Conclude

/-- A call that is abandoned does nothing more. What it was about to close stays open, but the pool
has let go of it before. -/
theorem Sound.abandon {s : System ρ} (h : s.Sound) (id : CallId) :
    Sound { s with calls := s.calls.filter fun entry => entry.1 ≠ id } := by
  refine ⟨⟨h.tracked.length, h.tracked.connecting⟩, h.unique, h.clear, h.pool, ?_⟩
  exact fun id' call hcall => h.calls id' call (call?_of_strike hcall)

/-- A call that begins keeps to the discipline. -/
def Input.BeginsTame : Input ρ → Prop
  | .begin _ call => call.Tame [] []
  | _ => True

/-- **One step.** It does not matter here whether a call is abandoned. -/
theorem Sound.step {s : System ρ} (h : s.Sound) {input : Input ρ} (htame : input.BeginsTame) :
    (s.step input).Sound := by
  have hstep := s.happens_step input
  generalize s.step input = s' at hstep ⊢
  cases hstep with
  | ignored => exact h
  | begun _ => exact h.advance htame (knows_nil _ _)
  | answered hcall _ => exact h.resume hcall _
  | shared hcall _ => exact h.resume hcall _
  | connected hconnecting _ => exact h.conclude hconnecting _
  | cleared hclosing _ => exact absurd hclosing (h.clear _ _ _)
  | abandoned id => exact h.abandon id

/-- **A run keeps the system sound**, whatever tame calls begin in it. -/
theorem Sound.run {s : System ρ} (h : s.Sound) {inputs : List (Input ρ)}
    (htame : ∀ input ∈ inputs, input.BeginsTame) : (s.run inputs).Sound :=
  run_of_step (fun _ hs _ hinput => hs.step hinput) h htame

/-- Before the first call all is sound. -/
theorem sound_empty : (empty : System ρ).Sound where
  tracked := ⟨rfl, by simp [empty, Pool.empty]⟩
  unique := by simp [empty]
  clear := by simp [empty]
  pool := ⟨fun _ => rfl, by simp [empty, Pool.empty]⟩
  calls := by simp [empty, System.call?]

/-! ## Steps that hold a session -/

/-- The input does not take away the call that is about to close the session. -/
def Input.Keeps (s : System ρ) (session : SessionId) : Input ρ → Prop
  | .abandon id => s.wait? id ≠ some (.close session)
  | _ => True

/-- A call goes on from one of its waits. What it has waited for to be closed is closed. -/
theorem Held.resume {s : System ρ} {session : SessionId} (hheld : s.Held (fun _ => False) session)
    (h : s.Sound) {id : CallId} {wait : Wait} {rest : wait.Reply → Call ρ}
    (hcall : s.call? id = some (.await wait rest)) (reply : wait.Reply) :
    ((s.noteAnswer wait).advance id (rest reply)).Held (fun _ => False) session := by
  -- If this call held the session by closing it, it has just done so.
  have hothers : (s.noteAnswer wait).Held (· = id) session := by
    have hwait : s.wait? id = some wait := by
      rw [System.wait?, hcall]
      rfl
    have hmine : wait = .close session → session ∈ (s.noteAnswer wait).closed := by
      rintro rfl
      exact List.mem_append_right _ (List.mem_singleton_self session)
    have hmore : s.closed ⊆ (s.noteAnswer wait).closed := by
      cases wait <;> first | exact List.Subset.refl _ | exact List.subset_append_left _ _
    obtain ⟨closed, hnote⟩ := s.exists_noteAnswer wait
    have hcurrent : (s.noteAnswer wait).pool = s.pool := by rw [hnote]
    have hwaits (id' : CallId) : (s.noteAnswer wait).wait? id' = s.wait? id' := by
      rw [hnote]
      rfl
    rcases hheld with hc | hclosed | ⟨id', -, hclosing⟩
    · exact .inl (hcurrent ▸ hc)
    · exact .inr (.inl (hmore hclosed))
    · by_cases hid : id' = id
      · subst hid
        exact .inr (.inl (hmine (Option.some.inj (hwait.symm.trans hclosing))))
      · exact .inr (.inr ⟨id', hid, (hwaits id').trans hclosing⟩)
  obtain ⟨made, gone, hknows, htame⟩ := h.exists_tame hcall reply
  exact hothers.advance (h.noteAnswer wait) htame hknows

/-- An attempt ends. The session was not current before, so that what held it still does. -/
theorem Held.conclude {s : System ρ} {session : SessionId}
    (hheld : s.Held (fun _ => False) session) (h : s.Sound) {a : AttemptId}
    (ha : s.attempts[a]? = some .connecting) (outcome : Except Bridge.Error Unit) :
    (s.conclude a outcome).Held (fun _ => False) session := by
  rcases hheld with hcurrent | hheld
  · exact absurd (hcurrent.symm.trans (h.current_eq_none ha)) (Option.some_ne_none session)
  · exact .inr hheld

/-- **One step, for one session.** -/
theorem Held.step {s : System ρ} {session : SessionId} (hheld : s.Held (fun _ => False) session)
    (h : s.Sound) {input : Input ρ} (htame : input.BeginsTame) (hkeeps : input.Keeps s session) :
    (s.step input).Held (fun _ => False) session := by
  have hstep := s.happens_step input
  generalize s.step input = s' at hstep ⊢
  cases hstep with
  | ignored => exact hheld
  | @begun id call hnone =>
    -- A call that begins has no wait yet, so it does not hold the session.
    have hothers : s.Held (· = id) session := by
      rcases hheld with hcurrent | hclosed | ⟨id', -, hclosing⟩
      · exact .inl hcurrent
      · exact .inr (.inl hclosed)
      · refine .inr (.inr ⟨id', ?_, hclosing⟩)
        rintro rfl
        rw [System.wait?, hnone] at hclosing
        cases hclosing
    exact hothers.advance h htame (knows_nil s.pool s.sessions)
  | answered hcall _ => exact hheld.resume h hcall _
  | shared hcall _ => exact hheld.resume h hcall _
  | connected hconnecting _ => exact hheld.conclude h hconnecting _
  | cleared hclosing _ => exact absurd hclosing (h.clear _ _ _)
  | abandoned id =>
    rcases hheld with hcurrent | hclosed | ⟨id', -, hclosing⟩
    · exact .inl hcurrent
    · exact .inr (.inl hclosed)
    · -- The call that closes the session is not the one that is abandoned.
      have hother : id' ≠ id := by
        rintro rfl
        exact hkeeps hclosing
      refine .inr (.inr ⟨id', not_false, ?_⟩)
      show ((s.calls.filter fun entry => entry.1 ≠ id).lookup id').bind Call.wait? = _
      rw [lookup_strike, if_neg hother]
      exact hclosing

/-- A session that a step has made is current. -/
theorem current_of_made {s : System ρ} {input : Input ρ} {session : SessionId}
    (hnew : s.sessions ≤ session) (hmade : session < (s.step input).sessions) :
    (s.step input).pool.current = some session := by
  have hstep := s.happens_step input
  generalize s.step input = s' at hstep hmade ⊢
  cases hstep with
  | @connected a outcome _ _ =>
    -- Only a connect makes sessions, and what it makes is current.
    cases outcome with
    | error e => exact absurd hmade (Nat.not_lt.2 hnew)
    | ok _ => exact congrArg some (Nat.le_antisymm hnew (Nat.le_of_lt_succ hmade))
  | @answered id answer wait rest reply _ _ =>
    obtain ⟨closed, hnote⟩ := s.exists_noteAnswer wait
    rw [hnote] at hmade
    exact absurd hmade (Nat.not_lt.2 hnew)
  | _ => exact absurd hmade (Nat.not_lt.2 hnew)

/-! ## Steps that account for every session -/

/-- A call that begins keeps to the discipline, and none is abandoned. -/
def Input.IsTame : Input ρ → Prop
  | .begin _ call => call.Tame [] []
  | .abandon _ => False
  | _ => True

/-- The calls that begin are tame, whether or not calls are abandoned later. -/
theorem Input.IsTame.beginsTame {input : Input ρ} (h : input.IsTame) : input.BeginsTame := by
  cases input <;> first | exact h | trivial

theorem Input.isTame_of_isOfWorld {input : Input ρ} (h : input.isOfWorld = true) :
    input.IsTame := by
  cases input <;> trivial

/-- Where nobody is abandoned, the call that is about to close a session is not. -/
theorem Input.IsTame.keeps {input : Input ρ} (h : input.IsTame) (s : System ρ)
    (session : SessionId) : input.Keeps s session := by
  cases input <;> first | exact h.elim | trivial

/-- What holds in every state that is reached by tame inputs. -/
structure Owned (s : System ρ) : Prop where
  sound : s.Sound
  accounted : s.Accounted fun _ => False

theorem owned_empty : (empty : System ρ).Owned :=
  ⟨sound_empty, fun _ hsession => absurd hsession (Nat.not_lt_zero _)⟩

/-- **One step.** A call may be abandoned where it closes no session. -/
theorem Owned.step {s : System ρ} (h : s.Owned) {input : Input ρ} (htame : input.BeginsTame)
    (hkeeps : ∀ session, input.Keeps s session) : (s.step input).Owned := by
  refine ⟨h.sound.step htame, fun session hsession => ?_⟩
  rcases Nat.lt_or_ge session s.sessions with hold | hnew
  · exact (h.accounted session hold).step h.sound htame (hkeeps session)
  · exact .inl (current_of_made hnew hsession)

/-- A run in which no call is abandoned while it closes a session. Induction on the inputs. -/
theorem Owned.run_of_keeps {s : System ρ} (h : s.Owned) {inputs : List (Input ρ)}
    (htame : ∀ input ∈ inputs, input.BeginsTame)
    (hkeeps : ∀ before input after, inputs = before ++ input :: after →
      ∀ session, input.Keeps (s.run before) session) : (s.run inputs).Owned := by
  induction inputs generalizing s with
  | nil => exact h
  | cons input inputs ih =>
    rw [List.forall_mem_cons] at htame
    refine ih (h.step htame.1 (hkeeps [] input inputs rfl)) htame.2 ?_
    rintro before other after rfl
    exact hkeeps (input :: before) other after rfl

/-- **A run.** -/
theorem Owned.run {s : System ρ} (h : s.Owned) {inputs : List (Input ρ)}
    (htame : ∀ input ∈ inputs, input.IsTame) : (s.run inputs).Owned :=
  run_of_step (fun s hs _ hinput => hs.step hinput.beginsTame (hinput.keeps s)) h htame

/-! ## When all calls have ended -/

/-- A call that has ended waits for nothing. -/
theorem wait?_eq_none {s : System ρ}
    (hended : ∀ id call, s.call? id = some call → call.result?.isSome = true) (id : CallId) :
    s.wait? id = none := by
  cases hcall : s.call? id with
  | none => rw [System.wait?, hcall, Option.bind_none]
  | some call =>
    have hresult := hended id call hcall
    rw [System.wait?, hcall, Option.bind_some]
    cases call with
    | done result => rfl
    | act a rest => cases hresult
    | await wait rest => cases hresult

/-- When all calls have returned, a session that is not current is closed. -/
theorem Owned.closed_of_ended {s : System ρ} (h : s.Owned)
    (hended : ∀ id call, s.call? id = some call → call.result?.isSome = true)
    {session : SessionId} (hmade : session < s.sessions) (hne : s.pool.current ≠ some session) :
    session ∈ s.closed := by
  rcases h.accounted session hmade with hcurrent | hclosed | ⟨id, -, hwait⟩
  · exact absurd hcurrent hne
  · exact hclosed
  · rw [wait?_eq_none hended id] at hwait
    cases hwait

/-- A call that is found stands in the table. -/
theorem mem_of_call? {s : System ρ} {id : CallId} {call : Call ρ}
    (h : s.call? id = some call) : (id, call) ∈ s.calls := by
  obtain ⟨before, after, hcalls, -⟩ := List.lookup_eq_some_iff.1 h
  rw [hcalls]
  exact List.mem_append_right before List.mem_cons_self

/-! ## What becomes current -/

/-- From one state to a later one, only a session that is new has become current. -/
def Renews (s s' : System ρ) : Prop :=
  s.sessions ≤ s'.sessions ∧ ∀ session, s'.pool.current = some session →
    s.pool.current = some session ∨ s.sessions ≤ session

theorem Renews.refl (s : System ρ) : s.Renews s :=
  ⟨Nat.le_refl _, fun _ hs => .inl hs⟩

/-- What is new since a later state is new since an earlier one. -/
theorem Renews.trans {s s' s'' : System ρ} (h : s.Renews s') (h' : s'.Renews s'') :
    s.Renews s'' := by
  refine ⟨Nat.le_trans h.1 h'.1, fun session hs => ?_⟩
  rcases h'.2 session hs with hs | hnew
  · exact h.2 session hs
  · exact .inr (Nat.le_trans h.1 hnew)

/-- A call that runs on makes no session and brings none in. -/
theorem renews_advance (s : System ρ) (id : CallId) (call : Call ρ) :
    s.Renews (s.advance id call) := by
  refine ⟨Nat.le_refl _, fun session hs => .inl ?_⟩
  rcases call.loses_settle s.pool with hsame | hnone
  · exact hsame ▸ hs
  · exact absurd (hs.symm.trans hnone) (Option.some_ne_none session)

/-- **One step**: a session that becomes current is newer than all before it. -/
theorem renews_step (s : System ρ) (input : Input ρ) : s.Renews (s.step input) := by
  have hstep := s.happens_step input
  generalize s.step input = s' at hstep ⊢
  -- Of all steps only the end of an attempt makes a session current, which is a new one.
  cases hstep with
  | ignored => exact .refl s
  | begun _ => exact s.renews_advance _ _
  | @answered id answer wait rest reply _ _ =>
    obtain ⟨closed, hnote⟩ := s.exists_noteAnswer wait
    rw [hnote]
    exact renews_advance { s with closed := closed } id (rest reply)
  | shared _ _ => exact s.renews_advance _ _
  | @connected a outcome _ _ =>
    cases outcome with
    | error e => exact .refl s
    | ok _ => exact ⟨Nat.le_succ _, fun session hs => .inr (Nat.le_of_eq (Option.some.inj hs))⟩
  | cleared _ _ => exact .refl s
  | abandoned id => exact .refl s

/-- Induction on the inputs. -/
theorem renews_run (s : System ρ) (inputs : List (Input ρ)) : s.Renews (s.run inputs) := by
  induction inputs generalizing s with
  | nil => exact .refl s
  | cons input inputs ih => exact (s.renews_step input).trans (ih (s.step input))

/-! ## The requests of users -/

/-- Users ask for what the broker offers, and stay until it is done. -/
def Input.IsAsked (limits : Limits) : Input Reply → Prop
  | .begin _ call => ∃ request : Request, call = request.call limits
  | .abandon _ => False
  | _ => True

/-- Users ask for requests only, and these are tame. -/
theorem Input.IsAsked.isTame {limits : Limits} {input : Input Reply} (h : input.IsAsked limits) :
    input.IsTame := by
  cases input with
  | begin id call =>
    obtain ⟨request, rfl⟩ := h
    exact tame_call limits request
  | _ => exact h

/-- **Who owns a session**, in every state that users and the world can bring about. -/
theorem sessions_owned (limits : Limits) (inputs : List (Input Reply))
    (hasked : ∀ input ∈ inputs, input.IsAsked limits) :
    let s := (empty : System Reply).run inputs
    -- One attempt at most is connecting, and it is the one that calls join.
    (∀ a : AttemptId, s.attempts[a]? = some .connecting ↔ s.pool.inFlight = some a) ∧
    -- No session is current while an attempt is in flight, and none has been found left over.
    (s.pool.inFlight ≠ none → s.pool.current = none) ∧
    (∀ (a : AttemptId) previous outcome,
      s.attempts[a]? ≠ some (.closing previous outcome)) ∧
    -- A session that was current before the last of the inputs and is not now will never be.
    (∀ earlier later session, inputs = earlier ++ later →
      ((empty : System Reply).run earlier).pool.current = some session →
      s.pool.current ≠ some session → ∀ more, (s.run more).pool.current ≠ some session) ∧
    -- Every session is current, or closed, or being closed by a call in progress.
    (∀ session < s.sessions, s.pool.current = some session ∨ session ∈ s.closed ∨
      ∃ id, s.wait? id = some (.close session)) ∧
    ((∀ id call, s.call? id = some call → call.result?.isSome = true) →
      ∀ session < s.sessions, s.pool.current = some session ∨ session ∈ s.closed) := by
  intro s
  have howned : s.Owned := owned_empty.run fun input hinput => (hasked input hinput).isTame
  have hall : ∀ session < s.sessions, s.pool.current = some session ∨ session ∈ s.closed ∨
      ∃ id, s.wait? id = some (.close session) := by
    intro session hsession
    rcases howned.accounted session hsession with hcurrent | hclosed | ⟨id, -, hwait⟩
    · exact .inl hcurrent
    · exact .inr (.inl hclosed)
    · exact .inr (.inr ⟨id, hwait⟩)
  refine ⟨fun a => ⟨howned.sound.unique a, howned.sound.tracked.connecting a⟩,
    howned.sound.pool.exclusive, howned.sound.clear, ?_, hall, ?_⟩
  · -- Sessions that become current later have numbers above those that were given out earlier.
    intro earlier later session hinputs hcurrent hne more hmore
    have hearlier : ((empty : System Reply).run earlier).Owned := by
      refine owned_empty.run fun input hinput => (hasked input ?_).isTame
      rw [hinputs]
      exact List.mem_append_left later hinput
    have hlt := hearlier.sound.pool.current session hcurrent
    have hlater : s = ((empty : System Reply).run earlier).run later := by
      rw [← run_append, ← hinputs]
    have hle : ((empty : System Reply).run earlier).sessions ≤ s.sessions :=
      hlater ▸ (renews_run _ later).1
    rcases (renews_run s more).2 session hmore with hsame | hnew
    · exact hne hsame
    · exact absurd (Nat.lt_of_lt_of_le hlt hle) (Nat.not_lt.2 hnew)
  · -- A call that has ended waits for nothing, so it closes nothing.
    intro hended session hsession
    rcases hall session hsession with hcurrent | hclosed | ⟨id, hwait⟩
    · exact .inl hcurrent
    · exact .inr hclosed
    · cases hcall : s.call? id with
      | none => simp [System.wait?, hcall] at hwait
      | some call =>
        have hresult := hended id call hcall
        have hawait : call.wait? = some (.close session) := by
          simpa [System.wait?, hcall] using hwait
        cases call with
        | done result => cases hawait
        | act a rest => cases hawait
        | await wait rest => cases hresult

/-- Two users share an attempt, a third one reconnects. -/
def handover : List (Input Reply) :=
  [.begin 0 (Request.ensure.call {}), .begin 1 (Request.ensure.call {}), .connected 0 (.ok ()),
   .share 0, .share 1, .begin 2 (Request.reconnect.call {}), .answer 2 .closed,
   .connected 1 (.ok ()), .share 2]

/-- The session that two users share is given up for a new one: the one is closed, the other
current. -/
theorem sessions_owned_handover :
    (∀ input ∈ handover, input.IsAsked {}) ∧
      ((empty : System Reply).run handover).sessions = 2 ∧
      ∀ session < 2, ((empty : System Reply).run handover).pool.current = some session ∨
        session ∈ ((empty : System Reply).run handover).closed ∨
        ∃ id, ((empty : System Reply).run handover).wait? id = some (.close session) := by
  have hasked : ∀ input ∈ handover, input.IsAsked {} := by
    simp only [handover, List.forall_mem_cons]
    exact ⟨⟨_, rfl⟩, ⟨_, rfl⟩, trivial, trivial, trivial, ⟨_, rfl⟩, trivial, trivial, trivial,
      by simp⟩
  obtain ⟨-, -, -, -, hall, -⟩ := sessions_owned {} handover hasked
  exact ⟨hasked, rfl, hall⟩

end System

end CanvasLink.Broker
