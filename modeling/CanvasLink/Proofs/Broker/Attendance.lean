import CanvasLink.Proofs.Broker.Provision
import CanvasLink.Proofs.Broker.Replacement

/-!
# CanvasLink — an attempt in flight is waited for

A call that begins an attempt goes on to wait for it. So nothing is in flight when nobody is there,
unless somebody has gone away.

* `Call.Attends`, `attends_call` — a call that is given an attempt waits for it.
* `Attended`, `Attended.step` — the attempt in flight is waited for.
* **`inFlight_of_ended`** — when all calls have returned, no attempt is in flight.
-/

namespace CanvasLink.Broker

open CanvasLink.Bridge

/-! ## Calls that wait for the attempt that they are given -/

/-- A call that joins is given a session, or an attempt that is then in flight. -/
theorem lead_of_join (p : Pool) (discarded : Option SessionId) :
    (∃ session, p.join discarded = (p, .session session)) ∨
      ∃ p' a, p.join discarded = (p', .attempt a) ∧ p'.inFlight = some a := by
  rcases p.join_cases discarded with ⟨session, -, -, hjoin⟩ | hjoin
  · exact .inl ⟨session, hjoin⟩
  · obtain ⟨a, hattempt⟩ := p.exists_joinAttempt
    exact .inr ⟨_, a, hjoin.trans hattempt, rfl⟩

namespace Call

variable {α β : Type}

/-- Whether a call that is given an attempt goes on to wait for it. -/
def Attends : Call α → Prop
  | done _ => True
  | act (.join _) rest =>
    (∀ a, (rest (.attempt a)).wait? = some (.attempt a)) ∧ ∀ lead, (rest lead).Attends
  | act .look rest => ∀ current, (rest current).Attends
  | act .release rest => ∀ current, (rest current).Attends
  | act (.withdraw _) rest => (rest ()).Attends
  | act .countForced rest => (rest ()).Attends
  | await _ rest => ∀ reply, (rest reply).Attends

/-- A call attends where both its parts do, the second one after every result of the first. -/
theorem Attends.bind {call : Call α} {next : α → Call β} (h : call.Attends)
    (hnext : ∀ result, (next result).Attends) : (call >>= next).Attends := by
  change (call.bind next).Attends
  induction call with
  | done result => exact hnext result
  | await wait rest ih => exact fun reply => ih reply (h reply)
  | act a rest ih =>
    cases a with
    | look => exact fun current => ih current (h current)
    | release => exact fun current => ih current (h current)
    | withdraw session => exact ih () h
    | countForced => exact ih () h
    | join discarded =>
      -- Joining an attempt awaits it at once, and what is bound behind comes later still.
      exact ⟨fun a => wait?_bind (h.1 a) next, fun lead => ih lead (h.2 lead)⟩

/-- Up to its next wait, a call leaves the attempt in flight as it is, or begins one and waits for
it. -/
theorem Attends.settle {call : Call α} (h : call.Attends) (p : Pool) :
    (call.settle p).2.Attends ∧ ((call.settle p).1.inFlight = p.inFlight ∨
      ∃ a, (call.settle p).1.inFlight = some a ∧ (call.settle p).2.wait? = some (.attempt a)) := by
  induction call generalizing p with
  | done result => exact ⟨trivial, .inl rfl⟩
  | await wait rest ih => exact ⟨h, .inl rfl⟩
  | act a rest ih =>
    cases a with
    | look => exact ih _ (h _) p
    | release => exact ih _ (h _) { p with current := none }
    | withdraw session =>
      -- Withdrawing touches the current session only.
      have hsame : (p.withdraw session).inFlight = p.inFlight := by
        rcases p.withdraw_cases session with ⟨-, hpool⟩ | ⟨-, hpool⟩ <;> rw [hpool]
      rw [← hsame]
      exact ih () h (p.withdraw session)
    | countForced => exact ih () h p.countForced
    | join discarded =>
      rw [settle_act, Act.run]
      -- Joining finds a session, and the acts go on, or an attempt in flight, which the call stops
      -- at.
      rcases lead_of_join p discarded with ⟨session, hjoin⟩ | ⟨p', a, hjoin, hflight⟩
      · rw [hjoin]
        exact ih (.session session) (h.2 _) p
      · have hwait := h.1 a
        rw [hjoin]
        refine ⟨(ih (.attempt a) (h.2 _) p').1, .inr ⟨a, ?_⟩⟩
        dsimp only
        rw [settle_of_wait? hwait]
        exact ⟨hflight, hwait⟩

end Call

/-! ## The requests -/

section Requests

variable (limits : Limits)

/-- Whoever joins waits for the attempt that it has been given, and for no other. -/
theorem attends_share (discarded : Option SessionId) : (share discarded).Attends := by
  refine ⟨fun a => rfl, fun lead => ?_⟩
  cases lead with
  | session session => trivial
  | attempt a => exact fun outcome => trivial

/-- Between the probe and the joining there is only the closing of the session that failed. -/
theorem attends_ensure : (ensure limits).Attends := by
  intro current
  cases current with
  | none => exact attends_share none
  | some session =>
    intro answer
    simp only [Call.bind, pure]
    split
    · trivial
    · exact fun _ => attends_share (some session)

/-- A look at the health waits for a probe and never for an attempt. -/
theorem attends_health : (health limits).Attends := by
  intro current
  cases current with
  | none => trivial
  | some session => exact fun answer => trivial

/-- A shutdown waits for a close and never for an attempt. -/
theorem attends_shutdown : shutdown.Attends := by
  intro current
  cases current with
  | none => trivial
  | some session => exact fun _ => trivial

/-- Every request waits for the attempts that it is given. -/
theorem attends_call (request : Request) : (request.call limits).Attends := by
  have hparts : OfParts limits fun _ call => call.Attends :=
    { done := fun _ => trivial
      bind := fun h hnext => h.bind hnext
      ensure := attends_ensure limits
      health := attends_health limits
      shutdown := attends_shutdown
      countForced := trivial
      run := fun _ _ _ _ => trivial
      pause := fun _ _ => trivial
      panic := fun _ => trivial }
  exact hparts.call request

end Requests

/-! ## The system -/

namespace System

variable {ρ : Type}

/-- The attempt in flight is waited for, and calls go on to wait for those that they begin. -/
structure Attended (s : System ρ) : Prop where
  inFlight : ∀ a, s.pool.inFlight = some a → ∃ id, s.wait? id = some (.attempt a)
  calls : ∀ id call, s.call? id = some call → call.Attends

/-- Nothing is in flight in the empty system, so nothing need be awaited. -/
theorem attended_empty : (empty : System ρ).Attended where
  inFlight := by simp [empty, Pool.empty]
  calls := by simp [empty, System.call?]

section Attended

variable {s : System ρ} {id : CallId} {call : Call ρ}

/-- A call goes on that does not wait for the attempt in flight. -/
theorem Attended.advance (h : s.Attended) (hcall : call.Attends)
    (hother : ∀ a, s.pool.inFlight = some a → s.wait? id ≠ some (.attempt a)) :
    (s.advance id call).Attended := by
  obtain ⟨hattends, hflight⟩ := hcall.settle s.pool
  have hwait (id' : CallId) : (s.advance id call).wait? id' =
      if id' = id then (call.settle s.pool).2.wait? else s.wait? id' := by
    rw [System.wait?, call?_advance]
    split <;> rfl
  refine ⟨fun a ha => ?_, fun id' call' hcall' => ?_⟩
  · have ha' : (call.settle s.pool).1.inFlight = some a := ha
    -- The attempt in flight is the old one, still awaited by the call that awaited it, or one this
    -- call has begun and stopped at.
    rcases hflight with hsame | ⟨b, hbegun, hwaits⟩
    · rw [hsame] at ha'
      obtain ⟨id', hid'⟩ := h.inFlight a ha'
      refine ⟨id', ?_⟩
      rw [hwait, if_neg, hid']
      rintro rfl
      exact hother a ha' hid'
    · obtain rfl : b = a := Option.some.inj (hbegun.symm.trans ha')
      exact ⟨id, by rw [hwait, if_pos rfl, hwaits]⟩
  · rw [call?_advance] at hcall'
    split at hcall'
    · exact Option.some.inj hcall' ▸ hattends
    · exact h.calls id' call' hcall'

/-- What a call that goes on from a wait was given keeps to the same. -/
theorem Attended.rest (h : s.Attended) {wait : Wait} {rest : wait.Reply → Call ρ}
    (hcall : s.call? id = some (.await wait rest)) (reply : wait.Reply) : (rest reply).Attends :=
  h.calls id _ hcall reply

/-- **One step**, with nobody going away. -/
theorem Attended.step (h : s.Attended) (hs : s.Tracked) {input : Input ρ}
    (hbegins : ∀ id call, input = .begin id call → call.Attends)
    (hstays : ∀ id, input.abandons id = false) : (s.step input).Attended := by
  have hstep := s.happens_step input
  generalize s.step input = s' at hstep ⊢
  cases hstep with
  | ignored => exact h
  | begun hnone =>
    refine h.advance (hbegins _ _ rfl) fun a _ hwait => ?_
    rw [System.wait?, hnone] at hwait
    cases hwait
  | @answered id answer wait rest reply hcall hreply =>
    obtain ⟨closed, hnote⟩ := s.exists_noteAnswer wait
    rw [hnote]
    have hnoted : ({ s with closed := closed } : System ρ).Attended := ⟨h.inFlight, h.calls⟩
    refine hnoted.advance (h.rest hcall reply) fun a _ hwait => ?_
    have hsame : wait = .attempt a := by
      have hwait' : s.wait? id = some (.attempt a) := hwait
      rw [System.wait?, hcall] at hwait'
      exact Option.some.inj hwait'
    exact Wait.ne_attempt_of_accept? hreply a hsame
  | @shared id b rest outcome hcall hended =>
    refine h.advance (h.rest hcall outcome) fun a ha hwait => ?_
    -- The call waits for an attempt that has ended, and the one in flight has not.
    have hsame : Wait.attempt b = .attempt a := by
      rw [System.wait?, hcall] at hwait
      exact Option.some.inj hwait
    obtain rfl : b = a := Wait.attempt.inj hsame
    rw [hs.connecting b ha] at hended
    cases hended
  | @connected a outcome _ _ =>
    refine ⟨fun b hb => ?_, h.calls⟩
    rw [inFlight_conclude] at hb
    cases hb
  | cleared _ _ => exact ⟨h.inFlight, h.calls⟩
  | abandoned id =>
    have hgone := hstays id
    simp [Input.abandons] at hgone

end Attended

/-- Nothing is in flight when all calls have returned and nobody has gone away. -/
theorem inFlight_of_ended (limits : Limits) {inputs : List (Input Reply)}
    (hoffered : ∀ input ∈ inputs, input.IsOffered limits)
    (hstays : ∀ input ∈ inputs, ∀ id, input.abandons id = false)
    (hended : ∀ id call, ((empty : System Reply).run inputs).call? id = some call →
      call.result?.isSome = true) :
    ((empty : System Reply).run inputs).pool.inFlight = none := by
  have hrun : ((empty : System Reply).run inputs).Sound ∧
      ((empty : System Reply).run inputs).Attended := by
    refine run_of_step (P := fun s => s.Sound ∧ s.Attended) ?_ ⟨sound_empty, attended_empty⟩
      fun input hinput => And.intro (hoffered input hinput) (hstays input hinput)
    rintro s ⟨hs, h⟩ input ⟨hinput, hstay⟩
    refine ⟨hs.step hinput.beginsTame, h.step hs.tracked ?_ hstay⟩
    rintro id call rfl
    obtain ⟨request, rfl⟩ := hinput
    exact attends_call limits request
  -- An attempt in flight would have a call awaiting it, and every call has ended.
  cases hflight : ((empty : System Reply).run inputs).pool.inFlight with
  | none => rfl
  | some a =>
    obtain ⟨id, hwait⟩ := hrun.2.inFlight a hflight
    rw [wait?_eq_none hended id] at hwait
    cases hwait

end System

end CanvasLink.Broker
