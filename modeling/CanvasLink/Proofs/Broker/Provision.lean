import CanvasLink.Broker.Supply
import CanvasLink.Proofs.Broker.Alone

/-!
# CanvasLink — what it takes to bring in a session

Bringing in a session while no other call is in progress: the session that there is, when it passes
its probe, or else one connect. An attempt that somebody has left in flight is taken up again.

* `Unfit` — what is told of a session that is not kept.
* `Provided` — what a connect leaves in the pool.
* `Supplied` — how a session is brought in: the one that there is, or one connect.
* `wp_share_connects`, `wp_ensure_supplied` — one lemma for each call.
-/

namespace CanvasLink.Broker

open CanvasLink.Bridge CanvasLink.Json

/-- What is told of a session that is not kept: its probe ends in any way but with exactly true, and
it is closed. -/
inductive Unfit (limits : Limits) : Option SessionId → List Happening → Prop
  | absent : Unfit limits none []
  | found {session : SessionId} {answer : ProbeAnswer}
      (hanswer : answer ≠ .answered (.ok (.boolean true))) :
      Unfit limits (some session) [.probed session limits.probe answer, .closed session]

/-- What one connect leaves of a pool and a number of sessions. -/
structure Provided (p p' : Pool) (sessions sessions' : Nat) (outcome : Except Bridge.Error Unit) :
    Prop where
  current : p'.current = (numbered sessions outcome).toOption
  inFlight : p'.inFlight = none
  /-- An attempt is begun, unless there is one to take up. -/
  attempts : p'.attempts = p.attempts + if p.inFlight = none then 1 else 0
  forced : p'.forced = p.forced
  sessions : sessions' = sessionsAfter sessions outcome

/-- How a session is brought in, from a pool and a number of sessions. -/
inductive Supplied (limits : Limits) (p : Pool) (sessions : Nat) :
    List Happening → Except Bridge.Error SessionId → Pool → Nat → Prop
  /-- The current session answers its probe in time with exactly true. -/
  | kept {session : SessionId} (hcurrent : p.current = some session) :
    Supplied limits p sessions
      [.probed session limits.probe (.answered (.ok (.boolean true)))] (.ok session) p sessions
  | renewed {before : List Happening} {a : AttemptId} {outcome : Except Bridge.Error Unit}
    {p' : Pool} {sessions' : Nat} (hunfit : Unfit limits p.current before)
    (hprovided : Provided p p' sessions sessions' outcome) :
    Supplied limits p sessions
      (before ++ [.connected a outcome, .shared a (numbered sessions outcome)])
      (numbered sessions outcome) p' sessions'

variable {limits : Limits} {p : Pool} {sessions : Nat}

/-- A session is healthy exactly if the target has answered its probe with true. -/
theorem healthy_iff {answer : ProbeAnswer} :
    Health.ofProbe answer = .healthy ↔ answer = .answered (.ok (.boolean true)) := by
  constructor
  · intro h
    unfold Health.ofProbe at h
    split at h
    · cases h
    · rfl
    · cases h
  · rintro rfl
    rfl

/-- One connect, when no session is current. -/
theorem wp_share_connects (discarded : Option SessionId) (hnone : p.current = none) :
    (share discarded).wp p sessions fun log result p' sessions' =>
      ∃ a outcome, log = [.connected a outcome, .shared a (numbered sessions outcome)] ∧
        result = numbered sessions outcome ∧ Provided p p' sessions sessions' outcome := by
  obtain ⟨a, hjoin⟩ := p.exists_joinAttempt
  refine Call.wp_bind ?_
  simp only [Call.join, Call.wp, Act.run, Pool.join_of_none hnone, hjoin]
  refine ⟨rfl, hnone, fun outcome => ⟨a, outcome, rfl, rfl, ?_⟩⟩
  cases outcome with
  | ok _ => exact ⟨rfl, rfl, rfl, rfl, rfl⟩
  | error e => exact ⟨hnone, rfl, rfl, rfl, rfl⟩

/-- The session that there is, or one connect. -/
theorem wp_ensure_supplied :
    (ensure limits).wp p sessions (Supplied limits p sessions) := by
  refine Call.wp_bind ?_
  simp only [Call.look, Call.wp, Act.run, List.nil_append]
  cases hcurrent : p.current with
  | none =>
    refine Call.wp_mono (wp_share_connects none hcurrent) ?_
    rintro log result p' sessions' ⟨a, outcome, rfl, rfl, hprovided⟩
    have hunfit : Unfit limits p.current [] := hcurrent ▸ .absent
    exact .renewed hunfit hprovided
  | some session =>
    simp only [probe]
    refine Call.wp_bind (Call.wp_bind ?_)
    intro answer
    -- Only the exact answer keeps the session; all others have it withdrawn and closed first.
    by_cases hhealth : Health.ofProbe answer = .healthy
    · obtain rfl := healthy_iff.1 hhealth
      simp only [Call.wp, pure]
      exact .kept hcurrent
    · have hunfit : Unfit limits p.current
          [.probed session limits.probe answer, .closed session] :=
        hcurrent ▸ .found fun h => hhealth (healthy_iff.2 h)
      simp only [Call.wp, pure]
      refine Call.wp_bind (Call.wp_bind ?_)
      simp only [Call.withdraw, Call.close, Call.wp, Wait.wp, Act.run,
        Pool.withdraw_of_current hcurrent]
      refine Call.wp_mono (wp_share_connects (some session) rfl) ?_
      rintro log result p' sessions' ⟨a, outcome, rfl, rfl, hprovided⟩
      exact .renewed hunfit ⟨hprovided.current, hprovided.inFlight, hprovided.attempts,
        hprovided.forced, hprovided.sessions⟩

end CanvasLink.Broker
