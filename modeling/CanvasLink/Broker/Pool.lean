import CanvasLink.Bridge.Error

/-!
# CanvasLink — what the broker keeps

The broker keeps at most one session and hands it to every call that needs one. While a session is
being made, calls join that attempt instead of starting another. `Pool` is the state that all calls
share; each of its operations is one critical section.
-/

namespace CanvasLink.Broker

open CanvasLink.Bridge

/-- Number of a session, in the order in which sessions were made. -/
abbrev SessionId := Nat

/-- Number of an attempt to make a session, in the order in which attempts were begun. -/
abbrev AttemptId := Nat

/-- The state that all calls share. -/
structure Pool where
  /-- The session that calls are given. -/
  current : Option SessionId
  /-- The attempt that calls join. -/
  inFlight : Option AttemptId
  /-- Attempts begun so far. -/
  attempts : Nat
  /-- Sessions given up by retries and on request, whether there was one or not. -/
  forced : Nat
deriving DecidableEq, Repr

namespace Pool

/-- The broker before its first call. -/
def empty : Pool :=
  ⟨none, none, 0, 0⟩

/-- Takes the current session out. -/
def release (p : Pool) : Pool × Option SessionId :=
  ({ p with current := none }, p.current)

/-- Takes a session out if it is still the current one. -/
def withdraw (p : Pool) (session : SessionId) : Pool :=
  if p.current = some session then { p with current := none } else p

/-- Counts a session given up by force. -/
def countForced (p : Pool) : Pool :=
  { p with forced := p.forced + 1 }

end Pool

/-- What a call that needs a session is given to go on with. -/
inductive Lead where
  /-- A session that another call has brought in. -/
  | session (s : SessionId)
  /-- An attempt to wait for. -/
  | attempt (a : AttemptId)
deriving DecidableEq, Repr

namespace Pool

/-- The attempt in flight, or a new one. -/
def joinAttempt (p : Pool) : Pool × Lead :=
  match p.inFlight with
  | some attempt => (p, .attempt attempt)
  | none =>
    ({ p with inFlight := some p.attempts, attempts := p.attempts + 1 }, .attempt p.attempts)

/-- Joins the attempt in flight, or begins one. A current session other than the one just discarded
is given as it is. -/
def join (p : Pool) (discarded : Option SessionId) : Pool × Lead :=
  match p.current with
  | some session =>
    if discarded = some session then p.joinAttempt else (p, .session session)
  | none => p.joinAttempt

/-- Takes in the end of the attempt in flight: a new session becomes the current one, and the one
that was there before is returned. -/
def conclude (p : Pool) (outcome : Except Bridge.Error SessionId) : Pool × Option SessionId :=
  match outcome with
  | .ok session => ({ p with inFlight := none, current := some session }, p.current)
  | .error _ => ({ p with inFlight := none }, none)

/-! ## Laws of the operations -/

section Laws

variable {p : Pool} {session : SessionId}

theorem withdraw_of_current (h : p.current = some session) :
    p.withdraw session = { p with current := none } :=
  if_pos h

theorem withdraw_of_other (h : p.current ≠ some session) : p.withdraw session = p :=
  if_neg h

/-- The session is taken out, or has not been there. -/
theorem withdraw_cases (p : Pool) (session : SessionId) :
    p.current = some session ∧ p.withdraw session = { p with current := none } ∨
      p.current ≠ some session ∧ p.withdraw session = p := by
  by_cases h : p.current = some session
  · exact .inl ⟨h, withdraw_of_current h⟩
  · exact .inr ⟨h, withdraw_of_other h⟩

/-- A session that was withdrawn is not current. -/
theorem current_withdraw_ne (p : Pool) (session : SessionId) :
    (p.withdraw session).current ≠ some session := by
  rcases p.withdraw_cases session with ⟨-, hgone⟩ | ⟨hother, hsame⟩
  · rw [hgone]
    exact Option.some_ne_none session ∘ Eq.symm
  · rwa [hsame]

/-- Whether an attempt is in flight or not, from then on there is one. -/
theorem exists_joinAttempt (p : Pool) :
    ∃ a, p.joinAttempt = ({ p with
      inFlight := some a
      attempts := p.attempts + if p.inFlight = none then 1 else 0 }, .attempt a) := by
  obtain ⟨current, inFlight, attempts, forced⟩ := p
  cases inFlight with
  | none => exact ⟨attempts, rfl⟩
  | some a => exact ⟨a, rfl⟩

/-- The attempt in flight stays as it is, or one is begun. -/
theorem joinAttempt_cases (p : Pool) :
    (∃ a, p.inFlight = some a ∧ p.joinAttempt = (p, .attempt a)) ∨
      p.inFlight = none ∧ p.joinAttempt =
        ({ p with inFlight := some p.attempts, attempts := p.attempts + 1 },
          .attempt p.attempts) := by
  unfold joinAttempt
  cases h : p.inFlight with
  | none => exact .inr ⟨rfl, rfl⟩
  | some a => exact .inl ⟨a, rfl, rfl⟩

/-- Joining an attempt does not change which session is current. -/
@[simp]
theorem current_joinAttempt (p : Pool) : p.joinAttempt.1.current = p.current := by
  obtain ⟨a, hjoin⟩ := p.exists_joinAttempt
  rw [hjoin]

/-- Joining an attempt counts as no forced close. -/
@[simp]
theorem forced_joinAttempt (p : Pool) : p.joinAttempt.1.forced = p.forced := by
  obtain ⟨a, hjoin⟩ := p.exists_joinAttempt
  rw [hjoin]

theorem join_of_none (h : p.current = none) (discarded : Option SessionId) :
    p.join discarded = p.joinAttempt := by
  simp only [join, h]

/-- A current session is given away as it is, unless it is the one that was discarded. -/
theorem join_of_other (h : p.current = some session) {discarded : Option SessionId}
    (hne : discarded ≠ some session) : p.join discarded = (p, .session session) := by
  simp only [join, h, if_neg hne]

/-- A call that joins is given the current session, if it has not discarded just that, or an
attempt. -/
theorem join_cases (p : Pool) (discarded : Option SessionId) :
    (∃ session, p.current = some session ∧ discarded ≠ some session ∧
      p.join discarded = (p, .session session)) ∨ p.join discarded = p.joinAttempt := by
  cases hcurrent : p.current with
  | none => exact .inr (join_of_none hcurrent discarded)
  | some session =>
    by_cases hsame : discarded = some session
    · exact .inr (by simp only [join, hcurrent, if_pos hsame])
    · exact .inl ⟨session, rfl, hsame, join_of_other hcurrent hsame⟩

end Laws

end Pool

end CanvasLink.Broker
