import CanvasLink.Proofs.Broker.Alone

/-!
# CanvasLink — what a step does

A step either passes its input over or does one of six things to the system. `Happens` has a case
for each, with what must hold for it; what a step preserves is shown by cases on `happens_step`, and
what a run preserves follows by `run_of_step`.
-/

namespace CanvasLink.Broker.System

open CanvasLink.Bridge

variable {ρ : Type}

/-- What an input can bring about. -/
inductive Happens (s : System ρ) : Input ρ → System ρ → Prop
  | ignored (input : Input ρ) : Happens s input s
  | begun {id : CallId} {call : Call ρ} (hnone : s.call? id = none) :
    Happens s (.begin id call) (s.advance id call)
  | answered {id : CallId} {answer : Answer} {wait : Wait} {rest : wait.Reply → Call ρ}
    {reply : wait.Reply} (hcall : s.call? id = some (.await wait rest))
    (hreply : wait.accept? answer = some reply) :
    Happens s (.answer id answer) ((s.noteAnswer wait).advance id (rest reply))
  | shared {id : CallId} {a : AttemptId} {rest : Except Bridge.Error SessionId → Call ρ}
    {outcome : Except Bridge.Error SessionId} (hcall : s.call? id = some (.await (.attempt a) rest))
    (hended : s.attempts[a]? = some (.ended outcome)) :
    Happens s (.share id) (s.advance id (rest outcome))
  | connected {a : AttemptId} {outcome : Except Bridge.Error Unit}
    (hconnecting : s.attempts[a]? = some .connecting) (hawaited : s.isAwaited a = true) :
    Happens s (.connected a outcome) (s.conclude a outcome)
  | cleared {a : AttemptId} {previous : SessionId} {outcome : Except Bridge.Error SessionId}
    (hclosing : s.attempts[a]? = some (.closing previous outcome))
    (hawaited : s.isAwaited a = true) :
    Happens s (.cleared a)
      { s.noteClosed previous with attempts := s.attempts.set a (.ended outcome) }
  | abandoned (id : CallId) :
    Happens s (.abandon id) { s with calls := s.calls.filter fun entry => entry.1 ≠ id }

/-- **One step** is one of these. -/
theorem happens_step (s : System ρ) (input : Input ρ) : Happens s input (s.step input) := by
  have htells := s.tells_step input
  generalize s.step input = s', s.observed input = told at htells ⊢
  cases htells with
  | ignored => exact .ignored _
  | begun hnone => exact .begun hnone
  | answered hcall hreply => exact .answered hcall hreply
  | shared hcall hended => exact .shared hcall hended
  | connected hconnecting hawaited => exact .connected hconnecting hawaited
  | cleared hclosing hawaited => exact .cleared hclosing hawaited
  | abandoned id => exact .abandoned id

/-- What every input of a kind preserves is preserved by a run over such inputs. -/
theorem run_of_step {P : System ρ → Prop} {Q : Input ρ → Prop}
    (hstep : ∀ s, P s → ∀ input, Q input → P (s.step input)) {s : System ρ} (h : P s)
    {inputs : List (Input ρ)} (hinputs : ∀ input ∈ inputs, Q input) : P (s.run inputs) := by
  induction inputs generalizing s with
  | nil => exact h
  | cons input inputs ih =>
    rw [List.forall_mem_cons] at hinputs
    exact ih (hstep s h input hinputs.1) hinputs.2

theorem run_append (s : System ρ) (inputs more : List (Input ρ)) :
    s.run (inputs ++ more) = (s.run inputs).run more :=
  List.foldl_append ..

end CanvasLink.Broker.System
