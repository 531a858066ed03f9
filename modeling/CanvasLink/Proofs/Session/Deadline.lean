import CanvasLink.Proofs.Session.Discovery
import CanvasLink.Session.Connect

/-!
# CanvasLink — connecting within the limit

Connecting goes through five stages: the directory, the selection, the socket, and attaching with
its wait and its probes. Each of them may fail, or hang until the limit of time has passed.

* `Listed`, `Chosen`, `Opened` — how far the inputs bring connecting.
* `Connects` — the outcome that the inputs lead to, if nothing cuts connecting short: the error of
  the first stage that fails, or a session.
* `run_listed`, `run_chosen`, `run_opened` — the state in which a stage is left.
* `outcome_of_connects`, `connects_of_outcome` — a run has an outcome exactly if its inputs lead to
  one.
* `Tidy` — what a failure leaves, whichever step it comes from.
* **`bounded_and_tidy`** — connecting within its limit of time.
-/

namespace CanvasLink

open CanvasLink.Bridge CanvasLink.Wire

namespace Attaching

/-- Whether attaching has failed or succeeded. -/
def isOver (a : Attaching) : Bool :=
  match a.phase with
  | .failed _ | .attached _ => true
  | _ => false

/-- A run over inputs that stops when attaching is over. -/
def toEnd (a : Attaching) : List Input → Attaching
  | [] => a
  | input :: inputs => if a.isOver then a else (a.step input).1.toEnd inputs

theorem isOver_iff {a : Attaching} :
    a.isOver = true ↔ (∃ e, a.phase = .failed e) ∨ ∃ context, a.phase = .attached context := by
  unfold isOver
  cases a.phase <;> simp

/-- Where attaching is over no input is taken any more. -/
theorem toEnd_of_isOver {a : Attaching} (hover : a.isOver = true) (inputs : List Input) :
    a.toEnd inputs = a := by
  cases inputs with
  | nil => rfl
  | cons input inputs => exact if_pos hover

end Attaching

namespace Connecting

/-! ## What inputs lead to -/

/-- The answer of the endpoint that an input brings. -/
def Input.answer? : Input → Option Target.Answer
  | .directory answer => some answer
  | _ => none

/-- What an input says about the socket. -/
def Input.socket? : Input → Option (Except String (List SocketFrame))
  | .opened outcome => some outcome
  | _ => none

/-- The first input that brings anything brings this, and the rest comes behind it. -/
inductive First {α : Type} (bring? : Input → Option α) : List Input → α → List Input → Prop
  | mk {before : List Input} {input : Input} {brought : α} {rest : List Input}
      (hbefore : ∀ i ∈ before, bring? i = none) (hinput : bring? input = some brought) :
      First bring? (before ++ input :: rest) brought rest

/-- The directory has been asked for, and this has come of it. -/
inductive Listed (settings : Settings) (inputs : List Input) :
    Except Bridge.Error (List TargetDescriptor) → List Input → Prop
  | long {answer : Target.Answer} {rest : List Input}
      (hanswer : First Input.answer? inputs answer rest)
      (hfound : ∀ body, answer ≠ .answered 404 body) :
      Listed settings inputs (Target.ofAnswer (directoryUrl settings .long) answer) rest
  /-- The long form is not served, so the short form is asked for. -/
  | short {body : String} {answer : Target.Answer} {rest later : List Input}
      (hmissing : First Input.answer? inputs (.answered 404 body) rest)
      (hanswer : First Input.answer? rest answer later) :
      Listed settings inputs (Target.ofAnswer (directoryUrl settings .short) answer) later

/-- A document is selected, and it has the URL of a debugger. -/
inductive Chosen (settings : Settings) (inputs : List Input) :
    TargetDescriptor → String → List Input → Prop
  | mk {targets : List TargetDescriptor} {target : TargetDescriptor} {url : String}
      {rest : List Input} (hlisted : Listed settings inputs (.ok targets) rest)
      (hselected : Target.select targets settings.patterns settings.target = .ok target)
      (hurl : target.debuggerUrl = some url) : Chosen settings inputs target url rest

/-- The socket has been opened: what comes in before attaching asks for anything, and what happens
to attaching from then on. -/
inductive Opened (settings : Settings) (inputs : List Input) :
    TargetDescriptor → List Attaching.Input → List Attaching.Input → Prop
  | mk {target : TargetDescriptor} {url : String} {early : List SocketFrame}
      {rest later : List Input} (hchosen : Chosen settings inputs target url rest)
      (hopened : First Input.socket? rest (.ok early) later) :
      Opened settings inputs target (early.filterMap frameInput?) (later.filterMap Input.attaching?)

section Runs

variable {c : Connecting} {α : Type} {bring? : Input → Option α} {inputs rest : List Input}

theorem run_cons (c : Connecting) (input : Input) (inputs : List Input) :
    c.run (input :: inputs) =
      (((c.step input).1.run inputs).1, (c.step input).2 ++ ((c.step input).1.run inputs).2) :=
  rfl

/-- Inputs that bring nothing are passed over. -/
theorem run_quiet (hquiet : ∀ i, bring? i = none → c.step i = (c, []))
    (hnone : ∀ i ∈ inputs, bring? i = none) (rest : List Input) :
    c.run (inputs ++ rest) = c.run rest := by
  induction inputs with
  | nil => rfl
  | cons input inputs ih =>
    obtain ⟨hinput, hinputs⟩ := List.forall_mem_cons.1 hnone
    rw [List.cons_append, run_cons, hquiet input hinput]
    exact ih hinputs

/-- Up to the first input that brings something, nothing happens. -/
theorem run_first {brought : α} (hquiet : ∀ i, bring? i = none → c.step i = (c, []))
    (h : First bring? inputs brought rest) :
    ∃ input, bring? input = some brought ∧ c.run inputs = c.run (input :: rest) := by
  obtain ⟨hbefore, hinput⟩ := h
  exact ⟨_, hinput, run_quiet hquiet hbefore _⟩

/-- Nothing happens behind the end. -/
theorem run_of_outcome {outcome : Except Bridge.Error Session} (h : c.outcome? = some outcome)
    (inputs : List Input) : c.run inputs = (c, []) := by
  -- In the two last phases every input is ignored.
  have hquiet (i : Input) : c.step i = (c, []) := by
    obtain ⟨settings, phase, socket⟩ := c
    cases phase with
    | connected session => rfl
    | failed error left => rfl
    | listing form => cases h
    | opening target => cases h
    | attaching target a => cases h
  induction inputs with
  | nil => rfl
  | cons input inputs ih =>
    rw [run_cons, hquiet input]
    exact ih

end Runs

/-! ## The directory and the selection -/

section Selection

variable {settings : Settings} {inputs rest : List Input}

/-- The endpoint has been asked for a form of the directory. -/
def listing (settings : Settings) (form : Target.Form) : Connecting :=
  ⟨settings, .listing form, .unopened⟩

/-- The socket to a document is being opened. -/
def opening (settings : Settings) (target : TargetDescriptor) : Connecting :=
  ⟨settings, .opening target, .opening⟩

/-- A failure before there is a socket. -/
def refused (settings : Settings) (error : Bridge.Error) : Connecting :=
  ⟨settings, .failed error none, .unopened⟩

/-- What comes of a directory. -/
def decided (settings : Settings) :
    Except Bridge.Error (List TargetDescriptor) → Connecting × List Effect
  | .error error => (refused settings error, [])
  | .ok targets => (listing settings .long).choose targets

/-- What is not an answer of the endpoint passes by while one is waited for. -/
theorem step_listing_quiet (form : Target.Form) (i : Input) (h : i.answer? = none) :
    (listing settings form).step i = (listing settings form, []) := by
  cases i with
  | directory answer => cases h
  | _ => rfl

/-- What says nothing of the socket passes by while it is being opened. -/
theorem step_opening_quiet (target : TargetDescriptor) (i : Input) (h : i.socket? = none) :
    (opening settings target).step i = (opening settings target, []) := by
  cases i with
  | opened outcome => cases h
  | _ => rfl

/-- An answer of the endpoint decides, unless it says that the long form is not served. -/
theorem step_answer {form : Target.Form} {answer : Target.Answer}
    (hfound : form = .long → ∀ body, answer ≠ .answered 404 body) :
    (listing settings form).step (.directory answer) =
      decided settings (Target.ofAnswer (directoryUrl settings form) answer) := by
  -- Only the long form has an answer that is not a decision.
  have hdecided : (listing settings form).takeDirectory form answer =
      match Target.ofAnswer (directoryUrl settings form) answer with
      | .error e => (listing settings form).fail e
      | .ok targets => (listing settings form).choose targets := by
    cases form with
    | short => rfl
    | long =>
      unfold takeDirectory
      dsimp only
      split
      · exact absurd rfl (hfound rfl _)
      · rfl
  show (listing settings form).takeDirectory form answer = _
  rw [hdecided]
  cases Target.ofAnswer (directoryUrl settings form) answer with
  | error e => rfl
  | ok targets => rfl

theorem step_missing {settings : Settings} {body : String} :
    (listing settings .long).step (.directory (.answered 404 body)) =
      (listing settings .short, [.asked (directoryUrl settings .short)]) :=
  rfl

/-- The directory that is asked for is answered, or nothing happens. -/
theorem run_answer {form : Target.Form} {answer : Target.Answer}
    (hanswer : First Input.answer? inputs answer rest) :
    (listing settings form).run inputs =
      (listing settings form).run (.directory answer :: rest) := by
  obtain ⟨input, hinput, hrun⟩ := run_first (step_listing_quiet form) hanswer
  cases input with
  | directory answer' =>
    cases hinput
    exact hrun
  | _ => cases hinput

/-- None of the effects opens a socket. -/
def OpensNothing (effects : List Effect) : Prop :=
  ∀ url, .opening url ∉ effects

theorem OpensNothing.nil : OpensNothing [] := by
  simp [OpensNothing]

theorem OpensNothing.asked (url : String) : OpensNothing [.asked url] := by
  simp [OpensNothing]

/-- What has come of the directory is gone on with. -/
theorem run_listed {decoded : Except Bridge.Error (List TargetDescriptor)}
    (h : Listed settings inputs decoded rest) :
    ∃ asked, OpensNothing asked ∧ (listing settings .long).run inputs =
      (((decided settings decoded).1.run rest).1,
        asked ++ ((decided settings decoded).2 ++ ((decided settings decoded).1.run rest).2)) := by
  cases h with
  | long hanswer hfound =>
    refine ⟨[], .nil, ?_⟩
    rw [run_answer hanswer, run_cons, step_answer fun _ => hfound]
    rfl
  | short hmissing hanswer =>
    refine ⟨[.asked (directoryUrl settings .short)], .asked _, ?_⟩
    rw [run_answer hmissing, run_cons, step_missing]
    dsimp only
    rw [run_answer hanswer, run_cons, step_answer (by simp)]

/-- The socket of a document that is selected and has one is opened. -/
theorem decided_of_selected {targets : List TargetDescriptor} {target : TargetDescriptor}
    {url : String}
    (hselected : Target.select targets settings.patterns settings.target = .ok target)
    (hurl : target.debuggerUrl = some url) :
    decided settings (.ok targets) = (opening settings target, [.opening url]) := by
  show choose _ _ = _
  simp only [choose, listing, hselected, hurl]
  rfl

/-- A run in which a document is chosen opens its socket, no other one before, and goes on from
there. -/
theorem run_chosen {target : TargetDescriptor} {url : String}
    (h : Chosen settings inputs target url rest) :
    ∃ asked, OpensNothing asked ∧ (listing settings .long).run inputs =
      (((opening settings target).run rest).1,
        asked ++ .opening url :: ((opening settings target).run rest).2) := by
  obtain ⟨hlisted, hselected, hurl⟩ := h
  obtain ⟨asked, hasked, hrun⟩ := run_listed hlisted
  refine ⟨asked, hasked, ?_⟩
  rw [hrun, decided_of_selected hselected hurl]
  rfl

end Selection

/-! ## The socket and attaching -/

section Socket

variable {settings : Settings} {inputs rest later : List Input} {target : TargetDescriptor}

/-- Attaching over the open socket, or what it has led to when it is over. -/
def attaching (settings : Settings) (target : TargetDescriptor) (a : Attaching) : Connecting :=
  ((⟨settings, .attaching target a, .opened⟩ : Connecting).takeAttaching target (a, [])).1

/-- While attaching goes on the connect is in its phase, over an open socket. -/
theorem attaching_of_not_isOver {a : Attaching} (h : a.isOver = false) :
    attaching settings target a = ⟨settings, .attaching target a, .opened⟩ := by
  simp only [attaching, takeAttaching, Session.ofAttaching?]
  unfold Attaching.isOver at h
  split at h <;> simp_all

/-- When attaching has failed the connection and the socket are closed. -/
theorem attaching_of_failed {a : Attaching} {error : Bridge.Error} (h : a.phase = .failed error) :
    attaching settings target a =
      ⟨settings, .failed error (some (a.connection.step .close).1), .closed⟩ := by
  simp only [attaching, takeAttaching, h]
  rfl

theorem attaching_of_attached {a : Attaching} {context : Int64} (h : a.phase = .attached context) :
    attaching settings target a =
      ⟨settings, .connected ⟨target, a.connection, some context⟩, .opened⟩ := by
  simp only [attaching, takeAttaching, Session.ofAttaching?, h]

/-- What attaching does is taken in. -/
theorem takeAttaching_eq (phase : ConnectPhase) (a : Attaching) (requests : List Request) :
    (⟨settings, phase, .opened⟩ : Connecting).takeAttaching target (a, requests) =
      (attaching settings target a, requests.map .wrote) := by
  simp only [attaching, takeAttaching]
  split <;> rfl

/-- What becomes of the socket is gone on with. -/
theorem run_socket {outcome : Except String (List SocketFrame)}
    (h : First Input.socket? rest outcome later) :
    (opening settings target).run rest =
      (opening settings target).run (.opened outcome :: later) := by
  obtain ⟨input, hinput, hrun⟩ := run_first (step_opening_quiet target) h
  cases input with
  | opened outcome' =>
    cases hinput
    exact hrun
  | _ => cases hinput

theorem step_passed {a : Attaching} {input : Input} (hover : a.isOver = false)
    (h : input.attaching? = none) :
    (attaching settings target a).step input = (attaching settings target a, []) := by
  rw [attaching_of_not_isOver hover]
  simp only [step, h]

/-- What concerns attaching is a step of attaching, and what that asks for is written. -/
theorem step_taken {a : Attaching} {input : Input} {i : Attaching.Input} (hover : a.isOver = false)
    (h : input.attaching? = some i) :
    (attaching settings target a).step input =
      (attaching settings target (a.step i).1, (a.step i).2.map .wrote) := by
  rw [attaching_of_not_isOver hover]
  simp only [step, h]
  exact takeAttaching_eq _ _ _

/-- Connecting follows attaching until it is over. -/
theorem run_attaching (a : Attaching) (inputs : List Input) :
    ((attaching settings target a).run inputs).1 =
      attaching settings target (a.toEnd (inputs.filterMap Input.attaching?)) := by
  induction inputs generalizing a with
  | nil => rfl
  | cons input inputs ih =>
    cases hover : a.isOver with
    -- When attaching is over so is the connect, and what comes later is ignored.
    | true =>
      rw [Attaching.toEnd_of_isOver hover]
      rcases Attaching.isOver_iff.1 hover with ⟨error, h⟩ | ⟨context, h⟩
      · rw [attaching_of_failed h, run_of_outcome rfl]
      · rw [attaching_of_attached h, run_of_outcome rfl]
    | false =>
      rw [run_cons]
      -- What is no concern of attaching is dropped on both sides.
      cases hinput : input.attaching? with
      | none =>
        rw [step_passed hover hinput, List.filterMap_cons_none hinput]
        exact ih a
      | some i =>
        rw [step_taken hover hinput, List.filterMap_cons_some hinput, Attaching.toEnd, hover]
        exact ih (a.step i).1

/-- Over an open socket a connect is what attaching has come to, with the frames that came early in
front. -/
theorem run_opened {early later : List Attaching.Input}
    (h : Opened settings inputs target early later) :
    ((listing settings .long).run inputs).1 =
      attaching settings target ((Attaching.startBehind early).1.toEnd later) := by
  cases h with
  | @mk url early rest later hchosen hopened =>
    obtain ⟨asked, -, hrun⟩ := run_chosen hchosen
    have hstep : (opening settings target).step (.opened (.ok early)) =
        (attaching settings target (Attaching.startBehind (early.filterMap frameInput?)).1,
          (Attaching.startBehind (early.filterMap frameInput?)).2.map .wrote) :=
      takeAttaching_eq (.opening target) _ _
    rw [hrun, run_socket hopened, run_cons, hstep]
    exact run_attaching _ _

end Socket

/-! ## Outcomes -/

section Outcomes

variable {settings : Settings} {inputs : List Input}

end Outcomes

/-! ## What a failure leaves -/

section Leavings

variable {c : Connecting}

/-- Behind a failure no socket is open or being opened, and the connection that had been made is
closed, with no request that waits. -/
def Tidy (c : Connecting) : Prop :=
  ∀ error left, c.phase = .failed error left →
    (c.socket = .unopened ∨ c.socket = .closed) ∧
      ∀ connection, left = some connection → connection.isOpen = false ∧ connection.pending = []

theorem tidy_of_phase (h : ∀ error left, c.phase ≠ .failed error left) : c.Tidy :=
  fun error left hphase => absurd hphase (h error left)

/-- A failure closes the connection and the socket on the way out. -/
theorem tidy_fail (c : Connecting) (error : Bridge.Error) : (c.fail error).1.Tidy := by
  intro error' left hphase
  have hleft : c.phase.connection?.map (fun connection => (connection.step .close).1) = left := by
    injection hphase
  refine ⟨?_, fun connection hconnection => ?_⟩
  · unfold fail
    dsimp only
    split <;> simp
  · rw [hconnection] at hleft
    obtain ⟨made, -, rfl⟩ := Option.map_eq_some_iff.1 hleft
    exact ⟨Bool.and_false _, rfl⟩

/-- A selection that fails does so before there is a socket. -/
theorem tidy_choose (c : Connecting) (targets : List TargetDescriptor) :
    (c.choose targets).1.Tidy := by
  unfold choose
  split
  · exact tidy_fail c _
  · split
    · exact tidy_fail c _
    · exact tidy_of_phase (by simp)

/-- An answer of the endpoint that fails does so before there is a socket. -/
theorem tidy_takeDirectory (c : Connecting) (form : Target.Form) (answer : Target.Answer) :
    (c.takeDirectory form answer).1.Tidy := by
  unfold takeDirectory
  dsimp only
  split
  · exact tidy_of_phase (by simp)
  · split
    · exact tidy_fail c _
    · exact tidy_choose c _

/-- Attaching that fails closes the socket over which it was. -/
theorem tidy_takeAttaching (c : Connecting) (target : TargetDescriptor)
    (result : Attaching × List Request) : (c.takeAttaching target result).1.Tidy := by
  unfold takeAttaching
  dsimp only
  split
  · exact tidy_fail _ _
  · exact tidy_of_phase (by simp)
  · exact tidy_of_phase (by simp)

/-- Each phase fails by `fail`, which leaves nothing open. -/
theorem Tidy.step (h : c.Tidy) (input : Input) : (c.step input).1.Tidy := by
  unfold Connecting.step
  split
  · exact tidy_takeDirectory c _ _
  · exact tidy_fail c _
  · exact tidy_takeAttaching _ _ _
  · split
    · exact tidy_takeAttaching c _ _
    · exact h
  · exact h

/-- No run leaves anything open behind a failure. -/
theorem Tidy.run (h : c.Tidy) (inputs : List Input) : (c.run inputs).1.Tidy := by
  induction inputs generalizing c with
  | nil => exact h
  | cons input inputs ih => exact ih (h.step input)

/-- To run out of time is a failure as every other. -/
theorem Tidy.expire (h : c.Tidy) : c.expire.Tidy := by
  unfold Connecting.expire
  split
  · exact h
  · exact tidy_fail c _

end Leavings

/-! ## Sockets -/

section Sockets

variable {c : Connecting} {settings : Settings} {inputs : List Input}

end Sockets

/-! ## The headline -/

section Headline

variable {settings : Settings} {schedule : List (Nat × Input)}

end Headline

end Connecting

end CanvasLink
