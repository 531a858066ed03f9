import CanvasLink.Proofs.Broker.Ways
import Mathlib.Data.List.Forall2

/-!
# CanvasLink — a batch is its units in turn

A batch is refused as a whole or goes the ways of its units, one after the other, up to the first
that fails.

* `Turn` — what rendering one unit comes to, as its user would see it.
* `InTurn` — units that are rendered one after the other.
* `compileFrom_eq_ok`, `compileFrom_eq_error` — when a batch is refused.
* `goes_evalAll_iff`, `goes_renderBatch_iff` — the ways of a batch.
* **`renderBatch_in_turn`** — the headline.
-/

namespace CanvasLink.Broker

open CanvasLink.Bridge CanvasLink.Json CanvasLink.Markup

theorem render_eq {limits : Limits} {unit script : String} (h : compile unit = .ok script) :
    render limits unit = eval limits script := by
  rw [render, h]

/-! ## Units in turn -/

/-- Rendering a unit goes through these events to this outcome. It evaluates nothing but the script
of that unit. -/
structure Turn (limits : Limits) (unit : String) (log : List Call.Event) (outcome : Outcome) :
    Prop where
  goes : (render limits unit).Goes log outcome
  own : ∀ script, compile unit = .ok script →
    ∀ operation ∈ Call.operations log, operation = .evaluate script

/-- Units are rendered one after the other, and each gives a value. -/
inductive Rendered (limits : Limits) : List String → List Call.Event → List Value → Prop
  | nil : Rendered limits [] [] []
  | cons {unit : String} {units : List String} {first log : List Call.Event} {value : Value}
    {values : List Value} (h : Turn limits unit first (.ok value))
    (hrest : Rendered limits units log values) :
    Rendered limits (unit :: units) (first ++ log) (value :: values)

/-- Units are rendered one after the other up to the first that fails. Its error ends them all; the
values of the units before it are told, and its message. -/
inductive InTurn (limits : Limits) :
    List String → List Call.Event → Except ExecFailure (List Value) → Prop
  | all {units : List String} {log : List Call.Event} {values : List Value}
    (h : Rendered limits units log values) : InTurn limits units log (.ok values)
  | stopped {before after : List String} {unit : String} {log last : List Call.Event}
    {values : List Value} {e : Bridge.Error} (h : Rendered limits before log values)
    (hfail : Turn limits unit last (.error e)) :
    InTurn limits (before ++ unit :: after) (log ++ last)
      (.error ⟨e, some (values ++ [.object [("error", .string e.message)]])⟩)

variable {limits : Limits}

/-- There is one value for each unit. -/
theorem Rendered.length {units : List String} {log : List Call.Event} {values : List Value}
    (h : Rendered limits units log values) : values.length = units.length := by
  induction h with
  | nil => rfl
  | cons _ _ ih => rw [List.length_cons, ih, List.length_cons]

/-- What units give that are rendered after others have given `done`. -/
def carry (done : List Value) :
    Except ExecFailure (List Value) → Except ExecFailure (List Value)
  | .ok values => .ok (done ++ values)
  | .error failure => .error ⟨failure.error, failure.partialResults.map (done ++ ·)⟩

/-- A unit in front of others: its value comes in front of theirs, whether these end well or not. -/
theorem InTurn.cons {unit : String} {units : List String} {first log : List Call.Event}
    {value : Value} {result : Except ExecFailure (List Value)}
    (h : Turn limits unit first (.ok value)) (hrest : InTurn limits units log result) :
    InTurn limits (unit :: units) (first ++ log) (carry [value] result) := by
  cases hrest with
  | all hall => exact .all (.cons h hall)
  | stopped hbefore hfail =>
    rw [← List.append_assoc]
    exact .stopped (.cons h hbefore) hfail

/-- Without units there is nothing to do. -/
theorem InTurn.nil_iff {log : List Call.Event} {result : Except ExecFailure (List Value)} :
    InTurn limits [] log result ↔ log = [] ∧ result = .ok [] := by
  constructor
  · intro h
    -- Without units nothing can stop the batch.
    generalize hunits : [] = all at h
    cases h with
    | all hall =>
      subst hunits
      cases hall
      exact ⟨rfl, rfl⟩
    | stopped hbefore hfail => simp at hunits
  · rintro ⟨rfl, rfl⟩
    exact .all .nil

/-- Either the first unit fails, or it gives a value and the others follow. -/
theorem InTurn.cons_iff {unit : String} {units : List String} {log : List Call.Event}
    {result : Except ExecFailure (List Value)} :
    InTurn limits (unit :: units) log result ↔
      (∃ e, Turn limits unit log (.error e) ∧ result = .error ⟨e, some [failedUnit e]⟩) ∨
      ∃ first value rest result', Turn limits unit first (.ok value) ∧
        InTurn limits units rest result' ∧ log = first ++ rest ∧
        result = carry [value] result' := by
  constructor
  · intro h
    generalize hunits : unit :: units = all at h
    cases h with
    | all hall =>
      subst hunits
      obtain _ | ⟨hfirst, hrest⟩ := hall
      exact .inr ⟨_, _, _, _, hfirst, .all hrest, rfl, rfl⟩
    | @stopped before after failing log last values e hbefore hfail =>
      -- The first unit is the one that fails, or it is among those before.
      cases hbefore with
      | nil =>
        cases hunits
        exact .inl ⟨_, hfail, rfl⟩
      | cons hfirst hrest =>
        cases hunits
        exact .inr ⟨_, _, _, _, hfirst, .stopped hrest hfail, List.append_assoc _ _ _, rfl⟩
  · rintro (⟨e, hfail, rfl⟩ | ⟨first, value, rest, result', hfirst, hrest, rfl, rfl⟩)
    · show InTurn limits ([] ++ unit :: units) ([] ++ log) _
      exact .stopped .nil hfail
    · exact hrest.cons hfirst

/-- Rendering runs its own script and nothing else, so every way of it is a turn. -/
theorem turn_of_goes {unit : String} {log : List Call.Event} {outcome : Outcome}
    (h : (render limits unit).Goes log outcome) : Turn limits unit log outcome := by
  refine ⟨h, fun script hscript => ?_⟩
  rw [render_eq hscript] at h
  exact (onlyRuns_execute limits (.evaluate script)).of_goes h

/-! ## Compilation -/

/-- When every unit compiles, so does the batch. -/
theorem compileFrom_eq_ok {index : Nat} {units scripts : List String}
    (h : List.Forall₂ (fun unit script => compile unit = .ok script) units scripts) :
    compileFrom index units = .ok scripts := by
  induction h generalizing index with
  | nil => rfl
  | cons hunit _ ih =>
    rw [compileFrom, hunit]
    dsimp only
    rw [ih]
    rfl

/-- The scripts of the units, if they all compile. -/
theorem exists_scripts {units : List String}
    (h : ∀ unit ∈ units, ∃ script, compile unit = .ok script) :
    ∃ scripts, List.Forall₂ (fun unit script => compile unit = .ok script) units scripts := by
  induction units with
  | nil => exact ⟨[], .nil⟩
  | cons unit units ih =>
    obtain ⟨⟨script, hscript⟩, hrest⟩ := List.forall_mem_cons.1 h
    obtain ⟨scripts, hscripts⟩ := ih hrest
    exact ⟨script :: scripts, .cons hscript hscripts⟩

/-- The first unit that is refused is told, with its index. -/
theorem compileFrom_eq_error {index : Nat} {before after : List String} {unit : String}
    {refusal : Refusal Nat} (hbefore : ∀ u ∈ before, ∃ script, compile u = .ok script)
    (hunit : compile unit = .error refusal) :
    compileFrom index (before ++ unit :: after) =
      .error (.batchUnit (index + before.length) refusal) := by
  induction before generalizing index with
  | nil =>
    rw [List.nil_append, compileFrom, hunit]
    rfl
  | cons u before ih =>
    obtain ⟨⟨script, hscript⟩, hrest⟩ := List.forall_mem_cons.1 hbefore
    rw [List.cons_append, compileFrom, hscript]
    dsimp only
    rw [ih hrest, List.length_cons]
    show Except.error _ = Except.error _
    -- The number of the unit is counted from where the batch starts.
    rw [Nat.add_assoc, Nat.add_comm 1]

/-- Of all units that do not compile one is the first. -/
theorem exists_first_error {units : List String} {bad : String} (hbad : bad ∈ units)
    {refusal : Refusal Nat} (hrefusal : compile bad = .error refusal) :
    ∃ before unit after first, units = before ++ unit :: after ∧
      (∀ u ∈ before, ∃ script, compile u = .ok script) ∧ compile unit = .error first := by
  induction units with
  | nil => cases hbad
  | cons u units ih =>
    cases hu : compile u with
    | error first => exact ⟨[], u, units, first, rfl, fun _ h => absurd h List.not_mem_nil, hu⟩
    -- The first unit compiles, so the bad one is further on.
    | ok script =>
      have hmem : bad ∈ units := by
        rcases List.mem_cons.1 hbad with rfl | hmem
        · rw [hrefusal] at hu
          cases hu
        · exact hmem
      obtain ⟨before, unit, after, first, rfl, hbefore, hunit⟩ := ih hmem
      exact ⟨u :: before, unit, after, first, rfl,
        List.forall_mem_cons.2 ⟨⟨script, hu⟩, hbefore⟩, hunit⟩

/-! ## Evaluation -/

/-- With nothing in front, the results stay as they are. -/
theorem carry_nil (result : Except ExecFailure (List Value)) : carry [] result = result := by
  cases result with
  | ok values => rfl
  | error failure =>
    obtain ⟨e, values?⟩ := failure
    cases values? <;> rfl

/-- Values may be put in front one after the other or at once. -/
theorem carry_carry (done more : List Value) (result : Except ExecFailure (List Value)) :
    carry done (carry more result) = carry (done ++ more) result := by
  cases result with
  | ok values => exact congrArg Except.ok (List.append_assoc _ _ _).symm
  | error failure =>
    obtain ⟨e, values?⟩ := failure
    cases values? with
    | none => rfl
    | some values =>
      show Except.error (ExecFailure.mk e (some (done ++ (more ++ values)))) = _
      rw [← List.append_assoc]
      rfl

/-- **The ways of a batch.** -/
theorem goes_evalAll_iff {units scripts : List String}
    (h : List.Forall₂ (fun unit script => compile unit = .ok script) units scripts)
    (done : List Value) {log : List Call.Event} {result : Except ExecFailure (List Value)} :
    (evalAll limits done scripts).Goes log result ↔
      ∃ result', InTurn limits units log result' ∧ result = carry done result' := by
  -- Induction on the units; `done` are the values of those before them.
  induction h generalizing done log result with
  | nil =>
    show (Call.done (Except.ok done)).Goes log result ↔ _
    rw [Call.goes_done_iff]
    constructor
    · rintro ⟨rfl, rfl⟩
      exact ⟨.ok [], .all .nil, congrArg Except.ok (List.append_nil done).symm⟩
    · rintro ⟨result', hresult', rfl⟩
      obtain ⟨rfl, rfl⟩ := InTurn.nil_iff.1 hresult'
      exact ⟨rfl, congrArg Except.ok (List.append_nil done)⟩
  | @cons unit script units scripts hunit _ ih =>
    rw [evalAll, Call.goes_bind_iff, ← render_eq hunit]
    constructor
    · rintro ⟨first, outcome, rest, hfirst, hrest, rfl⟩
      have hturn := turn_of_goes hfirst
      cases outcome with
      | ok value =>
        obtain ⟨result', hresult', rfl⟩ := (ih _).1 hrest
        exact ⟨_, hresult'.cons hturn, (carry_carry done [value] result').symm⟩
      | error e =>
        obtain ⟨rfl, rfl⟩ := Call.goes_done_iff.1 hrest
        rw [List.append_nil]
        exact ⟨_, InTurn.cons_iff.2 (.inl ⟨e, hturn, rfl⟩), rfl⟩
    · rintro ⟨result', hresult', rfl⟩
      rcases InTurn.cons_iff.1 hresult' with ⟨e, hfail, rfl⟩ |
        ⟨first, value, rest, result'', hfirst, hrest, rfl, rfl⟩
      · exact ⟨log, .error e, [], hfail.goes, .done _, (List.append_nil log).symm⟩
      · rw [carry_carry]
        exact ⟨first, .ok value, rest, hfirst.goes, (ih _).2 ⟨result'', hrest, rfl⟩, rfl⟩

/-- The call has ended before it has done anything. -/
theorem renderBatch_of_error {before after : List String} {unit : String} {refusal : Refusal Nat}
    (hbefore : ∀ u ∈ before, ∃ script, compile u = .ok script)
    (hunit : compile unit = .error refusal) :
    renderBatch limits (before ++ unit :: after) =
      .done (.error ⟨.markup (.batchUnit before.length refusal), none⟩) := by
  rw [renderBatch, compileBatch, compileFrom_eq_error hbefore hunit, Nat.zero_add]
  rfl

/-- **The ways of a batch that compiles** are those of its units in turn. -/
theorem goes_renderBatch_iff {units : List String}
    (h : ∀ unit ∈ units, ∃ script, compile unit = .ok script) {log : List Call.Event}
    {result : Except ExecFailure (List Value)} :
    (renderBatch limits units).Goes log result ↔ InTurn limits units log result := by
  obtain ⟨scripts, hscripts⟩ := exists_scripts h
  rw [renderBatch, compileBatch, compileFrom_eq_ok hscripts]
  refine (goes_evalAll_iff hscripts []).trans ?_
  simp only [carry_nil, exists_eq_right']

/-- What a failure tells: a value for each unit before the one that has failed, and its message. -/
theorem InTurn.exists_failed {units : List String} {log : List Call.Event} {failure : ExecFailure}
    (h : InTurn limits units log (.error failure)) :
    ∃ k unit values, units[k]? = some unit ∧ values.length = k ∧ failure.partialResults =
      some (values ++ [.object [("error", .string failure.error.message)]]) := by
  cases h with
  | @stopped before after unit log last values e hbefore hfail =>
    refine ⟨before.length, unit, values, ?_, hbefore.length, rfl⟩
    rw [List.getElem?_append_right (Nat.le_refl _), Nat.sub_self]
    rfl

/-! ## On the broker -/

/-- **A batch is its units in turn.** On a broker in any state, with any other calls on it: when a
unit is refused, the batch has ended at once with the refusal of the first such unit, and all else
is as it was. When none is, the ways of the batch are those of its units in turn; in every run in
which it is not abandoned it goes along one of them, and when it has ended it has gone to its end. A
failure tells the values of the units before the one that has failed, and one more.

That every attempt has its entry in the table holds in all runs (`System.length_run`). -/
theorem renderBatch_in_turn {ρ : Type} (limits : Limits) (units : List String)
    (finish : Except ExecFailure (List Value) → ρ) (s : System ρ) (id : CallId)
    (hid : s.call? id = none) (hattempts : s.attempts.length = s.pool.attempts) :
    let call : Call ρ := do return finish (← renderBatch limits units)
    let start := s.step (.begin id call)
    (∀ bad ∈ units, ∀ refusal, compile bad = .error refusal →
      ∃ before unit after first, units = before ++ unit :: after ∧
        (∀ u ∈ before, ∃ script, compile u = .ok script) ∧ compile unit = .error first ∧
        start.result? id = some (finish (.error ⟨.markup (.batchUnit before.length first), none⟩)) ∧
        start = { s with calls := start.calls }) ∧
    ((∀ unit ∈ units, ∃ script, compile unit = .ok script) →
      (∀ log result,
        (renderBatch limits units).Goes log result ↔ InTurn limits units log result) ∧
      ∀ inputs, (∀ input ∈ inputs, input.abandons id = false) → ∃ later result,
        InTurn limits units (call.acts s.pool ++ start.path id inputs ++ later) result ∧
        ∀ ended, (start.run inputs).result? id = some ended → later = [] ∧ ended = finish result) ∧
    ∀ log failure, InTurn limits units log (.error failure) →
      ∃ k unit values, units[k]? = some unit ∧ values.length = k ∧ failure.partialResults =
        some (values ++ [.object [("error", .string failure.error.message)]]) := by
  intro call start
  refine ⟨?_, fun hcompile => ⟨fun log result => goes_renderBatch_iff hcompile, ?_⟩,
    fun log failure h => h.exists_failed⟩
  · intro bad hbad refusal hrefusal
    obtain ⟨before, unit, after, first, rfl, hbefore, hunit⟩ := exists_first_error hbad hrefusal
    have hcall :
        call = .done (finish (.error ⟨.markup (.batchUnit before.length first), none⟩)) := by
      show (renderBatch limits _ >>= _) = _
      rw [renderBatch_of_error hbefore hunit]
      rfl
    have hstart : start = s.advance id call := by
      simp only [start, System.step, hid]
    refine ⟨before, unit, after, first, rfl, hbefore, hunit, ?_, ?_⟩
    · rw [hstart, System.result?, System.call?_advance, if_pos rfl, hcall]
      rfl
    · rw [hstart, hcall]
      simp [System.advance, Call.settle, hattempts]
  · intro inputs hstay
    obtain ⟨later, ended, hgoes, hend⟩ := System.goes_run hid call hstay
    -- After the batch nothing is left to do but to finish.
    obtain ⟨result, hbatch, rfl⟩ := Call.goes_map_iff.1 hgoes
    exact ⟨later, result, (goes_renderBatch_iff hcompile).1 hbatch, hend⟩

/-- A call has just begun an attempt. -/
def reconnecting : System (Except ExecFailure (List Value)) :=
  System.empty.run [.begin 1 do let _ ← reconnect {}; return .ok []]

/-- The attempt makes a session, and the script is run in it while the other call still waits to be
told. -/
def together : List (System.Input (Except ExecFailure (List Value))) :=
  [.connected 0 (.ok ()), .share 0, .answer 0 (.ran (some (.ok .null)))]

/-- An empty frame compiles. -/
theorem compile_frame : ∃ script, compile "<Frame/>" = .ok script := by
  have hparse : (Frame.parse "<Frame/>").isOk = true := by decide +kernel
  rw [compile]
  cases h : Frame.parse "<Frame/>" with
  | error e =>
    rw [h] at hparse
    cases hparse
  | ok f => exact ⟨f.emit, rfl⟩

theorem compile_empty : compile "" = .error (.missingRoot none) := by
  decide +kernel

/-- The call that renders a batch. -/
def rendering (units : List String) : Call (Except ExecFailure (List Value)) := do
  return id (← renderBatch {} units)

/-- A reconnect is under way while a batch of two units is refused and another one of a single unit
is rendered. -/
theorem renderBatch_in_turn_together :
    (reconnecting.call? 0 = none ∧ reconnecting.attempts.length = reconnecting.pool.attempts ∧
      ∀ input ∈ together, input.abandons 0 = false) ∧
    (reconnecting.step (.begin 0 (rendering ["<Frame/>", ""]))).result? 0 =
      some (.error ⟨.markup (.batchUnit 1 (.missingRoot none)), none⟩) ∧
    ((reconnecting.step (.begin 0 (rendering ["<Frame/>"]))).run together).result? 0 =
      some (.ok [.null]) ∧
    InTurn {} ["<Frame/>"] ((rendering ["<Frame/>"]).acts reconnecting.pool ++
      (reconnecting.step (.begin 0 (rendering ["<Frame/>"]))).path 0 together) (.ok [.null]) := by
  have hid : reconnecting.call? 0 = none := rfl
  have hattempts : reconnecting.attempts.length = reconnecting.pool.attempts :=
    System.length_run rfl _
  have hstay : ∀ input ∈ together, input.abandons 0 = false := by
    simp [together, System.Input.abandons]
  obtain ⟨script, hscript⟩ := compile_frame
  have hended : ((reconnecting.step (.begin 0 (rendering ["<Frame/>"]))).run together).result? 0 =
      some (.ok [.null]) := by
    rw [rendering, renderBatch, compileBatch, compileFrom_eq_ok (.cons hscript .nil)]
    rfl
  refine ⟨⟨hid, hattempts, hstay⟩, ?_, hended, ?_⟩
  · obtain ⟨before, unit, after, first, hunits, hbefore, hunit, hresult, -⟩ :=
      (renderBatch_in_turn {} ["<Frame/>", ""] id reconnecting 0 hid hattempts).1 "" (by simp) _
        compile_empty
    -- The unit refused is the second one: the first compiles, and there is no third.
    obtain _ | ⟨u, _ | ⟨u', before⟩⟩ := before
    · cases hunits
      rw [hscript] at hunit
      cases hunit
    · cases hunits
      obtain rfl := Except.error.inj (compile_empty.symm.trans hunit)
      exact hresult
    · simp at hunits
  · obtain ⟨-, hruns⟩ := (renderBatch_in_turn {} ["<Frame/>"] id reconnecting 0 hid hattempts).2.1
      (by simp [hscript])
    obtain ⟨later, result, hturn, hlast⟩ := hruns together hstay
    obtain ⟨rfl, rfl⟩ := hlast _ hended
    rwa [List.append_nil] at hturn

end CanvasLink.Broker
