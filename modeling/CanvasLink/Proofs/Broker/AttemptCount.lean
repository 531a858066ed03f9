import CanvasLink.Daemon.Config
import CanvasLink.Proofs.Broker.Forcing
import CanvasLink.Proofs.Broker.Ways
import CanvasLink.Proofs.Cli.Layers

/-!
# CanvasLink — how many attempts a policy allows

The number of attempts is kept in a 32-bit word, one above the number of retries that the config
file sets. Of all words a file may hold, one is too large for that: with it there is no number of
attempts, and a call panics behind its first attempt if this could be made again.

* `counting` — the loop over attempts with its counter in a word; `execute_eq_counting` says that
  the counter always has a next word where there is a number of attempts.
* `Tried`, `EndedAfter` — attempts with what lies between them, and how a call ends behind them.
* `goes_attempt_iff` — an attempt with what may follow it.
* `goes_retrying_iff` — the ways of the loop.
* `goes_tryOrPanic_iff`, `goes_run_tryOrPanic` — a call without a number of attempts.
* **`attempts_made`** — the headline.
-/

namespace CanvasLink.Broker

open CanvasLink.Bridge CanvasLink.Daemon CanvasLink.Json

variable {limits : Limits} {operation : Operation}

/-! ## The counter -/

-- The equation of the counts is for `decreasing_by`, where the linter does not look.
set_option linter.unusedVariables false in
/-- Runs an operation behind so many attempts that have failed. Behind a failure that may be retried
the next count is compared with the number of attempts, and the call panics when one of the two is no
word. -/
def counting (limits : Limits) (operation : Operation) (failed : UInt32) : Call Outcome := do
  match ← tryOnce limits operation with
  | .ok value => return .ok value
  | .error e =>
    if e.isRetryable then
      match hcount : next? failed, limits.retry.attempts with
      | some count, some attempts =>
        if attempts ≤ count then return .error e
        else
          forceClose
          Call.pause limits.retry.retryDelay
          counting limits operation count
      | _, _ =>
        Call.panic
        return .error e
    else return .error e
termination_by 2 ^ 32 - failed.toNat
decreasing_by
  have hsucc := next?_eq_some_iff.1 hcount
  have hlt := failed.toNat_lt
  omega

/-- Only what follows a failure that may be retried sets two loops apart. -/
theorem attempt_congr {next next' : Bridge.Error → Call Outcome} (h : ∀ e, next e = next' e) :
    (do
        match ← tryOnce limits operation with
        | .ok value => return .ok value
        | .error e => if e.isRetryable then next e else return .error e : Call Outcome) =
      do
        match ← tryOnce limits operation with
        | .ok value => return .ok value
        | .error e => if e.isRetryable then next' e else return .error e := by
  rw [funext h]

/-- One round of the loop, where the next count and the number of attempts are words. -/
theorem counting_of_next? {failed count attempts : UInt32} (hcount : next? failed = some count)
    (hattempts : limits.retry.attempts = some attempts) :
    counting limits operation failed = (do
      match ← tryOnce limits operation with
      | .ok value => return .ok value
      | .error e =>
        if e.isRetryable then
          if attempts ≤ count then return .error e
          else
            forceClose
            Call.pause limits.retry.retryDelay
            counting limits operation count
        else return .error e) := by
  rw [counting]
  refine attempt_congr fun e => ?_
  -- Both checked additions succeed, so the match takes its first branch.
  split
  · next count' attempts' hcount' hattempts' =>
    obtain rfl : count' = count := Option.some.inj (hcount'.symm.trans hcount)
    obtain rfl : attempts' = attempts := Option.some.inj (hattempts'.symm.trans hattempts)
    rfl
  · next hnone => exact absurd hattempts (hnone count attempts hcount)

/-- Without a number of attempts the loop does not come to a second one, wherever its counter is. -/
theorem counting_eq_tryOrPanic (hnone : limits.retry.attempts = none) (failed : UInt32) :
    counting limits operation failed = tryOrPanic limits operation := by
  rw [counting, tryOrPanic]
  refine attempt_congr fun e => ?_
  split
  · next hattempts => exact absurd (hnone.symm.trans hattempts) nofun
  · rfl

/-- The loop that counts up in a word is the one that counts down in the numbers, and it comes to no
panic. Induction on how many more attempts there may be. -/
theorem counting_eq_retrying {attempts : UInt32} (hattempts : limits.retry.attempts = some attempts)
    {failed : UInt32} {more : Nat} (hmore : attempts.toNat = failed.toNat + 1 + more) :
    counting limits operation failed = retrying limits operation more := by
  induction more generalizing failed with
  | zero =>
    -- The next count is the number of attempts.
    have hcount : next? failed = some attempts := next?_eq_some_iff.2 hmore
    rw [counting_of_next? hcount hattempts, retrying]
    -- However the only attempt ends, its outcome is the result.
    refine Eq.trans (congrArg (tryOnce limits operation).bind ?_) (Call.bind_done _)
    funext outcome
    cases outcome with
    | ok value => rfl
    | error e =>
      simp only [UInt32.le_refl, if_true, ite_self]
      rfl
  | succ more ih =>
    have hbelow : failed < attempts := by
      rw [UInt32.lt_iff_toNat_lt]
      omega
    obtain ⟨count, hcount⟩ := exists_next? hbelow
    have hsucc : count.toNat = failed.toNat + 1 := next?_eq_some_iff.1 hcount
    have hmany : ¬ attempts ≤ count := by
      rw [UInt32.le_iff_toNat_le]
      omega
    have hloop : counting limits operation count = retrying limits operation more := ih (by omega)
    rw [counting_of_next? hcount hattempts, retrying]
    refine attempt_congr fun e => ?_
    rw [if_neg hmany, hloop]

/-- **The counter sets no bound of its own**: counting in a word makes no difference to the loop. -/
theorem execute_eq_counting (limits : Limits) (operation : Operation) :
    execute limits operation = counting limits operation 0 := by
  unfold execute
  split
  · next attempts hattempts =>
    have hcount := next?_eq_some_iff.1 hattempts
    refine (counting_eq_retrying hattempts ?_).symm
    rw [UInt32.toNat_zero]
    omega
  · next hnone => exact (counting_eq_tryOrPanic hnone 0).symm

/-! ## The ways of a call -/

/-- Attempts one after the other, with their outcomes. Behind each but the last, which has failed and
could do better the next time, the current session is given up, and there is a pause. -/
inductive Tried (limits : Limits) (operation : Operation) : List Call.Event → List Outcome → Prop
  | last {log : List Call.Event} {outcome : Outcome}
    (h : (tryOnce limits operation).Goes log outcome) : Tried limits operation log [outcome]
  | again {first closing log : List Call.Event} {e : Bridge.Error} {outcomes : List Outcome}
    (h : (tryOnce limits operation).Goes first (.error e)) (hretry : e.isRetryable = true)
    (hclosing : forceClose.Goes closing ()) (hrest : Tried limits operation log outcomes) :
    Tried limits operation
      (first ++ (closing ++ (.told (.pause limits.retry.retryDelay) () :: log)))
      (.error e :: outcomes)

/-- A call ends behind attempts with these outcomes, of so many that it may make. -/
structure EndedAfter (allowed : Nat) (outcomes : List Outcome) (result : Outcome) : Prop where
  /-- The result is the outcome of the last attempt. -/
  last : outcomes.getLast? = some result
  count : outcomes.length ≤ allowed
  /-- A failure that may be retried is the result only when no attempts are left. -/
  gaveUp : ∀ e, result = .error e → e.isRetryable = true → outcomes.length = allowed

theorem Tried.ne_nil {log : List Call.Event} {outcomes : List Outcome}
    (h : Tried limits operation log outcomes) : outcomes ≠ [] := by
  cases h <;> exact List.cons_ne_nil _ _

/-- A single attempt may be the last for two reasons: no better outcome can come, or no other
attempt is left. -/
theorem EndedAfter.single {allowed : Nat} {outcome : Outcome} (hpos : 1 ≤ allowed)
    (h : ∀ e, outcome = .error e → e.isRetryable = true → 1 = allowed) :
    EndedAfter allowed [outcome] outcome :=
  ⟨rfl, hpos, h⟩

/-- An attempt in front of others uses up one of those that are allowed. -/
theorem endedAfter_cons_iff {allowed : Nat} {outcome result : Outcome} {outcomes : List Outcome}
    (h : outcomes ≠ []) :
    EndedAfter (allowed + 1) (outcome :: outcomes) result ↔ EndedAfter allowed outcomes result := by
  have hlast : (outcome :: outcomes).getLast? = outcomes.getLast? := List.getLast?_cons_of_ne_nil h
  constructor
  · rintro ⟨hresult, hcount, hgaveUp⟩
    exact ⟨hlast ▸ hresult, Nat.le_of_succ_le_succ hcount,
      fun e he hretry => Nat.succ.inj (hgaveUp e he hretry)⟩
  · rintro ⟨hresult, hcount, hgaveUp⟩
    exact ⟨hlast.trans hresult, Nat.succ_le_succ hcount,
      fun e he hretry => congrArg Nat.succ (hgaveUp e he hretry)⟩

/-- What lies between two attempts, and the call that goes on behind it. -/
theorem goes_forceClose_pause_iff {call : Call Outcome} {delay : Duration} {log : List Call.Event}
    {result : Outcome} :
    (do
        forceClose
        Call.pause delay
        call).Goes log result ↔
      ∃ closing rest, forceClose.Goes closing () ∧ call.Goes rest result ∧
        log = closing ++ (.told (.pause delay) () :: rest) := by
  constructor
  · intro h
    obtain ⟨closing, _, second, hclosing, hsecond, rfl⟩ := Call.goes_bind_iff.1 h
    obtain _ | _ | ⟨_, _, hrest⟩ := hsecond
    exact ⟨closing, _, hclosing, hrest, rfl⟩
  · rintro ⟨closing, rest, hclosing, hrest, rfl⟩
    exact Call.goes_bind_iff.2
      ⟨closing, (), _, hclosing, .await (.pause delay) () hrest, rfl⟩

/-- An outcome behind which another attempt could succeed. -/
def Retryable (outcome : Outcome) : Prop :=
  ∃ e, outcome = .error e ∧ e.isRetryable = true

/-- An attempt with a call to go on with: it is the whole of it, or it has failed, may be retried and
the other call follows. -/
theorem goes_attempt_iff {next : Bridge.Error → Call Outcome} {log : List Call.Event}
    {result : Outcome} :
    (do
        match ← tryOnce limits operation with
        | .ok value => return .ok value
        | .error e => if e.isRetryable then next e else return .error e : Call Outcome).Goes log result ↔
      ((tryOnce limits operation).Goes log result ∧ ¬ Retryable result) ∨
      ∃ first e rest, (tryOnce limits operation).Goes first (.error e) ∧ e.isRetryable = true ∧
        (next e).Goes rest result ∧ log = first ++ rest := by
  rw [Call.goes_bind_iff]
  constructor
  · rintro ⟨first, outcome, rest, hfirst, hrest, rfl⟩
    cases outcome with
    | ok value =>
      obtain ⟨rfl, rfl⟩ := Call.goes_done_iff.1 hrest
      rw [List.append_nil]
      exact .inl ⟨hfirst, nofun⟩
    | error e =>
      dsimp only at hrest
      split at hrest
      · next hretry => exact .inr ⟨first, e, rest, hfirst, hretry, hrest, rfl⟩
      · next hfinal =>
        obtain ⟨rfl, rfl⟩ := Call.goes_done_iff.1 hrest
        rw [List.append_nil]
        refine .inl ⟨hfirst, ?_⟩
        rintro ⟨_, ⟨⟩, hretry⟩
        exact hfinal hretry
  · rintro (⟨h, hfinal⟩ | ⟨first, e, rest, h, hretry, hrest, rfl⟩)
    · -- An attempt that ends the call is the whole of it: nothing follows.
      refine ⟨log, result, [], h, ?_, (List.append_nil log).symm⟩
      cases result with
      | ok value => exact .done _
      | error e =>
        have hends : ¬ e.isRetryable = true := fun hretry => hfinal ⟨e, rfl, hretry⟩
        simp only [hends]
        exact .done _
    · refine ⟨first, .error e, rest, h, ?_, rfl⟩
      simp only [hretry, if_true]
      exact hrest

/-- One round of the loop, when there may be others behind it: its outcome is the result unless it is
a failure that may be retried. -/
theorem goes_retrying_succ_iff {more : Nat} {log : List Call.Event} {result : Outcome} :
    (retrying limits operation (more + 1)).Goes log result ↔
      ((tryOnce limits operation).Goes log result ∧ ¬ Retryable result) ∨
      ∃ first e closing rest, (tryOnce limits operation).Goes first (.error e) ∧
        e.isRetryable = true ∧ forceClose.Goes closing () ∧
        (retrying limits operation more).Goes rest result ∧
        log = first ++ (closing ++ (.told (.pause limits.retry.retryDelay) () :: rest)) := by
  refine goes_attempt_iff.trans (or_congr_right ⟨?_, ?_⟩)
  · rintro ⟨first, e, rest, h, hretry, hrest, rfl⟩
    obtain ⟨closing, rest, hclosing, hmore, rfl⟩ := goes_forceClose_pause_iff.1 hrest
    exact ⟨first, e, closing, rest, h, hretry, hclosing, hmore, rfl⟩
  · rintro ⟨first, e, closing, rest, h, hretry, hclosing, hmore, rfl⟩
    exact ⟨first, e, _, h, hretry,
      goes_forceClose_pause_iff.2 ⟨closing, rest, hclosing, hmore, rfl⟩, rfl⟩

/-- **The ways of the loop.** Induction on how many more attempts there may be. -/
theorem goes_retrying_iff {more : Nat} {log : List Call.Event} {result : Outcome} :
    (retrying limits operation more).Goes log result ↔
      ∃ outcomes, Tried limits operation log outcomes ∧ EndedAfter (more + 1) outcomes result := by
  induction more generalizing log with
  | zero =>
    constructor
    · exact fun h => ⟨[result], .last h, .single (Nat.le_refl 1) fun _ _ _ => rfl⟩
    · rintro ⟨outcomes, htried, hended⟩
      cases htried with
      | last h =>
        obtain rfl := Option.some.inj hended.last
        exact h
      | again h hretry hclosing hrest =>
        have hcount := hended.count
        exact absurd (List.length_eq_zero_iff.1 (Nat.le_zero.1 (Nat.le_of_succ_le_succ hcount)))
          hrest.ne_nil
  | succ more ih =>
    rw [goes_retrying_succ_iff]
    constructor
    · rintro (⟨h, hfinal⟩ | ⟨first, e, closing, rest, h, hretry, hclosing, hrest, rfl⟩)
      · exact ⟨[result], .last h,
          .single (by omega) fun e he hretry => absurd ⟨e, he, hretry⟩ hfinal⟩
      · obtain ⟨outcomes, htried, hended⟩ := ih.1 hrest
        exact ⟨_, .again h hretry hclosing htried, (endedAfter_cons_iff htried.ne_nil).2 hended⟩
    · rintro ⟨outcomes, htried, hended⟩
      cases htried with
      | last h =>
        obtain rfl := Option.some.inj hended.last
        refine .inl ⟨h, ?_⟩
        rintro ⟨e, he, hretry⟩
        -- It is the first of several attempts, so that it would have been followed by another.
        have hcount := hended.gaveUp e he hretry
        simp at hcount
      | again h hretry hclosing hrest =>
        have hmore := ih.2 ⟨_, hrest, (endedAfter_cons_iff hrest.ne_nil).1 hended⟩
        exact .inr ⟨_, _, _, _, h, hretry, hclosing, hmore, rfl⟩

/-- **The ways of a call without a number of attempts**: those of one attempt, which may end in a
panic. -/
theorem goes_tryOrPanic_iff {log : List Call.Event} {result : Outcome} :
    (tryOrPanic limits operation).Goes log result ↔
      ∃ first, (tryOnce limits operation).Goes first result ∧
        (¬ Retryable result ∧ log = first ∨ Retryable result ∧ log = first ++ [.told .panic ()]) := by
  refine goes_attempt_iff.trans ⟨?_, ?_⟩
  · rintro (⟨h, hfinal⟩ | ⟨first, e, rest, h, hretry, hrest, rfl⟩)
    · exact ⟨log, h, .inl ⟨hfinal, rfl⟩⟩
    · -- Past the failure there is only the panic to await.
      obtain _ | _ | ⟨_, _, hdone⟩ := hrest
      obtain ⟨rfl, rfl⟩ := Call.goes_done_iff.1 hdone
      exact ⟨first, h, .inr ⟨⟨e, rfl, hretry⟩, rfl⟩⟩
  · rintro ⟨first, h, ⟨hfinal, rfl⟩ | ⟨⟨e, rfl, hretry⟩, rfl⟩⟩
    · exact .inl ⟨h, hfinal⟩
    · exact .inr ⟨first, e, _, h, hretry, .await .panic () (.done _), rfl⟩

/-! ## On the broker -/

section Runs

variable {ρ : Type} {s : System ρ} {id : CallId}

/-- **In every run** a call without a number of attempts goes through a single attempt. It has ended
when that has, unless by then it has panicked. -/
theorem goes_run_tryOrPanic (limits : Limits) (operation : Operation) (hid : s.call? id = none)
    (finish : Outcome → ρ) {inputs : List (System.Input ρ)}
    (hstay : ∀ input ∈ inputs, input.abandons id = false) :
    let call : Call ρ := do return finish (← tryOrPanic limits operation)
    let start := s.step (.begin id call)
    ∃ later outcome, (tryOnce limits operation).Goes
        (call.acts s.pool ++ start.path id inputs ++ later) outcome ∧
      (∀ ended, (start.run inputs).result? id = some ended ↔
        later = [] ∧ ¬ Retryable outcome ∧ ended = finish outcome) ∧
      (later = [] → Retryable outcome → (start.run inputs).wait? id = some .panic) := by
  intro call start
  obtain ⟨left, hleft, hgoes⟩ := System.exists_left hid call hstay
  obtain ⟨later, ended, hway⟩ := Call.exists_goes left
  obtain ⟨outcome, hcall, rfl⟩ := Call.goes_map_iff.1 (hgoes later ended hway)
  have hresult : (start.run inputs).result? id = left.result? := by
    rw [System.result?, hleft, Option.bind_some]
  have hwait : (start.run inputs).wait? id = left.wait? := by
    rw [System.wait?, hleft, Option.bind_some]
  rw [hresult, hwait]
  obtain ⟨first, hfirst, ⟨hfinal, hlog⟩ | ⟨hretry, hlog⟩⟩ := goes_tryOrPanic_iff.1 hcall
  · refine ⟨later, outcome, hlog ▸ hfirst, fun ended => ⟨fun hended => ?_, ?_⟩,
      fun _ hretry => absurd hretry hfinal⟩
    · obtain ⟨rfl, rfl⟩ := Call.goes_of_result? hended hway
      exact ⟨rfl, hfinal, rfl⟩
    · rintro ⟨rfl, -, rfl⟩
      exact Call.result?_of_goes hway
  · -- Nobody has been told that the panic is over, so that is still to come.
    obtain rfl | ⟨later, last, rfl⟩ := List.eq_nil_or_concat' later
    · have hpanic : .told .panic () ∈ call.acts s.pool ++ start.path id inputs := by
        rw [← List.append_nil (_ ++ _), hlog]
        exact List.mem_append_right _ (List.mem_singleton_self _)
      rcases List.mem_append.1 hpanic with hacts | hpath
      · exact absurd hacts Call.told_not_mem_acts
      · exact absurd hpath (start.panic_not_mem_path id inputs)
    · rw [← List.append_assoc] at hlog
      obtain ⟨rfl, hlast⟩ := List.append_inj' hlog rfl
      obtain rfl := List.singleton_inj.1 hlast
      refine ⟨later, outcome, hfirst, fun ended => ⟨fun hended => ?_, ?_⟩, ?_⟩
      · have hnil := (Call.goes_of_result? hended hway).1
        exact absurd hnil (List.concat_ne_nil _ _)
      · rintro ⟨-, hfinal, -⟩
        exact absurd hretry hfinal
      · rintro rfl -
        exact Call.wait?_of_goes hway

end Runs

/-- **How many attempts are made**, under any config that a file may hold, on a broker in any state
and with any other calls on it. The number of attempts is one above that of retries, and there is one
except with the last word. There, in every run in which it is not abandoned, a call goes through
attempts and does not panic, and when it has ended with a failure that may be retried, it has made one
attempt more than there are retries. With the last word it makes a single attempt, and panics behind a
failure that may be retried. -/
theorem attempts_made {ρ : Type} (config : Config) (probe : Duration) (operation : Operation)
    (finish : Outcome → ρ) (s : System ρ) (id : CallId) (hid : s.call? id = none) :
    let limits : Limits := ⟨config.retry, probe⟩
    let call : Call ρ := do return finish (← execute limits operation)
    let start := s.step (.begin id call)
    Config.parse config.encode.compact = .ok config ∧
    (∀ attempts, config.retry.attempts = some attempts ↔
      attempts.toNat = config.maxRetries.toNat + 1) ∧
    (config.retry.attempts = none ↔ config.maxRetries = lastWord) ∧
    execute limits operation = counting limits operation 0 ∧
    (config.maxRetries ≠ lastWord →
      (∀ log result, (execute limits operation).Goes log result ↔
        ∃ outcomes, Tried limits operation log outcomes ∧
          EndedAfter (config.maxRetries.toNat + 1) outcomes result) ∧
      ∀ inputs, (∀ input ∈ inputs, input.abandons id = false) →
        (start.run inputs).wait? id ≠ some .panic ∧
        ∃ later outcomes result,
          Tried limits operation (call.acts s.pool ++ start.path id inputs ++ later) outcomes ∧
          EndedAfter (config.maxRetries.toNat + 1) outcomes result ∧
          ∀ ended, (start.run inputs).result? id = some ended →
            later = [] ∧ ended = finish result) ∧
    (config.maxRetries = lastWord →
      ∀ inputs, (∀ input ∈ inputs, input.abandons id = false) →
        ∃ later outcome,
          (tryOnce limits operation).Goes
            (call.acts s.pool ++ start.path id inputs ++ later) outcome ∧
          (∀ ended, (start.run inputs).result? id = some ended ↔
            later = [] ∧ ¬ Retryable outcome ∧ ended = finish outcome) ∧
          (later = [] → Retryable outcome →
            ∀ more, (∀ input ∈ more, input.abandons id = false) →
              ((start.run inputs).run more).wait? id = some .panic)) := by
  intro limits call start
  refine ⟨config.parse_encode, fun _ => next?_eq_some_iff, next?_eq_none_iff,
    execute_eq_counting limits operation, fun hless => ⟨fun log result => ?_, ?_⟩, ?_⟩
  · rw [execute_eq_retrying operation hless]
    exact goes_retrying_iff
  · intro inputs hstay
    have hexecute : execute limits operation = retrying limits operation config.maxRetries.toNat :=
      execute_eq_retrying operation hless
    have hcalm : call.OnlyRuns operation False :=
      Call.OnlyRuns.bind (hexecute ▸ onlyRuns_retrying limits operation _) fun _ => trivial
    refine ⟨System.wait?_ne_panic hid hcalm hstay, ?_⟩
    obtain ⟨later, ended, hgoes, hend⟩ := System.goes_run hid call hstay
    -- Behind the attempts nothing is left to do but to finish.
    obtain ⟨result, hresult, rfl⟩ := Call.goes_map_iff.1 hgoes
    obtain ⟨outcomes, htried, hended⟩ := goes_retrying_iff.1 (hexecute ▸ hresult)
    exact ⟨later, outcomes, result, htried, hended, hend⟩
  · intro hlast inputs hstay
    have hexecute : execute limits operation = tryOrPanic limits operation :=
      execute_eq_tryOrPanic operation hlast
    obtain ⟨later, outcome, hgoes, hended, hpanic⟩ :=
      goes_run_tryOrPanic limits operation hid finish hstay
    rw [← hexecute] at hgoes hended hpanic
    exact ⟨later, outcome, hgoes, hended, fun hnil hretry more hmore =>
      System.wait?_run_of_panic (hpanic hnil hretry) hmore⟩

/-- A config with a single retry. -/
def cautious : Config := { maxRetries := 1 }

/-- The call that runs an operation under a config. -/
def executing (config : Config) : Call Outcome := do
  return id (← execute ⟨config.retry, .ofMillis 2000⟩ (.custom 7))

/-- No context is found at first; then the operation fails. -/
def twoFailures : List (System.Input Outcome) :=
  [.connected 0 (.error .contextNotFound), .share 0, .answer 0 .paused, .connected 1 (.ok ()),
   .share 0, .answer 0 (.ran (some (.error (.evaluation "a"))))]

/-- With one retry, two failures end the call behind its second attempt. -/
theorem attempts_made_twice :
    ((System.empty : System Outcome).call? 0 = none ∧
        ∀ input ∈ twoFailures, input.abandons 0 = false) ∧
      ((System.empty.step (.begin 0 (executing cautious))).run twoFailures).result? 0 =
        some (.error (.evaluation "a")) ∧
      ∃ outcomes, Tried ⟨cautious.retry, .ofMillis 2000⟩ (.custom 7)
          ((executing cautious).acts .empty ++
            (System.empty.step (.begin 0 (executing cautious))).path 0 twoFailures) outcomes ∧
        outcomes.length = 2 := by
  have hid : (System.empty : System Outcome).call? 0 = none := rfl
  have hstay : ∀ input ∈ twoFailures, input.abandons 0 = false := by
    simp [twoFailures, System.Input.abandons]
  have hended : ((System.empty.step (.begin 0 (executing cautious))).run twoFailures).result? 0 =
      some (.error (.evaluation "a")) := rfl
  refine ⟨⟨hid, hstay⟩, hended, ?_⟩
  have hless : cautious.maxRetries ≠ lastWord := by decide
  obtain ⟨-, -, -, -, hfits, -⟩ :=
    attempts_made cautious (.ofMillis 2000) (.custom 7) id .empty 0 hid
  obtain ⟨-, later, outcomes, result, htried, hafter, hlast⟩ := (hfits hless).2 twoFailures hstay
  obtain ⟨rfl, hresult⟩ := hlast _ hended
  rw [List.append_nil] at htried
  exact ⟨outcomes, htried, hafter.gaveUp _ hresult.symm rfl⟩

/-- A config with the last word for the number of retries. -/
def boldest : Config := { maxRetries := lastWord }

/-- Its number of attempts is not `2 ^ 32` but none, and a call panics behind the first failure. -/
theorem boldest_panics :
    let final := (System.empty.step (.begin 0 (executing boldest))).run
      [.connected 0 (.ok ()), .share 0, .answer 0 (.ran (some (.error (.evaluation "a"))))]
    Config.parse boldest.encode.compact = .ok boldest ∧
      boldest.maxRetries.toNat + 1 = 4294967296 ∧ boldest.retry.attempts = none ∧
      final.wait? 0 = some .panic ∧ final.result? 0 = none :=
  ⟨boldest.parse_encode, rfl, rfl, rfl, rfl⟩

end CanvasLink.Broker
