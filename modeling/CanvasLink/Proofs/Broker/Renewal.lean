import CanvasLink.Proofs.Broker.Attendance
import CanvasLink.Proofs.Broker.Retry

/-!
# CanvasLink — one caller at a time

A user asks for a session, or for a new one, while no other call is in progress.

* `behind` — calls that have ended change nothing for a call that runs alone.
* `step_told`, `run_told` — what has become of the sessions and the attempts, by what was told.
* `Connected`, `Ensured`, `Reconnected` — what the two calls come to.
* **`renews_alone`** — the headline.
-/

namespace CanvasLink.Broker

open CanvasLink.Bridge CanvasLink.Json

/-- The session of whose end is told. -/
def Happening.closed? : Happening → Option SessionId
  | closed session => some session
  | _ => none

/-- Whether the end of an attempt is told. -/
def Happening.isConnect : Happening → Bool
  | connected _ _ => true
  | cleared _ => true
  | _ => false

namespace System

variable {ρ : Type}

/-! ## Calls that have ended -/

section Behind

/-- The same broker, on which these calls have been made before. -/
def behind (ended : List (CallId × Call ρ)) (s : System ρ) : System ρ :=
  { s with calls := ended ++ s.calls }

/-- These are other calls, and they have ended. -/
structure Apart (ended : List (CallId × Call ρ)) (id : CallId) : Prop where
  other : ∀ entry ∈ ended, entry.1 ≠ id
  ended : ∀ entry ∈ ended, entry.2.result?.isSome = true

variable {ended : List (CallId × Call ρ)} {id : CallId} {s : System ρ}

/-- Where the ended calls have other numbers, a call is placed behind them. -/
theorem place_behind (hother : ∀ entry ∈ ended, entry.1 ≠ id) (call : Call ρ)
    (calls : List (CallId × Call ρ)) :
    place id call (ended ++ calls) = ended ++ place id call calls := by
  induction ended with
  | nil => rfl
  | cons entry ended ih =>
    obtain ⟨hentry, hrest⟩ := List.forall_mem_cons.1 hother
    rw [List.cons_append, place, if_neg hentry, ih hrest, List.cons_append]

/-- A call goes on alike whether or not ended calls stand before it. -/
theorem advance_behind (h : Apart ended id) (call : Call ρ) :
    (s.behind ended).advance id call = (s.advance id call).behind ended := by
  simp only [System.advance, behind, place_behind h.other]

/-- What the world tells is noted alike with ended calls before the others. -/
theorem noteAnswer_behind (wait : Wait) :
    (s.behind ended).noteAnswer wait = (s.noteAnswer wait).behind ended := by
  cases wait <;> rfl

/-- A call is looked up among the ended ones first. -/
theorem call?_behind (id' : CallId) :
    (s.behind ended).call? id' = (ended.lookup id').or (s.call? id') := by
  show (ended ++ s.calls).lookup id' = (ended.lookup id').or (s.calls.lookup id')
  induction ended with
  | nil => rfl
  | cons entry ended ih =>
    obtain ⟨other, call⟩ := entry
    rw [List.cons_append, lookup_cons, lookup_cons]
    split
    · rfl
    · exact ih

/-- A call with a number of its own is found behind the ended ones. -/
theorem call?_behind_self (h : Apart ended id) : (s.behind ended).call? id = s.call? id := by
  have hnone : ended.lookup id = none := by
    rw [List.lookup_eq_none_iff]
    intro entry hentry
    simpa using (h.other entry hentry).symm
  rw [call?_behind, hnone, Option.none_or]

/-- Under another number there is no call, or one that has ended. -/
theorem call?_behind_other (h : Apart ended id) {id' : CallId} (hnone : s.call? id' = none) :
    (s.behind ended).call? id' = none ∨
      ∃ result, (s.behind ended).call? id' = some (.done result) := by
  rw [call?_behind, hnone, Option.or_none]
  cases hcall : ended.lookup id' with
  | none => exact .inl rfl
  | some call =>
    right
    -- The only calls with other numbers are the ended ones.
    obtain ⟨before, after, hcalls, -⟩ := List.lookup_eq_some_iff.1 hcall
    have hended := h.ended (id', call) (by rw [hcalls]; simp)
    cases call with
    | done result => exact ⟨result, rfl⟩
    | act a rest => cases hended
    | await wait rest => cases hended

/-- Calls that have ended wait for no attempt. -/
theorem isAwaited_behind (h : Apart ended id) (a : AttemptId) :
    (s.behind ended).isAwaited a = s.isAwaited a := by
  -- An ended call waits for nothing.
  have hnone : (ended.any fun entry => entry.2.wait? == some (.attempt a)) = false := by
    rw [List.any_eq_false]
    intro entry hentry
    have hended := h.ended entry hentry
    generalize entry.2 = call at hended
    cases call with
    | done result => simp [Call.wait?]
    | act a rest => cases hended
    | await wait rest => cases hended
  show (ended ++ s.calls).any _ = s.calls.any _
  rw [List.any_append, hnone, Bool.false_or]

/-- Nothing is told under a number under which there is no call, or one that has ended. -/
theorem passes_over {id' : CallId}
    (h : s.call? id' = none ∨ ∃ result, s.call? id' = some (.done result)) {input : Input ρ}
    (hinput : (∃ answer, input = .answer id' answer) ∨ input = .share id') :
    s.step input = s ∧ s.observed input = [] := by
  rcases hinput with ⟨answer, rfl⟩ | rfl <;> rcases h with hnone | ⟨result, hdone⟩ <;>
    simp [step, observed, *]

/-- An answer to the only call that goes on. -/
theorem answer_behind (h : Apart ended id) (answer : Answer) :
    (s.behind ended).step (.answer id answer) = (s.step (.answer id answer)).behind ended ∧
      (s.behind ended).observed (.answer id answer) = s.observed (.answer id answer) := by
  refine ⟨?_, by simp only [observed, call?_behind_self h]⟩
  simp only [step, call?_behind_self h]
  split
  · split
    · rw [noteAnswer_behind, advance_behind h]
    · rfl
  · rfl

/-- The end of the attempt for which the only call waits that goes on. -/
theorem share_behind (h : Apart ended id) :
    (s.behind ended).step (.share id) = (s.step (.share id)).behind ended ∧
      (s.behind ended).observed (.share id) = s.observed (.share id) := by
  simp only [step, observed, call?_behind_self h]
  split
  · rw [show (s.behind ended).attempts = s.attempts from rfl]
    split
    · exact ⟨advance_behind h _, rfl⟩
    · exact ⟨rfl, rfl⟩
  · exact ⟨rfl, rfl⟩

/-- **One step** of the only call that goes on. -/
theorem step_behind (h : Apart ended id) (honly : ∀ id', id' ≠ id → s.call? id' = none)
    {input : Input ρ} (hworld : input.isOfWorld = true) :
    (s.behind ended).step input = (s.step input).behind ended ∧
      (s.behind ended).observed input = s.observed input := by
  -- An answer to any other call goes past it in both systems: it has ended or is not there.
  have hother {id' : CallId} (hne : id' ≠ id)
      (hinput : (∃ answer, input = .answer id' answer) ∨ input = .share id') :
      (s.behind ended).step input = (s.step input).behind ended ∧
        (s.behind ended).observed input = s.observed input := by
    obtain ⟨hstep, htold⟩ := passes_over (.inl (honly id' hne)) hinput
    obtain ⟨hstep', htold'⟩ := passes_over (call?_behind_other h (honly id' hne)) hinput
    rw [hstep, htold, hstep', htold']
    exact ⟨rfl, rfl⟩
  cases input with
  | begin id' call => cases hworld
  | abandon id' => cases hworld
  | answer id' answer =>
    by_cases hid : id' = id
    · rw [hid]
      exact answer_behind h answer
    · exact hother hid (.inl ⟨answer, rfl⟩)
  | share id' =>
    by_cases hid : id' = id
    · rw [hid]
      exact share_behind h
    · exact hother hid (.inr rfl)
  -- The end of an attempt looks at who awaits it, which the ended calls do not.
  | connected a outcome =>
    simp only [step, observed, isAwaited_behind h]
    rw [show (s.behind ended).attempts = s.attempts from rfl]
    split
    · split <;> exact ⟨rfl, rfl⟩
    · exact ⟨rfl, rfl⟩
  | cleared a =>
    simp only [step, observed, isAwaited_behind h]
    rw [show (s.behind ended).attempts = s.attempts from rfl]
    split
    · split <;> exact ⟨rfl, rfl⟩
    · exact ⟨rfl, rfl⟩

/-- The only call under any number. -/
theorem Leads.only {Q : Post ρ} (h : Leads s id Q) (id' : CallId) (hne : id' ≠ id) :
    s.call? id' = none := by
  obtain ⟨call, hcalls⟩ := h.exists_call
  rw [call?_eq hcalls, if_neg hne]

/-- **A run** of the only call that goes on. -/
theorem run_behind (h : Apart ended id) {Q : Post ρ} (hleads : Leads s id Q)
    {inputs : List (Input ρ)} (hworld : ∀ input ∈ inputs, input.isOfWorld = true) :
    (s.behind ended).run inputs = (s.run inputs).behind ended ∧
      (s.behind ended).history inputs = s.history inputs := by
  induction inputs generalizing s Q with
  | nil => exact ⟨rfl, rfl⟩
  | cons input inputs ih =>
    obtain ⟨hinput, hinputs⟩ := List.forall_mem_cons.1 hworld
    obtain ⟨hstep, htold⟩ := step_behind h hleads.only hinput
    obtain ⟨hrun, hhistory⟩ := ih (hleads.step hinput) hinputs
    refine ⟨?_, ?_⟩
    · show ((s.behind ended).step input).run inputs = ((s.step input).run inputs).behind ended
      rw [hstep, hrun]
    · rw [history, history, hstep, htold, hhistory]

end Behind

/-! ## What was told of sessions and attempts -/

section Told

variable {s : System ρ} {id : CallId} {call : Call ρ}

theorem attempts_advance_prefix (s : System ρ) (id : CallId) (call : Call ρ) :
    s.attempts <+: (s.advance id call).attempts :=
  List.prefix_append _ _

/-- A session counts as closed when the world tells that it is. -/
theorem closed_noteAnswer (s : System ρ) (wait : Wait) (reply : wait.Reply) :
    (s.noteAnswer wait).closed =
      s.closed ++ [wait.happening reply].filterMap Happening.closed? := by
  cases wait with
  | close session => rfl
  | _ => exact (List.append_nil _).symm

/-- **One step.** The sessions that are closed are those of which it is told, and only the end of an
attempt changes attempts that there are. -/
theorem step_told (hs : s.Sound) (input : Input ρ) :
    (s.step input).closed = s.closed ++ (s.observed input).filterMap Happening.closed? ∧
      ((∀ told ∈ s.observed input, told.isConnect = false) →
        s.attempts <+: (s.step input).attempts) := by
  have htells := s.tells_step input
  generalize s.step input = s', s.observed input = told at htells ⊢
  -- What closes a session and what ends an attempt is told; all other steps add at most.
  cases htells with
  | ignored => exact ⟨(List.append_nil _).symm, fun _ => List.prefix_rfl⟩
  | begun _ => exact ⟨(List.append_nil _).symm, fun _ => attempts_advance_prefix _ _ _⟩
  | @answered id answer wait rest reply _ _ =>
    refine ⟨closed_noteAnswer s wait reply, fun _ => ?_⟩
    obtain ⟨closed, hnote⟩ := s.exists_noteAnswer wait
    rw [hnote]
    exact attempts_advance_prefix { s with closed := closed } id (rest reply)
  | shared _ _ => exact ⟨(List.append_nil _).symm, fun _ => attempts_advance_prefix _ _ _⟩
  | connected _ _ =>
    exact ⟨(List.append_nil _).symm, fun hnone => nomatch hnone _ (List.mem_singleton_self _)⟩
  | cleared hclosing _ => exact absurd hclosing (hs.clear _ _ _)
  | abandoned _ => exact ⟨(List.append_nil _).symm, fun _ => List.prefix_rfl⟩

/-- **A run.** -/
theorem run_told (hs : s.Sound) {inputs : List (Input ρ)}
    (hworld : ∀ input ∈ inputs, input.isOfWorld = true) :
    (s.run inputs).closed = s.closed ++ (s.history inputs).filterMap Happening.closed? ∧
      ((∀ told ∈ s.history inputs, told.isConnect = false) →
        s.attempts <+: (s.run inputs).attempts) := by
  induction inputs generalizing s with
  | nil => exact ⟨(List.append_nil _).symm, fun _ => List.prefix_rfl⟩
  | cons input inputs ih =>
    obtain ⟨hinput, hinputs⟩ := List.forall_mem_cons.1 hworld
    obtain ⟨hclosed, hattempts⟩ := step_told hs input
    have hnext := hs.step (Input.isTame_of_isOfWorld hinput).beginsTame
    obtain ⟨hclosed', hattempts'⟩ := ih hnext hinputs
    rw [history]
    -- Closes add up from step to step, and prefixes are transitive.
    refine ⟨?_, fun hnone => ?_⟩
    · rw [List.filterMap_append, ← List.append_assoc, ← hclosed]
      exact hclosed'
    · rw [List.forall_mem_append] at hnone
      exact (hattempts hnone.1).trans (hattempts' hnone.2)

end Told

/-! ## Calls have numbers of their own -/

section Distinct

/-- No two calls have the same number. -/
def Distinct (s : System ρ) : Prop :=
  (s.calls.map Prod.fst).Nodup

/-- A call takes its own place, or the last one if it had none. -/
theorem keys_place (id : CallId) (call : Call ρ) (calls : List (CallId × Call ρ)) :
    (place id call calls).map Prod.fst = calls.map Prod.fst ∨
      id ∉ calls.map Prod.fst ∧
        (place id call calls).map Prod.fst = calls.map Prod.fst ++ [id] := by
  induction calls with
  | nil => exact .inr ⟨List.not_mem_nil, rfl⟩
  | cons entry calls ih =>
    rw [place]
    -- The place with the number is taken over, or the search goes on to the end.
    split
    · next hentry => exact .inl (by simp [hentry])
    · next hentry =>
      rcases ih with hsame | ⟨hnew, hmore⟩
      · exact .inl (by simp [hsame])
      · refine .inr ⟨?_, by simp [hmore]⟩
        rw [List.map_cons, List.mem_cons, not_or]
        exact ⟨Ne.symm hentry, hnew⟩

variable {s : System ρ}

/-- A call that goes on keeps its number. -/
theorem Distinct.advance (h : s.Distinct) (id : CallId) (call : Call ρ) :
    (s.advance id call).Distinct := by
  show ((place id _ s.calls).map Prod.fst).Nodup
  rcases keys_place id (call.settle s.pool).2 s.calls with hsame | ⟨hnew, hmore⟩
  · rw [hsame]
    exact h
  · rw [hmore, List.nodup_append]
    exact ⟨h, by simp, fun key hkey other hother => by
      rw [List.mem_singleton.1 hother]
      rintro rfl
      exact hnew hkey⟩

/-- A call begins only under a number that is free, and the other inputs add no numbers. -/
theorem Distinct.step (h : s.Distinct) (input : Input ρ) : (s.step input).Distinct := by
  have hstep := s.happens_step input
  generalize s.step input = s' at hstep ⊢
  -- A call is only ever placed under its own number, and the others take calls away at most.
  cases hstep with
  | ignored => exact h
  | begun _ => exact h.advance _ _
  | @answered id answer wait rest reply _ _ =>
    obtain ⟨closed, hnote⟩ := s.exists_noteAnswer wait
    rw [hnote]
    exact Distinct.advance (s := { s with closed := closed }) h _ _
  | shared _ _ => exact h.advance _ _
  | connected _ _ => exact h
  | cleared _ _ => exact h
  | abandoned id => exact (List.filter_sublist.map Prod.fst).nodup h

/-- No run of the broker from the start gives two calls one number. -/
theorem distinct_run (inputs : List (Input ρ)) : ((empty : System ρ).run inputs).Distinct := by
  have hempty : (empty : System ρ).Distinct := List.nodup_nil
  exact run_of_step (Q := fun _ => True) (fun _ hs input _ => hs.step input) hempty
    fun _ _ => trivial

/-- When all calls have ended, they are all apart from a call that has not begun. -/
theorem Distinct.apart (h : s.Distinct)
    (hended : ∀ id call, s.call? id = some call → call.result?.isSome = true) {id : CallId}
    (hid : s.call? id = none) : Apart s.calls id := by
  have hfound (entry : CallId × Call ρ) (hentry : entry ∈ s.calls) :
      s.call? entry.1 = some entry.2 := by
    obtain ⟨before, after, hcalls⟩ := List.append_of_mem hentry
    rw [Distinct, hcalls, List.map_append, List.map_cons, List.nodup_append] at h
    refine List.lookup_eq_some_iff.2 ⟨before, after, hcalls, fun other hother => ?_⟩
    have hne := h.2.2 other.1 (List.mem_map_of_mem hother) entry.1 List.mem_cons_self
    simpa using Ne.symm hne
  refine ⟨fun entry hentry hsame => ?_, fun entry hentry => hended _ _ (hfound entry hentry)⟩
  rw [← hsame, hfound entry hentry] at hid
  cases hid

end Distinct

/-! ## A call that runs alone -/

/-- What comes of a call that begins now, when the world tells what these inputs tell: it has ended
like this, or the world has something to tell; and that is no more than so many things. -/
structure Serves (s : System ρ) (id : CallId) (call : Call ρ) (inputs : List (Input ρ)) (most : Nat)
    (Ends : System ρ → List Happening → ρ → Prop) : Prop where
  ends : ∀ result, ((s.step (.begin id call)).run inputs).result? id = some result →
    Ends ((s.step (.begin id call)).run inputs) ((s.step (.begin id call)).history inputs) result
  goesOn : ((s.step (.begin id call)).run inputs).result? id = none →
    ∃ input : Input ρ, input.isOfWorld = true ∧
      ((s.step (.begin id call)).run inputs).observed input ≠ []
  length : ((s.step (.begin id call)).history inputs).length ≤ most

section Alone

variable {s : System ρ} {id : CallId} {call : Call ρ} {inputs : List (Input ρ)}

/-- A call beside calls that have ended goes the way that it goes alone. -/
theorem exists_leads {Q : Post ρ} (hs : s.Tracked) (hapart : Apart s.calls id)
    (hid : s.call? id = none) (hwp : call.wp s.pool s.sessions Q)
    (hworld : ∀ input ∈ inputs, input.isOfWorld = true) :
    ∃ t : System ρ, (s.step (.begin id call)).run inputs = t.behind s.calls ∧
      Leads t id fun log => Q ((s.step (.begin id call)).history inputs ++ log) := by
  let alone : System ρ := { s with calls := [] }
  have hsame : alone.behind s.calls = s := by
    simp [alone, behind]
  -- The call runs as it would in a system without the ended ones.
  have hsplit : s.step (.begin id call) = (alone.advance id call).behind s.calls := by
    rw [← advance_behind hapart, hsame]
    simp only [step, hid]
  have htracked : alone.Tracked := ⟨hs.length, hs.connecting⟩
  have hstart : Leads (alone.advance id call) id Q := leads_advance htracked (.inl rfl) hwp
  obtain ⟨hrun, hhistory⟩ := run_behind hapart hstart hworld
  refine ⟨(alone.advance id call).run inputs, ?_, ?_⟩
  · rw [hsplit, hrun]
  · rw [hsplit, hhistory]
    exact hstart.run hworld

/-- What has been told since a call began says what has become of sessions and attempts. -/
theorem begin_told (hs : s.Sound) (hid : s.call? id = none) (htame : call.Tame [] [])
    (hworld : ∀ input ∈ inputs, input.isOfWorld = true) :
    ((s.step (.begin id call)).run inputs).closed = s.closed ++
        ((s.step (.begin id call)).history inputs).filterMap Happening.closed? ∧
      ((∀ told ∈ (s.step (.begin id call)).history inputs, told.isConnect = false) →
        s.attempts <+: ((s.step (.begin id call)).run inputs).attempts) := by
  have hbegin : s.step (.begin id call) = s.advance id call := by
    simp only [step, hid]
  have hbegun : (s.step (.begin id call)).Sound := hs.step htame
  obtain ⟨hclosed, hattempts⟩ := run_told hbegun hworld
  refine ⟨?_, fun hnone => List.IsPrefix.trans ?_ (hattempts hnone)⟩
  · rw [hclosed, hbegin]
    rfl
  · rw [hbegin]
    exact attempts_advance_prefix s id call

/-- **A call beside calls that have ended** meets every condition that it meets alone. -/
theorem serves_of_wp {Q : Post ρ} {most : Nat} {Ends : System ρ → List Happening → ρ → Prop}
    (hs : s.Sound) (hapart : Apart s.calls id) (hid : s.call? id = none)
    (htame : call.Tame [] []) (hwp : call.wp s.pool s.sessions Q)
    (hworld : ∀ input ∈ inputs, input.isOfWorld = true)
    (hmost : ∀ log result p sessions, Q log result p sessions → log.length ≤ most)
    (hends : ∀ s' log result, s'.Sound → Q log result s'.pool s'.sessions →
      s'.closed = s.closed ++ log.filterMap Happening.closed? →
      ((∀ told ∈ log, told.isConnect = false) → s.attempts <+: s'.attempts) → Ends s' log result) :
    s.Serves id call inputs most Ends := by
  obtain ⟨t, hrun, hleads⟩ := exists_leads hs.tracked hapart hid hwp hworld
  obtain ⟨hclosed, hattempts⟩ := begin_told hs hid htame hworld
  have hsound : ((s.step (.begin id call)).run inputs).Sound := by
    have hbegun : (s.step (.begin id call)).Sound := hs.step htame
    exact hbegun.run fun input hinput =>
      (Input.isTame_of_isOfWorld (hworld input hinput)).beginsTame
  -- What the call comes to in its own system is what it comes to behind the others.
  have hresult : ((s.step (.begin id call)).run inputs).result? id = t.result? id := by
    rw [hrun, System.result?, call?_behind_self hapart]
    rfl
  refine ⟨fun result hend => ?_, fun hnone => ?_, ?_⟩
  · -- Either the condition has been reached, or the world can tell more.
    rcases hleads.progress with ⟨result', hresult', hQ⟩ | ⟨hnone, -⟩
    · obtain rfl : result' = result := Option.some.inj (hresult'.symm.trans (hresult ▸ hend))
      rw [List.append_nil] at hQ
      refine hends _ _ _ hsound ?_ hclosed hattempts
      rw [hrun]
      exact hQ
    · rw [hresult, hnone] at hend
      cases hend
  · rcases hleads.progress with ⟨result', hresult', -⟩ | ⟨-, input, hinput, htold⟩
    · rw [hresult, hresult'] at hnone
      cases hnone
    · refine ⟨input, hinput, ?_⟩
      rw [hrun, (step_behind hapart hleads.only hinput).2]
      exact htold
  · -- What has been told so far is the beginning of something within the bound.
    obtain ⟨later, result, p, sessions, hQ⟩ := hleads.exists_log
    have hle := hmost _ _ _ _ hQ
    rw [List.length_append] at hle
    exact Nat.le_trans (Nat.le_add_right _ _) hle

end Alone

/-! ## The two calls -/

section Calls

variable {limits : Limits} {s s' : System Reply}

/-- What one connect has come to, from one state to a later one. -/
structure Connected (limits : Limits) (s s' : System Reply) (outcome : Except Bridge.Error Unit) :
    Prop where
  /-- The session that was current is closed. -/
  closed : s'.closed = s.closed ++ s.pool.current.toList
  /-- The new session is current, or none is. -/
  current : s'.pool.current = (numbered s.sessions outcome).toOption
  /-- It is not the one that was current before. -/
  other : s.pool.current ≠ some s.sessions
  sessions : s'.sessions = sessionsAfter s.sessions outcome
  inFlight : s'.pool.inFlight = none
  /-- One attempt is begun, unless somebody has gone away and left one in flight. -/
  attempts : s'.pool.attempts = s.pool.attempts + if s.pool.inFlight = none then 1 else 0
  /-- After a failure the next call that asks for a session begins another attempt. -/
  again : ∀ e, outcome = .error e → ∀ id, s'.call? id = none →
    s'.BeginsAttempt id (.begin id (Request.ensure.call limits))

/-- How a call that asks for a session ends. -/
inductive Ensured (limits : Limits) (s s' : System Reply) : List Happening → Reply → Prop
  /-- The current session answers its probe in time with exactly true. Nothing else is changed. -/
  | kept {session : SessionId} (hcurrent : s.pool.current = some session)
      (hsame : s' = { s with calls := s'.calls }) :
      Ensured limits s s' [.probed session limits.probe (.answered (.ok (.boolean true)))]
        (.session (.ok session))
  | renewed {before : List Happening} {a : AttemptId} {outcome : Except Bridge.Error Unit}
      (hunfit : Unfit limits s.pool.current before) (hconnected : Connected limits s s' outcome)
      (hforced : s'.pool.forced = s.pool.forced) :
      Ensured limits s s'
        (before ++ [.connected a outcome, .shared a (numbered s.sessions outcome)])
        (.session (numbered s.sessions outcome))

/-- How a call that asks for another session ends. -/
inductive Reconnected (limits : Limits) (s s' : System Reply) : List Happening → Reply → Prop
  | mk {a : AttemptId} {outcome : Except Bridge.Error Unit}
      (hconnected : Connected limits s s' outcome)
      (hforced : s'.pool.forced = s.pool.forced + 1) :
      Reconnected limits s s' ((s.pool.current.map Happening.closed).toList ++
          [.connected a outcome, .shared a (numbered s.sessions outcome)])
        (.session (numbered s.sessions outcome))

/-- What a call that runs alone leaves in its pool is what is said of the system: the session that
was current is closed, and the new one, if there is one, is current. -/
theorem connected_of_provided {p : Pool} {outcome : Except Bridge.Error Unit} (hs : s.Sound)
    (hs' : s'.Sound) (hflight : p.inFlight = s.pool.inFlight)
    (hattempts : p.attempts = s.pool.attempts)
    (hprovided : Provided p s'.pool s.sessions s'.sessions outcome)
    (hclosed : s'.closed = s.closed ++ s.pool.current.toList) : Connected limits s s' outcome where
  closed := hclosed
  current := hprovided.current
  other := fun h => Nat.lt_irrefl _ (hs.pool.current _ h)
  sessions := hprovided.sessions
  inFlight := hprovided.inFlight
  attempts := by rw [hprovided.attempts, hflight, hattempts]
  again := by
    rintro e rfl id hid
    have hvacant : s'.Vacant := ⟨hprovided.current, hprovided.inFlight⟩
    exact hvacant.begins_ensure hs' hid

/-- A state in which only calls have changed. -/
theorem eq_of_told (hs : s.Sound) (hs' : s'.Sound) (hpool : s'.pool = s.pool)
    (hsessions : s'.sessions = s.sessions) (hclosed : s'.closed = s.closed)
    (hattempts : s.attempts <+: s'.attempts) : s' = { s with calls := s'.calls } := by
  have hlength : s.attempts.length = s'.attempts.length := by
    rw [hs.tracked.length, hs'.tracked.length, hpool]
  have hsame : s.attempts = s'.attempts := hattempts.eq_of_length hlength
  obtain ⟨pool, calls, attempts, sessions, closed⟩ := s'
  simp_all

/-- What is told of a session that is not kept says that it is closed. -/
theorem filterMap_unfit {current : Option SessionId} {before : List Happening}
    (h : Unfit limits current before) : before.filterMap Happening.closed? = current.toList := by
  cases h <;> rfl

/-- Two things are told at most before a session is found unfit: the probe and the close. -/
theorem length_unfit {current : Option SessionId} {before : List Happening}
    (h : Unfit limits current before) : before.length ≤ 2 := by
  cases h <;> simp

/-- A call for a session that runs alone ends with what `Supplied` says, from every pool. -/
theorem wp_ensure_call (limits : Limits) (p : Pool) (sessions : Nat) :
    (Request.ensure.call limits).wp p sessions fun log reply p' sessions' =>
      ∃ result, reply = .session result ∧ Supplied limits p sessions log result p' sessions' := by
  refine Call.wp_bind (Call.wp_mono wp_ensure_supplied fun log result p' sessions' h => ?_)
  exact ⟨result, rfl, by simpa using h⟩

/-- A reconnect that runs alone closes the session that is current, makes one attempt and gives what
that attempt made, from every pool. -/
theorem wp_reconnect_call (limits : Limits) (p : Pool) (sessions : Nat) :
    (Request.reconnect.call limits).wp p sessions fun log reply p' sessions' =>
      ∃ a outcome, log = (p.current.map Happening.closed).toList ++
          [.connected a outcome, .shared a (numbered sessions outcome)] ∧
        reply = .session (numbered sessions outcome) ∧
        Provided { p with forced := p.forced + 1 } p' sessions sessions' outcome := by
  refine Call.wp_bind (Call.wp_bind (Call.wp_mono wp_forceClose ?_))
  rintro _ _ _ _ ⟨rfl, rfl, rfl⟩
  refine Call.wp_mono wp_ensure_supplied fun log result p' sessions' h => ?_
  cases h with
  | kept hcurrent => cases hcurrent
  | @renewed before a outcome _ _ hunfit hprovided =>
    cases hunfit with
    | absent =>
      exact ⟨a, outcome, by simp, rfl, hprovided.current, hprovided.inFlight, hprovided.attempts,
        hprovided.forced, hprovided.sessions⟩

/-- A call for a session needs four answers at most, and has ended by then as `Ensured` says. -/
theorem serves_ensure (limits : Limits) (hs : s.Sound) {id : CallId} (hapart : Apart s.calls id)
    (hid : s.call? id = none) {inputs : List (Input Reply)}
    (hworld : ∀ input ∈ inputs, input.isOfWorld = true) :
    s.Serves id (Request.ensure.call limits) inputs 4 (Ensured limits s) := by
  refine serves_of_wp hs hapart hid (tame_call limits .ensure)
    (wp_ensure_call limits s.pool s.sessions) hworld ?_ ?_
  · rintro log reply p' sessions' ⟨result, -, hsupplied⟩
    cases hsupplied with
    | kept hcurrent => simp
    | renewed hunfit hprovided =>
      have hlength := length_unfit hunfit
      simpa using hlength
  · rintro s' log reply hs' ⟨result, rfl, hsupplied⟩ hclosed hattempts
    generalize hpool : s'.pool = p' at hsupplied
    generalize hsessions : s'.sessions = sessions' at hsupplied
    cases hsupplied with
    -- A kept session leaves every part of the system but the calls as it was.
    | @kept session hcurrent =>
      have hsame : s'.closed = s.closed := hclosed.trans (List.append_nil _)
      have hprefix := hattempts (by simp [Happening.isConnect])
      exact .kept hcurrent (eq_of_told hs hs' hpool hsessions hsame hprefix)
    | @renewed before a outcome _ _ hunfit hprovided =>
      subst hpool hsessions
      refine .renewed hunfit (connected_of_provided hs hs' rfl rfl hprovided ?_) hprovided.forced
      rw [hclosed, List.filterMap_append, filterMap_unfit hunfit]
      simp [Happening.closed?]

/-- A reconnect needs three answers at most, and has ended by then as `Reconnected` says. -/
theorem serves_reconnect (limits : Limits) (hs : s.Sound) {id : CallId} (hapart : Apart s.calls id)
    (hid : s.call? id = none) {inputs : List (Input Reply)}
    (hworld : ∀ input ∈ inputs, input.isOfWorld = true) :
    s.Serves id (Request.reconnect.call limits) inputs 3 (Reconnected limits s) := by
  refine serves_of_wp hs hapart hid (tame_call limits .reconnect)
    (wp_reconnect_call limits s.pool s.sessions) hworld ?_ ?_
  · rintro log reply p' sessions' ⟨a, outcome, rfl, -, -⟩
    cases s.pool.current <;> simp
  · rintro s' log reply hs' ⟨a, outcome, rfl, rfl, hprovided⟩ hclosed -
    refine .mk (connected_of_provided hs hs' ?_ ?_ hprovided ?_) hprovided.forced
    · rfl
    · rfl
    · rw [hclosed]
      cases s.pool.current <;> simp [Happening.closed?]

end Calls

/-- **One caller at a time.** No call is in progress. A call that asks for a session then gives the
one that there is if it answers its probe in time with exactly true; otherwise this one is closed
and one connect is made. A call that asks for another session closes the one that there is and
makes one connect in any case. -/
theorem renews_alone (limits : Limits) {history inputs : List (Input Reply)} {id : CallId}
    (hoffered : ∀ input ∈ history, input.IsOffered limits)
    (hended : ∀ other call, ((empty : System Reply).run history).call? other = some call →
      call.result?.isSome = true)
    (hid : ((empty : System Reply).run history).call? id = none)
    (hworld : ∀ input ∈ inputs, input.isOfWorld = true) :
    let s := (empty : System Reply).run history
    s.Serves id (Request.ensure.call limits) inputs 4 (Ensured limits s) ∧
      s.Serves id (Request.reconnect.call limits) inputs 3 (Reconnected limits s) ∧
      -- An attempt that is in flight before the call has been left there by somebody.
      ((∀ input ∈ history, ∀ other, input.abandons other = false) → s.pool.inFlight = none) := by
  intro s
  have hs : s.Sound := sound_empty.run fun input hinput => (hoffered input hinput).beginsTame
  have hapart : Apart s.calls id := (distinct_run history).apart hended hid
  exact ⟨serves_ensure limits hs hapart hid hworld, serves_reconnect limits hs hapart hid hworld,
    fun hstays => inFlight_of_ended limits hoffered hstays hended⟩

/-- The session hangs, and no other one can be made. -/
def hanging : List (Input Reply) :=
  [.answer 1 (.probed .late), .answer 1 .closed, .connected 1 (.error .contextNotFound), .share 1]

/-- The session is closed without being asked, and another one is made. -/
def exchanged : List (Input Reply) :=
  [.answer 1 .closed, .connected 1 (.ok ()), .share 1]

/-- The current session hangs on its probe, is closed, and no other one can be made; a reconnect
closes it as well, and makes another one. -/
theorem renews_alone_after_settled :
    (∀ input ∈ settled, input.IsOffered {}) ∧
      (∀ id call, ((empty : System Reply).run settled).call? id = some call →
        call.result?.isSome = true) ∧
      ((empty : System Reply).run settled).call? 1 = none ∧
      (∀ input ∈ hanging ++ exchanged, input.isOfWorld = true) ∧
      Ensured {} ((empty : System Reply).run settled)
        ((((empty : System Reply).run settled).step
          (.begin 1 (Request.ensure.call {}))).run hanging)
        [.probed 0 ({} : Limits).probe .late, .closed 0, .connected 1 (.error .contextNotFound),
          .shared 1 (.error .contextNotFound)] (.session (.error .contextNotFound)) ∧
      Reconnected {} ((empty : System Reply).run settled)
        ((((empty : System Reply).run settled).step
          (.begin 1 (Request.reconnect.call {}))).run exchanged)
        [.closed 0, .connected 1 (.ok ()), .shared 1 (.ok 1)] (.session (.ok 1)) := by
  have hid : ((empty : System Reply).run settled).call? 1 = none := rfl
  have hworld : ∀ input ∈ hanging ++ exchanged, input.isOfWorld = true := by
    simp [hanging, exchanged, Input.isOfWorld]
  obtain ⟨hensured, -, -⟩ := renews_alone {} isOffered_settled ended_settled hid
    fun input hinput => hworld input (List.mem_append_left exchanged hinput)
  obtain ⟨-, hreconnected, -⟩ := renews_alone {} isOffered_settled ended_settled hid
    fun input hinput => hworld input (List.mem_append_right hanging hinput)
  exact ⟨isOffered_settled, ended_settled, hid, hworld, hensured.ends _ rfl,
    hreconnected.ends _ rfl⟩

end System

end CanvasLink.Broker
