import CanvasLink.Daemon.Lifecycle
import CanvasLink.Proofs.Broker.Ownership
import CanvasLink.Proofs.Decimal.Reading
import CanvasLink.Proofs.Files.Tree
import CanvasLink.Proofs.Text.Cutting

/-!
# CanvasLink — no session without the liveness file

However requests, the connect ahead of them and the signal fall together: the file is written before
the first call on the broker begins, and removed after the session of the last one is closed.

* `readPid_create`, `contains_removePidFile` — what is written to the file is read, and the file that
  was removed is gone.
* `OnlyCloses` — a call that does nothing any more but close a session.
* `Alive` — what each step of the daemon preserves, stage by stage.
* **`liveness_file`** — a session is open only while the file that this run has written is there.
-/

namespace CanvasLink

open CanvasLink.Broker CanvasLink.Daemon CanvasLink.Files

namespace Daemon

/-! ## The file -/

/-- Digits are not blank. -/
theorem isBlank_of_isDigit {c : Char} (h : c.isDigit = true) : Text.isBlank c = false := by
  have hrange : 48 ≤ c.toNat ∧ c.toNat ≤ 57 := by
    simpa [Char.isDigit, UInt32.le_iff_toNat_le] using h
  simp only [Text.isBlank, Text.blankRanges, List.any_cons, List.any_nil, Bool.or_false,
    Bool.or_eq_false_iff, Bool.and_eq_false_iff, decide_eq_false_iff_not]
  omega

/-- The number of a process reads back as it was written. -/
theorem parsePid_toString (pid : UInt32) : parsePid (toString pid.toNat) = some pid := by
  have hdigits : (toString pid.toNat).toList = Nat.toDigits 10 pid.toNat := by
    simp [toString, Nat.repr]
  have hdigit : ∀ c ∈ Nat.toDigits 10 pid.toNat, c.isDigit = true :=
    fun c => Nat.isDigit_of_mem_toDigits (by decide) (by decide)
  have hne : Nat.toDigits 10 pid.toNat ≠ [] := Nat.toDigits_ne_nil
  -- Digits are no blanks, so nothing is trimmed away.
  have hblank : ∀ c ∈ Nat.toDigits 10 pid.toNat, Text.isBlank c = false :=
    fun c hc => isBlank_of_isDigit (hdigit c hc)
  have htrim : Text.trim (Nat.toDigits 10 pid.toNat) = Nat.toDigits 10 pid.toNat :=
    Text.trimmed_iff.1 ⟨[], [], by simp, .nil, .nil,
      fun c hc => hblank c (List.mem_of_mem_head? hc),
      fun c hc => hblank c (List.mem_of_getLast? hc)⟩
  have hnatural : Decimal.natural? (Nat.toDigits 10 pid.toNat) = some pid.toNat := by
    obtain ⟨c, s, hcons⟩ := List.exists_cons_of_ne_nil hne
    have hvalue := Decimal.digits?_of_isDigit hne hdigit
    rw [Decimal.ofDigits_eq, Nat.ofDigitChars_ten_toDigits] at hvalue
    rw [Decimal.natural?]
    rw [hcons] at hdigit hvalue ⊢
    rw [Decimal.splitSign_of_isDigit (hdigit c List.mem_cons_self)]
    exact hvalue
  rw [parsePid, hdigits, htrim, hnatural]
  have hlt : pid.toNat < UInt32.size := pid.toNat_lt
  simp [hlt]

/-- A liveness file that has been created holds the number of the process. -/
theorem read_createPidFile {files files' : Tree} {path : String} {pid : UInt32}
    (h : createPidFile files path pid = .ok files') :
    files'.read path = .ok (toString pid.toNat) := by
  obtain ⟨made, -, hwrite⟩ := bind_eq_ok.1 h
  refine Tree.read_write (t := made) ?_
  cases hwritten : made.write path (toString pid.toNat) with
  | error e =>
    rw [hwritten] at hwrite
    cases hwrite
  | ok written =>
    rw [hwritten] at hwrite
    cases hwrite
    rfl

theorem readPid_of_read {files : Tree} {path : String} {pid : UInt32}
    (h : files.read path = .ok (toString pid.toNat)) : readPid files path = some pid := by
  rw [readPid, h]
  exact parsePid_toString pid

/-- A liveness file that is there is gone when it has been removed. -/
theorem contains_removePidFile {files : Tree} {path text : String} (h : files.read path = .ok text) :
    (removePidFile files path).contains path = false := by
  obtain ⟨files', hremove⟩ := Tree.exists_remove h
  rw [removePidFile, hremove]
  exact Tree.contains_remove hremove

/-! ## The calls -/

/-- Answers to requests are calls that keep to the discipline. -/
theorem tame_respond (limits : Limits) (request : HttpRequest) :
    (respond limits request).Tame [] [] := by
  unfold respond
  split
  · trivial
  · next route _ =>
    split
    · refine Call.Tame.bind ?_ fun _ => trivial
      -- Every route runs calls of the broker, which are tame on their own.
      cases route with
      | health => exact (tame_health limits).bind fun _ => trivial
      | reconnect => exact (tame_reconnect limits).bind fun _ => trivial
      | exec =>
        unfold serve
        dsimp only
        split
        · trivial
        · exact (tame_perform limits _).bind fun _ => trivial
    · trivial

/-- A call that does nothing any more but close sessions. -/
def OnlyCloses : Call Ending → Prop
  | .done _ => True
  | .await (.close _) rest => OnlyCloses (rest ())
  | _ => False

/-- A call that has ended does nothing any more. -/
theorem onlyCloses_of_result? {call : Call Ending} (h : call.result?.isSome = true) :
    OnlyCloses call := by
  cases call with
  | done result => trivial
  | act a rest => cases h
  | await wait rest => cases h

/-- A call that only closes waits for no attempt. -/
theorem OnlyCloses.wait?_ne {call : Call Ending} (h : OnlyCloses call) (a : AttemptId) :
    call.wait? ≠ some (.attempt a) := by
  cases call with
  | done result => nofun
  | act act rest => exact h.elim
  | await wait rest =>
    cases wait with
    | close session => nofun
    | _ => exact h.elim

/-- A call that only closes enters no critical section, so the pool stays as it is. -/
theorem OnlyCloses.settle {call : Call Ending} (h : OnlyCloses call) (p : Pool) :
    call.settle p = (p, call) := by
  cases call with
  | act a rest => exact h.elim
  | _ => rfl

/-- To give up takes the current session away at once, and what is left is its close. -/
theorem settle_giveUp (p : Pool) :
    (giveUp.settle p).1.current = none ∧ OnlyCloses (giveUp.settle p).2 := by
  obtain ⟨current, inFlight, attempts, forced⟩ := p
  cases current with
  | none => exact ⟨rfl, trivial⟩
  | some session => exact ⟨rfl, trivial⟩

/-! ## The system -/

section System

variable {ρ : Type} {s : System ρ}

/-- A call that is placed is the only one that is new. -/
theorem mem_place {id : CallId} {call : Call ρ} {calls : List (CallId × Call ρ)}
    {entry : CallId × Call ρ} (h : entry ∈ System.place id call calls) :
    entry = (id, call) ∨ entry ∈ calls := by
  induction calls with
  | nil => exact .inl (List.mem_singleton.1 h)
  | cons other calls ih =>
    rw [System.place] at h
    split at h
    · rcases List.mem_cons.1 h with h | h
      · exact .inl h
      · exact .inr (List.mem_cons_of_mem other h)
    · rcases List.mem_cons.1 h with rfl | h
      · exact .inr List.mem_cons_self
      · exact (ih h).imp_right (List.mem_cons_of_mem other)

/-- All calls have numbers below `n`. -/
def Numbered (n : CallId) (s : System ρ) : Prop :=
  ∀ entry ∈ s.calls, entry.1 < n

/-- The next number is free. -/
theorem Numbered.call?_eq_none {n : CallId} (h : Numbered n s) : s.call? n = none := by
  cases hcall : s.call? n with
  | none => rfl
  | some call => exact absurd (h _ (System.mem_of_call? hcall)) (Nat.lt_irrefl n)

/-- A call that goes on keeps its number. -/
theorem Numbered.advance {n id : CallId} (h : Numbered n s) (hid : id < n) (call : Call ρ) :
    Numbered n (s.advance id call) := by
  intro entry hentry
  rcases mem_place hentry with rfl | hentry
  · exact hid
  · exact h entry hentry

/-- All numbers stay below the next one, if calls begin under such numbers only. -/
theorem Numbered.step {n : CallId} (h : Numbered n s) {input : System.Input ρ}
    (hbegin : ∀ id call, input = .begin id call → id < n) : Numbered n (s.step input) := by
  have hstep := s.happens_step input
  generalize s.step input = s' at hstep ⊢
  -- Only `begin` brings a new number; every other step moves a call that has one.
  cases hstep with
  | ignored => exact h
  | begun _ => exact h.advance (hbegin _ _ rfl) _
  | @answered id answer wait rest reply hcall _ =>
    have hid : id < n := h _ (System.mem_of_call? hcall)
    obtain ⟨closed, hnote⟩ := s.exists_noteAnswer wait
    have hnoted : Numbered n ({ s with closed := closed } : System ρ) := h
    rw [hnote]
    exact hnoted.advance hid _
  | shared hcall _ => exact h.advance (h _ (System.mem_of_call? hcall)) _
  | connected _ _ => exact h
  | cleared _ _ => exact h
  | abandoned id => exact fun entry hentry => h entry (List.mem_of_mem_filter hentry)

end System

/-- Nothing is current, and nobody will change that. -/
structure Quiet (s : System Ending) : Prop where
  current : s.pool.current = none
  calls : ∀ entry ∈ s.calls, OnlyCloses entry.2

/-- Where all calls only close no attempt is awaited. -/
theorem Quiet.not_isAwaited {s : System Ending} (h : Quiet s) (a : AttemptId) :
    s.isAwaited a ≠ true := by
  intro hawaited
  obtain ⟨entry, hentry, hwait⟩ := List.any_eq_true.1 hawaited
  exact (h.calls entry hentry).wait?_ne a (eq_of_beq hwait)

/-- The world can change nothing in a quiet system but what is being closed. -/
theorem Quiet.step {s : System Ending} (h : Quiet s) {input : System.Input Ending}
    (hworld : input.isOfWorld = true) : Quiet (s.step input) := by
  have hstep := s.happens_step input
  generalize s.step input = s' at hstep ⊢
  cases hstep with
  | ignored => exact h
  | begun _ => cases hworld
  | @answered id answer wait rest reply hcall _ =>
    have hcloses := h.calls _ (System.mem_of_call? hcall)
    have hrest : OnlyCloses (rest reply) := by
      cases wait with
      | close session => exact hcloses
      | _ => exact hcloses.elim
    obtain ⟨closed, hnote⟩ := s.exists_noteAnswer wait
    have hsettle : (rest reply).settle s.pool = (s.pool, rest reply) := hrest.settle s.pool
    rw [hnote]
    refine ⟨?_, fun entry hentry => ?_⟩
    · show ((rest reply).settle s.pool).1.current = none
      rw [hsettle]
      exact h.current
    · rcases mem_place hentry with rfl | hentry
      · show OnlyCloses ((rest reply).settle s.pool).2
        rwa [hsettle]
      · exact h.calls entry hentry
  | shared hcall _ =>
    -- Nobody is left who waits for an attempt.
    exact absurd rfl ((h.calls _ (System.mem_of_call? hcall)).wait?_ne _)
  | connected _ hawaited => exact absurd hawaited (h.not_isAwaited _)
  | cleared _ hawaited => exact absurd hawaited (h.not_isAwaited _)
  | abandoned id => cases hworld

/-- When all calls have ended, the last one leaves nothing current. -/
theorem quiet_giveUp {s : System Ending} {n : CallId} (hnumbered : Numbered n s)
    (hidle : ∀ entry ∈ s.calls, entry.2.result?.isSome = true) :
    Quiet (s.step (.begin n giveUp)) := by
  simp only [System.step, hnumbered.call?_eq_none]
  obtain ⟨hcurrent, hcloses⟩ := settle_giveUp s.pool
  refine ⟨hcurrent, fun entry hentry => ?_⟩
  rcases mem_place hentry with rfl | hentry
  · exact hcloses
  · exact onlyCloses_of_result? (hidle entry hentry)

/-! ## The run -/

/-- The liveness file is as it was `before`, there or not. -/
def Untouched (before : Tree) (d : Daemon) : Prop :=
  (d.files.read d.pidFile).toOption = (before.read d.pidFile).toOption ∧
    d.files.contains d.pidFile = before.contains d.pidFile

/-- The liveness file holds the number of the daemon's process. -/
def Recorded (d : Daemon) : Prop :=
  d.files.read d.pidFile = .ok (toString d.pid.toNat)

/-- What is so at a stage of a run on files that were `before`. -/
def Stage.Fits (before : Tree) (d : Daemon) : Stage → Prop
  | binding => d.system = .empty ∧ Untouched before d
  | recording => d.system = .empty ∧ Untouched before d
  | failed _ => d.system = .empty ∧ Untouched before d
  | serving => Recorded d
  | draining => Recorded d
  | closing => Recorded d ∧ Quiet d.system
  | ended => d.files.contains d.pidFile = false ∧ Quiet d.system ∧ d.isIdle = true

/-- What each step preserves. -/
structure Alive (pidFile : String) (pid : UInt32) (before : Tree) (d : Daemon) : Prop where
  pidFile : d.pidFile = pidFile
  pid : d.pid = pid
  owned : d.system.Owned
  numbered : Numbered d.calls d.system
  warmUp : Daemon.warmUp < d.calls
  stage : d.stage.Fits before d

variable {pidFile : String} {pid : UInt32} {before : Tree} {d : Daemon}

theorem alive_starting (limits : Limits) (pidFile : String) (pid : UInt32) (files : Tree) :
    Alive pidFile pid files (starting limits pidFile pid files) where
  pidFile := rfl
  pid := rfl
  owned := System.owned_empty
  numbered := fun _ hentry => absurd hentry List.not_mem_nil
  warmUp := Nat.lt_succ_self _
  stage := ⟨rfl, rfl, rfl⟩

theorem Alive.fits (h : d.Alive pidFile pid before) {stage : Stage} (hstage : d.stage = stage) :
    stage.Fits before d :=
  hstage ▸ h.stage

/-- The stage changes, and nothing else does. -/
theorem Alive.toStage (h : d.Alive pidFile pid before) (stage : Stage)
    (hstage : stage.Fits before d) : Alive pidFile pid before { d with stage := stage } := by
  refine ⟨h.pidFile, h.pid, h.owned, h.numbered, h.warmUp, ?_⟩
  cases stage <;> exact hstage

/-- Calls go on while requests are answered. -/
theorem Alive.withSystem (h : d.Alive pidFile pid before) (hserving : d.isServing = true)
    {s : System Ending} {calls : Nat} (howned : s.Owned) (hnumbered : Numbered calls s)
    (hwarmUp : Daemon.warmUp < calls) :
    Alive pidFile pid before { d with system := s, calls := calls } := by
  refine ⟨h.pidFile, h.pid, howned, hnumbered, hwarmUp, ?_⟩
  have hfits := h.stage
  obtain ⟨limits, pidFile', pid', stage, files, system, calls'⟩ := d
  cases stage <;> first | exact hfits | cases hserving

/-- Moving on to the next stage keeps the invariant. The file is removed with the last stage, and
not before. -/
theorem Alive.moveOn (h : d.Alive pidFile pid before) : d.moveOn.Alive pidFile pid before := by
  unfold Daemon.moveOn
  split
  · next hclosing =>
    obtain ⟨hrecorded, hquiet⟩ := h.fits hclosing.1
    exact ⟨h.pidFile, h.pid, h.owned, h.numbered, h.warmUp, contains_removePidFile hrecorded, hquiet,
      hclosing.2⟩
  · exact h

/-- The broker goes on as the world has it. -/
theorem Alive.pass (h : d.Alive pidFile pid before) {input : System.Input Ending}
    (hworld : input.isOfWorld = true) : (d.pass input).Alive pidFile pid before := by
  have htame := System.Input.isTame_of_isOfWorld hworld
  have howned : (d.system.step input).Owned := h.owned.step htame.beginsTame (htame.keeps _)
  have hnumbered : Numbered d.calls (d.system.step input) := by
    refine h.numbered.step fun id call hbegin => ?_
    rw [hbegin] at hworld
    cases hworld
  unfold Daemon.pass
  split
  · next hup =>
    refine Alive.moveOn ?_
    rcases Bool.or_eq_true_iff.1 hup with hserving | hclosing
    · exact h.withSystem hserving howned hnumbered h.warmUp
    · -- While closing, the world only finishes what is still in flight.
      have hstage : d.stage = .closing := of_decide_eq_true hclosing
      obtain ⟨hrecorded, hquiet⟩ := h.fits hstage
      refine ⟨h.pidFile, h.pid, howned, hnumbered, h.warmUp, ?_⟩
      show Stage.Fits before _ d.stage
      rw [hstage]
      exact ⟨hrecorded, hquiet.step hworld⟩
  · exact h

/-- A call begins. -/
theorem Alive.begin (h : d.Alive pidFile pid before) (hserving : d.isServing = true)
    {call : Call Ending} (htame : call.Tame [] []) : (d.begin call).Alive pidFile pid before := by
  refine h.withSystem hserving (h.owned.step htame fun _ => trivial) ?_ (Nat.lt_succ_of_lt h.warmUp)
  have hmore : Numbered (d.calls + 1) d.system :=
    fun entry hentry => Nat.lt_succ_of_lt (h.numbered entry hentry)
  refine hmore.step fun id other hbegin => ?_
  cases hbegin
  exact Nat.lt_succ_self _

/-- A call is taken away that is not closing a session. -/
theorem Alive.takeAway (h : d.Alive pidFile pid before) (hserving : d.isServing = true)
    (id : CallId) : (d.takeAway id).Alive pidFile pid before := by
  unfold Daemon.takeAway
  split
  · exact h
  · next hclosing =>
    refine h.withSystem hserving (h.owned.step trivial fun session hwait => hclosing ?_)
      (h.numbered.step nofun) h.warmUp
    rw [isClosing, hwait]

/-- The liveness file is written. -/
theorem Alive.record (h : d.Alive pidFile pid before) (hrecording : d.stage = .recording) :
    d.record.Alive pidFile pid before := by
  have hfits := h.fits hrecording
  unfold Daemon.record
  split
  · next files hfiles =>
    exact ⟨h.pidFile, h.pid, h.owned, h.numbered, h.warmUp, read_createPidFile hfiles⟩
  · exact h.toStage _ hfits

/-- What others do elsewhere. -/
theorem Alive.elsewhere (h : d.Alive pidFile pid before) {files : Tree}
    (halone : d.isLeftAlone files = true) :
    Alive pidFile pid before { d with files := files } := by
  refine ⟨h.pidFile, h.pid, h.owned, h.numbered, h.warmUp, ?_⟩
  obtain ⟨hread, hcontains⟩ := Bool.and_eq_true_iff.1 halone
  replace hread := of_decide_eq_true hread
  replace hcontains := of_decide_eq_true hcontains
  -- Others may change any file but this one, so what holds of it still does.
  have huntouched (hbefore : Untouched before d) : Untouched before { d with files := files } :=
    ⟨hread.trans hbefore.1, hcontains.trans hbefore.2⟩
  have hrecorded (hbefore : Recorded d) : Recorded { d with files := files } := by
    rw [Recorded] at hbefore
    rw [hbefore] at hread
    show files.read d.pidFile = _
    cases htext : files.read d.pidFile with
    | error e => rw [htext] at hread; cases hread
    | ok text => rw [htext] at hread; cases hread; rfl
  have hfits := h.stage
  obtain ⟨limits, pidFile', pid', stage, files', system, calls⟩ := d
  cases stage with
  | binding => exact ⟨hfits.1, huntouched hfits.2⟩
  | recording => exact ⟨hfits.1, huntouched hfits.2⟩
  | failed e => exact ⟨hfits.1, huntouched hfits.2⟩
  | serving => exact hrecorded hfits
  | draining => exact hrecorded hfits
  | closing => exact ⟨hrecorded hfits.1, hfits.2⟩
  | ended => exact ⟨hcontains.trans hfits.1, hfits.2⟩

theorem stage_takeAway (d : Daemon) (id : CallId) : (d.takeAway id).stage = d.stage := by
  unfold Daemon.takeAway
  split <;> rfl

theorem isServing_of_stage (h : d.stage = .serving) : d.isServing = true := by
  rw [isServing, h]
  rfl

/-- The server has ended, and the session is given up. -/
theorem Alive.drained (h : d.Alive pidFile pid before) (hdraining : d.stage = .draining)
    (hidle : d.isIdle = true) :
    (Daemon.begin { d with stage := .closing } giveUp).Alive pidFile pid before := by
  have hserving : d.isServing = true := by
    rw [isServing, hdraining]
    rfl
  have htame : giveUp.Tame [] [] := tame_shutdown.bind fun _ => trivial
  have hbegun : (d.begin giveUp).Alive pidFile pid before := h.begin hserving htame
  have hquiet : Quiet (d.begin giveUp).system :=
    quiet_giveUp h.numbered fun entry hentry => List.all_eq_true.1 hidle entry hentry
  exact hbegun.toStage .closing ⟨h.fits hdraining, hquiet⟩

/-- The daemon gets its port, or it does not. -/
theorem Alive.bound (h : d.Alive pidFile pid before) (outcome : Except String Unit) :
    (d.step (.bound outcome)).Alive pidFile pid before := by
  -- Whichever way it goes, no session has been made and the file is as it was.
  have hbinding (hstage : d.stage = .binding) : d.system = .empty ∧ Untouched before d :=
    h.fits hstage
  cases outcome <;> simp only [Daemon.step] <;> split
  · next hstage => exact h.toStage _ (hbinding hstage)
  · exact h
  · next hstage => exact h.toStage _ (hbinding hstage)
  · exact h

/-- The connect ahead of the first request begins. -/
theorem Alive.warms (h : d.Alive pidFile pid before) (hstage : d.stage = .serving) :
    Alive pidFile pid before { d with
      system := d.system.step (.begin Daemon.warmUp do
        return .warmedUp (← ensure d.limits)) } := by
  have htame : (do return Ending.warmedUp (← ensure d.limits) : Call Ending).Tame [] [] :=
    (tame_ensure d.limits).bind fun _ => trivial
  refine h.withSystem (isServing_of_stage hstage) (h.owned.step htame fun _ => trivial)
    (h.numbered.step fun id call hbegin => ?_) h.warmUp
  cases hbegin
  exact h.warmUp

/-- The daemon is told to end, while no session is being closed ahead of the first request. -/
theorem Alive.told (h : d.Alive pidFile pid before) (hstage : d.stage = .serving) :
    Alive pidFile pid before { d.takeAway Daemon.warmUp with stage := .draining } := by
  have htaken := h.takeAway (isServing_of_stage hstage) Daemon.warmUp
  have hrecorded : Recorded (d.takeAway Daemon.warmUp) :=
    htaken.fits ((stage_takeAway d _).trans hstage)
  exact htaken.toStage .draining hrecorded

/-- **One step.** -/
theorem Alive.step (h : d.Alive pidFile pid before) (input : Input) :
    (d.step input).Alive pidFile pid before := by
  cases input with
  | bound outcome => exact h.bound outcome
  | record refusal =>
    -- Recording succeeds or is refused, and both need the stage for it.
    cases refusal <;> simp only [Daemon.step] <;> split
    · next hstage => exact h.record hstage
    · exact h
    · next hstage =>
      have hfits := h.fits hstage
      exact h.toStage _ hfits
    · exact h
  | warmUp =>
    simp only [Daemon.step]
    split
    · next hstage => exact h.warms hstage
    · exact h
  | request request =>
    simp only [Daemon.step]
    split
    · next hserving => exact h.begin hserving ((tame_respond d.limits request).bind fun _ => trivial)
    · exact h
  | hangUp id =>
    simp only [Daemon.step]
    split
    · next hserving => exact h.takeAway hserving id
    · exact h
  | answer id answer => exact h.pass rfl
  | share id => exact h.pass rfl
  | connected attempt outcome => exact h.pass rfl
  | cleared attempt => exact h.pass rfl
  | signal =>
    simp only [Daemon.step]
    split
    · next hsignal => exact h.told hsignal.1
    · exact h
  | drained =>
    simp only [Daemon.step]
    split
    · next hdrained => exact (h.drained hdrained.1 hdrained.2).moveOn
    · exact h
  | elsewhere files =>
    simp only [Daemon.step]
    split
    · next halone => exact h.elsewhere halone
    · exact h

/-- **A run.** Induction on the inputs. -/
theorem Alive.run (h : d.Alive pidFile pid before) (inputs : List Input) :
    (d.run inputs).Alive pidFile pid before := by
  induction inputs generalizing d with
  | nil => exact h
  | cons input inputs ih => exact ih (h.step input)

/-- A run that has ended has closed every session. -/
theorem Alive.closed_of_ended (h : d.Alive pidFile pid before) (hended : d.stage = .ended)
    {session : SessionId} (hmade : session < d.system.sessions) : session ∈ d.system.closed := by
  obtain ⟨-, hquiet, hidle⟩ := h.fits hended
  refine h.owned.closed_of_ended (fun id call hcall => ?_) hmade ?_
  · exact List.all_eq_true.1 hidle _ (System.mem_of_call? hcall)
  · rw [hquiet.current]
    exact (Option.some_ne_none session).symm

/-- While a session is open, the file is there. -/
theorem Alive.recorded_of_open (h : d.Alive pidFile pid before) {session : SessionId}
    (hmade : session < d.system.sessions) (hopen : session ∉ d.system.closed) : Recorded d := by
  have hnone (hempty : d.system = .empty) : Recorded d := by
    rw [hempty] at hmade
    exact absurd hmade (Nat.not_lt_zero session)
  have hfits := h.stage
  cases hstage : d.stage with
  | ended => exact absurd (h.closed_of_ended hstage hmade) hopen
  | _ =>
    rw [hstage] at hfits
    first | exact hfits | exact hfits.1 | exact hnone hfits.1

/-- **No session without the liveness file**, in every state that a run can come to. -/
theorem liveness_file (limits : Limits) (pidFile : String) (pid : UInt32) (files : Tree)
    (inputs : List Input) :
    let d := (starting limits pidFile pid files).run inputs
    -- While a session is open, there is the file with the number of this process.
    (∀ session < d.system.sessions, session ∉ d.system.closed → readPid d.files pidFile = some pid) ∧
    -- When the run has ended, every session is closed and the file is gone.
    (d.stage = .ended → (∀ session < d.system.sessions, session ∈ d.system.closed) ∧
      d.files.contains pidFile = false) ∧
    -- A run that cannot have its port makes no session and leaves the file as it is, there or not.
    (∀ address, d.stage = .failed (.noPort address) → d.system.sessions = 0 ∧
      (d.files.read pidFile).toOption = (files.read pidFile).toOption ∧
      d.files.contains pidFile = files.contains pidFile) := by
  intro d
  have halive : d.Alive pidFile pid files := (alive_starting limits pidFile pid files).run inputs
  have hpath : d.pidFile = pidFile := halive.pidFile
  -- All three are read off the invariant at the stage the run is in.
  refine ⟨fun session hmade hopen => ?_, fun hended => ⟨fun session => ?_, ?_⟩,
    fun address hfailed => ?_⟩
  · have hrecorded := halive.recorded_of_open hmade hopen
    rw [Recorded, hpath, halive.pid] at hrecorded
    exact readPid_of_read hrecorded
  · exact halive.closed_of_ended hended
  · have hfits := halive.stage
    rw [hended] at hfits
    exact hpath ▸ hfits.1
  · have hfits := halive.stage
    rw [hfailed] at hfits
    obtain ⟨hempty, hread, hcontains⟩ := hfits
    rw [hpath] at hread hcontains
    exact ⟨congrArg System.sessions hempty, hread, hcontains⟩

end Daemon

end CanvasLink
