import CanvasLink.Proofs.Connection.Correlation

/-!
# CanvasLink — what the table of pending calls holds

A request is entered in the table before it is known whether it can be written, and there are four
ways out of it: an answer, the end of a call that could not be written, the loss of a call, and the
end of the connection. This module says that nothing is left behind on any of them and nothing is
taken out too early.

* `guardedSend`, `vacate` — sending as it happens: the slot is taken first, and given back when the
  request cannot be written. `send_eq_guardedSend` is the transport to `send`.
* `Outstanding` — a call of a run that is written and has neither finished nor been dropped, said
  without the table. `mem_pending_iff` says that the table holds these calls and no others.
* `requests_run` — requests are numbered in the order in which they are written.
* `Ended` — a connection behind `close` or the end of its inbound side; `Ended.run` keeps it so.
* **`table_holds_outstanding`** — the headline.
-/

namespace CanvasLink.Connection

open CanvasLink.Bridge CanvasLink.Json CanvasLink.Wire

/-! ## Slots -/

/-- Gives the slot of an id back, if it is taken. -/
def vacate (c : Connection) (id : UInt64) : Connection :=
  { c with pending := c.pending.filter (·.id != id) }

/-- Sending, with the slot taken before anything is known of the connection. A call that cannot be
written gives its slot back when it ends. -/
def guardedSend (c : Connection) (call : CallId) (method : String) (params : Value)
    (purpose : Purpose) : Connection × List Effect :=
  let id := UInt64.ofNat (c.issued + 1)
  let entered : Connection :=
    { c with issued := c.issued + 1, pending := c.pending ++ [⟨id, call, purpose⟩] }
  let failed := (entered.vacate id, [Effect.finished call (.error .connectionClosed)])
  if entered.live then
    if entered.holdsSender && entered.peerReads then (entered, [.wrote ⟨id, method, params⟩])
    else failed
  else failed

section Slots

variable {c : Connection} {inputs : List Input}

/-- A slot that has been given back is not given back twice. -/
theorem vacate_vacate (c : Connection) (id : UInt64) : (c.vacate id).vacate id = c.vacate id := by
  unfold vacate
  rw [List.filter_filter]
  simp only [Bool.and_self]

/-- The new slot is given back alone: no call that waits has its id. -/
theorem send_eq_guardedSend {call : CallId} {method : String} {params : Value} {purpose : Purpose}
    (h : Orderly c (.send call method params purpose :: inputs)) :
    c.send call method params purpose = c.guardedSend call method params purpose := by
  have hroom : c.issued + 1 < UInt64.size := by
    have hroom := h.room
    have hone : 1 ≤ ((Input.send call method params purpose :: inputs).filterMap
        Input.begins?).length := Nat.succ_le_succ (Nat.zero_le _)
    omega
  have hid : (UInt64.ofNat (c.issued + 1)).toNat = c.issued + 1 := UInt64.toNat_ofNat_of_lt' hroom
  -- The slot that is taken was free, so giving it back takes it from nobody else.
  have hothers : c.pending.filter (·.id != UInt64.ofNat (c.issued + 1)) = c.pending := by
    rw [List.filter_eq_self]
    intro p hp
    have hle := h.issued p hp
    rw [bne_iff_ne]
    intro heq
    rw [heq, hid] at hle
    omega
  have hback : ({ c with
      issued := c.issued + 1
      pending := c.pending ++ [⟨UInt64.ofNat (c.issued + 1), call, purpose⟩] } : Connection).vacate
        (UInt64.ofNat (c.issued + 1)) = { c with issued := c.issued + 1 } := by
    simp only [vacate, List.filter_append, hothers, List.filter_singleton, bne_self_eq_false,
      cond_false, List.append_nil]
  simp only [send, guardedSend, hback]
  cases c.live <;> simp

/-- An answer gives the slot of its call back, and the call that ends with it finds it free. -/
theorem deliver_eq_vacate (h : Orderly c inputs) {p : PendingCall} (hp : p ∈ c.pending)
    {message : Value} {r : Response} (hr : Response.decode message = .ok r) (hid : r.id = p.id) :
    (c.step (.deliver message)).1 = (c.vacate p.id).vacate p.id := by
  rw [vacate_vacate, step, h.deliver_of_decode hp hr hid]
  rfl

/-- A call that is dropped gives its own slot back and no other. -/
theorem cancel_eq_vacate (h : Orderly c inputs) {p : PendingCall} (hp : p ∈ c.pending) :
    c.step (.cancel p.call) = (c.vacate p.id, []) := by
  simp only [step, vacate, Prod.mk.injEq, and_true]
  congr 1
  refine List.filter_congr fun q hq => ?_
  -- Calls and ids are both numbered apart, so that either tells the slots apart.
  have hcall : q.call = p.call ↔ q.id = p.id :=
    ⟨fun heq => congrArg _ (List.inj_on_of_nodup_map h.nodup_calls hq hp heq),
      fun heq => congrArg _ (List.inj_on_of_nodup_map h.ids hq hp heq)⟩
  rw [Bool.eq_iff_iff, bne_iff_ne, bne_iff_ne, ne_eq, ne_eq, hcall]

end Slots

/-! ## Calls that are outstanding -/

/-- After these inputs the call is outstanding: it was written, and since then it has been told
nothing and has not been dropped. -/
inductive Outstanding : List Input → PendingCall → Prop
  | mk {before following : List Input} {p : PendingCall} {method : String} {params : Value}
    (hwrote : .wrote ⟨p.id, method, params⟩ ∈
      ((opened.run before).1.step (.send p.call method params p.purpose)).2)
    (hunfinished : outcomes p.call (opened.effects (around before p method params following)) = [])
    (hkept : .cancel p.call ∉ following) :
    Outstanding (around before p method params following) p

section Outstanding

variable {c : Connection} {p : PendingCall} {input : Input} {inputs : List Input}

/-- A call that waits behind a step waited before it, or was written in it. -/
theorem mem_pending_step (h : p ∈ (c.step input).1.pending) :
    p ∈ c.pending ∨ ∃ method params, input = .send p.call method params p.purpose ∧
      .wrote ⟨p.id, method, params⟩ ∈ (c.step input).2 := by
  -- Only `send` adds to the table, and only when it writes.
  cases input with
  | send call method params purpose =>
    simp only [step, send] at h ⊢
    split at h
    · next hopen =>
      rw [if_pos hopen]
      rcases List.mem_append.1 h with hold | hnew
      · exact .inl hold
      · rw [List.mem_singleton.1 hnew]
        exact .inr ⟨method, params, rfl, List.mem_singleton_self _⟩
    · exact .inl h
  | deliver message =>
    rw [step] at h
    rcases c.deliver_cases message with ⟨_, _, _, _, heq⟩ | ⟨_, _, heq⟩ | heq
    · rw [heq] at h
      exact .inl (List.mem_filter.1 h).1
    · rw [heq] at h
      exact .inl h
    · rw [heq] at h
      exact .inl h
  | cancel call => exact .inl (List.mem_filter.1 h).1
  | close => exact absurd h List.not_mem_nil
  | hangUp => exact absurd h List.not_mem_nil
  | stopReading => exact .inl h

/-- A call that waits at the end of a run waited at its start, or was written in it. Induction on
the inputs. -/
theorem mem_pending_run (h : p ∈ (c.run inputs).1.pending) :
    p ∈ c.pending ∨ ∃ before method params following,
      inputs = around before p method params following ∧ .wrote ⟨p.id, method, params⟩ ∈
        ((c.run before).1.step (.send p.call method params p.purpose)).2 := by
  induction inputs generalizing c with
  | nil => exact .inl h
  | cons input inputs ih =>
    rcases ih h with hstep | ⟨before, method, params, following, rfl, hwrote⟩
    · rcases mem_pending_step hstep with hold | ⟨method, params, rfl, hwrote⟩
      · exact .inl hold
      · exact .inr ⟨[], method, params, inputs, rfl, hwrote⟩
    · exact .inr ⟨input :: before, method, params, following, rfl, hwrote⟩

/-- A call that waits goes on waiting exactly as long as nothing ends it. -/
theorem mem_pending_run_iff (h : Orderly c inputs) (hp : p ∈ c.pending) :
    p ∈ (c.run inputs).1.pending ↔ inputs.findSome? p.ending? = none := by
  induction inputs generalizing c with
  | nil => exact iff_of_true hp rfl
  | cons input inputs ih =>
    cases hinput : p.ending? input with
    | none =>
      obtain ⟨-, hp'⟩ := step_of_ending?_none h hp hinput
      rw [List.findSome?_cons_of_isNone (by simp [hinput])]
      exact ih h.step hp'
    | some outcome? =>
      obtain ⟨-, hgone⟩ := step_of_ending?_some h hp hinput
      -- The call does not come back, because its number is given to no other.
      have hrest : p.call ∉ inputs.filterMap Input.begins? := by
        intro hmem
        refine (List.nodup_append.1 h.calls).2.2 _ (List.mem_map_of_mem hp) _ ?_ rfl
        exact ((List.sublist_cons_self _ _).filterMap _).subset hmem
      have hnever := (outcomes_run_of_notMem hgone hrest).2
      refine iff_of_false (fun hmem => hnever (List.mem_map_of_mem hmem)) ?_
      simp [hinput]

/-- A call that is told nothing and not dropped has met nothing that ends it. -/
theorem findSome?_ending?_eq_none_iff (p : PendingCall) (inputs : List Input) :
    inputs.findSome? p.ending? = none ↔
      (inputs.findSome? p.ending?).join.toList = [] ∧ .cancel p.call ∉ inputs := by
  constructor
  · intro hnone
    refine ⟨by rw [hnone]; rfl, fun hmem => ?_⟩
    have hcancel := List.findSome?_eq_none_iff.1 hnone _ hmem
    simp [PendingCall.ending?] at hcancel
  · rintro ⟨htold, hkept⟩
    cases hfirst : inputs.findSome? p.ending? with
    | none => rfl
    | some outcome? =>
      obtain ⟨input, hinput, hending⟩ := List.exists_of_findSome?_eq_some hfirst
      rw [hfirst] at htold
      -- The first ending is one with an outcome, unless the call is cancelled.
      rcases p.cases_ending? hending with ⟨-, -, outcome, -, -, -, rfl, -⟩ | ⟨-, rfl⟩ | ⟨rfl, -⟩
      · cases htold
      · cases htold
      · exact absurd hinput hkept

/-- **The table holds the calls that are outstanding.** -/
theorem mem_pending_iff (hcalls : (inputs.filterMap Input.begins?).Nodup)
    (hroom : (inputs.filterMap Input.begins?).length < UInt64.size) :
    p ∈ (opened.run inputs).1.pending ↔ Outstanding inputs p := by
  -- A call in the table was written, and everything that it has met since then lies behind.
  have hfollowing {before following : List Input} {method : String} {params : Value}
      (hinputs : inputs = around before p method params following)
      (hwrote : .wrote ⟨p.id, method, params⟩ ∈
        ((opened.run before).1.step (.send p.call method params p.purpose)).2) :
      p ∈ (opened.run inputs).1.pending ↔
        outcomes p.call (opened.effects inputs) = [] ∧ .cancel p.call ∉ following := by
    subst hinputs
    have hwrites : Writes before p method params following := ⟨hcalls, hroom, hwrote⟩
    have horderly := (orderly_opened hcalls hroom).run.step
    have hp := (mem_pending_of_wrote hwrote).2
    rw [hwrites.outcomes_eq, ← findSome?_ending?_eq_none_iff, ← mem_pending_run_iff horderly hp,
      around, run_append]
    rfl
  constructor
  · intro h
    obtain hold | ⟨before, method, params, following, hinputs, hwrote⟩ := mem_pending_run h
    · exact absurd hold List.not_mem_nil
    · obtain ⟨hunfinished, hkept⟩ := (hfollowing hinputs hwrote).1 h
      subst hinputs
      exact .mk hwrote hunfinished hkept
  · rintro ⟨hwrote, hunfinished, hkept⟩
    exact (hfollowing rfl hwrote).2 ⟨hunfinished, hkept⟩

end Outstanding

/-! ## Numbers of requests -/

/-- The request that an effect writes. -/
def Effect.written? : Effect → Option Request
  | .wrote request => some request
  | _ => none

/-- All requests that effects write, in order. -/
def requests (effects : List Effect) : List Request :=
  effects.filterMap Effect.written?

/-- Whether a request can be written. -/
def canWrite (c : Connection) : Bool :=
  c.live && c.holdsSender && c.peerReads

section Requests

variable {c : Connection} {input : Input} {inputs : List Input}

/-- The end of a connection writes nothing. -/
theorem requests_failPending (c : Connection) : requests c.failPending.2 = [] := by
  show (c.pending.map _).filterMap _ = []
  rw [List.filterMap_map, List.filterMap_eq_nil_iff]
  exact fun _ _ => rfl

/-- A step writes the request of a call, under the next number, if it can; nothing else is ever
written, and what cannot be written now can never be. -/
theorem requests_step (c : Connection) (input : Input) :
    (∃ call method params purpose, input = .send call method params purpose ∧ c.canWrite = true ∧
      requests (c.step input).2 = [⟨UInt64.ofNat (c.issued + 1), method, params⟩] ∧
      (c.step input).1.issued = c.issued + 1) ∨
    requests (c.step input).2 = [] ∧
      ((c.step input).1.canWrite = true → c.canWrite = true ∧ (c.step input).1.issued = c.issued) := by
  cases input with
  | send call method params purpose =>
    simp only [step, send]
    split
    · next hopen => exact .inl ⟨call, method, params, purpose, rfl, hopen, rfl, rfl⟩
    · next hmute => exact .inr ⟨rfl, fun hopen => absurd hopen hmute⟩
  | deliver message =>
    right
    rw [step]
    rcases c.deliver_cases message with ⟨_, _, _, _, heq⟩ | ⟨_, _, heq⟩ | heq <;> rw [heq] <;>
      exact ⟨rfl, fun h => ⟨h, rfl⟩⟩
  | cancel call => exact .inr ⟨rfl, fun h => ⟨h, rfl⟩⟩
  | close =>
    refine .inr ⟨requests_failPending _, fun h => ?_⟩
    cases h
  | hangUp =>
    refine .inr ⟨requests_failPending _, fun h => ?_⟩
    cases h
  | stopReading =>
    refine .inr ⟨rfl, fun h => ?_⟩
    -- What cannot write any more needs no number to go on with.
    simp [step, canWrite] at h

theorem requests_append (as bs : List Effect) :
    requests (as ++ bs) = requests as ++ requests bs :=
  List.filterMap_append

/-- Once nothing can be written, nothing is. Induction on the inputs. -/
theorem requests_of_mute (h : c.canWrite = false) : requests (c.effects inputs) = [] := by
  induction inputs generalizing c with
  | nil => rfl
  | cons input inputs ih =>
    rcases requests_step c input with ⟨-, -, -, -, -, hopen, -⟩ | ⟨hnone, hkeeps⟩
    · exact absurd (h.symm.trans hopen) Bool.false_ne_true
    · have hmute : (c.step input).1.canWrite = false := by
        rw [Bool.eq_false_iff]
        exact fun hopen => Bool.false_ne_true (h.symm.trans (hkeeps hopen).1)
      rw [effects_cons, requests_append, hnone, ih hmute]
      rfl

/-- **Requests are numbered as they are written**, from the first number that is left. Induction on
the inputs. -/
theorem requests_run (c : Connection) (inputs : List Input) :
    ∃ n ≤ (inputs.filterMap Input.begins?).length, (requests (c.effects inputs)).map (·.id) =
      (List.range' (c.issued + 1) n).map UInt64.ofNat := by
  induction inputs generalizing c with
  | nil => exact ⟨0, Nat.le_refl _, rfl⟩
  | cons input inputs ih =>
    obtain ⟨n, hn, hrest⟩ := ih (c.step input).1
    rw [effects_cons, requests_append]
    -- The first request takes the next number, and those of the rest follow on it.
    rcases requests_step c input with ⟨call, method, params, purpose, rfl, -, hwrote, hissued⟩ |
      ⟨hnone, hkeeps⟩
    · refine ⟨n + 1, Nat.succ_le_succ hn, ?_⟩
      rw [hwrote, List.singleton_append, List.map_cons, hrest, hissued, List.range'_succ,
        List.map_cons]
    · rw [hnone, List.nil_append]
      cases hopen : (c.step input).1.canWrite with
      | true =>
        refine ⟨n, ?_, by rw [hrest, (hkeeps hopen).2]⟩
        exact Nat.le_trans hn ((List.sublist_cons_self _ _).filterMap _).length_le
      -- A connection that has lost its way out writes nothing in the rest either.
      | false => exact ⟨0, Nat.zero_le _, by rw [requests_of_mute hopen]; rfl⟩

end Requests

/-! ## After the end -/

/-- `close` or the end of the inbound side has been seen, and nobody waits. -/
structure Ended (c : Connection) : Prop where
  live : c.live = false
  pending : c.pending = []

namespace Ended

variable {c : Connection}

/-- With `close` or the end of the inbound side the connection has ended. -/
theorem of_step (c : Connection) {input : Input} (h : input = .close ∨ input = .hangUp) :
    (c.step input).1.Ended := by
  rcases h with rfl | rfl <;> exact ⟨rfl, rfl⟩

/-- A call fails at once, and nothing is written for it. -/
theorem send_eq (h : c.Ended) (call : CallId) (method : String) (params : Value)
    (purpose : Purpose) : c.send call method params purpose =
      ({ c with issued := c.issued + 1 },
        [.finished call (.error (.transport "connection closed"))]) := by
  simp only [Connection.send, h.live, Bool.false_and, Bool.false_eq_true, if_false]
  rfl

/-- No input opens a connection that has ended. -/
theorem step (h : c.Ended) (input : Input) : (c.step input).1.Ended := by
  cases input with
  | send call method params purpose =>
    simp only [Connection.step, h.send_eq]
    exact ⟨h.live, h.pending⟩
  | deliver message =>
    rw [Connection.step, deliver_of_pending_nil h.pending]
    exact h
  | cancel call => exact ⟨h.live, by simp [Connection.step, h.pending]⟩
  | close => exact ⟨rfl, rfl⟩
  | hangUp => exact ⟨rfl, rfl⟩
  | stopReading => exact ⟨h.live, h.pending⟩

/-- A connection that has ended stays so along every run. -/
theorem run (h : c.Ended) (inputs : List Input) : (c.run inputs).1.Ended := by
  induction inputs generalizing c with
  | nil => exact h
  | cons input inputs ih => exact ih (h.step input)

/-- A run with an ending input in it leaves an ended connection. -/
theorem of_mem (c : Connection) {stop : Input} (h : stop = .close ∨ stop = .hangUp)
    {inputs : List Input} (hmem : stop ∈ inputs) : (c.run inputs).1.Ended := by
  obtain ⟨before, after, rfl⟩ := List.append_of_mem hmem
  rw [run_append]
  exact (of_step _ h).run after

theorem isOpen (h : c.Ended) : c.isOpen = false := by
  rw [Connection.isOpen, h.live, Bool.false_and]

theorem requests_effects (h : c.Ended) (inputs : List Input) :
    requests (c.effects inputs) = [] :=
  requests_of_mute (by rw [canWrite, h.live]; rfl)

end Ended

/-! ## The headline -/

/-- **The table holds exactly the outstanding requests**, at each point of a run from the opening
on. Calls are numbered apart, and ids are words of 64 bits, of which there are enough for all
calls. -/
theorem table_holds_outstanding {inputs : List Input}
    (hcalls : (inputs.filterMap Input.begins?).Nodup)
    (hroom : (inputs.filterMap Input.begins?).length < UInt64.size) :
    -- The keys of the table are the ids of the calls that are outstanding, each once.
    (∀ soFar later, inputs = soFar ++ later →
      ((opened.run soFar).1.pending.map (·.id)).Nodup ∧
      ∀ id, id ∈ (opened.run soFar).1.pending.map (·.id) ↔ ∃ p, Outstanding soFar p ∧ p.id = id) ∧
    -- That is so although each call enters its slot before it is known whether it can be written.
    (∀ before call method params purpose after,
      inputs = before ++ .send call method params purpose :: after →
        (opened.run before).1.step (.send call method params purpose) =
          (opened.run before).1.guardedSend call method params purpose) ∧
    -- A call that is answered or dropped gives back its own slot; giving it back twice is no harm.
    (∀ before p message after, inputs = before ++ .deliver message :: after →
      p ∈ (opened.run before).1.pending → (∃ r, Response.decode message = .ok r ∧ r.id = p.id) →
        ((opened.run before).1.step (.deliver message)).1 =
          ((opened.run before).1.vacate p.id).vacate p.id) ∧
    (∀ before p after, inputs = before ++ .cancel p.call :: after →
      p ∈ (opened.run before).1.pending →
        (opened.run before).1.step (.cancel p.call) = ((opened.run before).1.vacate p.id, [])) ∧
    -- Requests carry the ids 1, 2, … in the order in which they are written.
    (∀ soFar later, inputs = soFar ++ later → ∃ n,
      (requests (opened.effects soFar)).map (·.id.toNat) = List.range' 1 n) ∧
    -- From the end of the connection on nobody waits, every call fails and nothing is written.
    ∀ before stop after, inputs = before ++ stop :: after → stop = .close ∨ stop = .hangUp →
      requests (((opened.run before).1.step stop).1.effects after) = [] ∧
      ∀ earlier later, after = earlier ++ later →
        let c := (opened.run (before ++ stop :: earlier)).1
        c.pending = [] ∧ c.isOpen = false ∧ ∀ call method params purpose,
          (c.step (.send call method params purpose)).2 =
            [.finished call (.error (.transport "connection closed"))] := by
  have hstart := orderly_opened hcalls hroom
  have hpart {soFar later : List Input} (hinputs : inputs = soFar ++ later) :
      (soFar.filterMap Input.begins?).Nodup ∧
        (soFar.filterMap Input.begins?).length < UInt64.size := by
    have hsub : (soFar.filterMap Input.begins?).Sublist (inputs.filterMap Input.begins?) :=
      hinputs ▸ (List.sublist_append_left soFar later).filterMap _
    exact ⟨hsub.nodup hcalls, Nat.lt_of_le_of_lt hsub.length_le hroom⟩
  refine ⟨?_, ?_, ?_, ?_, ?_, ?_⟩
  · intro soFar later hinputs
    obtain ⟨hcalls', hroom'⟩ := hpart hinputs
    subst hinputs
    refine ⟨hstart.run.ids, fun id => ?_⟩
    simp only [List.mem_map, mem_pending_iff hcalls' hroom']
  · rintro before call method params purpose after rfl
    exact send_eq_guardedSend hstart.run
  · rintro before p message after rfl hp ⟨r, hr, hid⟩
    exact deliver_eq_vacate hstart.run hp hr hid
  · rintro before p after rfl hp
    exact cancel_eq_vacate hstart.run hp
  · intro soFar later hinputs
    obtain ⟨n, hn, hids⟩ := requests_run opened soFar
    refine ⟨n, ?_⟩
    have hmap := congrArg (List.map UInt64.toNat) hids
    rw [List.map_map, List.map_map] at hmap
    have hsmall (k : Nat) (hk : k ∈ List.range' 1 n) : (UInt64.ofNat k).toNat = k := by
      rw [List.mem_range'_1] at hk
      have hlast := (hpart hinputs).2
      exact UInt64.toNat_ofNat_of_lt' (by omega)
    exact hmap.trans ((List.map_congr_left hsmall).trans (List.map_id _))
  · rintro before stop after rfl hstop
    have hended := Ended.of_step (opened.run before).1 hstop
    refine ⟨hended.requests_effects after, ?_⟩
    rintro earlier later rfl c
    have hc : c.Ended := by
      have hrun : c = (((opened.run before).1.step stop).1.run earlier).1 := by
        simp only [c, run_append]
        rfl
      rw [hrun]
      exact hended.run earlier
    exact ⟨hc.pending, hc.isOpen, fun call method params purpose => by
      rw [Connection.step, hc.send_eq]⟩

/-- Of three calls the first is dropped and the second answered. A fourth one cannot be written, and
the connection is closed before the fifth. -/
def busy : List Input :=
  [.send 0 "A" .null .result, .send 1 "B" .null .evaluation, .cancel 0,
   .send 2 "C" .null .result, .deliver (.object [("id", .int 2), ("result", .null)]),
   .stopReading, .send 3 "D" .null .result, .close, .send 4 "E" .null .result]

/-- Of the three calls that are written only the last one is outstanding before the end, and after
it the table is empty. -/
theorem table_holds_outstanding_busy :
    ((busy.filterMap Input.begins?).Nodup ∧
      (busy.filterMap Input.begins?).length < UInt64.size) ∧
    (∀ id, (∃ p, Outstanding (busy.take 7) p ∧ p.id = id) ↔ id = 3) ∧
    (requests (opened.effects busy)).map (·.id.toNat) = [1, 2, 3] ∧
    (opened.run busy).1.pending = [] ∧ (opened.run busy).1.isOpen = false := by
  have hcalls : (busy.filterMap Input.begins?).Nodup := by decide
  have hroom : (busy.filterMap Input.begins?).length < UInt64.size := by decide
  obtain ⟨hkeys, -, -, -, hnumbers, hend⟩ := table_holds_outstanding hcalls hroom
  refine ⟨⟨hcalls, hroom⟩, fun id => ?_, ?_, ?_⟩
  · have hpending : (opened.run (busy.take 7)).1.pending.map (·.id) = [3] := rfl
    rw [← (hkeys (busy.take 7) (busy.drop 7) rfl).2 id, hpending, List.mem_singleton]
  · obtain ⟨n, hn⟩ := hnumbers busy [] (List.append_nil busy).symm
    have hthree : n = 3 := by
      have hlength := congrArg List.length hn
      rw [List.length_range'] at hlength
      exact hlength.symm
    rw [hn, hthree]
    rfl
  · obtain ⟨-, hafter⟩ := hend (busy.take 7) .close (busy.drop 8) rfl (.inl rfl)
    obtain ⟨hnobody, hclosed, -⟩ := hafter (busy.drop 8) [] (List.append_nil _).symm
    exact ⟨hnobody, hclosed⟩

end CanvasLink.Connection
