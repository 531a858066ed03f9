import CanvasLink.Proofs.Connection.Table

/-!
# CanvasLink — what an open connection can do

A connection counts as open until it is closed or its inbound side ends. Whether it can write hangs
on one thing more, of which being open says nothing: somebody must still read at the other end of
the way out.

* `isOpen_run_iff`, `canWrite_run_iff` — both as facts about the inputs so far.
* `PendingCall.EndedBy` — the inputs that end the wait of a call.
* **`usable_while_read`** — the headline: an open connection takes every call as long as its
  requests are read. From then on it takes none, and still counts as open.
* `deaf_isOpen` — an open connection that writes nothing.
-/

namespace CanvasLink.Connection

open CanvasLink.Bridge CanvasLink.Json CanvasLink.Wire

section Flags

variable {c : Connection} {input : Input}

/-- One step: only `close` and the end of the inbound side make a connection count as closed, and
only the loss of the reader makes it deaf. -/
theorem flags_step (c : Connection) (input : Input) :
    ((c.step input).1.isOpen = true ↔ c.isOpen = true ∧ input ≠ .close ∧ input ≠ .hangUp) ∧
      ((c.step input).1.peerReads = true ↔ c.peerReads = true ∧ input ≠ .stopReading) := by
  have hkept {c' : Connection} (hopen : c'.isOpen = c.isOpen) (hreads : c'.peerReads = c.peerReads)
      (hclose : input ≠ .close) (hhangUp : input ≠ .hangUp) (hstop : input ≠ .stopReading) :
      (c'.isOpen = true ↔ c.isOpen = true ∧ input ≠ .close ∧ input ≠ .hangUp) ∧
        (c'.peerReads = true ↔ c.peerReads = true ∧ input ≠ .stopReading) := by
    rw [hopen, hreads]
    exact ⟨⟨fun h => ⟨h, hclose, hhangUp⟩, And.left⟩, ⟨fun h => ⟨h, hstop⟩, And.left⟩⟩
  -- Each flag falls at its own inputs and nowhere else.
  cases input with
  | send call method params purpose =>
    apply hkept _ _ (by simp) (by simp) (by simp)
    · simp only [step, send]
      split <;> rfl
    · simp only [step, send]
      split <;> rfl
  | deliver message =>
    have hdeliver : (c.deliver message).1.isOpen = c.isOpen ∧
        (c.deliver message).1.peerReads = c.peerReads := by
      rcases c.deliver_cases message with ⟨_, _, _, _, heq⟩ | ⟨_, _, heq⟩ | heq <;> rw [heq] <;>
        exact ⟨rfl, rfl⟩
    exact hkept hdeliver.1 hdeliver.2 (by simp) (by simp) (by simp)
  | cancel call => exact hkept rfl rfl (by simp) (by simp) (by simp)
  | close => simp [step, failPending, isOpen]
  | hangUp => simp [step, failPending, isOpen]
  | stopReading => simp [step, isOpen]

/-- A connection counts as usable until `close` or the end of the inbound side, and on no other
condition. -/
theorem isOpen_run_iff (c : Connection) (inputs : List Input) :
    (c.run inputs).1.isOpen = true ↔ c.isOpen = true ∧ .close ∉ inputs ∧ .hangUp ∉ inputs := by
  induction inputs generalizing c with
  | nil => simp [run]
  | cons input inputs ih =>
    show ((c.step input).1.run inputs).1.isOpen = true ↔ _
    rw [ih, (flags_step c input).1]
    simp only [List.mem_cons, not_or, ne_eq, @eq_comm _ input]
    tauto

/-- Somebody reads at the other end until it is gone. -/
theorem peerReads_run_iff (c : Connection) (inputs : List Input) :
    (c.run inputs).1.peerReads = true ↔ c.peerReads = true ∧ .stopReading ∉ inputs := by
  induction inputs generalizing c with
  | nil => simp [run]
  | cons input inputs ih =>
    show ((c.step input).1.run inputs).1.peerReads = true ↔ _
    rw [ih, (flags_step c input).2]
    simp only [List.mem_cons, not_or, ne_eq, @eq_comm _ input]
    tauto

/-- A connection can write as long as it counts as usable and the other end reads. -/
theorem canWrite_run_iff (inputs : List Input) :
    (opened.run inputs).1.canWrite = true ↔
      (opened.run inputs).1.isOpen = true ∧ .stopReading ∉ inputs := by
  show ((opened.run inputs).1.isOpen && (opened.run inputs).1.peerReads) = true ↔ _
  rw [Bool.and_eq_true, peerReads_run_iff]
  exact and_congr_right fun _ => and_iff_right rfl

end Flags

/-! ## Calls on an open connection -/

/-- The inputs that end the wait of a call: an answer, that nobody waits for it any more, and the
end of the connection. -/
inductive PendingCall.EndedBy (p : PendingCall) : Input → Prop
  | answer {message : Value} {r : Response} (hr : Response.decode message = .ok r)
    (hid : r.id = p.id) : p.EndedBy (.deliver message)
  | cancel : p.EndedBy (.cancel p.call)
  | close : p.EndedBy .close
  | hangUp : p.EndedBy .hangUp

/-- An input leaves a call waiting exactly if it does not end its wait. -/
theorem PendingCall.ending?_eq_none_iff (p : PendingCall) (input : Input) :
    p.ending? input = none ↔ ¬ p.EndedBy input := by
  constructor
  · intro hnone hended
    cases hended with
    | answer hr hid => simp [ending?, hr, hid] at hnone
    | cancel => simp [ending?] at hnone
    | close => cases hnone
    | hangUp => cases hnone
  · intro hnot
    cases hending : p.ending? input with
    | none => rfl
    | some outcome? =>
      refine absurd ?_ hnot
      -- What ends the wait is one of the four kinds of `EndedBy`.
      rcases p.cases_ending? hending with ⟨message, r, -, rfl, hr, hid, -⟩ | ⟨h, -⟩ | ⟨rfl, -⟩
      · exact .answer hr hid
      · rcases h with rfl | rfl
        · exact .close
        · exact .hangUp
      · exact .cancel

section Calls

variable {c : Connection} {inputs : List Input} {call : CallId} {method : String} {params : Value}
  {purpose : Purpose}

/-- A call that can be written is written, and waits until something ends its wait. -/
theorem send_of_canWrite {later : List Input} (h : c.canWrite = true)
    (horderly : Orderly c (.send call method params purpose :: (inputs ++ later))) :
    ∃ p : PendingCall, p.call = call ∧ p.purpose = purpose ∧
      (c.step (.send call method params purpose)).2 = [.wrote ⟨p.id, method, params⟩] ∧
      (p ∈ ((c.step (.send call method params purpose)).1.run inputs).1.pending ↔
        ∀ input ∈ inputs, ¬ p.EndedBy input) := by
  have hwrote : (c.step (.send call method params purpose)).2 =
      [.wrote ⟨UInt64.ofNat (c.issued + 1), method, params⟩] := by
    simp only [step, send, show (c.live && c.holdsSender && c.peerReads) = true from h, if_true]
  refine ⟨⟨UInt64.ofNat (c.issued + 1), call, purpose⟩, rfl, rfl, hwrote, ?_⟩
  have hp := (mem_pending_of_wrote (p := ⟨UInt64.ofNat (c.issued + 1), call, purpose⟩)
    (hwrote ▸ List.mem_singleton_self _)).2
  rw [mem_pending_run_iff horderly.step.of_append hp, List.findSome?_eq_none_iff]
  exact forall₂_congr fun input _ => PendingCall.ending?_eq_none_iff _ input

/-- A call that cannot be written fails at once. -/
theorem send_of_mute (h : c.canWrite = false) (call : CallId) (method : String) (params : Value)
    (purpose : Purpose) : c.step (.send call method params purpose) =
      ({ c with issued := c.issued + 1 },
        [.finished call (.error (.transport "connection closed"))]) := by
  simp only [step, send, show (c.live && c.holdsSender && c.peerReads) = false from h,
    Bool.false_eq_true, if_false]
  rfl

end Calls

/-- **What an open connection can do**, at each point of a run from the opening on. Calls are
numbered apart, and ids are words of 64 bits, of which there are enough for all calls. -/
theorem usable_while_read {inputs : List Input} (hcalls : (inputs.filterMap Input.begins?).Nodup)
    (hroom : (inputs.filterMap Input.begins?).length < UInt64.size) :
    (∀ soFar later, inputs = soFar ++ later →
      ((opened.run soFar).1.isOpen = true ↔ .close ∉ soFar ∧ .hangUp ∉ soFar)) ∧
    -- While it is open and read, a call is written and waits until something ends its wait.
    (∀ before call method params purpose following later,
      inputs = before ++ .send call method params purpose :: (following ++ later) →
      (opened.run before).1.isOpen = true → .stopReading ∉ before →
      ∃ p : PendingCall, p.call = call ∧ p.purpose = purpose ∧
        ((opened.run before).1.step (.send call method params purpose)).2 =
          [.wrote ⟨p.id, method, params⟩] ∧
        (p ∈ (opened.run (before ++ .send call method params purpose :: following)).1.pending ↔
          ∀ input ∈ following, ¬ p.EndedBy input)) ∧
    -- Otherwise a call fails at once, and nothing is written any more. If it was open it stays so.
    ∀ before call method params purpose following later,
      inputs = before ++ .send call method params purpose :: (following ++ later) →
      (opened.run before).1.isOpen = false ∨ .stopReading ∈ before →
      ((opened.run before).1.step (.send call method params purpose)).2 =
          [.finished call (.error (.transport "connection closed"))] ∧
        requests (((opened.run before).1.step (.send call method params purpose)).1.effects
          following) = [] ∧
        ((opened.run (before ++ .send call method params purpose :: following)).1.isOpen = true ↔
          (opened.run before).1.isOpen = true ∧ .close ∉ following ∧ .hangUp ∉ following) := by
  have hstart := orderly_opened hcalls hroom
  refine ⟨?_, ?_, ?_⟩
  · intro soFar later _
    rw [isOpen_run_iff]
    exact and_iff_right rfl
  · intro before call method params purpose following later hinputs hopen hread
    subst hinputs
    -- Open and read is all that it takes to write.
    have hcan : (opened.run before).1.canWrite = true := (canWrite_run_iff before).2 ⟨hopen, hread⟩
    obtain ⟨p, hcall, hpurpose, hwrote, hwaits⟩ := send_of_canWrite hcan hstart.run
    refine ⟨p, hcall, hpurpose, hwrote, ?_⟩
    rw [run_append]
    exact hwaits
  · intro before call method params purpose following later _ hcannot
    -- Without the one or the other nothing is written, though the connection may count as open.
    have hmute : (opened.run before).1.canWrite = false := by
      rw [Bool.eq_false_iff, ne_eq, canWrite_run_iff, not_and_or, not_not, Bool.not_eq_true]
      exact hcannot
    have hstep := send_of_mute hmute call method params purpose
    refine ⟨by rw [hstep], ?_, ?_⟩
    · rw [hstep]
      exact requests_of_mute hmute
    · rw [isOpen_run_iff, isOpen_run_iff]
      simp only [List.mem_append, List.mem_cons, reduceCtorEq, false_or, not_or]
      tauto

/-- A call is written and waits, an event passes by, and the reader is lost; a second call cannot be
written. The connection counts as open until its inbound side ends. -/
def deafened : List Input :=
  [.send 0 "A" .null .result, .deliver (.object [("method", .string "M")]), .stopReading,
    .send 1 "B" .null .result, .hangUp]

/-- The reader is gone while a call waits: that call waits on, the next one fails at once, and the
connection counts as usable. -/
theorem usable_while_read_deafened :
    ((deafened.filterMap Input.begins?).Nodup ∧
      (deafened.filterMap Input.begins?).length < UInt64.size) ∧
    (∃ p : PendingCall, p.call = 0 ∧ p ∈ (opened.run (deafened.take 4)).1.pending ∧
      p ∉ (opened.run deafened).1.pending) ∧
    ((opened.run (deafened.take 3)).1.step (.send 1 "B" .null .result)).2 =
      [.finished 1 (.error (.transport "connection closed"))] ∧
    (opened.run (deafened.take 4)).1.isOpen = true ∧ (opened.run deafened).1.isOpen = false := by
  have hcalls : (deafened.filterMap Input.begins?).Nodup := by decide
  have hroom : (deafened.filterMap Input.begins?).length < UInt64.size := by decide
  obtain ⟨hopen, hwritten, hfailed⟩ := usable_while_read hcalls hroom
  refine ⟨⟨hcalls, hroom⟩, ?_, ?_, ?_, ?_⟩
  · obtain ⟨p, hcall, -, -, hwaits⟩ := hwritten [] 0 "A" .null .result
      ((deafened.take 4).drop 1) [.hangUp] rfl rfl List.not_mem_nil
    refine ⟨p, hcall, hwaits.2 ?_, List.not_mem_nil⟩
    intro input hinput hended
    simp only [deafened, List.take, List.drop, List.mem_cons, List.not_mem_nil, or_false] at hinput
    rcases hinput with rfl | rfl | rfl
    · obtain ⟨hr, -⟩ := hended
      cases hr
    · cases hended
    · cases hended
  · have hlost : .stopReading ∈ deafened.take 3 := by simp [deafened]
    exact (hfailed (deafened.take 3) 1 "B" .null .result [] [.hangUp] rfl (.inr hlost)).1
  · exact (hopen (deafened.take 4) (deafened.drop 4) rfl).2 (by simp [deafened])
  · have hnot := (hopen deafened [] (List.append_nil _).symm).not.2 (by simp [deafened])
    exact Bool.eq_false_iff.2 hnot

/-- **Open, and of no use**: on an open connection that nobody reads any more, a call fails with
"connection closed", and the connection still counts as open. -/
theorem deaf_isOpen :
    (¬ ∀ inputs call method params purpose,
      ((inputs ++ [.send call method params purpose]).filterMap Input.begins?).Nodup →
      (opened.run inputs).1.isOpen = true →
        ∃ request, ((opened.run inputs).1.step (.send call method params purpose)).2 =
          [.wrote request]) ∧
    ¬ ∀ inputs call method params purpose,
      ((inputs ++ [.send call method params purpose]).filterMap Input.begins?).Nodup →
      ((opened.run inputs).1.step (.send call method params purpose)).2 =
          [.finished call (.error (.transport "connection closed"))] →
        ((opened.run inputs).1.step (.send call method params purpose)).1.isOpen = false := by
  constructor
  · intro h
    obtain ⟨request, hwrote⟩ := h [.stopReading] 0 "A" .null .result (by decide) rfl
    cases hwrote
  · intro h
    have hclosed := h [.stopReading] 0 "A" .null .result (by decide) rfl
    cases hclosed

end CanvasLink.Connection
