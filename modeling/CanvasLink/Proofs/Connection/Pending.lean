import CanvasLink.Connection.Basic
import Mathlib.Data.List.Nodup

/-!
# CanvasLink — the calls that wait on a connection

The table of pending calls through a run: which calls are in it, and what an input does to one of
them.

* `Orderly` — what holds of a connection that still has a list of inputs before it; `Orderly.step`
  and `Orderly.run` carry it along.
* `PendingCall.ending?` — what an input means for one call that waits, read off the input alone.
* `step_of_ending?_none`, `step_of_ending?_some` — one step, seen from a call that waits.
* **`outcomes_run_of_mem`** — a run, seen from a call that waits: the first input that ends the call
  decides, and nothing else has a part in it.
-/

namespace CanvasLink.Connection

open CanvasLink.Bridge CanvasLink.Json CanvasLink.Wire

/-! ## Runs -/

/-- The call that an input begins. -/
def Input.begins? : Input → Option CallId
  | .send call _ _ _ => some call
  | _ => none

/-- The outcome that an effect brings to a call. -/
def Effect.outcome? (call : CallId) : Effect → Option Outcome
  | .finished call' outcome => if call' = call then some outcome else none
  | _ => none

/-- All outcomes that effects bring to a call, in order. -/
def outcomes (call : CallId) (effects : List Effect) : List Outcome :=
  effects.filterMap (Effect.outcome? call)

/-- All effects of a run, in order. -/
def effects (c : Connection) (inputs : List Input) : List Effect :=
  (c.run inputs).2.flatten

/-- A run over two lists is the run over the first and then, from where that ends, over the
second. -/
theorem run_append (c : Connection) (as bs : List Input) :
    c.run (as ++ bs) = (((c.run as).1.run bs).1, (c.run as).2 ++ ((c.run as).1.run bs).2) := by
  induction as generalizing c with
  | nil => rfl
  | cons a as ih =>
    show (((c.step a).1.run (as ++ bs)).1, (c.step a).2 :: ((c.step a).1.run (as ++ bs)).2) = _
    rw [ih]
    rfl

/-- The effects of a run are those of its first step and those of the rest. -/
theorem effects_cons (c : Connection) (a : Input) (as : List Input) :
    c.effects (a :: as) = (c.step a).2 ++ (c.step a).1.effects as :=
  rfl

theorem effects_append (c : Connection) (as bs : List Input) :
    c.effects (as ++ bs) = c.effects as ++ (c.run as).1.effects bs := by
  rw [effects, run_append, List.flatten_append]
  rfl

theorem outcomes_append (call : CallId) (as bs : List Effect) :
    outcomes call (as ++ bs) = outcomes call as ++ outcomes call bs :=
  List.filterMap_append

/-! ## What stays true -/

/-- What holds of a connection with `inputs` still before it: calls are numbered apart, and there
are enough ids for all of them. -/
structure Orderly (c : Connection) (inputs : List Input) : Prop where
  calls : (c.pending.map (·.call) ++ inputs.filterMap Input.begins?).Nodup
  ids : (c.pending.map (·.id)).Nodup
  issued : ∀ p ∈ c.pending, p.id.toNat ≤ c.issued
  room : c.issued + (inputs.filterMap Input.begins?).length < UInt64.size
  /-- Messages come in as long as the connection is live. -/
  inbound : c.live = true → c.inbound = true
  /-- Nobody waits on a connection that is not live. -/
  live : c.pending ≠ [] → c.live = true

/-- A new connection is orderly if the calls before it are numbered apart and no more than there are
ids. -/
theorem orderly_opened {inputs : List Input} (hcalls : (inputs.filterMap Input.begins?).Nodup)
    (hroom : (inputs.filterMap Input.begins?).length < UInt64.size) : Orderly opened inputs where
  calls := hcalls
  ids := List.nodup_nil
  issued := fun p hp => absurd hp List.not_mem_nil
  room := by
    show 0 + _ < _
    omega
  inbound := fun _ => rfl
  live := fun h => absurd rfl h

namespace Orderly

variable {c : Connection} {input : Input} {inputs : List Input}

/-- An input that begins no call, and takes calls out of the table at most. -/
theorem shrink (h : Orderly c (input :: inputs)) (hinput : input.begins? = none) {c' : Connection}
    (hpending : c'.pending.Sublist c.pending) (hissued : c'.issued = c.issued)
    (hinbound : c'.live = true → c'.inbound = true) (hlive : c'.pending ≠ [] → c'.live = true) :
    Orderly c' inputs := by
  have hrest : (input :: inputs).filterMap Input.begins? = inputs.filterMap Input.begins? :=
    List.filterMap_cons_none hinput
  -- A table without some of its calls is still one of calls that are told apart.
  refine ⟨?_, ?_, ?_, ?_, hinbound, hlive⟩
  · have hcalls := h.calls
    rw [hrest] at hcalls
    exact ((hpending.map _).append (List.Sublist.refl _)).nodup hcalls
  · exact (hpending.map _).nodup h.ids
  · intro p hp
    rw [hissued]
    exact h.issued p (hpending.subset hp)
  · have hroom := h.room
    rw [hrest] at hroom
    rwa [hissued]

/-- A list with something in it has something in every list that it is part of. -/
theorem ne_nil_of_sublist {α : Type} {as bs : List α} (h : as.Sublist bs) (hne : as ≠ []) :
    bs ≠ [] := by
  rintro rfl
  exact hne (List.sublist_nil.1 h)

/-- The next id is larger than all that are in use, so that it is none of them. -/
theorem nodup_ids_next (h : Orderly c (input :: inputs)) {call : CallId}
    (hinput : input.begins? = some call) :
    (UInt64.ofNat (c.issued + 1)).toNat = c.issued + 1 ∧
      (c.pending.map (·.id) ++ [UInt64.ofNat (c.issued + 1)]).Nodup := by
  have hroom := h.room
  rw [List.filterMap_cons_some hinput, List.length_cons] at hroom
  -- There is room for one call more, so the number does not wrap.
  have hid : (UInt64.ofNat (c.issued + 1)).toNat = c.issued + 1 :=
    UInt64.toNat_ofNat_of_lt' (by omega)
  refine ⟨hid, ?_⟩
  rw [List.nodup_append]
  refine ⟨h.ids, List.pairwise_singleton _ _, ?_⟩
  intro id hmem id' hmem' heq
  -- An id in the table is at most the number issued, and the next one is above it.
  obtain ⟨p, hp, rfl⟩ := List.mem_map.1 hmem
  have hle := h.issued p hp
  rw [List.mem_singleton] at hmem'
  rw [heq, hmem', hid] at hle
  omega

/-- The new call takes the next id, which nobody who waits has: theirs are not above the number
issued. -/
theorem send {call : CallId} {method : String} {params : Value} {purpose : Purpose}
    (h : Orderly c (.send call method params purpose :: inputs)) :
    Orderly (c.send call method params purpose).1 inputs := by
  have hbegins : (Input.send call method params purpose :: inputs).filterMap Input.begins? =
      call :: inputs.filterMap Input.begins? := rfl
  have hcalls := h.calls
  have hroom := h.room
  rw [hbegins] at hcalls hroom
  rw [List.length_cons] at hroom
  unfold Connection.send
  dsimp only
  split
  · next hopen =>
    -- The call is written: it enters the table under the next id.
    have hlive : c.live = true := by
      simp only [Bool.and_eq_true] at hopen
      exact hopen.1.1
    obtain ⟨hid, hids⟩ := h.nodup_ids_next rfl
    refine ⟨?_, ?_, ?_, ?_, h.inbound, fun _ => hlive⟩
    · simpa using hcalls
    · simpa using hids
    · intro p hp
      show p.id.toNat ≤ c.issued + 1
      rcases List.mem_append.1 hp with hp | hp
      · have hle := h.issued p hp
        omega
      · rw [List.mem_singleton.1 hp]
        exact Nat.le_of_eq hid
    · show c.issued + 1 + _ < _
      omega
  · -- The call fails at once: its id is used up, and the table stays as it is.
    refine ⟨?_, h.ids, ?_, ?_, h.inbound, h.live⟩
    · exact ((List.Sublist.refl _).append (List.sublist_cons_self _ _)).nodup hcalls
    · intro p hp
      have hle := h.issued p hp
      show p.id.toNat ≤ c.issued + 1
      omega
    · show c.issued + 1 + _ < _
      omega

/-- A message can only take a call out of the table. -/
theorem deliver {message : Value} (h : Orderly c (.deliver message :: inputs)) :
    Orderly (c.deliver message).1 inputs := by
  have hsame : Orderly c inputs := h.shrink rfl (.refl _) rfl h.inbound h.live
  rcases c.deliver_cases message with ⟨r, _, _, _, heq⟩ | ⟨_, _, heq⟩ | heq
  · have hsub := List.filter_sublist (p := fun q : PendingCall => q.id != r.id) (l := c.pending)
    rw [heq]
    exact h.shrink rfl hsub rfl h.inbound fun hne => h.live (ne_nil_of_sublist hsub hne)
  · rwa [heq]
  · rwa [heq]

/-- **One step.** -/
theorem step (h : Orderly c (input :: inputs)) : Orderly (c.step input).1 inputs := by
  cases input with
  | send call method params purpose => exact h.send
  | deliver message => exact h.deliver
  | cancel call =>
    have hsub := List.filter_sublist (p := fun q : PendingCall => q.call != call) (l := c.pending)
    exact h.shrink rfl hsub rfl h.inbound fun hne => h.live (ne_nil_of_sublist hsub hne)
  | close =>
    exact h.shrink rfl (List.nil_sublist _) rfl (fun hf => nomatch hf) fun hne => absurd rfl hne
  | hangUp =>
    exact h.shrink rfl (List.nil_sublist _) rfl (fun hf => nomatch hf) fun hne => absurd rfl hne
  | stopReading => exact h.shrink rfl (.refl _) rfl h.inbound h.live

/-- It holds with fewer inputs before it, too. -/
theorem of_append {as bs : List Input} (h : Orderly c (as ++ bs)) : Orderly c as := by
  have hfewer : (as.filterMap Input.begins?).Sublist ((as ++ bs).filterMap Input.begins?) :=
    (List.sublist_append_left as bs).filterMap _
  refine ⟨((List.Sublist.refl _).append hfewer).nodup h.calls, h.ids, h.issued, ?_, h.inbound,
    h.live⟩
  have hroom := h.room
  have hle := hfewer.length_le
  omega

/-- **A run.** -/
theorem run {as bs : List Input} (h : Orderly c (as ++ bs)) : Orderly (c.run as).1 bs := by
  induction as generalizing c with
  | nil => exact h
  | cons a as ih => exact ih h.step

end Orderly

/-! ## Calls that do not wait -/

section NotPending

variable {c : Connection} {call : CallId} {input : Input}

/-- At the end of a connection a call is told once for each place that it has in the table. -/
theorem outcomes_failPending (call : CallId) (c : Connection) :
    outcomes call c.failPending.2 =
      (c.pending.filter fun p => p.call == call).map fun _ => .error .connectionClosed := by
  show (c.pending.map _).filterMap _ = _
  induction c.pending with
  | nil => rfl
  | cons p ps ih =>
    rw [List.map_cons, List.filterMap_cons, List.filter_cons, ih]
    by_cases hp : p.call = call <;> simp [Effect.outcome?, hp]

/-- No step says anything of a call that does not wait, unless it begins that call. -/
theorem step_of_notMem (hc : call ∉ c.pending.map (·.call)) (hinput : input.begins? ≠ some call) :
    outcomes call (c.step input).2 = [] ∧ call ∉ (c.step input).1.pending.map (·.call) := by
  -- At the end of the connection those are told who are in the table.
  have hfail : outcomes call c.failPending.2 = [] := by
    rw [outcomes_failPending, List.map_eq_nil_iff, List.filter_eq_nil_iff]
    intro p hp hcall
    exact hc (List.mem_map.2 ⟨p, hp, by simpa using hcall⟩)
  have hfilter (f : PendingCall → Bool) : call ∉ (c.pending.filter f).map (·.call) :=
    fun hmem => hc ((List.filter_sublist.map _).subset hmem)
  cases input with
  | send call' method params purpose =>
    have hne : call' ≠ call := fun heq => hinput (congrArg some heq)
    simp only [step, send]
    split
    · refine ⟨rfl, ?_⟩
      rw [List.map_append, List.mem_append]
      rintro (hmem | hmem)
      · exact hc hmem
      · exact hne (List.mem_singleton.1 hmem).symm
    · refine ⟨?_, hc⟩
      simp [outcomes, Effect.outcome?, hne]
  | deliver message =>
    rw [step]
    rcases c.deliver_cases message with ⟨r, p, -, hfind, heq⟩ | ⟨_, _, heq⟩ | heq
    · -- Whoever is answered is in the table, so it is another call.
      have hne : p.call ≠ call := fun heq =>
        hc (List.mem_map.2 ⟨p, List.mem_of_find?_eq_some hfind, heq⟩)
      rw [heq]
      exact ⟨by simp [outcomes, Effect.outcome?, hne], hfilter _⟩
    · rw [heq]
      exact ⟨rfl, hc⟩
    · rw [heq]
      exact ⟨rfl, hc⟩
  | cancel call' => exact ⟨rfl, hfilter _⟩
  | close => exact ⟨hfail, List.not_mem_nil⟩
  | hangUp => exact ⟨hfail, List.not_mem_nil⟩
  | stopReading => exact ⟨rfl, hc⟩

/-- Nothing is ever said of a call that neither waits nor begins. -/
theorem outcomes_run_of_notMem {inputs : List Input} (hc : call ∉ c.pending.map (·.call))
    (hinputs : call ∉ inputs.filterMap Input.begins?) :
    outcomes call (c.effects inputs) = [] ∧ call ∉ (c.run inputs).1.pending.map (·.call) := by
  induction inputs generalizing c with
  | nil => exact ⟨rfl, hc⟩
  | cons input inputs ih =>
    have hinput : input.begins? ≠ some call := fun heq =>
      hinputs (List.mem_filterMap.2 ⟨input, by simp, heq⟩)
    have hrest : call ∉ inputs.filterMap Input.begins? := fun hmem =>
      hinputs (((List.sublist_cons_self _ _).filterMap _).subset hmem)
    obtain ⟨hnone, hc'⟩ := step_of_notMem hc hinput
    obtain ⟨hnone', hc''⟩ := ih hc' hrest
    rw [effects_cons, outcomes_append, hnone, hnone']
    exact ⟨rfl, hc''⟩

end NotPending

/-! ## A call that waits -/

/-- What an input means for a call that waits: nothing, or that its wait ends. A call that is
cancelled ends without an outcome. -/
def PendingCall.ending? (p : PendingCall) : Input → Option (Option Outcome)
  | .deliver message =>
    match Response.decode message with
    | .ok r => if r.id = p.id then some (some (p.purpose.apply (.ofResponse r))) else none
    | .error _ => none
  | .close => some (some (.error .connectionClosed))
  | .hangUp => some (some (.error .connectionClosed))
  | .cancel call => if call = p.call then some none else none
  | _ => none

/-- What reads as a response is taken for one, whatever else it could be read as. -/
theorem ofValue_eq_response {v : Value} {r : Response} (h : Response.decode v = .ok r) :
    Message.ofValue v = .response r := by
  rw [Message.ofValue, h]

/-- What does not read as a response is never taken for one. -/
theorem ofValue_ne_response {v : Value} {e : DecodeError} (h : Response.decode v = .error e)
    (r : Response) : Message.ofValue v ≠ .response r := by
  rw [Message.ofValue, h]
  dsimp only
  split <;> rintro ⟨⟩

/-- What is taken for a response reads as this one. -/
theorem decode_of_ofValue {v : Value} {r : Response} (h : Message.ofValue v = .response r) :
    Response.decode v = .ok r := by
  cases hr : Response.decode v with
  | ok found =>
    rw [ofValue_eq_response hr] at h
    cases h
    rfl
  | error e => exact absurd h (ofValue_ne_response hr r)

/-- A member of a list whose keys differ is the only one with its key. -/
theorem filter_key_eq {α β : Type} [BEq β] [LawfulBEq β] {key : α → β} {as : List α}
    (h : (as.map key).Nodup) {a : α} (ha : a ∈ as) : (as.filter fun b => key b == key a) = [a] := by
  induction as with
  | nil => cases ha
  | cons b bs ih =>
    rw [List.map_cons, List.nodup_cons] at h
    rcases List.mem_cons.1 ha with rfl | ha
    · rw [List.filter_cons_of_pos (by simp), List.cons.injEq, List.filter_eq_nil_iff]
      refine ⟨rfl, fun c hc hkey => h.1 ?_⟩
      exact List.mem_map.2 ⟨c, hc, eq_of_beq hkey⟩
    · have hne : key b ≠ key a := fun heq => h.1 (List.mem_map.2 ⟨a, ha, heq.symm⟩)
      rw [List.filter_cons_of_neg (by simpa using hne)]
      exact ih h.2 ha

section Pending

variable {c : Connection} {p : PendingCall} {input : Input} {inputs : List Input}

namespace Orderly

theorem nodup_calls (h : Orderly c inputs) : (c.pending.map (·.call)).Nodup :=
  (List.nodup_append.1 h.calls).1

/-- A response to a call that waits reaches it. -/
theorem deliver_of_decode (h : Orderly c inputs) (hp : p ∈ c.pending) {message : Value}
    {r : Response} (hr : Response.decode message = .ok r) (hid : r.id = p.id) :
    c.deliver message = ({ c with pending := c.pending.filter (·.id != p.id) },
      [.finished p.call (p.purpose.apply (.ofResponse r))]) := by
  have hlive := h.live (List.ne_nil_of_mem hp)
  have hfind : c.pending.find? (fun q => q.id == p.id) = some p := by
    rw [← List.head?_filter, filter_key_eq h.ids hp]
    rfl
  rw [Connection.deliver, if_pos (h.inbound hlive), ofValue_eq_response hr]
  simp only [respond, hid, hfind]

end Orderly

/-- A message that is no response to the call: the call goes on waiting, and is told nothing. -/
theorem deliver_of_ending?_none (h : Orderly c inputs) (hp : p ∈ c.pending) {message : Value}
    (hinput : p.ending? (.deliver message) = none) :
    outcomes p.call (c.deliver message).2 = [] ∧ p ∈ (c.deliver message).1.pending := by
  rcases c.deliver_cases message with ⟨r, q, hresponse, hfind, heq⟩ | ⟨_, _, heq⟩ | heq
  · -- Another call is answered, with an id and a number of its own.
    have hne : r.id ≠ p.id := by
      intro hid
      simp [PendingCall.ending?, decode_of_ofValue hresponse, hid] at hinput
    have hq : q ∈ c.pending := List.mem_of_find?_eq_some hfind
    have hqid : q.id = r.id := by
      have hsome := List.find?_some hfind
      simpa using hsome
    have hcall : q.call ≠ p.call := by
      intro hsame
      have hsame := List.inj_on_of_nodup_map h.nodup_calls hq hp hsame
      exact hne (hqid ▸ congrArg PendingCall.id hsame)
    rw [heq]
    refine ⟨by simp [outcomes, Effect.outcome?, hcall], ?_⟩
    exact List.mem_filter.2 ⟨hp, by simpa using Ne.symm hne⟩
  · rw [heq]
    exact ⟨rfl, hp⟩
  · rw [heq]
    exact ⟨rfl, hp⟩

/-- A step that does not end the call: it goes on waiting, and is told nothing. -/
theorem step_of_ending?_none (h : Orderly c (input :: inputs)) (hp : p ∈ c.pending)
    (hinput : p.ending? input = none) :
    outcomes p.call (c.step input).2 = [] ∧ p ∈ (c.step input).1.pending := by
  cases input with
  | send call method params purpose =>
    -- The call that begins has a number of its own.
    have hne : call ≠ p.call := by
      intro heq
      refine (List.nodup_append.1 h.calls).2.2 _ (List.mem_map_of_mem hp) _ ?_ rfl
      exact List.mem_filterMap.2 ⟨_, List.mem_cons_self, congrArg some heq⟩
    simp only [step, send]
    split
    · exact ⟨rfl, List.mem_append_left _ hp⟩
    · exact ⟨by simp [outcomes, Effect.outcome?, hne], hp⟩
  | deliver message => exact deliver_of_ending?_none h hp hinput
  | cancel call =>
    have hne : call ≠ p.call := by
      intro heq
      simp [PendingCall.ending?, heq] at hinput
    exact ⟨rfl, List.mem_filter.2 ⟨hp, by simpa using Ne.symm hne⟩⟩
  | close => cases hinput
  | hangUp => cases hinput
  | stopReading => exact ⟨rfl, hp⟩

/-- A step that ends the call: it is told its outcome, if there is one, and waits no more. -/
theorem step_of_ending?_some (h : Orderly c (input :: inputs)) (hp : p ∈ c.pending)
    {outcome? : Option Outcome} (hinput : p.ending? input = some outcome?) :
    outcomes p.call (c.step input).2 = outcome?.toList ∧
      p.call ∉ (c.step input).1.pending.map (·.call) := by
  -- In a table of different calls the end of the connection tells each of them once.
  have hfail : outcomes p.call c.failPending.2 = [.error .connectionClosed] := by
    rw [outcomes_failPending, filter_key_eq h.nodup_calls hp]
    rfl
  cases input with
  | send call method params purpose => cases hinput
  | deliver message =>
    cases hr : Response.decode message with
    | error e => simp [PendingCall.ending?, hr] at hinput
    | ok r =>
      by_cases hid : r.id = p.id
      · have houtcome : some (p.purpose.apply (.ofResponse r)) = outcome? := by
          simpa [PendingCall.ending?, hr, hid] using hinput
        subst houtcome
        rw [step, h.deliver_of_decode hp hr hid]
        refine ⟨by simp [outcomes, Effect.outcome?], fun hmem => ?_⟩
        -- Only calls with other ids are left, and no other id is that of this call.
        obtain ⟨q, hq, hcall⟩ := List.mem_map.1 hmem
        obtain ⟨hq, hne⟩ := List.mem_filter.1 hq
        have hsame := List.inj_on_of_nodup_map h.nodup_calls hq hp hcall
        simp [hsame] at hne
      · simp [PendingCall.ending?, hr, hid] at hinput
  | cancel call =>
    by_cases hcall : call = p.call
    · have houtcome : none = outcome? := by
        simpa [PendingCall.ending?, hcall] using hinput
      subst houtcome
      refine ⟨rfl, fun hmem => ?_⟩
      obtain ⟨q, hq, heq⟩ := List.mem_map.1 hmem
      obtain ⟨-, hne⟩ := List.mem_filter.1 hq
      simp [heq, hcall] at hne
    · simp [PendingCall.ending?, hcall] at hinput
  | close =>
    cases hinput
    exact ⟨hfail, List.not_mem_nil⟩
  | hangUp =>
    cases hinput
    exact ⟨hfail, List.not_mem_nil⟩
  | stopReading => cases hinput

/-- **A run, seen from a call that waits.** -/
theorem outcomes_run_of_mem (h : Orderly c inputs) (hp : p ∈ c.pending) :
    outcomes p.call (c.effects inputs) = (inputs.findSome? p.ending?).join.toList := by
  -- Up to the first input that ends the call it stays in the table; behind that one it is out of
  -- it for good.
  induction inputs generalizing c with
  | nil => rfl
  | cons input inputs ih =>
    rw [effects_cons, outcomes_append]
    cases hinput : p.ending? input with
    | none =>
      obtain ⟨hnone, hp'⟩ := step_of_ending?_none h hp hinput
      rw [hnone, List.nil_append, ih h.step hp', List.findSome?_cons_of_isNone (by simp [hinput])]
    | some outcome? =>
      obtain ⟨hsome, hgone⟩ := step_of_ending?_some h hp hinput
      have hrest : p.call ∉ inputs.filterMap Input.begins? := by
        intro hmem
        refine (List.nodup_append.1 h.calls).2.2 _ (List.mem_map_of_mem hp) _ ?_ rfl
        exact ((List.sublist_cons_self _ _).filterMap _).subset hmem
      rw [hsome, (outcomes_run_of_notMem hgone hrest).1, List.append_nil, List.findSome?_cons,
        hinput]
      rfl

end Pending

end CanvasLink.Connection
