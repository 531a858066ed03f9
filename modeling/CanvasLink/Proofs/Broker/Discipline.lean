import CanvasLink.Broker.Execution
import CanvasLink.Proofs.Broker.Alone

/-!
# CanvasLink — how calls treat sessions

Every call that the broker offers keeps to a discipline, whatever other calls do while it waits: it
withdraws only sessions that it has been shown, it closes at once what it has withdrawn or released,
and it discards only sessions that have left their place for good.

* `Call.Tame` — the discipline, over the tree of a call.
* `Call.Tame.bind` — calls that keep to it one after the other.
* `OfParts` — what holds of the parts of which all requests are made holds of every request.
* **`tame_call`** — every request is carried out by such a call.
-/

namespace CanvasLink.Broker

open CanvasLink.Bridge CanvasLink.Json CanvasLink.Wire

namespace Call

variable {α β : Type}

/-- Whether a call keeps to the discipline, where `made` have been shown to it and `gone` can no
longer be current. -/
def Tame : Call α → List SessionId → List SessionId → Prop
  | done _, _, _ => True
  | act .look rest, made, gone =>
    ∀ current : Option SessionId, (rest current).Tame (current.toList ++ made) gone
  | act .release rest, made, gone =>
    (rest none).Tame made gone ∧
      ∀ session : SessionId, (rest (some session)).wait? = some (.close session) ∧
        (rest (some session)).Tame made gone
  | act (.withdraw session) rest, made, gone =>
    session ∈ made ∧ (rest ()).wait? = some (.close session) ∧
      (rest ()).Tame made (session :: gone)
  | act .countForced rest, made, gone => (rest ()).Tame made gone
  | act (.join discarded) rest, made, gone =>
    (∀ session ∈ discarded, session ∈ gone) ∧ ∀ lead : Lead, (rest lead).Tame made gone
  | await _ rest, made, gone => ∀ reply, (rest reply).Tame made gone

/-- A call that knows more, or of which more sessions are known to be gone, is as tame. -/
theorem Tame.mono {call : Call α} {made gone made' gone' : List SessionId}
    (h : call.Tame made gone) (hmade : made ⊆ made') (hgone : gone ⊆ gone') :
    call.Tame made' gone' := by
  induction call generalizing made gone made' gone' with
  | done result => trivial
  | await wait rest ih => exact fun reply => ih reply (h reply) hmade hgone
  | act a rest ih =>
    -- What a section shows or takes away is added to both sides.
    cases a with
    | look =>
      intro current
      have happend : current.toList ++ made ⊆ current.toList ++ made' :=
        List.append_subset.2 ⟨List.subset_append_left _ _,
          fun session hsession => List.mem_append_right _ (hmade hsession)⟩
      exact ih _ (h current) happend hgone
    | release =>
      exact ⟨ih _ h.1 hmade hgone, fun session =>
        ⟨(h.2 session).1, ih _ (h.2 session).2 hmade hgone⟩⟩
    | withdraw session =>
      exact ⟨hmade h.1, h.2.1, ih _ h.2.2 hmade (List.cons_subset_cons session hgone)⟩
    | countForced => exact ih _ h hmade hgone
    | join discarded =>
      exact ⟨fun session hsession => hgone (h.1 session hsession), fun lead =>
        ih _ (h.2 lead) hmade hgone⟩

/-- What follows a call does not change what it waits for first. -/
theorem wait?_bind {call : Call α} {wait : Wait} (h : call.wait? = some wait)
    (next : α → Call β) : (call.bind next).wait? = some wait := by
  cases call with
  | await other rest => exact h
  | done result => cases h
  | act a rest => cases h

/-- The second call is tame whatever the first one has learnt. -/
theorem Tame.bind {call : Call α} {next : α → Call β} {made gone : List SessionId}
    (h : call.Tame made gone) (hnext : ∀ result, (next result).Tame [] []) :
    (call >>= next).Tame made gone := by
  change (call.bind next).Tame made gone
  induction call generalizing made gone with
  | done result => exact (hnext result).mono (List.nil_subset _) (List.nil_subset _)
  | await wait rest ih => exact fun reply => ih reply (h reply)
  | act a rest ih =>
    -- Where a close must follow it is in the first part, which waits for it before the second
    -- begins.
    cases a with
    | look => exact fun current => ih _ (h current)
    | release =>
      exact ⟨ih _ h.1, fun session =>
        ⟨wait?_bind (h.2 session).1 next, ih _ (h.2 session).2⟩⟩
    | withdraw session => exact ⟨h.1, wait?_bind h.2.1 next, ih _ h.2.2⟩
    | countForced => exact ih _ h
    | join discarded => exact ⟨h.1, fun lead => ih _ (h.2 lead)⟩

end Call

/-! ## The calls of the broker -/

section Calls

variable (limits : Limits)

/-- Whoever discards a session that is gone for good may join. -/
theorem tame_share {discarded : Option SessionId} {made gone : List SessionId}
    (h : ∀ session ∈ discarded, session ∈ gone) : (share discarded).Tame made gone := by
  refine ⟨h, fun lead => ?_⟩
  cases lead with
  | session session => trivial
  | attempt a => exact fun outcome => trivial

/-- The session that fails its probe has been shown to the call, and is closed where it is
withdrawn. -/
theorem tame_ensure : (ensure limits).Tame [] [] := by
  intro current
  cases current with
  | none => exact tame_share fun session hsession => by cases hsession
  | some session =>
    intro answer
    simp only [Call.bind, pure]
    -- A healthy session is given; any other one is withdrawn, closed and then discarded.
    split
    · trivial
    · refine ⟨List.mem_singleton_self session, rfl, fun _ => tame_share ?_⟩
      intro s hs
      cases hs
      exact List.mem_singleton_self session

/-- A look at the health changes nothing. -/
theorem tame_health : (health limits).Tame [] [] := by
  intro current
  cases current with
  | none => trivial
  | some session => exact fun answer => trivial

theorem tame_shutdown : shutdown.Tame [] [] :=
  ⟨trivial, fun _ => ⟨rfl, fun _ => trivial⟩⟩

theorem tame_forceClose : forceClose.Tame [] [] :=
  tame_shutdown

theorem tame_reconnect : (reconnect limits).Tame [] [] :=
  tame_forceClose.bind fun _ => tame_ensure limits

/-! ## Requests -/

/-- What a user asks of the broker. -/
inductive Request where
  | ensure
  | reconnect
  | health
  | shutdown
  /-- Runs an operation under the retry policy. -/
  | execute (operation : Operation)
  | perform (request : ExecRequest)

inductive Reply where
  | session (outcome : Except Bridge.Error SessionId)
  | health (health : Health)
  | none
  | outcome (outcome : Outcome)
  | performed (outcome : Except ExecFailure Value)

/-- The call that carries out a request. -/
def Request.call : Request → Call Reply
  | ensure => do return .session (← Broker.ensure limits)
  | reconnect => do return .session (← Broker.reconnect limits)
  | health => do return .health (← Broker.health limits)
  | shutdown => do
    Broker.shutdown
    return .none
  | execute operation => do return .outcome (← Broker.execute limits operation)
  | perform request => do return .performed (← Broker.perform limits request)

end Calls

/-! ## The parts of a request -/

/-- A property of all calls that are made of the parts that the broker has. -/
structure OfParts (limits : Limits) (P : (α : Type) → Call α → Prop) : Prop where
  done : ∀ {α : Type} (result : α), P α (.done result)
  bind : ∀ {α β : Type} {call : Call α} {next : α → Call β}, P α call →
    (∀ result, P β (next result)) → P β (call >>= next)
  ensure : P _ (Broker.ensure limits)
  health : P _ (Broker.health limits)
  shutdown : P _ Broker.shutdown
  countForced : P _ Call.countForced
  run : ∀ session limit operation, P _ (Call.run session limit operation)
  pause : ∀ span, P _ (Call.pause span)
  panic : P _ Call.panic

namespace OfParts

variable {P : (α : Type) → Call α → Prop} {limits : Limits}

theorem forceClose (h : OfParts limits P) : P _ Broker.forceClose :=
  h.bind h.countForced fun _ => h.shutdown

/-- One attempt is made of a search for a session and the operation. -/
theorem tryOnce (h : OfParts limits P) (operation : Operation) :
    P _ (Broker.tryOnce limits operation) := by
  refine h.bind h.ensure fun brought => ?_
  cases brought with
  | error e => exact h.done _
  | ok session =>
    refine h.bind (h.run _ _ _) fun outcome => ?_
    cases outcome <;> exact h.done _

/-- Induction on how many more attempts there may be. -/
theorem retrying (h : OfParts limits P) (operation : Operation) (more : Nat) :
    P _ (Broker.retrying limits operation more) := by
  induction more with
  | zero => exact h.tryOnce operation
  | succ more ih =>
    refine h.bind (h.tryOnce operation) fun outcome => ?_
    -- After a failure that could do better there follow the forced close, the pause and the rest.
    cases outcome with
    | ok value => exact h.done _
    | error e =>
      dsimp only
      split
      · exact h.bind h.forceClose fun _ => h.bind (h.pause _) fun _ => ih
      · exact h.done _

/-- An attempt behind which the call may panic. -/
theorem tryOrPanic (h : OfParts limits P) (operation : Operation) :
    P _ (Broker.tryOrPanic limits operation) := by
  refine h.bind (h.tryOnce operation) fun outcome => ?_
  cases outcome with
  | ok value => exact h.done _
  | error e =>
    dsimp only
    split
    · exact h.bind h.panic fun _ => h.done _
    · exact h.done _

/-- An operation under the retry policy, whether or not there is a number of attempts. -/
theorem execute (h : OfParts limits P) (operation : Operation) :
    P _ (Broker.execute limits operation) := by
  unfold Broker.execute
  split
  · exact h.retrying operation _
  · exact h.tryOrPanic operation

/-- Rendering is evaluation, or nothing at all for markup that does not compile. -/
theorem render (h : OfParts limits P) (markup : String) : P _ (Broker.render limits markup) := by
  unfold Broker.render
  split
  · exact h.execute _
  · exact h.done _

/-- Induction on the scripts. -/
theorem evalAll (h : OfParts limits P) (results : List Value) (scripts : List String) :
    P _ (Broker.evalAll limits results scripts) := by
  induction scripts generalizing results with
  | nil => exact h.done _
  | cons script scripts ih =>
    refine h.bind (h.execute _) fun outcome => ?_
    cases outcome with
    | ok value => exact ih _
    | error e => exact h.done _

/-- Whatever the request asks for is made of evaluations. -/
theorem perform (h : OfParts limits P) (request : ExecRequest) :
    P _ (Broker.perform limits request) := by
  cases request with
  | eval code => exact h.bind (h.execute _) fun _ => h.done _
  | render markup => exact h.bind (h.render markup) fun _ => h.done _
  | renderBatch units =>
    refine h.bind ?_ fun _ => h.done _
    unfold Broker.renderBatch
    split
    · exact h.evalAll _ _
    · exact h.done _

/-- **Every request is made of these parts.** -/
theorem call (h : OfParts limits P) (request : Request) : P _ (request.call limits) := by
  cases request with
  | ensure => exact h.bind h.ensure fun _ => h.done _
  | reconnect => exact h.bind (h.bind h.forceClose fun _ => h.ensure) fun _ => h.done _
  | health => exact h.bind h.health fun _ => h.done _
  | shutdown => exact h.bind h.shutdown fun _ => h.done _
  | execute operation => exact h.bind (h.execute operation) fun _ => h.done _
  | perform request => exact h.bind (h.perform request) fun _ => h.done _

end OfParts

/-! ## All requests -/

variable (limits : Limits)

theorem tame_parts : OfParts limits fun _ call => call.Tame [] [] where
  done := fun _ => trivial
  bind := fun h hnext => h.bind hnext
  ensure := tame_ensure limits
  health := tame_health limits
  shutdown := tame_shutdown
  countForced := trivial
  run := fun _ _ _ _ => trivial
  pause := fun _ _ => trivial
  panic := fun _ => trivial

theorem tame_perform (request : ExecRequest) : (perform limits request).Tame [] [] :=
  (tame_parts limits).perform request

/-- **Requests are carried out by tame calls.** -/
theorem tame_call (request : Request) : (request.call limits).Tame [] [] :=
  (tame_parts limits).call request

end CanvasLink.Broker
