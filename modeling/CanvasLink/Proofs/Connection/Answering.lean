import CanvasLink.Proofs.Connection.Correlation
import CanvasLink.Proofs.Json.Record

/-!
# CanvasLink — which answers reach their calls

A message that carries the id of a call reaches the call if it can be read as a response, and then
only its `error` matters: the call ends with whatever stands under `result`, but an `error` that
cannot be read makes the connection pass over the message, and the call goes on waiting.

* `ProtocolError.Read` — the values that read as a failure.
* `Response.decode_object_iff` — an object as a response, field by field.
* **`answered_iff_read`** — the headline: a call that waits, and an object with its id.
* `detailedRefusal_unanswered` — an answer with details that are not a text is lost.
-/

namespace CanvasLink.Wire

open CanvasLink.Json

/-- How a value reads as a failure: from an object, in which the message must stand and no field
twice, or from its fields in order. Details are a text. -/
inductive ProtocolError.Read : Value → ProtocolError → Prop
  | object {members : List (String × Value)} {e : ProtocolError}
    (honce : ((members.map Prod.fst).filter (· ∈ ["code", "message", "data"])).Nodup)
    (hcode : members.lookup "code" = some (.int e.code.toInt) ∨
      members.lookup "code" = none ∧ e.code = 0)
    (hmessage : members.lookup "message" = some (.string e.message))
    (hdata : Nullable (fun v s => v = .string s) (members.lookup "data") e.data) :
    ProtocolError.Read (.object members) e
  | array {e : ProtocolError} {details : Option Value}
    (hdata : Nullable (fun v s => v = .string s) details e.data) :
    ProtocolError.Read (.array (.int e.code.toInt :: .string e.message :: details.toList)) e

theorem ProtocolError.covered_fields :
    (ProtocolError.fields : Fields Value ProtocolError).Covered :=
  (((Fields.covered_make _).field _).field _).field _

theorem Response.covered_fields : (Response.fields : Fields Value Response).Covered :=
  (((Fields.covered_make _).field _).field _).field _

/-- An object reads as a failure exactly if it is one, member by member. -/
theorem ProtocolError.decode_object_iff {members : List (String × Value)} {e : ProtocolError} :
    ProtocolError.decode (Value.object members) = .ok e ↔
      ProtocolError.Read (.object members) e := by
  rw [ProtocolError.decode, Fields.decode_object_iff covered_fields, fields,
    Fields.ofMembers_three_iff]
  constructor
  · rintro ⟨honce, code, message, data, hcode, hmessage, hdata, rfl⟩
    refine .object honce ?_ ?_ ?_
    · -- The code is the only field with a default.
      rcases Slot.takes_withDefault_iff.1 hcode with ⟨v, hv, hcode⟩ | habsent
      · exact .inl ((Decode.i64_iff _ _).1 hcode ▸ hv)
      · exact .inr habsent
    · obtain ⟨v, hv, hmessage⟩ := Slot.takes_required_iff.1 hmessage
      exact (Decode.string_iff _ _).1 hmessage ▸ hv
    · exact (Slot.takes_nullable_iff Decode.string_iff).1 hdata
  · rintro (⟨honce, hcode, hmessage, hdata⟩ | _)
    refine ⟨honce, e.code, e.message, e.data, ?_, ?_, ?_, rfl⟩
    · refine Slot.takes_withDefault_iff.2 (hcode.imp_left fun hcode => ?_)
      exact ⟨_, hcode, (Decode.i64_iff _ _).2 rfl⟩
    · exact Slot.takes_required_iff.2 ⟨_, hmessage, (Decode.string_iff _ _).2 rfl⟩
    · exact (Slot.takes_nullable_iff Decode.string_iff).2 hdata

/-- A list reads as a failure exactly if its items are the fields in order. -/
theorem ProtocolError.decode_array_iff {items : List Value} {e : ProtocolError} :
    ProtocolError.decode (Value.array items) = .ok e ↔ ProtocolError.Read (.array items) e := by
  rw [ProtocolError.decode, Fields.decode_array_iff, fields, Fields.ofItems_three_iff]
  constructor
  · rintro ⟨code, message, data, left₁, left₂, hcode, hmessage, hdata, rfl⟩
    -- The message has no default, so that neither it nor the code before it can be left out.
    obtain ⟨hcode⟩ | ⟨hcode⟩ := hcode
    · obtain ⟨hmessage⟩ | ⟨⟨⟩⟩ := hmessage
      rw [(Decode.i64_iff _ _).1 hcode, (Decode.string_iff _ _).1 hmessage]
      obtain ⟨hdata⟩ | ⟨hdata⟩ := hdata
      · have hread := (Decode.nullable_iff Decode.string_iff).1 hdata
        exact ProtocolError.Read.array (e := ⟨code, message, data⟩) hread
      · cases hdata
        exact ProtocolError.Read.array (e := ⟨code, message, none⟩) .absent
    · obtain ⟨_⟩ | ⟨⟨⟩⟩ := hmessage
  · intro h
    obtain ⟨code, message, data⟩ := e
    obtain _ | @⟨_, details, hdata⟩ := h
    refine ⟨code, message, data, _, _, .found ((Decode.i64_iff _ _).2 rfl),
      .found ((Decode.string_iff _ _).2 rfl), ?_, rfl⟩
    cases details with
    | none =>
      cases hdata
      exact .omitted rfl
    | some v => exact .found ((Decode.nullable_iff Decode.string_iff).2 hdata)

/-- Reading a failure gives what the relation says, and fails on everything else. -/
theorem ProtocolError.decode_iff (v : Value) (e : ProtocolError) :
    ProtocolError.decode v = .ok e ↔ ProtocolError.Read v e := by
  cases v with
  | object members => exact decode_object_iff
  | array items => exact decode_array_iff
  | _ => exact ⟨nofun, nofun⟩

/-- **An object as a response**, field by field. -/
theorem Response.decode_object_iff {members : List (String × Value)} {r : Response} :
    Response.decode (Value.object members) = .ok r ↔
      ((members.map Prod.fst).filter (· ∈ ["id", "result", "error"])).Nodup ∧
        members.lookup "id" = some (.int r.id.toNat) ∧
        Nullable Eq (members.lookup "result") r.result ∧
        Nullable ProtocolError.Read (members.lookup "error") r.error := by
  rw [Response.decode, Fields.decode_object_iff covered_fields, fields, Fields.ofMembers_three_iff]
  have hvalue (v w : Value) : Decode.value v = .ok w ↔ v = w :=
    show Except.ok v = .ok w ↔ _ by rw [Except.ok.injEq]
  refine and_congr_right fun _ => ?_
  constructor
  · rintro ⟨id, result, error, hid, hresult, herror, rfl⟩
    obtain ⟨v, hv, hid⟩ := Slot.takes_required_iff.1 hid
    exact ⟨(Decode.u64_iff _ _).1 hid ▸ hv, (Slot.takes_nullable_iff hvalue).1 hresult,
      (Slot.takes_nullable_iff ProtocolError.decode_iff).1 herror⟩
  · rintro ⟨hid, hresult, herror⟩
    exact ⟨r.id, r.result, r.error, Slot.takes_required_iff.2 ⟨_, hid, (Decode.u64_iff _ _).2 rfl⟩,
      (Slot.takes_nullable_iff hvalue).2 hresult,
      (Slot.takes_nullable_iff ProtocolError.decode_iff).2 herror, rfl⟩

end CanvasLink.Wire

namespace CanvasLink.Connection

open CanvasLink.Json CanvasLink.Wire

/-- After these inputs from the opening on, the call `p` waits. Calls are numbered apart, and there
are enough ids for all of them. -/
structure Waits (inputs : List Input) (p : PendingCall) : Prop where
  calls : (inputs.filterMap Input.begins?).Nodup
  room : (inputs.filterMap Input.begins?).length < UInt64.size
  pending : p ∈ (opened.run inputs).1.pending

/-- The invariant holds where the run has come to. -/
theorem Waits.orderly {inputs : List Input} {p : PendingCall} (h : Waits inputs p) :
    Orderly (opened.run inputs).1 [] := by
  have hstart := orderly_opened h.calls h.room
  rw [← List.append_nil inputs] at hstart
  exact hstart.run

/-- A response tells nothing but its error, and its result where a missing one counts as null. -/
theorem PendingCall.Told.congr {p : PendingCall} {r r' : Response} {outcome : Outcome}
    (h : p.Told r outcome) (herror : r.error = r'.error)
    (hresult : r.result.getD .null = r'.result.getD .null) : p.Told r' outcome := by
  cases h with
  | refused h => exact .refused (herror ▸ h)
  | result h hp => exact hresult ▸ .result (herror ▸ h) hp
  | value h hp hread hnone => exact .value (herror ▸ h) hp (hresult ▸ hread) hnone
  | thrown h hp hread hsome => exact .thrown (herror ▸ h) hp (hresult ▸ hread) hsome
  | unreadable h hp hread => exact .unreadable (herror ▸ h) hp (hresult ▸ hread)

/-- Whatever stands under `result` is read. -/
theorem exists_result (v? : Option Value) :
    ∃ result?, Nullable Eq v? result? ∧ result?.getD .null = v?.getD .null := by
  cases v? with
  | none => exact ⟨none, .absent, rfl⟩
  | some v =>
    by_cases hv : v = .null
    · subst hv
      exact ⟨none, .null, rfl⟩
    · exact ⟨some v, .present hv rfl, rfl⟩

/-- A message that is no response changes nothing; it may be passed on as an event. -/
theorem deliver_of_unread {c : Connection} {message : Value} {e : DecodeError}
    (h : Response.decode message = .error e) :
    ∃ events : List Event, c.deliver message = (c, events.map .announced) := by
  rcases c.deliver_cases message with ⟨r, _, hresponse, _⟩ | ⟨event, _, heq⟩ | heq
  · exact absurd hresponse (ofValue_ne_response h r)
  · exact ⟨[event], heq⟩
  · exact ⟨[], heq⟩

/-- **An object with the id of a call that waits.** If what stands under `error` is nothing, null or
a failure that can be read, the call ends: with the failure, or with what stands under `result`.
Otherwise the connection stays as it is, and the call goes on waiting. -/
theorem answered_iff_read {inputs : List Input} {p : PendingCall} (h : Waits inputs p)
    {members : List (String × Value)} (hkeys : (members.map Prod.fst).Nodup)
    (hid : members.lookup "id" = some (.int p.id.toNat)) :
    (∀ failure?, Nullable ProtocolError.Read (members.lookup "error") failure? →
      ∃ outcome, p.Told ⟨p.id, members.lookup "result", failure?⟩ outcome ∧
        (opened.run inputs).1.step (.deliver (.object members)) =
          ({ (opened.run inputs).1 with
              pending := (opened.run inputs).1.pending.filter (·.id != p.id) },
            [.finished p.call outcome])) ∧
    ((∀ failure?, ¬ Nullable ProtocolError.Read (members.lookup "error") failure?) →
      ∃ events : List Event, (opened.run inputs).1.step (.deliver (.object members)) =
        ((opened.run inputs).1, events.map .announced)) := by
  constructor
  · intro failure? hfailure
    obtain ⟨result?, hresult, hgetD⟩ := exists_result (members.lookup "result")
    -- The failure reads, so the message is a response, whatever its result is.
    have hr : Response.decode (Value.object members) = .ok ⟨p.id, result?, failure?⟩ :=
      Response.decode_object_iff.2 ⟨hkeys.filter _, hid, hresult, hfailure⟩
    refine ⟨_, (p.told_apply ⟨p.id, result?, failure?⟩).congr rfl hgetD, ?_⟩
    exact h.orderly.deliver_of_decode h.pending hr rfl
  · intro hunread
    -- A response would have a failure that reads.
    cases hr : Response.decode (Value.object members) with
    | error e => exact deliver_of_unread hr
    | ok r =>
      obtain ⟨-, -, -, hread⟩ := Response.decode_object_iff.1 hr
      exact absurd hread (hunread r.error)

/-- A refusal whose details are not a text. -/
def detailedRefusal : List (String × Value) :=
  [("error", .object [("code", .int (-32000)), ("data", .object [("detail", .int 1)]),
    ("message", .string "boom")]), ("id", .int 1)]

/-- Details that are an object can not be read, so the refusal is no failure. -/
theorem not_read_detailedRefusal (failure? : Option ProtocolError) :
    ¬ Nullable ProtocolError.Read (detailedRefusal.lookup "error") failure? := by
  rintro (_ | _ | ⟨-, hread⟩)
  have hdecode := (ProtocolError.decode_iff _ _).2 hread
  cases hdecode

/-- The call waits, and the refusal with details goes past it. -/
theorem answered_iff_read_detailedRefusal :
    Waits [.send 0 "A" .null .result] ⟨1, 0, .result⟩ ∧
      ∃ events : List Event, ((opened.run [.send 0 "A" .null .result]).1.step
        (.deliver (.object detailedRefusal))) =
          ((opened.run [.send 0 "A" .null .result]).1, events.map .announced) := by
  have hwaits : Waits [.send 0 "A" .null .result] ⟨1, 0, .result⟩ :=
    ⟨by decide, by decide, List.mem_singleton.2 rfl⟩
  exact ⟨hwaits, (answered_iff_read hwaits (by decide) rfl).2 not_read_detailedRefusal⟩

/-- **An answer can be lost**: the call goes on waiting, and is told nothing. -/
theorem detailedRefusal_unanswered :
    ¬ ∀ inputs p members, Waits inputs p → (members.map Prod.fst).Nodup →
      members.lookup "id" = some (.int p.id.toNat) →
        p ∉ ((opened.run inputs).1.step (.deliver (.object members))).1.pending ∧
          ∃ outcome, outcomes p.call
            ((opened.run inputs).1.step (.deliver (.object members))).2 = [outcome] := by
  intro h
  have hwaits : Waits [.send 0 "A" .null .result] ⟨1, 0, .result⟩ :=
    ⟨by decide, by decide, List.mem_singleton.2 rfl⟩
  exact (h _ _ detailedRefusal hwaits (by decide) rfl).1 (List.mem_singleton.2 rfl)

end CanvasLink.Connection
