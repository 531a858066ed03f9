import CanvasLink.Proofs.Json.Members
import CanvasLink.Wire.Message
import CanvasLink.Wire.Runtime
import CanvasLink.Wire.Surface
import CanvasLink.Wire.Target

/-!
# CanvasLink — wire types written and read again

What is decoded from a JSON value, in whichever of its forms, is encoded in one form, and that form
decodes as the same. The one thing that the encoded form cannot tell is a null in a field that may
hold any JSON or nothing: null is how such a field is left empty.

* `X.Plain` — the record holds no such null, nor do the records that it is made of.
* `X.decode_encode` — a plain record reads as itself.
* `X.plain_of_decode` — whatever was decoded is plain.
* `Kind` — the types of what is sent, with how they are decoded and encoded.
* **`Kind.decode_encode_of_decode`** — the two together, for every type.
-/

namespace CanvasLink.Wire

open CanvasLink.Json

/-! ## Fields that may be left out -/

section Optional

variable {name : String} {input? : Option Value}

/-- A field that may hold any JSON, and does not hold null. -/
theorem takes_json {omitted : Option (Option Value)} {v? : Option Value}
    (hinput : input? = v?.map fun v => v) (h : v? ≠ some .null) :
    (Slot.mk name (Decode.nullable Decode.value) (some none) omitted).Takes input? v? := by
  refine Slot.takes_optional _ hinput fun v hv => ⟨?_, rfl⟩
  rintro rfl
  exact h hv

theorem takes_text {omitted : Option (Option String)} {s? : Option String}
    (hinput : input? = s?.map Value.string) :
    (Slot.mk name (Decode.nullable Decode.string) (some none) omitted).Takes input? s? :=
  Slot.takes_optional _ hinput fun _ _ => ⟨nofun, rfl⟩

/-- A field that may hold any JSON is never read as holding null. -/
theorem gives_json {omitted : Option (Option Value)} (homitted : ∀ v? ∈ omitted, v? = none) :
    (Slot.mk name (Decode.nullable Decode.value) (some none) omitted : Slot Value _).Gives fun v? =>
      v? ≠ some .null := by
  have hgives : (Slot.mk name (Decode.nullable Decode.value) (some none) omitted).Gives fun v? =>
      ∀ v ∈ v?, v ≠ Value.null :=
    Slot.gives_nullable (fun v w hv hread => by cases hread; exact hv) homitted
  exact hgives.imp fun v? h hnull => h .null hnull rfl

end Optional

/-! ## Messages of the channel -/

namespace Request

/-- A request reads as itself: it has no field that may be left out. -/
theorem decode_encode (r : Request) : decode r.encode = .ok r := by
  obtain ⟨id, method, params⟩ := r
  refine Fields.decode_written (((Fields.covered_make _).field _).field _ |>.field _)
    ["id", "method", "params"] (List.Sublist.refl _) (by decide) ?_
  refine Fields.ofMembers_field (Fields.ofMembers_field (Fields.ofMembers_field
    (Fields.ofMembers_make _ _) ?id) ?method) ?params
  case id => exact Slot.takes_required ((Decode.u64_iff _ _).2 rfl)
  case method => exact Slot.takes_required rfl
  case params => exact Slot.takes_withDefault rfl

end Request

namespace ProtocolError

/-- A failure reads as itself, with details or without. -/
theorem decode_encode (e : ProtocolError) : decode e.encode = .ok e := by
  obtain ⟨code, message, data⟩ := e
  refine Fields.decode_written (((Fields.covered_make _).field _).field _ |>.field _)
    (["code", "message"] ++ ["data"]) (keys_append_presentMember (List.Sublist.refl _) _ _ _)
    (by decide) ?_
  refine Fields.ofMembers_field (Fields.ofMembers_field (Fields.ofMembers_field
    (Fields.ofMembers_make _ _) ?code) ?message) ?data
  case code => exact Slot.takes_withDefault ((Decode.i64_iff _ _).2 rfl)
  case message => exact Slot.takes_required rfl
  case data => exact takes_text (by simp [Slot.optional])

end ProtocolError

namespace Response

def Plain (r : Response) : Prop :=
  r.result ≠ some .null

/-- A response reads as itself, if null is not its result. -/
theorem decode_encode {r : Response} (h : r.Plain) : decode r.encode = .ok r := by
  obtain ⟨id, result, error⟩ := r
  refine Fields.decode_written (((Fields.covered_make _).field _).field _ |>.field _)
    (["id"] ++ ["result"] ++ ["error"])
    (keys_append_presentMember (keys_append_presentMember (List.Sublist.refl _) _ _ _) _ _ _)
    (by decide) ?_
  refine Fields.ofMembers_field (Fields.ofMembers_field (Fields.ofMembers_field
    (Fields.ofMembers_make _ _) ?id) ?result) ?error
  case id => exact Slot.takes_required ((Decode.u64_iff _ _).2 rfl)
  case result => exact takes_json (by simp [Slot.nullable, List.lookup_append]) h
  case error =>
    refine Slot.takes_optional ProtocolError.encode ?_ fun e _ => ⟨nofun, e.decode_encode⟩
    simp [Slot.nullable, List.lookup_append]

/-- A result that is null was read as none. -/
theorem plain_of_decode {v : Value} {r : Response} (h : decode v = .ok r) : r.Plain := by
  refine Fields.Gives.decode ?_ h
  refine Fields.Gives.field (Fields.Gives.field (Fields.Gives.field (Fields.gives_make ?_)
    (Slot.gives_true _)) (gives_json nofun)) (Slot.gives_true _)
  exact fun _ _ _ hresult _ _ => hresult

/-- An event has no id. -/
theorem decode_event (e : Event) : ∃ error, decode e.encode = .error error := by
  cases hread : decode e.encode with
  | error error => exact ⟨error, rfl⟩
  | ok r =>
    obtain ⟨_, _, _, hid, -⟩ := Fields.ofMembers_three_iff.1
      ((Fields.decode_object_iff (((Fields.covered_make _).field _).field _ |>.field _)).1 hread).2
    obtain ⟨_, hnone, -⟩ := Slot.takes_required_iff.1 hid
    cases hnone

end Response

namespace Event

/-- An event reads as itself, also without parameters. -/
theorem decode_encode (e : Event) : decode e.encode = .ok e := by
  obtain ⟨method, params⟩ := e
  refine Fields.decode_written (((Fields.covered_make _).field _).field _)
    ["method", "params"] (List.Sublist.refl _) (by decide) ?_
  refine Fields.ofMembers_field (Fields.ofMembers_field (Fields.ofMembers_make _ _) ?method) ?params
  case method => exact Slot.takes_required rfl
  case params => exact Slot.takes_withDefault rfl

end Event

namespace Message

/-- A message that is neither a response nor an event has the shape of neither. -/
def Plain : Message → Prop
  | response r => r.Plain
  | event _ => True
  | unknown v => ofValue v = unknown v

/-- A message is told apart from the others by what was encoded. -/
theorem ofValue_encode {m : Message} (h : m.Plain) : ofValue m.encode = m := by
  cases m with
  | response r =>
    rw [encode, ofValue, Response.decode_encode h]
  | event e =>
    obtain ⟨error, hresponse⟩ := Response.decode_event e
    rw [encode, ofValue, hresponse]
    simp only [Event.decode_encode]
  | unknown v => exact h

/-- What is neither a response nor an event when it is read is neither. -/
theorem plain_ofValue (v : Value) : (ofValue v).Plain := by
  generalize hm : ofValue v = m
  cases m with
  | response r =>
    cases hresponse : Response.decode v with
    | ok r' =>
      rw [ofValue, hresponse] at hm
      cases hm
      exact Response.plain_of_decode hresponse
    | error _ =>
      rw [ofValue, hresponse] at hm
      cases hevent : Event.decode v <;> simp [hevent] at hm
  | event e => trivial
  | unknown w =>
    -- An unknown message is kept as it came, so reading it again finds nothing else.
    have hw : w = v := by
      cases hresponse : Response.decode v <;> cases hevent : Event.decode v <;>
        simp [ofValue, hresponse, hevent] at hm
      exact hm.symm
    rw [Plain, hw, hm, hw]

end Message

/-! ## The directory of targets -/

/-- A target reads as itself, whether or not it has the URL of a debugger. -/
theorem TargetDescriptor.decode_encode (t : TargetDescriptor) :
    TargetDescriptor.decode t.encode = .ok t := by
  obtain ⟨id, title, url, kind, debuggerUrl⟩ := t
  cases debuggerUrl <;> rfl

/-! ## Evaluation -/

namespace ExecutionContext

def Plain (c : ExecutionContext) : Prop :=
  c.auxData ≠ some .null

theorem decode_encode {c : ExecutionContext} (h : c.Plain) : decode c.encode = .ok c := by
  obtain ⟨id, origin, name, auxData⟩ := c
  refine Fields.decode_written (((Fields.covered_make _).field _).field _ |>.field _ |>.field _)
    (["id", "origin", "name"] ++ ["auxData"])
    (keys_append_presentMember (List.Sublist.refl _) _ _ _) (by decide) ?_
  refine Fields.ofMembers_field (Fields.ofMembers_field (Fields.ofMembers_field
    (Fields.ofMembers_field (Fields.ofMembers_make _ _) ?id) ?origin) ?name) ?auxData
  case id => exact Slot.takes_required ((Decode.i64_iff _ _).2 rfl)
  case origin => exact Slot.takes_withDefault rfl
  case name => exact Slot.takes_withDefault rfl
  case auxData => exact takes_json (by simp [Slot.optional]) h

theorem plain_of_decode {v : Value} {c : ExecutionContext} (h : decode v = .ok c) : c.Plain := by
  refine Fields.Gives.decode ?_ h
  refine Fields.Gives.field (Fields.Gives.field (Fields.Gives.field (Fields.Gives.field
    (Fields.gives_make ?_) (Slot.gives_true _)) (Slot.gives_true _)) (Slot.gives_true _))
    (gives_json (by simp))
  exact fun _ _ _ _ _ _ _ hauxData => hauxData

end ExecutionContext

namespace ExecutionContextCreated

def Plain (c : ExecutionContextCreated) : Prop :=
  c.context.Plain

theorem decode_encode {c : ExecutionContextCreated} (h : c.Plain) : decode c.encode = .ok c := by
  obtain ⟨context⟩ := c
  refine Fields.decode_written ((Fields.covered_make _).field _) ["context"] (List.Sublist.refl _)
    (by decide) ?_
  refine Fields.ofMembers_field (Fields.ofMembers_make _ _) ?context
  case context => exact Slot.takes_required (ExecutionContext.decode_encode h)

theorem plain_of_decode {v : Value} {c : ExecutionContextCreated} (h : decode v = .ok c) :
    c.Plain := by
  refine Fields.Gives.decode ?_ h
  refine Fields.Gives.field (Fields.gives_make ?_)
    (Slot.gives_required fun _ _ => ExecutionContext.plain_of_decode)
  exact fun _ hcontext => hcontext

end ExecutionContextCreated

/-- The parameters of an evaluation read as themselves. -/
theorem EvaluateParams.decode_encode (p : EvaluateParams) :
    EvaluateParams.decode p.encode = .ok p := by
  obtain ⟨expression, contextId, awaitPromise, returnByValue, silent⟩ := p
  -- `silent` is written only when it is set.
  have hkeys : (((if silent then [("silent", Value.boolean true)] else []).map Prod.fst)).Sublist
      ["silent"] := by
    cases silent <;> simp
  refine Fields.decode_written
    ((((Fields.covered_make _).field _).field _ |>.field _ |>.field _) |>.field _)
    (["expression"] ++ ["contextId"] ++ ["awaitPromise", "returnByValue"] ++ ["silent"]) ?keys
    (by decide) ?_
  case keys =>
    rw [List.map_append, List.map_append]
    exact ((keys_append_presentMember (List.Sublist.refl _) _ _ _).append
      (List.Sublist.refl _)).append hkeys
  refine Fields.ofMembers_field (Fields.ofMembers_field (Fields.ofMembers_field
    (Fields.ofMembers_field (Fields.ofMembers_field (Fields.ofMembers_make _ _) ?expression)
    ?contextId) ?awaitPromise) ?returnByValue) ?silent
  case expression => exact Slot.takes_required rfl
  case contextId =>
    refine Slot.takes_optional (fun id : Int64 => .int id.toInt) ?_
      fun id _ => ⟨nofun, (Decode.i64_iff _ _).2 rfl⟩
    cases silent <;> simp [Slot.nullable, List.lookup_append]
  case awaitPromise => cases contextId <;> exact Slot.takes_required rfl
  case returnByValue => cases contextId <;> exact Slot.takes_required rfl
  case silent =>
    cases silent with
    | true => cases contextId <;> exact Slot.takes_withDefault rfl
    | false => cases contextId <;> exact .absent rfl

namespace RemoteObject

def Plain (o : RemoteObject) : Prop :=
  o.value ≠ some .null

/-- An object of the target reads as itself, if null is not its value. -/
theorem decode_encode {o : RemoteObject} (h : o.Plain) : decode o.encode = .ok o := by
  obtain ⟨kind, subtype, className, value, description⟩ := o
  refine Fields.decode_written
    ((((Fields.covered_make _).field _).field _ |>.field _ |>.field _) |>.field _)
    (["type"] ++ ["subtype"] ++ ["className"] ++ ["value"] ++ ["description"])
    (keys_append_presentMember (keys_append_presentMember (keys_append_presentMember
      (keys_append_presentMember (List.Sublist.refl _) _ _ _) _ _ _) _ _ _) _ _ _) (by decide) ?_
  refine Fields.ofMembers_field (Fields.ofMembers_field (Fields.ofMembers_field
    (Fields.ofMembers_field (Fields.ofMembers_field (Fields.ofMembers_make _ _) ?kind)
    ?subtype) ?className) ?value) ?description
  case kind => exact Slot.takes_withDefault rfl
  case subtype => exact takes_text (by simp [Slot.optional, List.lookup_append])
  case className => exact takes_text (by simp [Slot.optional, List.lookup_append])
  case value => exact takes_json (by simp [Slot.optional, List.lookup_append]) h
  case description => exact takes_text (by simp [Slot.optional, List.lookup_append])

theorem plain_of_decode {v : Value} {o : RemoteObject} (h : decode v = .ok o) : o.Plain := by
  refine Fields.Gives.decode ?_ h
  refine Fields.Gives.field (Fields.Gives.field (Fields.Gives.field (Fields.Gives.field
    (Fields.Gives.field (Fields.gives_make ?_) (Slot.gives_true _)) (Slot.gives_true _))
    (Slot.gives_true _)) (gives_json (by simp))) (Slot.gives_true _)
  exact fun _ _ _ _ _ _ _ hvalue _ _ => hvalue

end RemoteObject

namespace ExceptionDetails

def Plain (d : ExceptionDetails) : Prop :=
  ∀ o ∈ d.exception, o.Plain

theorem decode_encode {d : ExceptionDetails} (h : d.Plain) : decode d.encode = .ok d := by
  obtain ⟨text, lineNumber, columnNumber, exception⟩ := d
  refine Fields.decode_written (((Fields.covered_make _).field _).field _ |>.field _ |>.field _)
    (["text", "lineNumber", "columnNumber"] ++ ["exception"])
    (keys_append_presentMember (List.Sublist.refl _) _ _ _) (by decide) ?_
  refine Fields.ofMembers_field (Fields.ofMembers_field (Fields.ofMembers_field
    (Fields.ofMembers_field (Fields.ofMembers_make _ _) ?text) ?lineNumber) ?columnNumber)
    ?exception
  case text => exact Slot.takes_withDefault rfl
  case lineNumber => exact Slot.takes_withDefault ((Decode.i64_iff _ _).2 rfl)
  case columnNumber => exact Slot.takes_withDefault ((Decode.i64_iff _ _).2 rfl)
  case exception =>
    refine Slot.takes_optional RemoteObject.encode ?_
      fun o ho => ⟨nofun, RemoteObject.decode_encode (h o ho)⟩
    simp [Slot.optional]

theorem plain_of_decode {v : Value} {d : ExceptionDetails} (h : decode v = .ok d) : d.Plain := by
  refine Fields.Gives.decode ?_ h
  refine Fields.Gives.field (Fields.Gives.field (Fields.Gives.field (Fields.Gives.field
    (Fields.gives_make ?_) (Slot.gives_true _)) (Slot.gives_true _)) (Slot.gives_true _))
    (Slot.gives_nullable (fun _ _ _ => RemoteObject.plain_of_decode) (by simp))
  exact fun _ _ _ _ _ _ _ hexception => hexception

end ExceptionDetails

namespace EvaluateResult

def Plain (r : EvaluateResult) : Prop :=
  r.result.Plain ∧ ∀ d ∈ r.exceptionDetails, d.Plain

/-- The result of an evaluation reads as itself, with an exception or without. -/
theorem decode_encode {r : EvaluateResult} (h : r.Plain) : decode r.encode = .ok r := by
  obtain ⟨result, exceptionDetails⟩ := r
  refine Fields.decode_written (((Fields.covered_make _).field _).field _)
    (["result"] ++ ["exceptionDetails"])
    (keys_append_presentMember (List.Sublist.refl _) _ _ _) (by decide) ?_
  refine Fields.ofMembers_field (Fields.ofMembers_field (Fields.ofMembers_make _ _) ?result)
    ?exceptionDetails
  case result => exact Slot.takes_required (RemoteObject.decode_encode h.1)
  case exceptionDetails =>
    refine Slot.takes_optional ExceptionDetails.encode ?_
      fun d hd => ⟨nofun, ExceptionDetails.decode_encode (h.2 d hd)⟩
    simp [Slot.optional]

theorem plain_of_decode {v : Value} {r : EvaluateResult} (h : decode v = .ok r) : r.Plain := by
  refine Fields.Gives.decode ?_ h
  refine Fields.Gives.field (Fields.Gives.field (Fields.gives_make ?_)
    (Slot.gives_required fun _ _ => RemoteObject.plain_of_decode))
    (Slot.gives_nullable (fun _ _ _ => ExceptionDetails.plain_of_decode) (by simp))
  exact fun _ hresult _ hdetails => ⟨hresult, hdetails⟩

end EvaluateResult

/-! ## Bodies of the daemon -/

theorem HealthResponse.decode_encode (h : HealthResponse) :
    HealthResponse.decode h.encode = .ok h :=
  rfl

theorem ErrorBody.decode_encode (e : ErrorBody) : ErrorBody.decode e.encode = .ok e :=
  rfl

theorem ReconnectResponse.decode_encode (r : ReconnectResponse) :
    ReconnectResponse.decode r.encode = .ok r := by
  obtain ⟨status, error⟩ := r
  cases status <;> cases error <;> rfl

namespace ExecResponse

def Plain (r : ExecResponse) : Prop :=
  r.result ≠ some .null

/-- The answer to a request reads as itself, with a result or with an error. -/
theorem decode_encode {r : ExecResponse} (h : r.Plain) : decode r.encode = .ok r := by
  obtain ⟨result, error⟩ := r
  refine Fields.decode_written (((Fields.covered_make _).field _).field _) (["result"] ++ ["error"])
    ((keys_presentMember _ _ _).append (keys_presentMember _ _ _) |> (List.map_append ▸ ·))
    (by decide) ?_
  refine Fields.ofMembers_field (Fields.ofMembers_field (Fields.ofMembers_make _ _) ?result) ?error
  case result => exact takes_json (by simp [Slot.optional, List.lookup_append]) h
  case error =>
    refine Slot.takes_optional ErrorBody.encode ?_ fun e _ => ⟨nofun, e.decode_encode⟩
    simp [Slot.optional, List.lookup_append]

/-- A null in the answer was read as no result. -/
theorem plain_of_decode {v : Value} {r : ExecResponse} (h : decode v = .ok r) : r.Plain := by
  refine Fields.Gives.decode ?_ h
  refine Fields.Gives.field (Fields.Gives.field (Fields.gives_make ?_) (gives_json (by simp)))
    (Slot.gives_true _)
  exact fun _ hresult _ _ => hresult

end ExecResponse

/-- Texts in a list are read one by one. -/
theorem decodeItems_string (units : List String) :
    decodeItems Decode.string true (units.map Value.string) = .ok units := by
  induction units with
  | nil => rfl
  | cons unit units ih =>
    rw [List.map_cons, decodeItems, ih]
    rfl

namespace ExecRequest

variable {α : Type} [Readable α]

/-- The name of an action is read as the action. -/
theorem action_decode_name {action : Action} {input : α}
    (h : Readable.shape input = .string action.name) : Action.decode input = .ok action := by
  unfold Action.decode
  rw [h]
  cases action <;> rfl

/-- The members that do not name the action are passed on, once they can be read. -/
theorem splitMembers_untagged {found : Option Action} {members : List (String × α)}
    (h : ∀ member ∈ members, member.1 ≠ tag ∧ (Readable.value? member.2).isSome = true) :
    splitMembers found members = .ok (found, members) := by
  induction members with
  | nil => rfl
  | cons member members ih =>
    obtain ⟨name, input⟩ := member
    obtain ⟨⟨hname, hreadable⟩, hrest⟩ := List.forall_mem_cons.1 h
    obtain ⟨v, hv⟩ := Option.isSome_iff_exists.1 hreadable
    unfold splitMembers
    rw [if_neg hname, ih hrest, hv]
    rfl

/-- A request that names its action first. -/
theorem ofMembers_tagged (action : Action) {first : α}
    (hfirst : Readable.shape first = .string action.name) {members : List (String × α)}
    (h : ∀ member ∈ members, member.1 ≠ tag ∧ (Readable.value? member.2).isSome = true)
    {r : ExecRequest} (hfields : action.fields.decodeMembers members true = .ok r) :
    ofMembers ((tag, first) :: members) true = .ok r := by
  have hsplit : splitMembers none ((tag, first) :: members) = .ok (some action, members) := by
    rw [splitMembers, if_pos rfl]
    simp only [action_decode_name hfirst, splitMembers_untagged h]
  rw [ofMembers, hsplit]
  show (action.fields.decodeMembers members true).mapError _ = _
  rw [hfields]
  rfl

/-- A request to run something reads as itself, whichever action it asks for. -/
theorem decode_encode (r : ExecRequest) : decode r.encode = .ok r := by
  have hone (key : String) (hkey : key ≠ tag) (v : Value) :
      ∀ member ∈ [(key, v)], member.1 ≠ tag ∧ (Readable.value? member.2).isSome = true :=
    fun _ hmember => List.mem_singleton.1 hmember ▸ ⟨hkey, rfl⟩
  have hread (h : decodeLocated r.encode = .ok r) : decode r.encode = .ok r := by
    rw [decode, h]
    rfl
  apply hread
  cases r with
  | eval code => exact ofMembers_tagged .eval rfl (hone "code" (by decide) _) rfl
  | render markup => exact ofMembers_tagged .render rfl (hone "jsx" (by decide) _) rfl
  | renderBatch units =>
    refine ofMembers_tagged .renderBatch rfl (hone "jsxArray" (by decide) _) ?_
    refine Fields.decodeMembers_written ((Fields.covered_make _).field _) ["jsxArray"]
      (List.Sublist.refl _) (by decide) ?_
    refine Fields.ofMembers_field (Fields.ofMembers_make _ _) ?units
    case units => exact Slot.takes_required (decodeItems_string units)

end ExecRequest

/-! ## Every type -/

/-- The types of what is sent over the channel, listed by the endpoint or exchanged with the
daemon. -/
inductive Kind where
  | request
  | response
  | protocolError
  | event
  | message
  | targetDescriptor
  | executionContextCreated
  | evaluateParams
  | evaluateResult
  | remoteObject
  | exceptionDetails
  | healthResponse
  | errorBody
  | reconnectResponse
  | execRequest
  | execResponse
deriving DecidableEq, Repr

namespace Kind

/-- What is sent. -/
def Carrier : Kind → Type
  | request => Request
  | response => Response
  | protocolError => ProtocolError
  | event => Event
  | message => Message
  | targetDescriptor => TargetDescriptor
  | executionContextCreated => ExecutionContextCreated
  | evaluateParams => EvaluateParams
  | evaluateResult => EvaluateResult
  | remoteObject => RemoteObject
  | exceptionDetails => ExceptionDetails
  | healthResponse => HealthResponse
  | errorBody => ErrorBody
  | reconnectResponse => ReconnectResponse
  | execRequest => ExecRequest
  | execResponse => ExecResponse

def decode : (kind : Kind) → Decoder Value kind.Carrier
  | request => Request.decode
  | response => Response.decode
  | protocolError => ProtocolError.decode
  | event => Event.decode
  | message => fun v => .ok (Message.ofValue v)
  | targetDescriptor => TargetDescriptor.decode
  | executionContextCreated => ExecutionContextCreated.decode
  | evaluateParams => EvaluateParams.decode
  | evaluateResult => EvaluateResult.decode
  | remoteObject => RemoteObject.decode
  | exceptionDetails => ExceptionDetails.decode
  | healthResponse => HealthResponse.decode
  | errorBody => ErrorBody.decode
  | reconnectResponse => ReconnectResponse.decode
  | execRequest => ExecRequest.decode
  | execResponse => ExecResponse.decode

def encode : (kind : Kind) → kind.Carrier → Value
  | request => Request.encode
  | response => Response.encode
  | protocolError => ProtocolError.encode
  | event => Event.encode
  | message => Message.encode
  | targetDescriptor => TargetDescriptor.encode
  | executionContextCreated => ExecutionContextCreated.encode
  | evaluateParams => EvaluateParams.encode
  | evaluateResult => EvaluateResult.encode
  | remoteObject => RemoteObject.encode
  | exceptionDetails => ExceptionDetails.encode
  | healthResponse => HealthResponse.encode
  | errorBody => ErrorBody.encode
  | reconnectResponse => ReconnectResponse.encode
  | execRequest => ExecRequest.encode
  | execResponse => ExecResponse.encode

/-- No field that may hold any JSON or nothing holds null. The other types have no such field. -/
def Plain : (kind : Kind) → kind.Carrier → Prop
  | response => Response.Plain
  | message => Message.Plain
  | executionContextCreated => ExecutionContextCreated.Plain
  | evaluateResult => EvaluateResult.Plain
  | remoteObject => RemoteObject.Plain
  | exceptionDetails => ExceptionDetails.Plain
  | execResponse => ExecResponse.Plain
  | _ => fun _ => True

/-- What is plain reads as itself, for every type. -/
theorem decode_encode (kind : Kind) {t : kind.Carrier} (h : kind.Plain t) :
    kind.decode (kind.encode t) = .ok t := by
  cases kind with
  | request => exact Request.decode_encode t
  | response => exact Response.decode_encode h
  | protocolError => exact ProtocolError.decode_encode t
  | event => exact Event.decode_encode t
  | message => exact congrArg Except.ok (Message.ofValue_encode h)
  | targetDescriptor => exact TargetDescriptor.decode_encode t
  | executionContextCreated => exact ExecutionContextCreated.decode_encode h
  | evaluateParams => exact EvaluateParams.decode_encode t
  | evaluateResult => exact EvaluateResult.decode_encode h
  | remoteObject => exact RemoteObject.decode_encode h
  | exceptionDetails => exact ExceptionDetails.decode_encode h
  | healthResponse => exact HealthResponse.decode_encode t
  | errorBody => exact ErrorBody.decode_encode t
  | reconnectResponse => exact ReconnectResponse.decode_encode t
  | execRequest => exact ExecRequest.decode_encode t
  | execResponse => exact ExecResponse.decode_encode h

/-- What was read is plain, for every type. -/
theorem plain_of_decode (kind : Kind) {v : Value} {t : kind.Carrier} (h : kind.decode v = .ok t) :
    kind.Plain t := by
  cases kind with
  | response => exact Response.plain_of_decode h
  | message =>
    cases h
    exact Message.plain_ofValue v
  | executionContextCreated => exact ExecutionContextCreated.plain_of_decode h
  | evaluateResult => exact EvaluateResult.plain_of_decode h
  | remoteObject => exact RemoteObject.plain_of_decode h
  | exceptionDetails => exact ExceptionDetails.plain_of_decode h
  | execResponse => exact ExecResponse.plain_of_decode h
  | _ => trivial

/-- **What is sent survives being encoded again**: whatever a JSON value decodes as, in any order
of its members, with members that nobody asks for or as an array, is what its encoding decodes as;
and so is everything plain, wherever it comes from. -/
theorem decode_encode_of_decode (kind : Kind) :
    (∀ v t, kind.decode v = .ok t → kind.decode (kind.encode t) = .ok t) ∧
      ∀ t, kind.Plain t → kind.decode (kind.encode t) = .ok t :=
  ⟨fun _ _ h => kind.decode_encode (kind.plain_of_decode h), fun _ h => kind.decode_encode h⟩

/-- A response with its members in another order, one that nobody asks for and an error that is
null; and an outcome that was never decoded. -/
theorem decode_encode_response :
    let v := Value.object [("result", .array [.null]), ("error", .null), ("x", .null),
      ("id", .int 7)]
    let r : Response := ⟨7, some (.array [.null]), none⟩
    let e := ExecResponse.partly (.array []) ⟨"evaluation", "boom"⟩
    (response.decode v = .ok r ∧ response.decode (response.encode r) = .ok r) ∧
      execResponse.Plain e ∧ execResponse.decode (execResponse.encode e) = .ok e := by
  intro v r e
  have hread : response.decode v = .ok r := rfl
  have hplain : execResponse.Plain e := nofun
  exact ⟨⟨hread, (decode_encode_of_decode .response).1 v r hread⟩, hplain,
    (decode_encode_of_decode .execResponse).2 e hplain⟩

end Kind

end CanvasLink.Wire
