import CanvasLink.Cli.Run
import CanvasLink.Daemon.Surface
import CanvasLink.Proofs.Broker.Ways
import CanvasLink.Proofs.Json.Reading
import CanvasLink.Proofs.Wire.Reencoding

/-!
# CanvasLink — what a command shows of an outcome

A request to evaluate or render goes to the daemon as a text, and its outcome comes back as one. The
daemon reads the request that was sent. The client reads an error as it was sent, and a result as
far as JSON texts carry it: null counts as no result, an array or object that lies too deep makes
the answer unreadable, and a floating-point number may be read as one of its neighbours.

* `readBody_sent` — the daemon carries out what was asked for.
* `respond_goes_iff` — its answers are the outcomes of that.
* `readAnswer_encode` — what a client reads.
* **`exec_shown`** — what a command shows of every outcome, and when that is the outcome itself.
-/

namespace CanvasLink

open CanvasLink.Bridge CanvasLink.Broker CanvasLink.Cli CanvasLink.Daemon CanvasLink.Json
  CanvasLink.Wire

/-! ## The request -/

namespace Wire.ExecRequest

/-- No numbers are sent with a request. -/
theorem numbers_encode (request : ExecRequest) : request.encode.numbers = [] := by
  cases request with
  | eval code => rfl
  | render markup => rfl
  | renderBatch units =>
    show Value.itemNumbers (units.map Value.string) ++ [] = []
    rw [Value.itemNumbers_string, List.append_nil]

theorem decodeItems_itemSources (depth : Nat) (units : List String) :
    decodeItems Decode.string true (Value.itemSources depth (units.map Value.string)) =
      .ok units := by
  rw [Value.itemSources_string]
  exact (Decode.decodeItems_eq_ok_iff Decode.reads_string).2 ⟨rfl, rfl⟩

/-- The texts of a batch are read as they were written. -/
theorem itemValues?_itemSources (depth : Nat) (units : List String) :
    itemValues? (Value.itemSources depth (units.map Value.string)) =
      some (units.map Value.string) := by
  induction units with
  | nil => rfl
  | cons unit units ih =>
    rw [List.map_cons, Value.itemSources, itemValues?, ih]
    rfl

/-- **A request is read as it was sent.** -/
theorem decodeLocated_source (request : ExecRequest) :
    decodeLocated (request.encode.source 0) = .ok request := by
  cases request with
  | eval code => rfl
  | render markup => rfl
  | renderBatch units =>
    -- The items are kept opaque, so the decoding does not unfold them.
    obtain ⟨source, hsource⟩ : ∃ source,
        source = Source.array (Value.itemSources 2 (units.map Value.string)) true := ⟨_, rfl⟩
    have hvalue : Readable.value? source = some (Value.array (units.map Value.string)) := by
      show source.value? = _
      rw [hsource, Source.value?, itemValues?_itemSources]
      rfl
    have hdecode : Decode.list Decode.string source = .ok units :=
      hsource ▸ decodeItems_itemSources 2 units
    have hencode : (renderBatch units).encode.source 0 =
        .object [(tag, .string "renderBatch"), ("jsxArray", source)] true := by
      rw [hsource]
      rfl
    rw [hencode]
    refine ofMembers_tagged .renderBatch rfl ?_ ?_
    · intro member hmember
      rw [List.mem_singleton.1 hmember]
      exact ⟨show "jsxArray" ≠ tag by decide, Option.isSome_iff_exists.2 ⟨_, hvalue⟩⟩
    · refine Fields.decodeMembers_written ((Fields.covered_make _).field _) ["jsxArray"]
        (List.Sublist.refl _) (by decide) ?_
      exact Fields.ofMembers_field (Fields.ofMembers_make _ _) (Slot.takes_required hdecode)

end Wire.ExecRequest

namespace Daemon

theorem decodeBody_encode (request : ExecRequest) :
    decodeBody request.encode.compact = .ok request := by
  have hread := Document.read_compact (v := request.encode) (by simp [ExecRequest.numbers_encode])
  simp only [decodeBody, hread, ExecRequest.decodeLocated_source, if_true]

/-- What is sent for a request. -/
def ClientRequest.sent (request : ClientRequest) : HttpRequest :=
  { method := request.method
    target := request.path
    contentType := request.body?.map Prod.fst
    body := (request.body?.map Prod.snd).getD "" }

/-- A request that is not too large reads at the daemon as it was sent. -/
theorem readBody_sent {request : ExecRequest}
    (hsize : request.encode.compact.utf8ByteSize ≤ bodyLimit) :
    readBody (ClientRequest.exec request).sent = .ok request := by
  have hdeclared : declaresJson (ClientRequest.exec request).sent.contentType = true := by
    show declaresJson (some "application/json") = true
    decide
  rw [readBody, hdeclared]
  show (if bodyLimit < request.encode.compact.utf8ByteSize then _ else
    decodeBody request.encode.compact) = _
  rw [if_neg (by omega), decodeBody_encode]

/-- The answer for an outcome. -/
def answer (outcome : Except ExecFailure Value) : HttpResponse :=
  .json (execReply outcome).1 (execReply outcome).2.encode

section Endpoint

variable (limits : Limits) {request : HttpRequest}

/-- A request to the endpoint takes its route. -/
theorem respond_eq_serve (hmethod : request.method = "POST")
    (hpath : pathOf request.target = "/exec") :
    respond limits request = (serve limits .exec request >>= fun response => pure response) := by
  have hroute : Route.ofPath? (pathOf request.target) = some .exec := by
    rw [hpath]
    rfl
  have htakes : request.method ∈ Route.exec.methods := hmethod ▸ List.mem_singleton_self _
  have hbody (response : HttpResponse) : headOnly request response = response := by
    rw [headOnly, hmethod]
    rfl
  unfold respond
  rw [hroute]
  dsimp only
  rw [if_pos htakes]
  simp only [hbody]

/-- An exec request is carried out, and the answers to it are those to the outcomes. -/
theorem goes_respond_exec_iff (hmethod : request.method = "POST")
    (hpath : pathOf request.target = "/exec") {exec : ExecRequest}
    (h : readBody request = .ok exec) {log : List Call.Event} {response : HttpResponse} :
    (respond limits request).Goes log response ↔
      ∃ outcome, (Broker.perform limits exec).Goes log outcome ∧ response = answer outcome := by
  have hserve : serve limits .exec request =
      (Broker.perform limits exec >>= fun outcome => pure (answer outcome)) := by
    rw [serve, h]
    rfl
  rw [respond_eq_serve limits hmethod hpath, hserve, Call.goes_map_iff]
  simp only [Call.goes_map_iff, exists_eq_right']

end Endpoint

/-- **The daemon's answers** are the outcomes of what was asked for. -/
theorem respond_goes_iff (limits : Limits) {request : ExecRequest}
    (hsize : request.encode.compact.utf8ByteSize ≤ bodyLimit) {log : List Call.Event}
    {response : HttpResponse} :
    (respond limits (ClientRequest.exec request).sent).Goes log response ↔
      ∃ outcome, (Broker.perform limits request).Goes log outcome ∧ response = answer outcome := by
  have hpath : pathOf (ClientRequest.exec request).sent.target = "/exec" := by
    show pathOf "/exec" = "/exec"
    decide +kernel
  exact goes_respond_exec_iff limits rfl hpath (readBody_sent hsize)

end Daemon

/-! ## The answer -/

namespace Wire.ExecResponse

/-- The members of an answer as they are read. -/
def sources (result : Option Source) (error : Option ErrorBody) : List (String × Source) :=
  (result.map fun source => ("result", source)).toList ++
    (error.map fun body => ("error", body.encode.source 1)).toList

theorem source_encode (r : ExecResponse) :
    r.encode.source 0 = .object (sources (r.result.map (Value.source 1)) r.error) true := by
  obtain ⟨result, error⟩ := r
  cases result <;> cases error <;> rfl

/-- What a place in an answer, or the lack of one, is read as. Null counts as no result. -/
def readResult : Option Source → Except DecodeError (Option Value)
  | none => .ok none
  | some source => Decode.nullable Decode.value source

theorem lookup_result (result : Option Source) (error : Option ErrorBody) :
    (sources result error).lookup "result" = result := by
  cases result <;> cases error <;> rfl

theorem lookup_error (result : Option Source) (error : Option ErrorBody) :
    (sources result error).lookup "error" = error.map fun body => body.encode.source 1 := by
  cases result <;> cases error <;> rfl

/-- The field of the result takes what stands in its place. -/
theorem takes_result_iff {result : Option Source} {value : Option Value} :
    (Slot.optional "result" Decode.value).Takes result value ↔ readResult result = .ok value := by
  cases result with
  | none => simp [Slot.takes_none_iff, Slot.optional, readResult]
  | some source => exact Slot.takes_some_iff

/-- The field of the error takes the error that was sent. -/
theorem takes_error_iff {error body : Option ErrorBody} :
    (Slot.optional "error" ErrorBody.decode).Takes
      (error.map fun body => body.encode.source 1) body ↔ body = error := by
  cases error with
  | none => simp [Slot.takes_none_iff, Slot.optional, eq_comm]
  | some e =>
    rw [Option.map_some, Slot.takes_some_iff]
    show Except.ok (some e) = .ok body ↔ _
    rw [Except.ok.injEq, eq_comm]

/-- An error is read as it was sent, and a result as far as its text can be read. -/
theorem decode_sources_iff (result : Option Source) (error : Option ErrorBody) (r : ExecResponse) :
    decode (Source.object (sources result error) true) = .ok r ↔
      readResult result = .ok r.result ∧ r.error = error := by
  have hkeys : ((sources result error).map Prod.fst).Sublist ["result", "error"] := by
    cases result <;> cases error <;> simp [sources]
  have hcovered : (fields : Fields Source ExecResponse).Covered :=
    ((Fields.covered_make _).field _).field _
  show fields.decodeMembers (sources result error) true = _ ↔ _
  rw [Fields.decodeMembers_iff hcovered]
  -- Each of the two fields is read from its own member alone.
  constructor
  · rintro ⟨-, hmembers⟩
    obtain ⟨_, hmake, _, hbody, rfl⟩ := Fields.ofMembers_field_iff.1 hmembers
    obtain ⟨_, hmade, _, hvalue, rfl⟩ := Fields.ofMembers_field_iff.1 hmake
    cases hmade
    exact ⟨takes_result_iff.1 (lookup_result result error ▸ hvalue),
      takes_error_iff.1 (lookup_error result error ▸ hbody)⟩
  · rintro ⟨hread, rfl⟩
    have hvalue := (lookup_result result r.error).symm ▸ takes_result_iff.2 hread
    have hbody := (lookup_error result r.error).symm ▸ takes_error_iff.2 (rfl : r.error = _)
    exact ⟨Fields.nodup_known hkeys (by decide),
      Fields.ofMembers_field (Fields.ofMembers_field (Fields.ofMembers_make _ _) hvalue) hbody⟩

/-- Only null is read as null. -/
theorem readResult_source {v : Value} (h : v ≠ .null) :
    readResult (some (v.source 1)) =
      match (v.source 1).value? with
      | some read => .ok (some read)
      | none => .error .unreadable := by
  -- `null` is the only value the nullable slot takes for itself.
  have hsource : readResult (some (v.source 1)) = (Decode.value (v.source 1)).map some := by
    cases v with
    | null => exact absurd rfl h
    | number n =>
      show Decode.nullable Decode.value (Value.numberSource n.reread?) = _
      rw [Value.source]
      cases n.reread? <;> rfl
    | _ => rfl
  rw [hsource, Decode.value]
  show Except.map some (match (v.source 1).value? with
    | some read => Except.ok read
    | none => Except.error DecodeError.unreadable) = _
  cases (v.source 1).value? <;> rfl

theorem numbers_encode (r : ExecResponse) :
    r.encode.numbers = (r.result.map Value.numbers).getD [] := by
  obtain ⟨result, error⟩ := r
  cases result <;> cases error <;>
    simp [encode, presentMember, Value.numbers, Value.memberNumbers, ErrorBody.encode]

end Wire.ExecResponse

namespace Daemon

/-- **What a client reads of an answer.** -/
theorem readAnswer_encode {r : ExecResponse} (h : ∀ v ∈ r.result, ∀ n ∈ v.numbers, n.IsProper) :
    readAnswer ExecResponse.decode r.encode.compact =
      match ExecResponse.readResult (r.result.map (Value.source 1)) with
      | .ok result => .ok { r with result := result }
      | .error _ => .error .badBody := by
  have hproper : ∀ n ∈ r.encode.numbers, n.IsProper := by
    rw [ExecResponse.numbers_encode]
    cases hresult : r.result with
    | none => simp
    | some v => exact h v hresult
  have hiff (r' : ExecResponse) := ExecResponse.decode_sources_iff
    (r.result.map (Value.source 1)) r.error r'
  simp only [readAnswer, Document.read_compact hproper, ExecResponse.source_encode]
  cases hread : ExecResponse.readResult (r.result.map (Value.source 1)) with
  | ok result =>
    rw [(hiff { r with result := result }).2 ⟨hread, rfl⟩]
    rfl
  | error e =>
    cases hdecode : ExecResponse.decode
        (Source.object (ExecResponse.sources (r.result.map (Value.source 1)) r.error) true) with
    | error e => rfl
    | ok r' =>
      have hok := ((hiff r').1 hdecode).1
      rw [hread] at hok
      cases hok

end Daemon

namespace Cli

/-! ## The report -/

/-- The value that an outcome carries. -/
def carried : Except ExecFailure Value → Option Value
  | .ok v => some v
  | .error ⟨_, results⟩ => results.map .array

/-- What a command is to show of an outcome. -/
def promised : Except ExecFailure Value → Report
  | .ok v => ⟨printed (.object [("result", v)]), none⟩
  | .error ⟨e, none⟩ => ⟨"", some (.remote (errorBody e))⟩
  | .error ⟨e, some results⟩ =>
    ⟨printed (.object [("result", .array results)]), some (.remote (errorBody e))⟩

/-- What a value other than null comes to, with the error that it is shown with. -/
def showing (base : String) (v : Value) (error : Option Cli.Error) : Report :=
  match (v.source 1).value? with
  | some read => ⟨printed (.object [("result", read)]), error⟩
  | none => reportFailure base .badBody

/-- What a command shows of an outcome. -/
def shown (base : String) : Except ExecFailure Value → Report
  | .ok .null => ⟨"", none⟩
  | .ok v => showing base v none
  | .error ⟨e, none⟩ => ⟨"", some (.remote (errorBody e))⟩
  | .error ⟨e, some results⟩ => showing base (.array results) (some (.remote (errorBody e)))

/-- A value other than null is shown as it is read. -/
theorem shown_of_ne_null {v : Value} (h : v ≠ .null) (base : String) :
    shown base (.ok v) = showing base v none := by
  cases v with
  | null => exact absurd rfl h
  | _ => rfl

/-- A report says what an answer that can be read says. -/
theorem report_of_read {body : String} {r : ExecResponse}
    (h : readAnswer ExecResponse.decode body = .ok r) (base : String) (pid : Option UInt32)
    (request : ExecRequest) : report base pid (.exec request) (.ok body) = reportExec r := by
  simp only [report, Except.bind, h, Except.map]

theorem report_of_unread {body : String} {e : ClientError}
    (h : readAnswer ExecResponse.decode body = .error e) (base : String) (pid : Option UInt32)
    (request : ExecRequest) : report base pid (.exec request) (.ok body) = reportFailure base e := by
  simp only [report, Except.bind, h, Except.map]

/-- A report is what the command shows of the outcome, if its numbers can be written. -/
theorem report_answer (outcome : Except ExecFailure Value)
    (h : ∀ v ∈ carried outcome, ∀ n ∈ v.numbers, n.IsProper) (base : String) (pid : Option UInt32)
    (request : ExecRequest) :
    report base pid (.exec request) (.ok (answer outcome).body) = shown base outcome := by
  have hcarried : (execReply outcome).2.result = carried outcome := by
    obtain ⟨e, _ | results⟩ | v := outcome <;> rfl
  have hread := readAnswer_encode (r := (execReply outcome).2) (hcarried ▸ h)
  -- A value other than null is shown as it is read, with the error that comes with it.
  have hshowing (v : Value) (hnull : v ≠ .null) (body : Option ErrorBody)
      (hreply : (execReply outcome).2 = ⟨some v, body⟩) :
      report base pid (.exec request) (.ok (answer outcome).body) =
        showing base v (body.map .remote) := by
    rw [hreply, Option.map_some, ExecResponse.readResult_source hnull] at hread
    have hbody : (answer outcome).body = (ExecResponse.mk (some v) body).encode.compact :=
      congrArg (fun reply => reply.encode.compact) hreply
    rw [hbody, showing]
    cases hvalue : (v.source 1).value? with
    | some read =>
      rw [hvalue] at hread
      exact report_of_read hread base pid request
    | none =>
      rw [hvalue] at hread
      exact report_of_unread hread base pid request
  obtain ⟨e, _ | results⟩ | v := outcome
  · exact report_of_read hread base pid request
  · exact hshowing (.array results) (by simp) (some (errorBody e)) rfl
  · by_cases hnull : v = .null
    · subst hnull
      exact report_of_read hread base pid request
    · rw [shown_of_ne_null hnull]
      exact hshowing v hnull none rfl

/-- A value that is read back is shown as it is. -/
theorem showing_eq {v : Value} (h : v.IsProper) (hback : v.ReadsBack 1) (base : String)
    (error : Option Cli.Error) :
    showing base v error = ⟨printed (.object [("result", v)]), error⟩ := by
  rw [showing, (Value.value?_source_iff_readsBack h (by decide)).2 hback]

/-- A command shows what it should, if the value is not null and reads back. -/
theorem shown_eq_promised {outcome : Except ExecFailure Value}
    (h : ∀ v ∈ carried outcome, v.IsProper)
    (hback : ∀ v ∈ carried outcome, v ≠ .null ∧ v.ReadsBack 1) (base : String) :
    shown base outcome = promised outcome := by
  obtain ⟨e, _ | results⟩ | v := outcome
  · rfl
  · exact showing_eq (h _ rfl) (hback _ rfl).2 base _
  · obtain ⟨hnull, hread⟩ := hback v rfl
    rw [shown_of_ne_null hnull]
    exact showing_eq (h v rfl) hread base none

/-- **What a command shows.** The daemon carries out what the client asks for, unless the request is
too long to be read, and its answers are the outcomes of that. Of every outcome the command shows
what `shown` says: the outcome itself, unless its value is null or is not read as it was written. -/
theorem exec_shown (limits : Limits) (request : ExecRequest) (base : String)
    (pid : Option UInt32) :
    (request.encode.compact.utf8ByteSize ≤ bodyLimit → ∀ log response,
      (respond limits (ClientRequest.exec request).sent).Goes log response ↔
        ∃ outcome, (Broker.perform limits request).Goes log outcome ∧ response = answer outcome) ∧
    ∀ outcome, (∀ v ∈ carried outcome, v.IsProper) →
      report base pid (.exec request) (.ok (answer outcome).body) = shown base outcome ∧
      ((∀ v ∈ carried outcome, v ≠ .null ∧ v.ReadsBack 1) →
        shown base outcome = promised outcome) := by
  refine ⟨fun hsize log response => respond_goes_iff limits hsize, fun outcome h => ⟨?_, ?_⟩⟩
  · exact report_answer outcome (fun v hv => (h v hv).numbers) base pid request
  · exact fun hback => shown_eq_promised h hback base

/-- A batch that failed at its second unit. -/
def failedBatch : Except ExecFailure Value :=
  .error ⟨.evaluation "boom", some [.array [.int 7, .null], failedUnit (.evaluation "boom")]⟩

/-- A batch that failed is shown with its results and with the error of the unit that failed. -/
theorem failedBatch_shown :
    let request := ExecRequest.renderBatch ["<Frame/>", "<Frame/>"]
    (∃ log response, (respond {} (ClientRequest.exec request).sent).Goes log response ∧
      ∃ outcome, (Broker.perform {} request).Goes log outcome ∧ response = answer outcome) ∧
    report "http://127.0.0.1:7373" none (.exec request) (.ok (answer failedBatch).body) =
      promised failedBatch := by
  intro request
  have hsize : request.encode.compact.utf8ByteSize ≤ bodyLimit := by decide
  have hproper : ∀ v ∈ carried failedBatch, v.IsProper := by
    rintro _ ⟨⟩
    refine ⟨fun n hn => ?_, ?_⟩
    · cases List.mem_singleton.1 hn
      exact ⟨by decide, by decide⟩
    · simp [Value.IsSorted, Value.ItemsSorted, Value.MembersSorted, failedUnit, Value.int]
  have hback : ∀ v ∈ carried failedBatch, v ≠ .null ∧ v.ReadsBack 1 := by
    rintro _ ⟨⟩
    exact ⟨by simp, by decide, fun x hx => by cases List.mem_singleton.1 hx⟩
  obtain ⟨hanswers, hreports⟩ := exec_shown {} request "http://127.0.0.1:7373" none
  -- Some way leads to an answer, whatever the session does.
  obtain ⟨log, response, hgoes⟩ := (respond {} (ClientRequest.exec request).sent).exists_goes
  obtain ⟨hreport, hshown⟩ := hreports failedBatch hproper
  exact ⟨⟨log, response, hgoes, (hanswers hsize log response).1 hgoes⟩,
    hreport.trans (hshown hback)⟩

/-- A script that gives null succeeds, and nothing is shown. -/
theorem null_not_shown :
    report "http://127.0.0.1:7373" none (.exec (.eval "null")) (.ok (answer (.ok .null)).body) ≠
      promised (.ok .null) := by
  have hproper : ∀ v ∈ carried (.ok .null), ∀ n ∈ v.numbers, n.IsProper := by rintro _ ⟨⟩ _ ⟨⟩
  have hreport := report_answer (.ok .null) hproper "http://127.0.0.1:7373" none (.eval "null")
  rw [hreport]
  intro heq
  exact absurd (congrArg Report.output heq) (by decide)

end Cli

end CanvasLink
