import CanvasLink.Proofs.Broker.Batch
import CanvasLink.Proofs.Cli.Showing

/-!
# CanvasLink — what the daemon answers to an exec request

An exec request is one call on the broker, and its outcome is reported as a status and a JSON body.
The status tells success, refused markup, a timeout and any other failure apart. The body holds the
error of a failure, and a result: the value of a success, or what the units of a batch gave before
one of them failed. A body that is no exec request is refused before anything is done.

* `goes_perform_error` — which failures tell partial results, and what these are.
* `Reports` — what an answer says of an outcome.
* `reports_answer` — every answer says that of its outcome.
* **`exec_reported`** — the headline, on a broker in any state.
-/

namespace CanvasLink.Broker

open CanvasLink.Bridge CanvasLink.Json CanvasLink.Wire

/-! ## Failures of a request -/

/-- The request is a batch, and none of its units is refused. -/
def IsCompiledBatch : ExecRequest → Prop
  | .renderBatch units => ∀ unit ∈ units, ∃ script, Markup.compile unit = .ok script
  | _ => False

/-- What the units of a batch gave up to the one that failed: a value for each before it, and its
message. -/
inductive FailedPartWay : ExecRequest → Bridge.Error → List Value → Prop
  | at {units : List String} {e : Bridge.Error} {values : List Value}
    (hunit : values.length < units.length) :
    FailedPartWay (.renderBatch units) e (values ++ [.object [("error", .string e.message)]])

variable {limits : Limits} {log : List Call.Event}

/-- A script that is evaluated on its own has no partial results. -/
theorem partialResults_of_mapError {outcome : Outcome} {failure : ExecFailure}
    (h : .error failure = outcome.mapError fun e => (⟨e, none⟩ : ExecFailure)) :
    failure.partialResults = none := by
  cases outcome with
  | ok value => cases h
  | error e =>
    cases h
    rfl

/-- A batch fails part way, with the results up to there, or it was refused before anything was
run. -/
theorem goes_renderBatch_error {units : List String} {failure : ExecFailure}
    (h : (renderBatch limits units).Goes log (.error failure)) :
    (IsCompiledBatch (.renderBatch units) ∧
      ∃ results, failure.partialResults = some results ∧
        FailedPartWay (.renderBatch units) failure.error results) ∨
      ¬ IsCompiledBatch (.renderBatch units) ∧ failure.partialResults = none := by
  -- Partial results exist exactly when every unit compiles: else nothing has been rendered.
  by_cases hcompile : ∀ unit ∈ units, ∃ script, Markup.compile unit = .ok script
  · obtain ⟨k, unit, values, hunit, rfl, hresults⟩ :=
      ((goes_renderBatch_iff hcompile).1 h).exists_failed
    exact .inl ⟨hcompile, _, hresults, .at (List.getElem?_eq_some_iff.1 hunit).1⟩
  · refine .inr ⟨hcompile, ?_⟩
    obtain ⟨bad, hbad, hrefused⟩ : ∃ bad ∈ units, ∀ script, Markup.compile bad ≠ .ok script := by
      simpa using hcompile
    obtain ⟨refusal, hrefusal⟩ : ∃ refusal, Markup.compile bad = .error refusal := by
      cases hbad : Markup.compile bad with
      | ok script => exact absurd hbad (hrefused script)
      | error refusal => exact ⟨refusal, rfl⟩
    obtain ⟨before, unit, after, first, rfl, hbefore, hunit⟩ := exists_first_error hbad hrefusal
    rw [renderBatch_of_error hbefore hunit] at h
    obtain ⟨-, ⟨⟩⟩ := Call.goes_done_iff.1 h
    rfl

/-- **Partial results** are told by the failures of a batch that has been compiled, and by no
others. -/
theorem goes_perform_error {request : ExecRequest} {failure : ExecFailure}
    (h : (perform limits request).Goes log (.error failure)) :
    (IsCompiledBatch request ∧ ∃ results, failure.partialResults = some results ∧
        FailedPartWay request failure.error results) ∨
      ¬ IsCompiledBatch request ∧ failure.partialResults = none := by
  -- Only a batch can fail part way.
  cases request with
  | eval code =>
    obtain ⟨outcome, -, houtcome⟩ := Call.goes_map_iff.1 h
    exact .inr ⟨id, partialResults_of_mapError houtcome⟩
  | render markup =>
    obtain ⟨outcome, -, houtcome⟩ := Call.goes_map_iff.1 h
    exact .inr ⟨id, partialResults_of_mapError houtcome⟩
  | renderBatch units =>
    obtain ⟨result, hgoes, hresult⟩ := Call.goes_map_iff.1 h
    cases result with
    | ok values => cases hresult
    | error failure =>
      cases hresult
      exact goes_renderBatch_error hgoes

end CanvasLink.Broker

namespace CanvasLink.Daemon

open CanvasLink.Bridge CanvasLink.Broker CanvasLink.Json CanvasLink.Wire

/-! ## Answers -/

/-- A status and a body report the outcome of a request. -/
structure Reports (request : ExecRequest) (outcome : Except ExecFailure Value) (status : Nat)
    (body : Value) : Prop where
  succeeded : status = 200 ↔ ∃ v, outcome = .ok v
  refused : status = 400 ↔ ∃ failure e, outcome = .error failure ∧ failure.error = .markup e
  timedOut : status = 504 ↔
    ∃ failure limit, outcome = .error failure ∧ failure.error = .executionTimeout limit
  failed : status = 502 ↔ ∃ failure, outcome = .error failure ∧
    (∀ e, failure.error ≠ .markup e) ∧ ∀ limit, failure.error ≠ .executionTimeout limit
  /-- There is an error in the body of every answer but that to a success. -/
  hasError : (body.member? "error").isSome ↔ status ≠ 200
  error : ∀ failure, outcome = .error failure → body.member? "error" =
    some (.object [("kind", .string failure.error.kind), ("message", .string failure.error.message)])
  /-- There is a result for a success, and for a batch that failed after it had been compiled. -/
  hasResult : (body.member? "result").isSome ↔
    (∃ v, outcome = .ok v) ∨ IsCompiledBatch request ∧ ∃ failure, outcome = .error failure
  value : ∀ v, outcome = .ok v → body.member? "result" = some v
  partWay : ∀ failure, outcome = .error failure → IsCompiledBatch request →
    ∃ results, body.member? "result" = some (.array results) ∧
      FailedPartWay request failure.error results

theorem statusOf_ne_ok (e : Bridge.Error) : statusOf e ≠ 200 := by
  cases e <;> simp [statusOf]

/-- Of all failures only that of markup has the status of a refused request. -/
theorem statusOf_eq_refused_iff {e : Bridge.Error} :
    statusOf e = 400 ↔ ∃ refusal, e = .markup refusal := by
  cases e <;> simp [statusOf]

/-- Of all failures only an overrun limit has the status of a timeout. -/
theorem statusOf_eq_timedOut_iff {e : Bridge.Error} :
    statusOf e = 504 ↔ ∃ limit, e = .executionTimeout limit := by
  cases e <;> simp [statusOf]

/-- All other failures have one status. -/
theorem statusOf_eq_failed_iff {e : Bridge.Error} :
    statusOf e = 502 ↔
      (∀ refusal, e ≠ .markup refusal) ∧ ∀ limit, e ≠ .executionTimeout limit := by
  cases e <;> simp [statusOf]

/-- The body of an answer to a failure, with what it tells besides the error. -/
theorem reports_failure {request : ExecRequest} {failure : ExecFailure} {body : Value}
    (herror : body.member? "error" = some (errorBody failure.error).encode)
    (hresult : body.member? "result" = failure.partialResults.map .array)
    (hpart : (IsCompiledBatch request ∧ ∃ results, failure.partialResults = some results ∧
        FailedPartWay request failure.error results) ∨
      ¬ IsCompiledBatch request ∧ failure.partialResults = none) :
    Reports request (.error failure) (statusOf failure.error) body where
  succeeded := by simp [statusOf_ne_ok]
  refused := by simp [statusOf_eq_refused_iff]
  timedOut := by simp [statusOf_eq_timedOut_iff]
  failed := by simp [statusOf_eq_failed_iff]
  hasError := by simp [herror, statusOf_ne_ok]
  error := by
    rintro _ ⟨⟩
    exact herror
  hasResult := by
    rw [hresult]
    rcases hpart with ⟨hbatch, results, hresults, -⟩ | ⟨hbatch, hresults⟩ <;>
      simp [hbatch, hresults]
  value := nofun
  -- The partial results are there only for a compiled batch.
  partWay := by
    rintro _ ⟨⟩ hbatch
    rcases hpart with ⟨-, results, hresults, hfailed⟩ | ⟨hnot, -⟩
    · exact ⟨results, by rw [hresult, hresults, Option.map_some], hfailed⟩
    · exact absurd hbatch hnot

/-- **Every answer reports its outcome.** -/
theorem reports_answer {limits : Limits} {request : ExecRequest} {log : List Call.Event}
    {outcome : Except ExecFailure Value} (h : (Broker.perform limits request).Goes log outcome) :
    ∃ status body, answer outcome = .json status body ∧ Reports request outcome status body := by
  refine ⟨_, _, rfl, ?_⟩
  cases outcome with
  | ok v =>
    have herror : (ExecResponse.succeeded v).encode.member? "error" = none := rfl
    have hresult : (ExecResponse.succeeded v).encode.member? "result" = some v := rfl
    exact ⟨by simp [execReply], by simp [execReply], by simp [execReply], by simp [execReply],
      by simp [execReply, herror], nofun, by simp [execReply, hresult],
      fun w hw => by cases hw; exact hresult, nofun⟩
  | error failure =>
    obtain ⟨e, _ | results⟩ := failure
    · exact reports_failure rfl rfl (goes_perform_error h)
    · exact reports_failure rfl rfl (goes_perform_error h)

/-! ## The endpoint -/

/-- A body that is no exec request has been answered before anything is done. -/
theorem respond_malformed {limits : Limits} {request : HttpRequest}
    (hmethod : request.method = "POST") (hpath : pathOf request.target = "/exec") {error : BodyError}
    (h : readBody request = .error error) :
    respond limits request = .done (.json 400 (.object [("error", .object
      [("kind", .string "bad_request"), ("message", .string error.message)])])) := by
  rw [respond_eq_serve limits hmethod hpath, serve, h]
  rfl

/-- **Every outcome is reported.** A request comes to the endpoint, on a broker in any state and with
any other calls on it. When its body is no exec request, it has been refused at once and all else is
as it was. Otherwise the answers to it are those to the outcomes of what is asked for, and each
reports its outcome; in every run in which the request is not abandoned, the answer that it gets is
the one to the outcome of its own way.

That every attempt has its entry in the table holds in all runs (`System.length_run`). -/
theorem exec_reported {ρ : Type} (limits : Limits) {request : HttpRequest}
    (hmethod : request.method = "POST") (hpath : pathOf request.target = "/exec")
    (finish : HttpResponse → ρ) (s : System ρ) (id : CallId) (hid : s.call? id = none)
    (hattempts : s.attempts.length = s.pool.attempts) :
    let call : Call ρ := do return finish (← respond limits request)
    let start := s.step (.begin id call)
    (∀ error, readBody request = .error error →
      start.result? id = some (finish (.json 400 (.object [("error", .object
        [("kind", .string "bad_request"), ("message", .string error.message)])]))) ∧
      start = { s with calls := start.calls }) ∧
    ∀ exec, readBody request = .ok exec →
      (∀ log response, (respond limits request).Goes log response ↔
        ∃ outcome, (Broker.perform limits exec).Goes log outcome ∧ response = answer outcome) ∧
      (∀ log outcome, (Broker.perform limits exec).Goes log outcome →
        ∃ status body, answer outcome = .json status body ∧ Reports exec outcome status body) ∧
      ∀ inputs, (∀ input ∈ inputs, input.abandons id = false) →
        ∀ ended, (start.run inputs).result? id = some ended →
          ∃ outcome, (Broker.perform limits exec).Goes
              (call.acts s.pool ++ start.path id inputs) outcome ∧
            ended = finish (answer outcome) := by
  intro call start
  refine ⟨fun error herror => ?_, fun exec hexec => ⟨fun log response =>
    goes_respond_exec_iff limits hmethod hpath hexec, fun log outcome => reports_answer, ?_⟩⟩
  · -- A body that cannot be read is answered in the same step, without a look at the pool.
    have hcall : call = .done (finish (.json 400 (.object [("error", .object
        [("kind", .string "bad_request"), ("message", .string error.message)])]))) := by
      show (respond limits request >>= _) = _
      rw [respond_malformed hmethod hpath herror]
      rfl
    have hstart : start = s.advance id call := by
      simp only [start, System.step, hid]
    rw [hstart, hcall]
    refine ⟨?_, by simp [System.advance, Call.settle, hattempts]⟩
    rw [System.result?, System.call?_advance, if_pos rfl]
    rfl
  · -- The way that the call has gone to its end is one of the request, and so one of its work.
    intro inputs hstay ended hended
    obtain ⟨later, result, hgoes, hend⟩ := System.goes_run hid call hstay
    obtain ⟨rfl, rfl⟩ := hend ended hended
    rw [List.append_nil] at hgoes
    obtain ⟨response, hresponse, rfl⟩ := Call.goes_map_iff.1 hgoes
    obtain ⟨outcome, houtcome, rfl⟩ :=
      (goes_respond_exec_iff limits hmethod hpath hexec).1 hresponse
    exact ⟨outcome, houtcome, rfl⟩

/-- A reconnect has just begun an attempt. -/
def busy : System HttpResponse :=
  System.empty.run [.begin 1 do let _ ← reconnect {}; return .notFound]

/-- A single attempt is made for each request. -/
def once : Limits :=
  { retry := { maxRetries := 0 } }

/-- A batch of one unit. -/
def batch : ExecRequest :=
  .renderBatch ["<Frame/>"]

/-- A request to the endpoint, as a call that ends with its answer. -/
def responding (request : HttpRequest) : Call HttpResponse := do
  return id (← respond once request)

/-- The attempt makes a session, and the script of the unit does not end in time. -/
def late : List (System.Input HttpResponse) :=
  [.connected 0 (.ok ()), .share 0, .answer 0 (.ran none)]

/-- A batch that fails by a timeout is answered so, and a body that is not declared to be JSON is
refused while the reconnect goes on. -/
theorem exec_reported_late :
    let request := (ClientRequest.exec batch).sent
    let undeclared := { request with contentType := none }
    (request.method = "POST" ∧ pathOf request.target = "/exec" ∧ busy.call? 0 = none ∧
      busy.attempts.length = busy.pool.attempts ∧ readBody request = .ok batch ∧
      ∀ input ∈ late, input.abandons 0 = false) ∧
    (∃ outcome status body, Reports batch outcome status body ∧ status = 504 ∧
      ((busy.step (.begin 0 (responding request))).run late).result? 0 = some (.json status body)) ∧
    busy.step (.begin 0 (responding undeclared)) =
      { busy with calls := (busy.step (.begin 0 (responding undeclared))).calls } := by
  intro request undeclared
  have hpath : pathOf request.target = "/exec" := by
    show pathOf "/exec" = "/exec"
    decide +kernel
  have hid : busy.call? 0 = none := rfl
  have hattempts : busy.attempts.length = busy.pool.attempts := System.length_run rfl _
  have hbody : readBody request = .ok batch := readBody_sent (by decide)
  have hstay : ∀ input ∈ late, input.abandons 0 = false := by simp [late, System.Input.abandons]
  refine ⟨⟨rfl, hpath, hid, hattempts, hbody, hstay⟩, ?_, ?_⟩
  · obtain ⟨-, hreports, hruns⟩ :=
      (@exec_reported _ once request rfl hpath id busy 0 hid hattempts).2 batch hbody
    have hended : ((busy.step (.begin 0 (responding request))).run late).result? 0 =
        some (answer (.error ⟨.executionTimeout once.retry.execTimeout,
          some [failedUnit (.executionTimeout once.retry.execTimeout)]⟩)) := by
      obtain ⟨script, hscript⟩ := compile_frame
      rw [responding, respond_eq_serve once (rfl : request.method = "POST") hpath, serve, hbody]
      dsimp only
      rw [batch, Broker.perform, renderBatch, Markup.compileBatch,
        compileFrom_eq_ok (.cons hscript .nil)]
      rfl
    obtain ⟨outcome, houtcome, hanswer⟩ := hruns late hstay _ hended
    obtain ⟨status, body, hsame, hreport⟩ := hreports _ outcome houtcome
    refine ⟨outcome, status, body, hreport, ?_, by rw [hended, hanswer, ← hsame]; rfl⟩
    have hstatus := congrArg HttpResponse.status (hanswer.trans hsame)
    exact hstatus.symm
  · exact ((@exec_reported _ once undeclared rfl hpath id busy 0 hid hattempts).1
      .notDeclared rfl).2

end CanvasLink.Daemon
