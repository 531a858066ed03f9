import CanvasLink.Proofs.Connection.Answering

/-!
# CanvasLink — what an evaluation tells of an exception

The target says up to three things about an exception: a description of what was thrown, the thrown
value itself, and a general text. An evaluation that is answered with an exception fails with the
first of them that is not empty. There is one exception to this: a thrown string is told as it is,
also when it is empty, and then the general text is lost.

* `ExceptionDetails.offers` — the three things, the most telling one first.
* `ExceptionDetails.ThrowsEmpty` — nothing but an empty string was thrown.
* `message_eq_firstTold_iff`, `message_eq_empty_iff` — when the most telling one is told, and when
  none is.
* **`evaluation_told`** — the headline: every answer to an evaluation.
* `thrownEmpty_untold` — an exception with a text that is not told.
-/

namespace CanvasLink.Json

/-! ## No value is written as nothing -/

/-- A number is written with one character at least. -/
theorem Number.text_ne_empty (n : Number) : n.text ≠ "" := by
  cases n with
  | integer i =>
    cases i with
    | ofNat n =>
      show Nat.repr n ≠ ""
      exact Nat.repr_ne_empty
    | negSucc n =>
      show "-" ++ Nat.repr (n + 1) ≠ ""
      simp
  | real x =>
    -- Every form has a part that is always written.
    have hmark : layout.wholeMark = ".0" := rfl
    show layout.render x ≠ ""
    simp only [Decimal.Layout.render, Decimal.Layout.magnitude, Decimal.positional,
      Decimal.scientific, hmark]
    split_ifs <;> simp

/-- Every value is written with one character at least. -/
theorem Value.compact_ne_empty (v : Value) : v.compact ≠ "" := by
  have hchars : v.compactChars ≠ [] := by
    cases v with
    | null => simp [compactChars]
    | boolean b => cases b <;> simp [compactChars]
    | number n => simpa [compactChars] using n.text_ne_empty
    | string s => simp [compactChars, quoteString, quote]
    | array items => cases items <;> simp [compactChars]
    | object members => cases members <;> simp [compactChars]
  simpa [compact] using hchars

end CanvasLink.Json

namespace CanvasLink.Wire

open CanvasLink.Json

/-! ## The message of an exception -/

/-- What a thrown value says for itself: nothing when there is none or it is null, a string its own
text, and anything else its compact form. -/
def saying : Option Value → String
  | none => ""
  | some .null => ""
  | some (.string s) => s
  | some v => v.compact

/-- The first text that is not empty, if there is one. -/
def firstTold (texts : List String) : String :=
  (texts.find? (· ≠ "")).getD ""

/-- What a thrown value says is nothing exactly if there is no value, or null, or the empty text. -/
theorem saying_eq_empty_iff {v? : Option Value} :
    saying v? = "" ↔ v? = none ∨ v? = some .null ∨ v? = some (.string "") := by
  unfold saying
  split <;> simp_all [Value.compact_ne_empty]

namespace ExceptionDetails

/-- The description of what was thrown; a missing one counts as empty. -/
def described (d : ExceptionDetails) : String :=
  (d.exception.bind (·.description)).getD ""

/-- The value that was thrown, as far as it can be told by value. -/
def thrown (d : ExceptionDetails) : Option Value :=
  d.exception.bind (·.value)

/-- What the target offers as a message, the most telling thing first. -/
def offers (d : ExceptionDetails) : List String :=
  [d.described, saying d.thrown, d.text]

/-- Nothing but an empty string was thrown. -/
def ThrowsEmpty (d : ExceptionDetails) : Prop :=
  d.described = "" ∧ d.thrown = some (.string "")

variable {d : ExceptionDetails}

/-- A description that is not empty is the message. -/
theorem message_of_described (h : d.described ≠ "") : d.message = d.described := by
  unfold described at h ⊢
  unfold message
  cases hexception : d.exception with
  | none => simp [hexception] at h
  | some o =>
    cases hdescription : o.description with
    | none => simp [hexception, hdescription] at h
    | some description =>
      have hkept : description ≠ "" := by simpa [hexception, hdescription] using h
      simp [hdescription, Option.filter, hkept]

/-- Without a description the message is what was thrown, and the text of the exception if nothing
was. -/
theorem message_of_not_described (h : d.described = "") :
    d.message = (thrownText? d.thrown).getD d.text := by
  unfold described at h
  unfold message thrown
  cases hexception : d.exception with
  | none => rfl
  | some o =>
    cases hdescription : o.description with
    | none => simp [hdescription, Option.filter]
    | some description =>
      have hempty : description = "" := by simpa [hexception, hdescription] using h
      simp [hdescription, Option.filter, hempty]

/-- The general text is told when the thrown value says nothing, unless that is an empty string. -/
theorem thrownText?_getD {v? : Option Value} (h : v? ≠ some (.string "")) (text : String) :
    (thrownText? v?).getD text = if saying v? = "" then text else saying v? := by
  unfold thrownText? saying
  split <;> simp_all [Value.compact_ne_empty]

/-- **The most telling thing that the target offers is told.** -/
theorem message_of_not_throwsEmpty (h : ¬ d.ThrowsEmpty) : d.message = firstTold d.offers := by
  by_cases hdescribed : d.described = ""
  · have hthrown : d.thrown ≠ some (.string "") := fun hthrown => h ⟨hdescribed, hthrown⟩
    rw [message_of_not_described hdescribed, thrownText?_getD hthrown]
    by_cases hsaying : saying d.thrown = "" <;> by_cases htext : d.text = "" <;>
      simp [firstTold, offers, hdescribed, hsaying, htext]
  · simp [message_of_described hdescribed, firstTold, offers, hdescribed]

/-- An empty string is told like any other, whatever the text. -/
theorem message_of_throwsEmpty (h : d.ThrowsEmpty) : d.message = "" := by
  rw [message_of_not_described h.1, h.2]
  rfl

/-- The one case in which something more telling is left untold. -/
theorem message_eq_firstTold_iff :
    d.message = firstTold d.offers ↔ ¬ (d.ThrowsEmpty ∧ d.text ≠ "") := by
  by_cases hempty : d.ThrowsEmpty
  · have hoffers : firstTold d.offers = d.text := by
      by_cases htext : d.text = "" <;>
        simp [firstTold, offers, hempty.1, hempty.2, saying, htext]
    rw [message_of_throwsEmpty hempty, hoffers, eq_comm]
    simp [hempty]
  · simp [hempty, message_of_not_throwsEmpty hempty]

/-- The message is empty exactly if an empty text was thrown and not described, or if there is
nothing at all to be told. -/
theorem message_eq_empty_iff :
    d.message = "" ↔
      d.ThrowsEmpty ∨ d.described = "" ∧ (d.thrown = none ∨ d.thrown = some .null) ∧ d.text = "" := by
  by_cases hempty : d.ThrowsEmpty
  · simp [hempty, message_of_throwsEmpty hempty]
  by_cases hdescribed : d.described = ""
  · have hthrown : d.thrown ≠ some (.string "") := fun hthrown => hempty ⟨hdescribed, hthrown⟩
    have hsaying : saying d.thrown = "" ↔ d.thrown = none ∨ d.thrown = some .null := by
      rw [saying_eq_empty_iff]
      simp [hthrown]
    rw [message_of_not_described hdescribed, thrownText?_getD hthrown, ← hsaying]
    by_cases hsaid : saying d.thrown = "" <;> simp [hempty, hdescribed, hsaid]
  · simp [hempty, message_of_described hdescribed, hdescribed]

end ExceptionDetails

end CanvasLink.Wire

namespace CanvasLink.Connection

open CanvasLink.Bridge CanvasLink.Json CanvasLink.Wire

/-! ## The answer to an evaluation -/

/-- The response carries the result of an evaluation. -/
def Carries (r : Response) (result : EvaluateResult) : Prop :=
  r.error = none ∧ EvaluateResult.decode (r.result.getD .null) = .ok result

/-- **What an evaluation is told.** A call that evaluates waits, and a response with its id comes in.
The call ends. Without an exception it ends with the value, or null. With one it fails with the first
thing that the target offers as a message and that is not empty, unless nothing but an empty string
was thrown; the message is empty just in that case and when nothing is offered. If the response
carries no result of an evaluation, the call fails with an error of the protocol. -/
theorem evaluation_told {inputs : List Input} {p : PendingCall} (h : Waits inputs p)
    (hp : p.purpose = .evaluation) {message : Value} {r : Response}
    (hr : Response.decode message = .ok r) (hid : r.id = p.id) :
    ∃ outcome, (opened.run inputs).1.step (.deliver message) =
      ({ (opened.run inputs).1 with
          pending := (opened.run inputs).1.pending.filter (·.id != p.id) },
        [.finished p.call outcome]) ∧
    (∀ result d, Carries r result → result.exceptionDetails = some d →
      ∃ text, outcome = .error (.evaluation text) ∧
        (text = firstTold d.offers ↔ ¬ (d.ThrowsEmpty ∧ d.text ≠ "")) ∧
        (text = "" ↔ d.ThrowsEmpty ∨
          d.described = "" ∧ (d.thrown = none ∨ d.thrown = some .null) ∧ d.text = "")) ∧
    (∀ result, Carries r result → result.exceptionDetails = none →
      outcome = .ok (result.result.value.getD .null)) ∧
    ((∀ result, ¬ Carries r result) → ∃ text, outcome = .error (.protocol text)) := by
  refine ⟨_, h.orderly.deliver_of_decode h.pending hr hid, ?_, ?_, ?_⟩
  · -- The three cases of a response that carries a result: with an exception, without one, and
    -- none.
    rintro result d ⟨herror, hresult⟩ hd
    exact ⟨d.message, (PendingCall.Told.thrown herror hp hresult hd).eq_apply,
      ExceptionDetails.message_eq_firstTold_iff, ExceptionDetails.message_eq_empty_iff⟩
  · rintro result ⟨herror, hresult⟩ hnone
    exact (PendingCall.Told.value herror hp hresult hnone).eq_apply
  · intro hnot
    have htold := p.told_apply r
    generalize p.purpose.apply (.ofResponse r) = outcome at htold ⊢
    -- Whatever was told, it is a failure of the protocol: the other outcomes need a result that is
    -- carried.
    cases htold with
    | refused _ => exact ⟨_, rfl⟩
    | result _ hpurpose =>
      rw [hp] at hpurpose
      cases hpurpose
    | value herror _ hresult _ => exact absurd ⟨herror, hresult⟩ (hnot _)
    | thrown herror _ hresult _ => exact absurd ⟨herror, hresult⟩ (hnot _)
    | unreadable _ _ _ => exact ⟨_, rfl⟩

/-- A script that throws is being evaluated. -/
def throwing : List Input :=
  [.evaluate 0 (.inContext "throw thing" 1)]

/-- The evaluation waits for its answer. -/
theorem waits_throwing : Waits throwing ⟨1, 0, .evaluation⟩ :=
  ⟨by decide, by decide, List.mem_singleton.2 rfl⟩

/-- What the target says of an exception that throws this value. -/
def thrownDetails (v : Value) : ExceptionDetails :=
  { text := "Uncaught", exception := some { value := some v } }

/-- The answer when this value is thrown. -/
def thrownResult (v : Value) : EvaluateResult :=
  ⟨{ value := some v }, some (thrownDetails v)⟩

/-- The response with that answer. -/
def thrownResponse (v : Value) : Response :=
  ⟨1, some (thrownResult v).encode, none⟩

theorem decode_thrownResponse (v : Value) :
    Response.decode (thrownResponse v).encode = .ok (thrownResponse v) := by
  have honce : (["id", "result"].filter (· ∈ ["id", "result", "error"])).Nodup := by decide
  exact Response.decode_object_iff.2 ⟨honce, rfl, .present nofun rfl, .absent⟩

/-- An object with a code. -/
def thrownObject : Value :=
  .object [("code", .int 7)]

/-- A thrown object is told in compact form, since it has no description. -/
theorem evaluation_told_thrownObject :
    (Waits throwing ⟨1, 0, .evaluation⟩ ∧ Response.decode (thrownResponse thrownObject).encode =
      .ok (thrownResponse thrownObject)) ∧
    ((opened.run throwing).1.step (.deliver (thrownResponse thrownObject).encode)).2 =
      [.finished 0 (.error (.evaluation "\x7b\"code\":7\x7d"))] := by
  have hr := decode_thrownResponse thrownObject
  refine ⟨⟨waits_throwing, hr⟩, ?_⟩
  obtain ⟨outcome, hstep, hthrown, -, -⟩ := evaluation_told waits_throwing rfl hr rfl
  obtain ⟨text, rfl, hfirst, -⟩ :=
    hthrown (thrownResult thrownObject) (thrownDetails thrownObject) ⟨rfl, rfl⟩ rfl
  have hsome : ¬ ((thrownDetails thrownObject).ThrowsEmpty ∧
      (thrownDetails thrownObject).text ≠ "") := by
    rintro ⟨⟨-, ⟨⟩⟩, -⟩
  have htext : firstTold (thrownDetails thrownObject).offers = "\x7b\"code\":7\x7d" := by decide
  rw [hstep, hfirst.2 hsome, htext]

/-- **A text that the target offers can be left untold**: a script throws an empty string. -/
theorem thrownEmpty_untold :
    ¬ ∀ inputs p message r result d, Waits inputs p → p.purpose = .evaluation →
      Response.decode message = .ok r → r.id = p.id → Carries r result →
        result.exceptionDetails = some d →
          ((opened.run inputs).1.step (.deliver message)).2 =
            [.finished p.call (.error (.evaluation (firstTold d.offers)))] := by
  intro h
  have htold := h throwing ⟨1, 0, .evaluation⟩ (thrownResponse (.string "")).encode
    (thrownResponse (.string "")) (thrownResult (.string "")) (thrownDetails (.string ""))
    waits_throwing rfl (decode_thrownResponse _) rfl ⟨rfl, rfl⟩ rfl
  have hempty : ((opened.run throwing).1.step
      (.deliver (thrownResponse (.string "")).encode)).2 =
        [.finished 0 (.error (.evaluation ""))] := rfl
  rw [hempty] at htold
  have htext : firstTold (thrownDetails (.string "")).offers = "Uncaught" := by decide
  simp [htext] at htold

end CanvasLink.Connection
