import CanvasLink.Proofs.Markup.Cursor

/-!
# CanvasLink — scans that follow a reading

What the cursor does in front of the part `s` of a text is compared with a reading of `s`. A scan
follows the reading if it comes to the same end and moves forward all the way: to positions between
two characters, never backwards, and behind the start of every round of a loop that is completed.

* `Forward` — the logs of a cursor that moves forward.
* `Follows` — the comparison. `Follows.bind` and `Follows.bind_error` take a program apart; the
  other lemmas are its steps, where no cut is out of range.
* `Course` — what a loop is to read from each of its states on. `Course.Turns` is the comparison for
  one of its rounds, which has to leave less than it found.
* **`Follows.loop`** — the rule of loops: the bound is never reached.
-/

namespace CanvasLink.Markup.Cursor

open CanvasLink.Text

variable {src s t : List Char} {α σ τ β : Type}

/-! ## Positions -/

/-- The position in front of a part is the number of bytes before it. -/
theorem offsetOf_append_left (before s : List Char) :
    offsetOf (before ++ s) s = utf8Length before := by
  rw [offsetOf, utf8Length_append, Nat.add_sub_cancel]

theorem offsetOf_self (s : List Char) : offsetOf s s = 0 :=
  Nat.sub_self _

/-- The byte position in front of a part that is left is one to cut at. -/
theorem splitAtByte?_offsetOf (hs : s <:+ src) :
    ∃ before, splitAtByte? (offsetOf src s) src = some (before, s) := by
  obtain ⟨before, rfl⟩ := hs
  exact ⟨before, by rw [offsetOf_append_left, splitAtByte?_append]⟩

/-- A part that is left further on begins behind the bytes in between. -/
theorem offsetOf_add {a : List Char} (hs : a ++ s <:+ src) :
    offsetOf src (a ++ s) + utf8Length a = offsetOf src s := by
  obtain ⟨before, rfl⟩ := hs
  rw [offsetOf_append_left, ← List.append_assoc, offsetOf_append_left, utf8Length_append]

theorem offsetOf_le (hs : s <:+ src) (ht : t <:+ s) : offsetOf src s ≤ offsetOf src t := by
  obtain ⟨a, rfl⟩ := ht
  exact Nat.le.intro (offsetOf_add hs)

/-- What is left of a part begins behind it if characters were read: each has a byte at least. -/
theorem offsetOf_lt (hs : s <:+ src) (ht : t <:+ s) (hlt : t.length < s.length) :
    offsetOf src s < offsetOf src t := by
  obtain ⟨a, rfl⟩ := ht
  rw [List.length_append] at hlt
  have ha := length_le_utf8Length a
  have hadd := offsetOf_add hs
  omega

/-- A position is at the end of the text exactly if nothing is left behind it. -/
theorem utf8Length_le_offsetOf_iff (hs : s <:+ src) :
    utf8Length src ≤ offsetOf src s ↔ s = [] := by
  obtain ⟨before, rfl⟩ := hs
  rw [offsetOf_append_left, utf8Length_append]
  have hs := length_le_utf8Length s
  constructor
  · intro h
    exact List.length_eq_zero_iff.1 (by omega)
  · rintro rfl
    exact Nat.le_refl _

/-! ## Forward logs -/

/-- A log of a cursor that starts at one position and stops at another. Every move is to a position
between two characters and none is backwards; a round of a loop is completed behind the position
at which it was begun. -/
inductive Forward (src : List Char) : Nat → List Event → Nat → Prop
  | stays {p} : Forward src p [] p
  | moves {p q r log} : p ≤ q → (∃ parts, splitAtByte? q src = some parts) →
      Forward src q log r → Forward src p (.moved q :: log) r
  | completes {kind start p r log} : start < p → Forward src p log r →
      Forward src p (.completed kind start p :: log) r

/-- Logs that move forward may be put together where one stops and the other starts. -/
theorem Forward.append {p q r : Nat} {log more : List Event} (h : Forward src p log q)
    (hmore : Forward src q more r) : Forward src p (log ++ more) r := by
  induction h with
  | stays => exact hmore
  | moves hle hcut _ ih => exact .moves hle hcut (ih hmore)
  | completes hlt _ ih => exact .completes hlt (ih hmore)

/-- The cursor never moves backwards. -/
theorem Forward.pairwise {p q : Nat} {log : List Event} (h : Forward src p log q) :
    (p :: log.filterMap Event.position?).Pairwise (· ≤ ·) := by
  induction h with
  | stays => exact List.pairwise_singleton _ _
  | @moves p q _ log hle _ _ ih =>
    refine List.pairwise_cons.2 ⟨fun r hr => ?_, ih⟩
    rcases List.mem_cons.1 hr with rfl | hr
    · exact hle
    · exact hle.trans (List.rel_of_pairwise_cons ih hr)
  | completes _ _ ih => exact ih

/-- Every position that the cursor moves to is one to cut at. -/
theorem Forward.exists_splitAtByte? {p q r : Nat} {log : List Event} (h : Forward src p log q)
    (hr : r ∈ log.filterMap Event.position?) : ∃ parts, splitAtByte? r src = some parts := by
  induction h with
  | stays => cases hr
  | moves _ hcut _ ih =>
    rcases List.mem_cons.1 hr with rfl | hr
    · exact hcut
    · exact ih hr
  | completes _ _ ih => exact ih hr

/-- A completed round has moved the cursor. -/
theorem Forward.start_lt_stop {p q start stop : Nat} {kind : Loop} {log : List Event}
    (h : Forward src p log q) (hmem : .completed kind start stop ∈ log) : start < stop := by
  induction h with
  | stays => cases hmem
  | moves _ _ _ ih =>
    rcases List.mem_cons.1 hmem with heq | hmem
    · cases heq
    · exact ih hmem
  | completes hlt _ ih =>
    rcases List.mem_cons.1 hmem with heq | hmem
    · cases heq
      exact hlt
    · exact ih hmem

/-! ## What a scan reads -/

/-- A run in front of `s` has the outcome of a reading: it stops in front of what the reading
leaves, or it is refused where the reading is. -/
def Agrees (src s : List Char) (run : Run α) : Reading (α × List Char) → Prop
  | .ok (a, t) => t <:+ s ∧ run.position = offsetOf src t ∧ run.outcome = .ok a
  | .error refusal => run.outcome = .error (.refused (refusal.mapPosition (offsetOf src)))

/-- A run that stops in front of what a later part leaves does so for the earlier part as well. -/
theorem Agrees.of_suffix {run more : Run α} {read : Reading (α × List Char)} (ht : t <:+ s)
    (h : Agrees src t run read) (hposition : more.position = run.position)
    (houtcome : more.outcome = run.outcome) : Agrees src s more read := by
  match read with
  | .ok (a, u) =>
    obtain ⟨hu, hstop, hok⟩ := h
    exact ⟨hu.trans ht, hposition.trans hstop, houtcome.trans hok⟩
  | .error refusal => exact houtcome.trans h

/-- In front of `s` the scan does what the reading says, and it only moves forward. -/
def Follows (src s : List Char) (scan : Scan α) (read : Reading (α × List Char)) : Prop :=
  s <:+ src →
    Agrees src s (scan src (offsetOf src s)) read ∧
      Forward src (offsetOf src s) (scan src (offsetOf src s)).log
        (scan src (offsetOf src s)).position

namespace Follows

/-- That the part is one of the text may be used in the comparison itself. -/
theorem of_suffix {scan : Scan α} {read : Reading (α × List Char)}
    (h : s <:+ src → Follows src s scan read) : Follows src s scan read :=
  fun hs => h hs hs

/-- A value that is given without reading leaves the cursor where it is. -/
theorem pure (a : α) : Follows src s (Pure.pure a : Scan α) (.ok (a, s)) :=
  fun _ => ⟨⟨List.suffix_refl s, rfl, rfl⟩, .stays⟩

/-- One scan after the other follows the reading of the second where the first one stops. -/
theorem bind {scan : Scan α} {next : α → Scan β} {a : α} {read : Reading (β × List Char)}
    (h : Follows src s scan (.ok (a, t))) (hnext : Follows src t (next a) read) :
    Follows src s (scan >>= next) read := by
  intro hs
  obtain ⟨⟨ht, hposition, hok⟩, hforward⟩ := h hs
  obtain ⟨hagrees, hafter⟩ := hnext (ht.trans hs)
  -- The second log starts where the first run stops, which is in front of `t`.
  have hrun : (scan >>= next) src (offsetOf src s) =
      ⟨(scan src (offsetOf src s)).log ++ (next a src (offsetOf src t)).log,
        (next a src (offsetOf src t)).position, (next a src (offsetOf src t)).outcome⟩ := by
    change Scan.bind scan next src (offsetOf src s) = _
    simp only [Scan.bind, hok, hposition]
  rw [hrun]
  exact ⟨hagrees.of_suffix ht rfl rfl, (hposition ▸ hforward).append hafter⟩

/-- What is refused in the first scan is refused in the whole. -/
theorem bind_error {scan : Scan α} {next : α → Scan β} {refusal : Refusal (List Char)}
    (h : Follows src s scan (.error refusal)) : Follows src s (scan >>= next) (.error refusal) := by
  intro hs
  obtain ⟨hrefused, hforward⟩ := h hs
  have hrun : (scan >>= next) src (offsetOf src s) =
      ⟨(scan src (offsetOf src s)).log, (scan src (offsetOf src s)).position,
        .error (.refused (refusal.mapPosition (offsetOf src)))⟩ := by
    change Scan.bind scan next src (offsetOf src s) = _
    simp only [Scan.bind, show (scan src (offsetOf src s)).outcome = _ from hrefused]
  rw [hrun]
  exact ⟨rfl, hforward⟩

/-! ### Steps -/

theorem halt (refusal : Refusal (List Char)) :
    Follows src s (Cursor.halt (.refused (refusal.mapPosition (offsetOf src))) : Scan α)
      (.error refusal) :=
  fun _ => ⟨rfl, .stays⟩

theorem refuse (t : List Char) (defect : Defect) :
    Follows src s (Cursor.refuse (offsetOf src t) defect : Scan α) (.error (.malformed t defect)) :=
  halt (.malformed t defect)

/-- What the reader of words says of a value is taken over. -/
theorem accept {reading read : Reading α} (h : reading = read) :
    Follows src s (Cursor.accept reading) (read.map fun a => (a, s)) := by
  subst h
  intro _
  cases reading with
  | ok a => exact ⟨⟨List.suffix_refl s, rfl, rfl⟩, .stays⟩
  | error refusal => exact ⟨rfl, .stays⟩

theorem position : Follows src s Cursor.position (.ok (offsetOf src s, s)) :=
  fun _ => ⟨⟨List.suffix_refl s, rfl, rfl⟩, .stays⟩

/-- What is left of the text is cut out at the position, which is one to cut at. -/
theorem rest : Follows src s Cursor.rest (.ok (s, s)) := by
  intro hs
  obtain ⟨before, hcut⟩ := splitAtByte?_offsetOf hs
  rw [Cursor.rest, hcut]
  exact ⟨⟨List.suffix_refl s, rfl, rfl⟩, .stays⟩

/-- The cursor is at the end exactly if nothing is left. -/
theorem atEnd : Follows src s Cursor.atEnd (.ok (s.isEmpty, s)) := by
  intro hs
  have hend : decide (utf8Length src ≤ offsetOf src s) = s.isEmpty := by
    rw [Bool.eq_iff_iff, decide_eq_true_iff, List.isEmpty_iff]
    exact utf8Length_le_offsetOf_iff hs
  exact ⟨⟨List.suffix_refl s, rfl, congrArg Except.ok hend⟩, .stays⟩

/-- A move to what is left of the part is a move forward. -/
theorem moveTo (ht : t <:+ s) :
    Follows src s (Cursor.moveTo (offsetOf src t)) (.ok ((), t)) := by
  intro hs
  obtain ⟨before, hcut⟩ := splitAtByte?_offsetOf (ht.trans hs)
  exact ⟨⟨ht, rfl, rfl⟩, .moves (offsetOf_le hs ht) ⟨_, hcut⟩ .stays⟩

/-- A move over the first characters of the part. -/
theorem advance {a : List Char} (h : a ++ t = s) :
    Follows src s (Cursor.advance (utf8Length a)) (.ok ((), t)) := by
  subst h
  refine of_suffix fun hs => bind position ?_
  rw [offsetOf_add hs]
  exact moveTo (List.suffix_append a t)

theorem moveToEnd : Follows src s Cursor.moveToEnd (.ok ((), [])) :=
  moveTo (List.nil_suffix)

/-- A stretch from the start of a text is cut out whole. -/
theorem slice (a b : List Char) :
    Follows src s (Cursor.slice 0 (utf8Length a) (a ++ b)) (.ok (a, s)) := by
  have hcut := slice?_append [] a b
  simp only [utf8Length, Nat.zero_add, List.nil_append] at hcut
  rw [Cursor.slice, hcut]
  exact pure a

/-- A token that stands there is passed. -/
theorem eat {token : List Char} (h : token ++ t = s) :
    Follows src s (Cursor.eat token) (.ok (true, t)) := by
  refine bind rest ?_
  rw [if_pos (List.isPrefixOf_iff_prefix.2 ⟨t, h⟩)]
  exact bind (advance h) (pure true)

/-- A token that does not stand there leaves the cursor where it is. -/
theorem eat_other {token : List Char} (h : ¬ token <+: s) :
    Follows src s (Cursor.eat token) (.ok (false, s)) := by
  refine bind rest ?_
  rw [if_neg (mt List.isPrefixOf_iff_prefix.1 h)]
  exact pure false

/-- Blank characters are passed, however many there are. -/
theorem passBlanks : Follows src s Cursor.passBlanks (.ok ((), skipBlanks s)) := by
  refine bind rest ?_
  have hs : s.takeWhile isBlank ++ skipBlanks s = s := List.takeWhile_append_dropWhile
  have hlength := utf8Length_append (s.takeWhile isBlank) (skipBlanks s)
  rw [hs] at hlength
  rw [hlength, Nat.add_sub_cancel]
  exact advance hs

/-- A stretch is taken up to its end mark, and the cursor stops in front of that. -/
theorem takeUntil {pattern before : List Char} (h : breakBefore? pattern s = some (before, t)) :
    Follows src s (Cursor.takeUntil pattern) (.ok (some before, t)) := by
  have hs := append_of_breakBefore? h
  refine bind rest ?_
  rw [findPattern?, h]
  exact bind (advance hs) (bind (hs ▸ slice before t) (pure _))

/-- Without the end mark nothing is taken. -/
theorem takeUntil_none {pattern : List Char} (h : breakBefore? pattern s = none) :
    Follows src s (Cursor.takeUntil pattern) (.ok (none, s)) := by
  refine bind rest ?_
  rw [findPattern?, h]
  exact pure none

/-- A name is taken as far as it goes. -/
theorem name {found : String} (h : takeName? s = some (found, t)) :
    Follows src s Cursor.name (.ok (some found, t)) := by
  refine bind rest ?_
  match s with
  | c :: s =>
    simp only [takeName?] at h
    split at h
    · next hc =>
      cases h
      -- The name stops at the first character that is not part of it, or with the text.
      have hstop : ((findChar? (fun d => !isNameChar d) s).map (c.utf8Size + ·)).getD
          (utf8Length (c :: s)) = utf8Length (c :: s.takeWhile isNameChar) := by
        have hfind := findChar?_getD (fun d => !isNameChar d) s
        simp only [Bool.not_not] at hfind
        rw [utf8Length, utf8Length, ← hfind]
        cases findChar? (fun d => !isNameChar d) s <;> rfl
      have hs : (c :: s.takeWhile isNameChar) ++ s.dropWhile isNameChar = c :: s := by
        rw [List.cons_append, List.takeWhile_append_dropWhile]
      simp only [hc, if_true, hstop]
      exact bind (advance hs) (bind (hs ▸ slice _ _) (pure _))
    · cases h

/-- Where no name starts nothing is taken. -/
theorem name_none (h : takeName? s = none) : Follows src s Cursor.name (.ok (none, s)) := by
  refine bind rest ?_
  match s with
  | [] => exact pure none
  | c :: s =>
    simp only [takeName?] at h
    split at h
    · cases h
    · next hc =>
      simp only [hc]
      exact pure none

/-- A program over a text of its own leaves the cursor where it is. -/
theorem within {text left : List Char} {scan : Scan α} {a : α}
    (h : Follows text text scan (.ok (a, left))) :
    Follows src s (Cursor.within text scan) (.ok (a, s)) := by
  intro _
  obtain ⟨⟨-, -, hok⟩, -⟩ := h (List.suffix_refl text)
  rw [offsetOf_self] at hok
  exact ⟨⟨List.suffix_refl s, rfl, hok⟩, .stays⟩

end Follows

/-! ## Loops -/

/-- What a loop is to read: how its states are told, and the reading from each of them on. -/
structure Course (σ τ β : Type) where
  state : τ → σ
  read : τ → List Char → Reading (β × List Char)

namespace Course

/-- A round agrees with what is expected of its loop: it ends or is refused as expected, or what is
expected is read from the next state on, with less than `limit` characters left. -/
inductive Unrolls (course : Course σ τ β) (limit : Nat) (expected : Reading (β × List Char)) :
    Reading (Round σ β × List Char) → Prop
  | ends {result t} : expected = .ok (result, t) →
      Unrolls course limit expected (.ok (.ends result, t))
  | refused {refusal} : expected = .error refusal → Unrolls course limit expected (.error refusal)
  | goesOn {x t} : t.length < limit → expected = course.read x t →
      Unrolls course limit expected (.ok (.goesOn (course.state x), t))

/-- In front of `s` the scan is the rest of a round that agrees with what is expected of its
loop. -/
def Turns (course : Course σ τ β) (src : List Char) (limit : Nat) (s : List Char)
    (scan : Scan (Round σ β)) (expected : Reading (β × List Char)) : Prop :=
  ∃ read, Follows src s scan read ∧ course.Unrolls limit expected read

namespace Turns

variable {course : Course σ τ β} {limit : Nat} {expected : Reading (β × List Char)}

/-- A round may begin with any scan that reads something: what matters is how it ends. -/
theorem bind {scan : Scan α} {next : α → Scan (Round σ β)} {a : α}
    (h : Follows src s scan (.ok (a, t))) (hnext : course.Turns src limit t (next a) expected) :
    course.Turns src limit s (scan >>= next) expected := by
  obtain ⟨read, hfollows, hunrolls⟩ := hnext
  exact ⟨read, h.bind hfollows, hunrolls⟩

theorem refused {scan : Scan (Round σ β)} {refusal : Refusal (List Char)}
    (h : Follows src s scan (.error refusal)) (hexpected : expected = .error refusal) :
    course.Turns src limit s scan expected :=
  ⟨_, h, .refused hexpected⟩

/-- A round that ends its loop gives what the loop is expected to give. -/
theorem ends {result : β} (h : expected = .ok (result, s)) :
    course.Turns src limit s (pure (.ends result)) expected :=
  ⟨_, .pure _, .ends h⟩

/-- A round that goes on leaves less, and the next one is expected to give the same. -/
theorem goesOn (x : τ) (hs : s.length < limit) (h : expected = course.read x s) :
    course.Turns src limit s (pure (.goesOn (course.state x))) expected :=
  ⟨_, .pure _, .goesOn hs h⟩

end Turns

end Course

/-- A completed round is noted behind the position at which it was begun. -/
theorem Follows.completed {kind : Loop} {start : Nat} (h : start < offsetOf src s) :
    Follows src s (record (.completed kind start (offsetOf src s))) (.ok ((), s)) :=
  fun _ => ⟨⟨List.suffix_refl s, rfl, rfl⟩, .completes h .stays⟩

/-- **Every round leaves less.** A loop whose rounds agree with what is to be read of it reads that
within any bound above the number of characters that are left. -/
theorem Follows.rounds (course : Course σ τ β) {kind : Loop} {body : σ → Scan (Round σ β)}
    (hturns : ∀ x s, course.Turns src s.length s (body (course.state x)) (course.read x s))
    {bound : Nat} (x : τ) (hs : s.length < bound) :
    Follows src s (Cursor.rounds kind body bound (course.state x)) (course.read x s) := by
  -- On the bound: a round that goes on leaves less, so what is left stays below what is left of it.
  induction bound generalizing x s with
  | zero => exact absurd hs (Nat.not_lt_zero _)
  | succ bound ih =>
    obtain ⟨read, hbody, hunrolls⟩ := hturns x s
    refine of_suffix fun hsuffix => bind position ?_
    cases hunrolls with
    | ends hread =>
      rw [hread]
      exact bind hbody (pure _)
    | refused hread =>
      rw [hread]
      exact bind_error hbody
    | @goesOn y t hlt hread =>
      obtain ⟨⟨ht, -⟩, -⟩ := hbody hsuffix
      rw [hread]
      refine bind hbody (bind position (bind (completed ?_) (ih y (by omega))))
      exact offsetOf_lt hsuffix ht hlt

/-- **The bound is never reached.** A loop follows its reading if each of its rounds does, whatever
follows that round. -/
theorem Follows.loop (course : Course σ τ β) {kind : Loop} {body : σ → Scan (Round σ β)}
    (hturns : ∀ x s, course.Turns src s.length s (body (course.state x)) (course.read x s))
    (x : τ) : Follows src s (Cursor.loop kind body (course.state x)) (course.read x s) := by
  intro hs
  -- A text has no more characters than bytes.
  have hlength := hs.length_le
  have hbytes := length_le_utf8Length src
  exact Follows.rounds course hturns x (by omega) hs

end CanvasLink.Markup.Cursor
