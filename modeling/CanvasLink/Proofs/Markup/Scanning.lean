import CanvasLink.Markup.Document
import CanvasLink.Proofs.Markup.Grammar

/-!
# CanvasLink — tag readers and the grammar

Each reader of trivia, names, values and tags is tied to its relation of the grammar in both
directions. The forward lemmas (`readOpenTag_append` and its like) feed a text of the grammar, with
any input behind it, to the reader; the backward ones (`openTag_of_readOpenTag` and its like) split
the input of a reader that has succeeded.

What a name or a run of attributes is depends on what stands behind it. That is where `StopsName`
is used up, and why `readAttributes_append` keeps the end of the tag in its statement.
-/

namespace CanvasLink.Markup

open CanvasLink.Text

/-! ## Trivia -/

/-- Trivia are skipped one comment at a time, without the bound. -/
theorem skipTrivia_eq (s : List Char) :
    skipTrivia s =
      if commentOpen.isPrefixOf (skipBlanks s) then
        match breakBefore? commentClose (skipBlanks s) with
        | none => .error (.malformed (skipBlanks s) .unterminatedComment)
        | some (_, rest) => skipTrivia (rest.drop commentClose.length)
      else .ok (skipBlanks s) := by
  conv_lhs => rw [skipTrivia]
  split
  · split <;> next h => rw [h]
  · rfl

theorem skipTrivia_append_blanks {w : List Char} (hw : Blanks w) (s : List Char) :
    skipTrivia (w ++ s) = skipTrivia s := by
  rw [skipTrivia_eq (w ++ s), skipTrivia_eq s, skipBlanks_append hw]

theorem skipBlanks_of_commentOpen {s : List Char} (h : commentOpen <+: s) : skipBlanks s = s := by
  obtain ⟨t, rfl⟩ := h
  rfl

/-- A comment in front is skipped. -/
theorem skipTrivia_append_comment {c : List Char} (hc : Comment c) (s : List Char) :
    skipTrivia (c ++ s) = skipTrivia s := by
  obtain ⟨hopen, before, hfirst⟩ := hc
  have hopen' : commentOpen <+: c ++ s := hopen.trans (List.prefix_append c s)
  rw [skipTrivia_eq (c ++ s), skipBlanks_of_commentOpen hopen',
    if_pos (List.isPrefixOf_iff_prefix.2 hopen'), breakBefore?_of_endsAtFirst hfirst]
  simp only [List.drop_left]

/-- Trivia in front changes nothing. Induction on the trivia. -/
theorem skipTrivia_append {t : List Char} (ht : Trivia t) (s : List Char) :
    skipTrivia (t ++ s) = skipTrivia s := by
  induction ht with
  | nil => rfl
  | @blank c t hc _ ih =>
    have hw : Blanks [c] := by simpa [Blanks] using hc
    rw [← ih]
    exact skipTrivia_append_blanks hw (t ++ s)
  | comment hc _ ih => rw [List.append_assoc, skipTrivia_append_comment hc, ih]

/-- Nothing that counts as trivia starts here. -/
structure StopsTrivia (s : List Char) : Prop where
  noBlank : ∀ c ∈ s.head?, isBlank c = false
  noComment : ¬ commentOpen <+: s

theorem StopsTrivia.nil : StopsTrivia [] :=
  ⟨by simp, by simp [commentOpen]⟩

/-- Where no trivia start nothing is skipped. -/
theorem skipTrivia_of_stops {s : List Char} (h : StopsTrivia s) : skipTrivia s = .ok s := by
  rw [skipTrivia_eq, skipBlanks_eq_self h.noBlank, if_neg]
  rw [List.isPrefixOf_iff_prefix]
  exact h.noComment

/-- Trivia behind trivia are trivia. -/
theorem Trivia.append {a b : List Char} (ha : Trivia a) (hb : Trivia b) : Trivia (a ++ b) := by
  induction ha with
  | nil => exact hb
  | blank hc _ ih => exact .blank hc ih
  | comment hc _ ih =>
    rw [List.append_assoc]
    exact .comment hc ih

/-- Blank characters are trivia. -/
theorem Trivia.of_blanks {w : List Char} (hw : Blanks w) : Trivia w := by
  induction w with
  | nil => exact .nil
  | cons c w ih => exact .blank (hw c (by simp)) (ih fun d hd => hw d (by simp [hd]))

/-- From the opener to the first end mark there stands a comment of the grammar. -/
theorem comment_of_breakBefore? {s before after : List Char} (hopen : commentOpen <+: s)
    (hb : breakBefore? commentClose s = some (before, after)) :
    Comment (before ++ commentClose) ∧
      s = (before ++ commentClose) ++ after.drop commentClose.length := by
  obtain ⟨hfirst, hafter⟩ := endsAtFirst_of_breakBefore? hb
  have hcut : s = (before ++ commentClose) ++ after.drop commentClose.length := by
    rw [List.append_assoc, ← hafter, append_of_breakBefore? hb]
  refine ⟨⟨?_, before, hfirst⟩, hcut⟩
  refine List.prefix_of_prefix_length_le hopen ⟨_, hcut.symm⟩ ?_
  cases before with
  | nil =>
    -- The text starts with `<`, so that its `-->` cannot stand right at the start.
    obtain ⟨tail, htail⟩ := hopen
    rw [hcut] at htail
    simp [commentOpen, commentClose] at htail
  | cons c before => simp [commentOpen, commentClose]

/-- What the reader of trivia passes over is trivia, and it stops where there is no more. -/
theorem trivia_of_skipTrivia {s rest : List Char} (h : skipTrivia s = .ok rest) :
    ∃ t, s = t ++ rest ∧ Trivia t ∧ StopsTrivia rest := by
  fun_induction skipTrivia s with
  | case1 => cases h
  | case2 s hopen before after hb ih =>
    obtain ⟨w, hw, hs⟩ := exists_blanks_append_skipBlanks s
    obtain ⟨hcomment, hcut⟩ := comment_of_breakBefore? (List.isPrefixOf_iff_prefix.1 hopen) hb
    obtain ⟨t, ht, htrivia, hstops⟩ := ih h
    -- Blanks, the comment, and the trivia behind it, which the induction hypothesis gives.
    refine ⟨w ++ ((before ++ commentClose) ++ t), ?_, ?_, hstops⟩
    · calc s = w ++ ((before ++ commentClose) ++ after.drop commentClose.length) := by
            rw [← hcut]
            exact hs
        _ = w ++ ((before ++ commentClose) ++ (t ++ rest)) := by rw [← ht]
        _ = w ++ ((before ++ commentClose) ++ t) ++ rest := by simp only [List.append_assoc]
    · exact (Trivia.of_blanks hw).append (.comment hcomment htrivia)
  | case3 s hopen =>
    cases h
    obtain ⟨w, hw, hs⟩ := exists_blanks_append_skipBlanks s
    refine ⟨w, hs, .of_blanks hw, head?_skipBlanks s, ?_⟩
    rw [← List.isPrefixOf_iff_prefix]
    exact hopen

/-! ## Names -/

/-- A name is read as far as it goes. -/
theorem takeName?_append {n s : List Char} (hn : Name n) (hs : StopsName s) :
    takeName? (n ++ s) = some (String.ofList n, s) := by
  obtain ⟨c, n, rfl, hc, hn⟩ := hn
  have htake : (n ++ s).takeWhile isNameChar = n := by
    rw [List.takeWhile_append_of_pos hn]
    cases s with
    | nil => simp
    | cons d s => simp [hs d rfl]
  have hdrop : (n ++ s).dropWhile isNameChar = s := by
    rw [List.dropWhile_append_of_pos hn]
    cases s with
    | nil => rfl
    | cons d s => simp [hs d rfl]
  simp only [List.cons_append, takeName?, hc, if_true, htake, hdrop]

/-- What is read as a name is one, and no character of a name follows it. -/
theorem name_of_takeName? {s rest : List Char} {name : String}
    (h : takeName? s = some (name, rest)) :
    ∃ n, s = n ++ rest ∧ name = String.ofList n ∧ Name n ∧ StopsName rest := by
  cases s with
  | nil => cases h
  | cons c s =>
    simp only [takeName?] at h
    split at h
    · next hc =>
      cases h
      refine ⟨c :: s.takeWhile isNameChar, ?_, rfl, ⟨c, _, rfl, hc, ?_⟩, ?_⟩
      · rw [List.cons_append, List.takeWhile_append_dropWhile]
      · exact fun d hd => List.mem_takeWhile_imp hd
      · -- A name ends where `dropWhile` stops.
        intro d hd
        have hnot := List.head?_dropWhile_not isNameChar s
        rw [show (s.dropWhile isNameChar).head? = some d from hd] at hnot
        simpa using hnot
    · cases h

/-- A name holds no blank character: the code points of names lie between two runs of blanks. -/
theorem isNameChar_eq_false_of_isBlank {c : Char} (h : isBlank c = true) :
    isNameChar c = false := by
  -- Blanks lie below and above the whole range of the name characters.
  have hblank : c.toNat ≤ 0x20 ∨ 0x85 ≤ c.toNat := by
    simp [isBlank, blankRanges] at h
    omega
  rw [Bool.eq_false_iff]
  intro hname
  have hrange : 0x2D ≤ c.toNat ∧ c.toNat ≤ 0x7A := by
    unfold isNameChar Char.isAlphanum Char.isAlpha Char.isUpper Char.isLower Char.isDigit at hname
    simp only [Bool.or_eq_true, Bool.and_eq_true, decide_eq_true_eq, beq_iff_eq, ge_iff_le,
      UInt32.le_iff_toNat_le] at hname
    rcases hname with ((((((h | h) | h) | rfl) | rfl) | rfl) | rfl)
    · exact ⟨le_trans (by decide) h.1, le_trans h.2 (by decide)⟩
    · exact ⟨le_trans (by decide) h.1, le_trans h.2 (by decide)⟩
    · exact ⟨le_trans (by decide) h.1, le_trans h.2 (by decide)⟩
    all_goals decide
  omega

/-- A name ends in front of blank characters, or where it ends anyway. -/
theorem stopsName_of_blanks {w s : List Char} (hw : Blanks w) (hs : StopsName s) :
    StopsName (w ++ s) := by
  cases w with
  | nil => exact hs
  | cons c w =>
    intro d hd
    cases hd
    exact isNameChar_eq_false_of_isBlank (hw c (by simp))

/-! ## Values -/

/-- Quotes are taken off exactly where they stand at both ends. -/
theorem unquoteWith?_eq_some_iff {quote : Char} {token inner : List Char} :
    unquoteWith? quote token = some inner ↔ token = quote :: (inner ++ [quote]) := by
  cases token with
  | nil => simp [unquoteWith?]
  | cons c s =>
    simp only [unquoteWith?]
    split
    · next h =>
      obtain ⟨rfl, hlast⟩ := h
      obtain ⟨front, rfl⟩ := List.getLast?_eq_some_iff.1 hlast
      simp [eq_comm]
    · next h =>
      simp only [reduceCtorEq, List.cons.injEq, false_iff, not_and]
      rintro rfl rfl
      exact h ⟨rfl, by simp⟩

/-- What stands between braces has the meaning that the grammar gives it. -/
theorem ofToken_eq_iff {token : List Char} {value : AttributeValue} :
    AttributeValue.ofToken token = value ↔ TokenSpelling token value := by
  rw [AttributeValue.ofToken]
  cases h : unquote? token with
  | none =>
    -- No quote unquotes the token, so it is bare.
    have hbare : ∀ quote ∈ quotes, ∀ inner, token ≠ quote :: (inner ++ [quote]) := by
      intro quote hquote inner htoken
      have hnone := List.findSome?_eq_none_iff.1 h quote hquote
      rw [unquoteWith?_eq_some_iff.2 htoken] at hnone
      cases hnone
    constructor
    · rintro rfl
      exact .bare hbare
    · rintro (⟨hquote⟩ | _)
      · exact absurd rfl (hbare _ hquote _)
      · rfl
  | some inner =>
    obtain ⟨quote, hquote, hinner⟩ := List.exists_of_findSome?_eq_some h
    obtain rfl := unquoteWith?_eq_some_iff.1 hinner
    constructor
    · rintro rfl
      exact .quoted hquote
    · intro hspelled
      -- A token that stands between quotes is not bare, so these quotes are its spelling.
      generalize htoken : quote :: (inner ++ [quote]) = token at hspelled
      cases hspelled with
      | quoted _ =>
        simp only [List.cons.injEq] at htoken
        obtain ⟨rfl, htail⟩ := htoken
        rw [List.append_cancel_right htail]
      | bare hbare => exact absurd htoken.symm (hbare quote hquote inner)

/-- Every spelling of a value is read as the value. -/
theorem readValue_append (attr : String) {v : List Char} {value : AttributeValue}
    (h : Spelling v value) (s : List Char) : readValue attr (v ++ s) = .ok (value, s) := by
  cases h with
  | @quoted quote raw hquote hraw =>
    have hcut : breakBefore? [quote] (raw ++ quote :: s) = some (raw, quote :: s) :=
      breakBefore?_append hraw ⟨s, rfl⟩
    simp only [List.mem_cons, List.not_mem_nil, or_false] at hquote
    rcases hquote with rfl | rfl
    · simp [readValue, hcut]
    · simp [readValue, hcut]
  | @braced raw token value hraw htrim htoken =>
    have hcut : breakBefore? ['\x7d'] (raw ++ '\x7d' :: s) = some (raw, '\x7d' :: s) :=
      breakBefore?_append hraw ⟨s, rfl⟩
    simp [readValue, hcut, trimmed_iff.1 htrim, ofToken_eq_iff.2 htoken]

/-- What is read as a value is a spelling of it. -/
theorem spelling_of_readValue {attr : String} {s rest : List Char} {value : AttributeValue}
    (h : readValue attr s = .ok (value, rest)) : ∃ v, s = v ++ rest ∧ Spelling v value := by
  -- Each delimited value ends at its first closing delimiter.
  have cut {c : Char} {t before after : List Char} (hb : breakBefore? [c] t = some (before, after)) :
      t = before ++ (c :: after.drop 1) ∧ c ∉ before := by
    obtain ⟨hfirst, hafter⟩ := endsAtFirst_of_breakBefore? hb
    refine ⟨?_, notMem_of_endsAtFirst hfirst⟩
    rw [← append_of_breakBefore? hb]
    exact congrArg _ hafter
  unfold readValue at h
  split at h
  · split at h
    · next raw after hb =>
      cases h
      obtain ⟨rfl, hraw⟩ := cut hb
      exact ⟨'"' :: (raw ++ ['"']), by simp, .quoted (by simp) hraw⟩
    · cases h
  · split at h
    · next raw after hb =>
      cases h
      obtain ⟨rfl, hraw⟩ := cut hb
      exact ⟨'\'' :: (raw ++ ['\'']), by simp, .quoted (by simp) hraw⟩
    · cases h
  · split at h
    · next raw after hb =>
      cases h
      obtain ⟨rfl, hraw⟩ := cut hb
      refine ⟨'\x7b' :: (raw ++ ['\x7d']), by simp, .braced hraw (trimmed_iff.2 rfl) ?_⟩
      exact ofToken_eq_iff.1 rfl
    · cases h
  · cases h

/-! ## Attributes -/

theorem skipBlanks_idem (s : List Char) : skipBlanks (skipBlanks s) = skipBlanks s :=
  skipBlanks_eq_self (head?_skipBlanks s)

/-- A name does not start with a blank character. -/
theorem isBlank_eq_false_of_isNameStart {c : Char} (h : isNameStart c = true) :
    isBlank c = false := by
  rw [Bool.eq_false_iff]
  intro hblank
  have hname := isNameChar_eq_false_of_isBlank hblank
  simp only [isNameStart, Bool.or_eq_true, beq_iff_eq] at h
  rcases h with h | rfl
  · simp [isNameChar, Char.isAlphanum, h] at hname
  · exact absurd hname (by decide)

/-- The attributes end at the end of the tag. -/
theorem readAttributes_end {name : String} {start s rest : List Char} {selfClosing : Bool}
    (hs : skipBlanks s = tagEnd selfClosing ++ rest) :
    readAttributes name start s = .ok ([], selfClosing, rest) := by
  rw [readAttributes]
  cases selfClosing with
  | true =>
    -- The markup begins with the tag's end, so all branches but one read something else.
    split
    · next h => rw [hs] at h; cases h; rfl
    · next h => rw [hs] at h; cases h
    · next h => rw [hs] at h; cases h
    · next h₁ _ h => rw [hs] at h; cases h; exact (h₁ _ rfl rfl).elim
  | false =>
    split
    · next h => rw [hs] at h; cases h
    · next h => rw [hs] at h; cases h; rfl
    · next h => rw [hs] at h; cases h
    · next _ h₂ h => rw [hs] at h; cases h; exact (h₂ rfl).elim

/-- One attribute in front of the input. -/
theorem readAttributes_cons {name attr : String} {start s afterName afterValue : List Char}
    {value : AttributeValue} (hname : takeName? (skipBlanks s) = some (attr, afterName))
    (hvalue : readAssignment attr afterName = .ok (value, afterValue)) :
    readAttributes name start s =
      (readAttributes name start afterValue).map fun (attributes, selfClosing, rest) =>
        (⟨attr, value⟩ :: attributes, selfClosing, rest) := by
  rw [readAttributes]
  -- A name stands here, so the branches that read the tag's end do not apply.
  split
  · next hs => rw [hs] at hname; cases hname
  · next hs => rw [hs] at hname; cases hname
  · next hs => rw [hs] at hname; cases hname
  · split
    · next hnone => rw [hname] at hnone; cases hnone
    · next found after hfound =>
      rw [hname] at hfound
      cases hfound
      split
      · next hv => rw [hvalue] at hv; cases hv
      · next hv =>
        rw [hvalue] at hv
        cases hv
        cases readAttributes name start afterValue <;> rfl

/-- One attribute in front of attributes that are read. -/
theorem readAttributes_step {name attr : String} {start s afterName afterValue rest : List Char}
    {value : AttributeValue} {attributes : List Attribute} {selfClosing : Bool}
    (hname : takeName? (skipBlanks s) = some (attr, afterName))
    (hvalue : readAssignment attr afterName = .ok (value, afterValue))
    (hrest : readAttributes name start afterValue = .ok (attributes, selfClosing, rest)) :
    readAttributes name start s = .ok (⟨attr, value⟩ :: attributes, selfClosing, rest) := by
  rw [readAttributes_cons hname hvalue, hrest]
  rfl

/-- An attribute without `=` has no value. -/
theorem readAssignment_flag (attr : String) {s : List Char}
    (h : ∀ c ∈ (skipBlanks s).head?, c ≠ '=') :
    readAssignment attr s = .ok (.flag, skipBlanks s) := by
  unfold readAssignment
  split
  · next hs => exact absurd rfl (h '=' (by rw [hs]; rfl))
  · rfl

/-- The value of an attribute stands behind its `=`, with blank characters on both sides. -/
theorem readAssignment_valued (attr : String) {w₁ w₂ v : List Char} {value : AttributeValue}
    (hw₁ : Blanks w₁) (hw₂ : Blanks w₂) (hv : Spelling v value) (s : List Char) :
    readAssignment attr (w₁ ++ '=' :: (w₂ ++ (v ++ s))) = .ok (value, s) := by
  -- A value starts with a quote or a brace, so no blank character of it is skipped.
  have hstart : skipBlanks (v ++ s) = v ++ s := by
    cases hv with
    | quoted hquote _ =>
      simp only [List.mem_cons, List.not_mem_nil, or_false] at hquote
      rcases hquote with rfl | rfl <;> rfl
    | braced => rfl
  have hequals : skipBlanks (w₁ ++ '=' :: (w₂ ++ (v ++ s))) = '=' :: (w₂ ++ (v ++ s)) :=
    skipBlanks_append hw₁ _
  unfold readAssignment
  rw [hequals]
  simp only [skipBlanks_append hw₂, hstart]
  exact readValue_append attr hv s

/-- Blank characters are skipped up to the name behind them. -/
theorem head_skipBlanks_of_name {w n s : List Char} (hw : Blanks w) (hn : Name n) :
    skipBlanks (w ++ (n ++ s)) = n ++ s := by
  obtain ⟨c, n, rfl, hc, -⟩ := hn
  rw [skipBlanks_append hw]
  refine skipBlanks_eq_self fun d hd => ?_
  cases hd
  exact isBlank_eq_false_of_isNameStart hc

/-- The name of an attribute with a value. -/
theorem takeName?_assigned {w n w₁ s t : List Char} (hw : Blanks w) (hn : Name n) (hw₁ : Blanks w₁)
    (hs : skipBlanks s = skipBlanks (w ++ (n ++ (w₁ ++ '=' :: t)))) :
    takeName? (skipBlanks s) = some (String.ofList n, w₁ ++ '=' :: t) := by
  rw [hs, head_skipBlanks_of_name hw hn]
  refine takeName?_append hn (stopsName_of_blanks hw₁ ?_)
  intro c hc
  cases hc
  decide

theorem skipBlanks_tagEnd (selfClosing : Bool) (rest : List Char) :
    skipBlanks (tagEnd selfClosing ++ rest) = tagEnd selfClosing ++ rest := by
  cases selfClosing <;> rfl

/-- Behind a name that stands alone there is no equals sign, however many blanks are passed. -/
theorem head?_skipBlanks_ne_equals {s : List Char} {attributes : List Attribute}
    (h : AttributeList s attributes) (selfClosing : Bool) (rest : List Char) :
    ∀ c ∈ (skipBlanks (s ++ (tagEnd selfClosing ++ rest))).head?, c ≠ '=' := by
  -- A name follows, whose first character is not `=`.
  have hname {w n t : List Char} (hw : Blanks w) (hn : Name n) :
      ∀ c ∈ (skipBlanks (w ++ (n ++ t))).head?, c ≠ '=' := by
    rw [head_skipBlanks_of_name hw hn]
    obtain ⟨d, n, rfl, hd, -⟩ := hn
    intro c hc
    cases hc
    rintro rfl
    exact absurd hd (by decide)
  cases h with
  | nil hw =>
    rw [skipBlanks_append hw, skipBlanks_tagEnd]
    intro c hc
    cases selfClosing <;> cases hc <;> decide
  | flag hw hn =>
    simp only [List.append_assoc]
    exact hname hw hn
  | valued hw hn =>
    simp only [List.append_assoc]
    exact hname hw hn

/-- A name ends in front of what follows it in the tag, or in front of the end of the tag. -/
theorem stopsName_append_tagEnd {s : List Char} (hs : StopsName s) (selfClosing : Bool)
    (rest : List Char) : StopsName (s ++ (tagEnd selfClosing ++ rest)) := by
  cases s with
  | nil =>
    intro c hc
    cases selfClosing <;> cases hc <;> decide
  | cons c s => exact hs

/-- **Attributes of the grammar are read.** The input need only agree with them behind its blanks,
because that is all the reader looks at. Induction on the attributes. -/
theorem readAttributes_of_attributeList (name : String) (start : List Char) {text : List Char}
    {attributes : List Attribute} (h : AttributeList text attributes) (selfClosing : Bool)
    (rest s : List Char) (hs : skipBlanks s = skipBlanks (text ++ (tagEnd selfClosing ++ rest))) :
    readAttributes name start s = .ok (attributes, selfClosing, rest) := by
  -- The text may have lost blanks in front, hence the induction for any `s` with the same rest.
  induction h generalizing s with
  | nil hw =>
    rw [skipBlanks_append hw, skipBlanks_tagEnd] at hs
    exact readAttributes_end hs
  | @flag w n t attributes hw hn hstops ht ih =>
    have hname : takeName? (skipBlanks s) =
        some (String.ofList n, t ++ (tagEnd selfClosing ++ rest)) := by
      rw [hs]
      simp only [List.append_assoc]
      rw [head_skipBlanks_of_name hw hn]
      exact takeName?_append hn (stopsName_append_tagEnd hstops selfClosing rest)
    refine readAttributes_step hname
      (readAssignment_flag _ (head?_skipBlanks_ne_equals ht selfClosing rest)) ?_
    exact ih _ (skipBlanks_idem _)
  | @valued w n w₁ w₂ v value t attributes hw hn hw₁ hw₂ hv ht ih =>
    have hname : takeName? (skipBlanks s) = some (String.ofList n,
        w₁ ++ '=' :: (w₂ ++ (v ++ (t ++ (tagEnd selfClosing ++ rest))))) :=
      takeName?_assigned hw hn hw₁ (by simpa using hs)
    exact readAttributes_step hname (readAssignment_valued _ hw₁ hw₂ hv _) (ih _ rfl)

/-- Blank characters may stand in front of attributes. -/
theorem AttributeList.blanks_append {w s : List Char} {attributes : List Attribute}
    (hw : Blanks w) (h : AttributeList s attributes) : AttributeList (w ++ s) attributes := by
  cases h with
  | nil hv => exact .nil (hw.append hv)
  | flag hv hn hstops ht =>
    rw [← List.append_assoc]
    exact .flag (hw.append hv) hn hstops ht
  | valued hv hn hw₁ hw₂ hval ht =>
    rw [← List.append_assoc]
    exact .valued (hw.append hv) hn hw₁ hw₂ hval ht

/-- A name that ends in front of a text ends in front of the first part of it. -/
theorem StopsName.of_append {a b : List Char} (h : StopsName (a ++ b)) : StopsName a := by
  cases a with
  | nil => simp [StopsName]
  | cons c a => exact h

/-- What the reader of an assignment consumes: blanks and a value, or nothing but blanks. -/
theorem assignment_of_readAssignment {attr : String} {s rest : List Char}
    {value : AttributeValue} (h : readAssignment attr s = .ok (value, rest)) :
    (value = .flag ∧ rest = skipBlanks s) ∨
      ∃ w₁ w₂ v, s = w₁ ++ '=' :: (w₂ ++ (v ++ rest)) ∧ Blanks w₁ ∧ Blanks w₂ ∧
        Spelling v value := by
  unfold readAssignment at h
  split at h
  · next t ht =>
    right
    obtain ⟨w₁, hw₁, hs⟩ := exists_blanks_append_skipBlanks s
    obtain ⟨w₂, hw₂, ht'⟩ := exists_blanks_append_skipBlanks t
    obtain ⟨v, hv, hspell⟩ := spelling_of_readValue h
    refine ⟨w₁, w₂, v, ?_, hw₁, hw₂, hspell⟩
    rw [← hv, ← ht', ← ht]
    exact hs
  · cases h
    exact .inl ⟨rfl, rfl⟩

/-- **What the reader of attributes consumes is of the grammar.** Induction on the reader. -/
theorem attributeList_of_readAttributes {name : String} {start s rest : List Char}
    {attributes : List Attribute} {selfClosing : Bool}
    (h : readAttributes name start s = .ok (attributes, selfClosing, rest)) :
    ∃ text, s = text ++ (tagEnd selfClosing ++ rest) ∧ AttributeList text attributes := by
  fun_induction readAttributes name start s generalizing attributes selfClosing rest with
  | case1 s r hs =>
    cases h
    obtain ⟨w, hw, hsplit⟩ := exists_blanks_append_skipBlanks s
    exact ⟨w, by rw [hs] at hsplit; exact hsplit, .nil hw⟩
  | case2 s r hs =>
    cases h
    obtain ⟨w, hw, hsplit⟩ := exists_blanks_append_skipBlanks s
    exact ⟨w, by rw [hs] at hsplit; exact hsplit, .nil hw⟩
  | case3 => cases h
  | case4 => cases h
  | case5 => cases h
  | case6 => cases h
  | case7 s c t hs _ _ attr afterName hname value afterValue hvalue as closing r hr ih =>
    cases h
    obtain ⟨w, hw, hsplit⟩ := exists_blanks_append_skipBlanks s
    obtain ⟨n, hn, rfl, hisName, hstops⟩ := name_of_takeName? hname
    obtain ⟨text, htext, hlist⟩ := ih hr
    rcases assignment_of_readAssignment hvalue with ⟨rfl, hafter⟩ | ⟨w₁, w₂, v, hv, hw₁, hw₂, hspell⟩
    · -- A name alone: the blanks behind it go to the attributes that follow.
      obtain ⟨w', hw', hname'⟩ := exists_blanks_append_skipBlanks afterName
      have hsplitName : afterName = (w' ++ text) ++ (tagEnd closing ++ r) := by
        rw [List.append_assoc, ← htext, hafter]
        exact hname'
      refine ⟨w ++ (n ++ (w' ++ text)), ?_, .flag hw hisName ?_ (hlist.blanks_append hw')⟩
      · rw [hsplit, hn, hsplitName]
        simp only [List.append_assoc]
      · rw [hsplitName] at hstops
        exact hstops.of_append
    · refine ⟨w ++ (n ++ (w₁ ++ '=' :: (w₂ ++ (v ++ text)))), ?_,
        .valued hw hisName hw₁ hw₂ hspell hlist⟩
      rw [hsplit, hn, hv, htext]
      simp only [List.append_assoc, List.cons_append]

/-! ## Tags -/

/-- **Opening tags of the grammar are read.** -/
theorem readOpenTag_append {t : List Char} {tag : Tag} (h : OpenTag t tag) (s : List Char) :
    readOpenTag (t ++ s) = .ok (tag, s) := by
  obtain ⟨selfClosing, hn, hstops, hlist⟩ := h
  rename_i n text attributes
  have hname : takeName? ((('<' :: (n ++ (text ++ tagEnd selfClosing))) ++ s).drop 1) =
      some (String.ofList n, text ++ (tagEnd selfClosing ++ s)) := by
    simp only [List.cons_append, List.drop_succ_cons, List.drop_zero, List.append_assoc]
    exact takeName?_append hn (stopsName_append_tagEnd hstops selfClosing s)
  unfold readOpenTag
  rw [hname]
  simp only [readAttributes_of_attributeList _ _ hlist selfClosing s _ rfl]

/-- What is read as an opening tag is one of the grammar. -/
theorem openTag_of_readOpenTag {s rest : List Char} {tag : Tag} (hs : ['<'] <+: s)
    (h : readOpenTag s = .ok (tag, rest)) : ∃ t, s = t ++ rest ∧ OpenTag t tag := by
  obtain ⟨s, rfl⟩ := hs
  unfold readOpenTag at h
  split at h
  · cases h
  · next name afterName hname =>
    split at h
    · cases h
    · next attributes selfClosing r hr =>
      cases h
      obtain ⟨n, hn, rfl, hisName, hstops⟩ := name_of_takeName? hname
      obtain ⟨text, htext, hlist⟩ := attributeList_of_readAttributes hr
      -- The name ends where the attributes begin, so it cannot run on into them.
      rw [htext] at hstops
      refine ⟨_, ?_, .mk selfClosing hisName hstops.of_append hlist⟩
      rw [show ['<'] ++ s = '<' :: s from rfl, show s = n ++ afterName from hn, htext]
      simp only [List.cons_append, List.append_assoc]

/-- **End tags of the grammar are read.** -/
theorem readEndTag_append {e : List Char} {name : String} (h : EndTag e name) (s : List Char) :
    readEndTag (e ++ s) = .ok (name, s) := by
  obtain ⟨hn, hw⟩ := h
  rename_i n w
  have hname : takeName? ((('<' :: '/' :: (n ++ (w ++ ['>']))) ++ s).drop 2) =
      some (String.ofList n, w ++ ('>' :: s)) := by
    simp only [List.cons_append, List.drop_succ_cons, List.drop_zero, List.append_assoc]
    -- Behind the name stand blanks or the closing bracket.
    refine takeName?_append hn (stopsName_of_blanks hw ?_)
    intro c hc
    cases hc
    decide
  have hclose : skipBlanks (w ++ ('>' :: s)) = '>' :: s := skipBlanks_append hw _
  unfold readEndTag
  rw [hname]
  simp only [hclose]

/-- What is read as an end tag is one of the grammar. -/
theorem endTag_of_readEndTag {s rest : List Char} {name : String} (hs : ['<', '/'] <+: s)
    (h : readEndTag s = .ok (name, rest)) : ∃ e, s = e ++ rest ∧ EndTag e name := by
  obtain ⟨s, rfl⟩ := hs
  unfold readEndTag at h
  split at h
  · cases h
  · next found afterName hname =>
    split at h
    · next r hr =>
      cases h
      obtain ⟨n, hn, rfl, hisName, -⟩ := name_of_takeName? hname
      obtain ⟨w, hw, hsplit⟩ := exists_blanks_append_skipBlanks afterName
      refine ⟨_, ?_, .mk hisName hw⟩
      rw [show ['<', '/'] ++ s = '<' :: '/' :: s from rfl, show s = n ++ afterName from hn, hsplit,
        hr]
      simp only [List.cons_append, List.append_assoc, List.nil_append]
    · cases h

end CanvasLink.Markup
