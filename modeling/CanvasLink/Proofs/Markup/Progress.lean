import CanvasLink.Proofs.Markup.Following

/-!
# CanvasLink — the parser moves forward

Every program of the cursor follows its reader of the input that is left. What makes a round of a
loop progress depends on its branch: the name of an attribute, the tag or the comment at which the
loop over an element stops, an element of any kind among the children, or a single character there.
It is found in the lengths that the readers leave.

* `Follows.passTrivia`, `Follows.openTag`, `Follows.content` and their like — one lemma for each
  program.
* `triviaCourse`, `attributesCourse`, `elementCourse`, `childrenCourse` — what the loops are to
  read; `turns_triviaRound` and its like say that their rounds do, and leave less.
* `outcome_parse` — the cursor parses what `Frame.parse` parses, refusals and offsets included.
* **`parse_moves_forward`** — the headline.
-/

namespace CanvasLink.Markup.Cursor

open CanvasLink.Text

variable {src s t : List Char}

/-! ## Trivia -/

def triviaCourse : Course Unit Unit Unit where
  state := id
  read _ s := (skipTrivia s).map fun t => ((), t)

/-- A round of trivia is blank characters and one comment, or the end. -/
theorem turns_triviaRound (s : List Char) :
    triviaCourse.Turns src s.length s (triviaRound ()) ((skipTrivia s).map fun t => ((), t)) := by
  refine .bind .passBlanks (.bind .rest ?_)
  rw [skipTrivia_eq]
  by_cases hopen : commentOpen.isPrefixOf (skipBlanks s) = true
  · rw [if_pos hopen, if_pos hopen]
    refine .bind .position (.bind .rest ?_)
    rw [findPattern?]
    cases hclose : breakBefore? commentClose (skipBlanks s) with
    | none => exact .refused (.refuse _ _) rfl
    | some parts =>
      obtain ⟨before, atClose⟩ := parts
      have hlength := length_drop_of_breakBefore? hclose
      have hblanks := length_skipBlanks_le s
      have hs : (before ++ commentClose) ++ atClose.drop commentClose.length = skipBlanks s := by
        rw [List.append_assoc, ← (endsAtFirst_of_breakBefore? hclose).2,
          append_of_breakBefore? hclose]
      -- The comment ends behind the mark that was found, not in front of it.
      dsimp only [Option.map_some]
      rw [← utf8Length_append]
      refine .bind (.advance hs) (.goesOn () ?_ rfl)
      simp only [commentClose, List.length_cons, List.length_nil] at hlength ⊢
      omega
  · rw [if_neg hopen, if_neg hopen]
    exact .ends rfl

theorem Follows.passTrivia {read : Reading (List Char)} (h : skipTrivia s = read) :
    Follows src s Cursor.passTrivia (read.map fun t => ((), t)) := by
  subst h
  exact .loop triviaCourse (fun _ s => turns_triviaRound s) ()

/-! ## Entities -/

/-- What stands in front of the first `&` is decoded as it is. -/
theorem decodeEntities_append {before : List Char} (h : '&' ∉ before) (s : List Char) :
    decodeEntities (before ++ s) = before ++ decodeEntities s := by
  induction before with
  | nil => rfl
  | cons c before ih =>
    rw [List.mem_cons, not_or] at h
    rw [List.cons_append, decodeEntities_cons (Ne.symm h.1), ih h.2, List.cons_append]

/-- An ampersand that starts no entity stands for itself. -/
theorem decodeEntities_amp
    (h : entities.find? (fun entity => entity.1.isPrefixOf ('&' :: s)) = none) :
    decodeEntities ('&' :: s) = '&' :: decodeEntities s := by
  simp only [entities, List.find?_eq_none, List.mem_cons, List.not_mem_nil, or_false,
    forall_eq_or_imp, forall_eq, List.isPrefixOf_iff_prefix] at h
  obtain ⟨hamp, hlt, hgt, hquot, hapos⟩ := h
  rw [decodeEntities]
  · exact fun t _ ht => hlt ⟨t, ht ▸ rfl⟩
  · exact fun t _ ht => hgt ⟨t, ht ▸ rfl⟩
  · exact fun t _ ht => hamp ⟨t, ht ▸ rfl⟩
  · exact fun t _ ht => hquot ⟨t, ht ▸ rfl⟩
  · exact fun t _ ht => hapos ⟨t, ht ▸ rfl⟩

def decodeCourse : Course (List Char) (List Char) (List Char) where
  state := id
  read decoded s := .ok (decoded ++ decodeEntities s, [])

/-- A round of decoding takes one entity, or a `&` that starts none, with what stands in front of
it. -/
theorem turns_decodeRound (decoded s : List Char) :
    decodeCourse.Turns src s.length s (decodeRound decoded)
      (.ok (decoded ++ decodeEntities s, [])) := by
  refine .bind .rest ?_
  rw [findPattern?]
  cases hcut : breakBefore? ['&'] s with
  | none =>
    have hplain := decodeEntities_append (breakBefore?_singleton_eq_none.1 hcut) []
    simp only [List.append_nil, decodeEntities] at hplain
    rw [hplain]
    exact .bind .moveToEnd (.ends rfl)
  | some parts =>
    obtain ⟨before, behind⟩ := parts
    have hbefore : '&' ∉ before := notMem_of_endsAtFirst (endsAtFirst_of_breakBefore? hcut).1
    obtain ⟨t, rfl⟩ := prefix_of_breakBefore? hcut
    obtain rfl := append_of_breakBefore? hcut
    refine .bind (.slice _ _) (.bind (.advance rfl) (.bind .rest ?_))
    rw [decodeEntities_append hbefore]
    -- The ampersand is passed over in either case, alone or with the entity that it starts.
    cases hentity : entities.find? (fun entity => entity.1.isPrefixOf (['&'] ++ t)) with
    | none =>
      refine .bind (.advance (a := ['&']) rfl) (.goesOn (decoded ++ before ++ ['&']) ?_ ?_)
      · simp only [List.length_append, List.length_cons]
        omega
      · rw [show ['&'] ++ t = '&' :: t from rfl, decodeEntities_amp (s := t) hentity]
        simp [decodeCourse]
    | some found =>
      obtain ⟨entity, c⟩ := found
      have hmem := List.mem_of_find?_eq_some hentity
      have hstarts := List.find?_some hentity
      obtain ⟨u, hu⟩ := List.isPrefixOf_iff_prefix.1 hstarts
      refine .bind (.advance hu) (.goesOn (decoded ++ before ++ [c]) ?_ ?_)
      · have hnonempty : ∀ entry ∈ entities, 0 < entry.1.length := by decide
        have hentity : 0 < entity.length := hnonempty _ hmem
        have hlength := congrArg List.length hu
        simp only [List.length_append] at hlength ⊢
        omega
      · rw [← hu, decodeEntities_entity hmem]
        simp [decodeCourse]

/-- The entities of a text are decoded without a move of the cursor in the document. -/
theorem Follows.decode (raw : List Char) :
    Follows src s (Cursor.decode raw) (.ok (decodeEntities raw, s)) :=
  .within (.loop decodeCourse turns_decodeRound [])

/-! ## Attributes -/

theorem Follows.literal (raw : List Char) :
    Follows src s (literal raw) (.ok (.literal (String.ofList (decodeEntities raw)), s)) :=
  .bind (.decode raw) (.pure _)

/-- A value in braces is trimmed first. -/
theorem Follows.token (raw : List Char) :
    Follows src s (token raw) (.ok (.ofToken (trim raw), s)) := by
  rw [Cursor.token, AttributeValue.ofToken]
  cases unquote? (trim raw) with
  | none => exact .pure _
  | some inner => exact .literal inner

section Enclosed

variable {opening closing : Char} {defect : Defect} {ofRaw : List Char → Scan AttributeValue}
  {start : List Char}

theorem Follows.enclosed_other (h : ¬ [opening] <+: s) :
    Follows src s (enclosed opening closing defect ofRaw (offsetOf src start)) (.ok (none, s)) :=
  .bind (.eat_other h) (.pure none)

/-- A value that begins with the mark and does not end is refused at its start. -/
theorem Follows.enclosed_none (h : breakBefore? [closing] s = none) :
    Follows src (opening :: s) (enclosed opening closing defect ofRaw (offsetOf src start))
      (.error (.malformed start defect)) :=
  .bind (.eat rfl) (.bind (.takeUntil_none h) (.refuse _ _))

/-- A value between its marks is read, and the cursor is behind the second one. -/
theorem Follows.enclosed {raw : List Char} {value : AttributeValue}
    (h : breakBefore? [closing] s = some (raw, t))
    (hvalue : Follows src (t.drop 1) (ofRaw raw) (.ok (value, t.drop 1))) :
    Follows src (opening :: s) (enclosed opening closing defect ofRaw (offsetOf src start))
      (.ok (some value, t.drop 1)) := by
  have ht := (endsAtFirst_of_breakBefore? h).2
  exact .bind (.eat rfl) (.bind (.takeUntil h) (.bind (.advance ht.symm)
    (.bind hvalue (.pure _))))

end Enclosed

/-- The cursor reads a value as the reader does. -/
theorem Follows.value {attr : String} {read : Reading (AttributeValue × List Char)}
    (h : readValue attr s = read) : Follows src s (value attr) read := by
  subst h
  refine .bind .position ?_
  unfold readValue
  split
  · next s =>
    cases h : breakBefore? ['"'] s with
    | none => exact .bind_error (.enclosed_none h)
    | some parts => exact .bind (.enclosed h (.literal _)) (.pure _)
  · next s =>
    refine .bind (.enclosed_other (by simp)) ?_
    cases h : breakBefore? ['\''] s with
    | none => exact .bind_error (.enclosed_none h)
    | some parts => exact .bind (.enclosed h (.literal _)) (.pure _)
  · next s =>
    refine .bind (.enclosed_other (by simp)) (.bind (.enclosed_other (by simp)) ?_)
    cases h : breakBefore? ['\x7d'] s with
    | none => exact .bind_error (.enclosed_none h)
    | some parts => exact .bind (.enclosed h (.token _)) (.pure _)
  · next hdouble hsingle hbrace =>
    -- The text starts with none of the three delimiters, so each of them is declined in turn.
    have hother {c : Char} (h : ∀ t, s = c :: t → False) : ¬ [c] <+: s := by
      rintro ⟨t, rfl⟩
      exact h t rfl
    exact .bind (.enclosed_other (hother hdouble)) (.bind (.enclosed_other (hother hsingle))
      (.bind (.enclosed_other (hother hbrace)) (.refuse _ _)))

/-- The cursor reads what follows the name of an attribute as the reader does. -/
theorem Follows.assignment {attr : String} {read : Reading (AttributeValue × List Char)}
    (h : readAssignment attr s = read) : Follows src s (assignment attr) read := by
  subst h
  refine .bind .passBlanks ?_
  unfold readAssignment
  split
  · next t ht =>
    rw [ht]
    exact .bind (.eat rfl) (.bind .passBlanks (.value rfl))
  · next t hother =>
    refine .bind (.eat_other ?_) (.pure _)
    rintro ⟨t, ht⟩
    exact hother t ht.symm

def attributesCourse (tag : String) (start : List Char) :
    Course (List Attribute) (List Attribute) (List Attribute × Bool) where
  state := id
  read attributes s := (readAttributes tag start s).map fun read =>
    ((attributes ++ read.1, read.2.1), read.2.2)

/-- A round of attributes is one attribute, or the end of the tag. -/
theorem turns_attributesRound (tag : String) (start : List Char) (attributes : List Attribute)
    (s : List Char) :
    (attributesCourse tag start).Turns src s.length s
      (attributesRound tag (offsetOf src start) attributes)
      ((readAttributes tag start s).map fun read =>
        ((attributes ++ read.1, read.2.1), read.2.2)) := by
  refine .bind .passBlanks ?_
  rw [readAttributes]
  -- The two ends of a tag, the end of the text, and whatever else may stand there.
  split
  · next rest hrest =>
    rw [hrest]
    refine .bind (.eat rfl) (.ends ?_)
    simp [Except.map]
  · next rest hrest =>
    rw [hrest]
    refine .bind (.eat_other (by simp)) (.bind (.eat rfl) (.ends ?_))
    simp [Except.map]
  · next hend =>
    rw [hend]
    exact .bind (.eat_other (by simp)) (.bind (.eat_other (by simp))
      (.bind .atEnd (.refused (.refuse _ _) rfl)))
  · next c t hclosing hopening hc =>
    have hslash : ¬ ['/', '>'] <+: c :: t := by
      rintro ⟨rest, hrest⟩
      cases hrest
      exact hclosing rest rfl rfl
    have hbracket : ¬ ['>'] <+: c :: t := by
      rintro ⟨rest, hrest⟩
      cases hrest
      exact hopening rfl
    rw [hc]
    refine .bind (.eat_other hslash) (.bind (.eat_other hbracket) (.bind .atEnd
      (.bind .position ?_)))
    split
    · next hname => exact .bind (.name_none hname) (.bind .rest (.refused (.refuse _ _) rfl))
    · next attr afterName hname =>
      split
      · next refusal hvalue =>
        exact .bind (.name hname) (.refused (.bind_error (.assignment hvalue)) rfl)
      · next value afterValue hvalue =>
        refine .bind (.name hname) (.bind (.assignment hvalue)
          (.goesOn (attributes ++ [⟨attr, value⟩]) ?_ ?_))
        · -- There may be no value behind it, but the name is not empty.
          have hlength := (suffix_of_takeName? hname).2
          have hafter := (suffix_of_readAssignment hvalue).length_le
          have hblanks := length_skipBlanks_le s
          rw [hc] at hblanks
          omega
        · simp only [attributesCourse]
          cases readAttributes tag start afterValue <;> simp [Except.map]

/-! ## Tags -/

theorem Follows.attributes {tag : String} {start : List Char}
    {read : Reading (List Attribute × Bool × List Char)} (h : readAttributes tag start s = read) :
    Follows src s (Cursor.loop .attributes (attributesRound tag (offsetOf src start)) [])
      (read.map fun read => ((read.1, read.2.1), read.2.2)) := by
  subst h
  exact .loop (attributesCourse tag start) (turns_attributesRound tag start) []

/-- The cursor reads an opening tag as the reader does. -/
theorem Follows.openTag {read : Reading (Tag × List Char)} (hs : ['<'] <+: s)
    (h : readOpenTag s = read) : Follows src s Cursor.openTag read := by
  obtain ⟨t, rfl⟩ := hs
  subst h
  refine .bind .position (.bind (.eat rfl) ?_)
  unfold readOpenTag
  split
  · next hname => exact .bind (.name_none hname) (.refuse _ _)
  · next tag afterName hname =>
    split
    · next hattributes => exact .bind (.name hname) (.bind_error (.attributes hattributes))
    · next hattributes =>
      exact .bind (.name hname) (.bind (.attributes hattributes) (.pure _))

/-- The cursor reads an end tag as the reader does. -/
theorem Follows.endTag {read : Reading (String × List Char)} (hs : ['<', '/'] <+: s)
    (h : readEndTag s = read) : Follows src s Cursor.endTag read := by
  obtain ⟨t, rfl⟩ := hs
  subst h
  refine .bind .position (.bind (.eat rfl) ?_)
  unfold readEndTag
  split
  · next hname => exact .bind (.name_none hname) (.refuse _ _)
  · next found afterName hname =>
    refine .bind (.name hname) (.bind .passBlanks ?_)
    split
    · next rest hrest =>
      rw [hrest]
      exact .bind (.eat rfl) (.pure _)
    · next hopen =>
      refine .bind (.eat_other ?_) (.refuse _ _)
      rintro ⟨rest, hrest⟩
      exact hopen rest hrest.symm

/-! ## Elements -/

/-- The cursor reads the contents of a text element as the reader does. -/
theorem Follows.content {read : Reading (String × List Char)} (h : readContent s = read) :
    Follows src s Cursor.content read := by
  subst h
  refine .of_suffix fun hs => .bind .position ?_
  unfold readContent
  split
  · next hcut => exact .bind (.takeUntil_none hcut) (.refuse _ _)
  · next raw atEnd hcut =>
    have hclosing := prefix_of_breakBefore? hcut
    split
    · next before nested hnested =>
      -- The cursor stands behind the nested element and tells its place from where it started.
      have hat : offsetOf src s + utf8Length before = offsetOf src (s.drop before.length) := by
        have hsplit : s = before ++ (nested ++ atEnd) := by
          rw [← append_of_breakBefore? hcut, ← append_of_breakBefore? hnested, List.append_assoc]
        rw [hsplit] at hs ⊢
        rw [List.drop_left, offsetOf_add hs]
      refine .bind (.takeUntil hcut) ?_
      simp only [findPattern?, hnested, Option.map_some, hat]
      exact .refuse _ _
    · next hplain =>
      refine .bind (.takeUntil hcut) ?_
      simp only [findPattern?, hplain, Option.map_none]
      refine .bind .position ?_
      split
      · next hend => exact .bind_error (.endTag hclosing hend)
      · next found rest hend =>
        refine .bind (.endTag hclosing hend) ?_
        split
        · exact .bind (.decode _) (.pure _)
        · exact .refuse _ _

/-- A text element that closes itself has no contents to be read. -/
theorem Follows.leafText {tag : Tag} {read : Reading (String × List Char)}
    (h : (if tag.selfClosing then .ok ("", s) else readContent s) = read) :
    Follows src s (leafText tag) read := by
  subst h
  rw [Cursor.leafText]
  split
  · exact .pure ""
  · exact .content rfl

/-- The cursor reads a leaf as the reader does. -/
theorem Follows.leaf {tag : Tag} {read : Reading (Leaf × List Char)} (h : readLeaf tag s = read) :
    Follows src s (leaf tag) read := by
  subst h
  unfold readLeaf
  split
  · next htext => exact .bind_error (.leafText htext)
  · next htext => exact .bind (.leafText htext) (.accept rfl)

/-- The loop counts the element itself among the open ones. -/
def elementCourse (element : String) (start : List Char) : Course Nat Nat Unit where
  state depth := depth + 1
  read depth s := (skipElement element start depth s).map fun t => ((), t)

/-- A round in an element that is passed over goes on behind its next tag or comment. -/
theorem turns_elementRound (element : String) (start : List Char) (depth : Nat) (s : List Char) :
    (elementCourse element start).Turns src s.length s
      (elementRound element (offsetOf src start) (depth + 1))
      ((skipElement element start depth s).map fun t => ((), t)) := by
  rw [skipElement_eq]
  split
  · next hcut => exact .refused (.bind (.takeUntil_none hcut) (.refuse _ _)) rfl
  · next before atTag hcut =>
    -- The tag may stand right here: it is what is read from it on that makes progress.
    have hlength := (suffix_of_breakBefore? hcut).length_le
    refine .bind (.takeUntil hcut) (.bind .rest ?_)
    by_cases hcomment : commentOpen.isPrefixOf atTag = true
    · rw [if_pos hcomment, if_pos hcomment]
      split
      · next htrivia => exact .refused (.bind_error (.passTrivia htrivia)) rfl
      · next afterTrivia htrivia =>
        have hless := length_skipTrivia_lt hcomment htrivia
        exact .bind (.passTrivia htrivia) (.goesOn depth (by omega) rfl)
    rw [if_neg hcomment, if_neg hcomment]
    by_cases hclosing : ['<', '/'].isPrefixOf atTag = true
    · rw [if_pos hclosing, if_pos hclosing]
      have hstarts := List.isPrefixOf_iff_prefix.1 hclosing
      cases hend : readEndTag atTag with
      | error => exact .refused (.bind_error (.endTag hstarts hend)) rfl
      | ok found =>
        obtain ⟨found, afterTag⟩ := found
        have hless := (suffix_of_readEndTag hend).2
        refine .bind (.endTag hstarts hend) ?_
        dsimp only
        by_cases hfound : found = element
        · rw [if_pos hfound, if_pos hfound]
          cases depth with
          | zero => exact .ends rfl
          | succ depth => exact .goesOn depth (by omega) rfl
        · rw [if_neg hfound, if_neg hfound]
          exact .goesOn depth (by omega) rfl
    · rw [if_neg hclosing, if_neg hclosing]
      have hstarts := prefix_of_breakBefore? hcut
      split
      · next htag => exact .refused (.bind_error (.openTag hstarts htag)) rfl
      · next tag afterTag htag =>
        have hless := (suffix_of_readOpenTag htag).2
        refine .bind (.openTag hstarts htag) ?_
        by_cases hopens : tag.name = element ∧ tag.selfClosing = false
        · rw [if_pos hopens, if_pos hopens]
          exact .goesOn (depth + 1) (by omega) rfl
        · rw [if_neg hopens, if_neg hopens]
          exact .goesOn depth (by omega) rfl

theorem Follows.passElement {element : String} {read : Reading (List Char)}
    (h : skipElement element s 0 s = read) :
    Follows src s (passElement element) (read.map fun t => ((), t)) := by
  subst h
  exact .bind .position (.loop (elementCourse element s) (turns_elementRound element s) 0)

/-! ## Children and documents -/

/-- The cursor passes what stands between two children. -/
theorem Follows.passText : Follows src s Cursor.passText (.ok ((), s.dropWhile (· != '<'))) := by
  -- The cursor looks for the next `<`, the reader drops what is not one.
  have hdiffers {c : Char} {before : List Char} (hc : c ∈ before) (h : '<' ∉ before) :
      (c != '<') = true :=
    bne_iff_ne.2 fun heq => h (heq ▸ hc)
  refine .bind .rest ?_
  rw [findPattern?]
  cases hcut : breakBefore? ['<'] s with
  | none =>
    have hnone := breakBefore?_singleton_eq_none.1 hcut
    rw [List.dropWhile_eq_nil_iff.2 fun c hc => hdiffers hc hnone]
    exact .moveToEnd
  | some parts =>
    obtain ⟨before, atTag⟩ := parts
    have hbefore := notMem_of_endsAtFirst (endsAtFirst_of_breakBefore? hcut).1
    obtain ⟨t, rfl⟩ := prefix_of_breakBefore? hcut
    obtain rfl := append_of_breakBefore? hcut
    rw [List.dropWhile_append_of_pos fun c hc => hdiffers hc hbefore]
    exact .advance rfl

def childrenCourse : Course (List Leaf) (List Leaf) (List Leaf) where
  state := id
  read leaves s := (readChildren s).map fun read => (leaves ++ read.1, read.2)

/-- A round of children is one child or the text in front of it, or the end tag of the frame. -/
theorem turns_childrenRound (leaves : List Leaf) (s : List Char) :
    childrenCourse.Turns src s.length s (childrenRound leaves)
      ((readChildren s).map fun read => (leaves ++ read.1, read.2)) := by
  rw [readChildren_eq]
  split
  · next htrivia => exact .refused (.bind_error (.passTrivia htrivia)) rfl
  · next htrivia =>
    exact .bind (.passTrivia htrivia) (.bind .atEnd (.bind .position (.refused (.refuse _ _) rfl)))
  · next t htrivia =>
    have hstarts : ['<', '/'] <+: '<' :: '/' :: t := ⟨t, rfl⟩
    refine .bind (.passTrivia htrivia) (.bind .atEnd (.bind .rest (.bind .position ?_)))
    split
    · next hend => exact .refused (.bind_error (.endTag hstarts hend)) rfl
    · next found rest hend =>
      refine .bind (.endTag hstarts hend) ?_
      split
      · exact .ends (by simp [Except.map])
      · exact .refused (.refuse _ _) rfl
  · next t hclosing htrivia =>
    have hlength := (suffix_of_skipTrivia htrivia).length_le
    have hstarts : ['<'] <+: '<' :: t := ⟨t, rfl⟩
    have hopening : ¬ ['<', '/'].isPrefixOf ('<' :: t) = true := by
      rw [List.isPrefixOf_iff_prefix]
      rintro ⟨u, hu⟩
      cases hu
      exact hclosing u rfl
    refine .bind (.passTrivia htrivia) (.bind .atEnd (.bind .rest ?_))
    rw [if_neg hopening, if_pos (List.isPrefixOf_iff_prefix.2 hstarts)]
    cases htag : readOpenTag ('<' :: t) with
    | error => exact .refused (.bind_error (.openTag hstarts htag)) rfl
    | ok found =>
      -- Whatever the element is, its tag is taken, so that less is left behind it.
      obtain ⟨tag, afterTag⟩ := found
      have hless := (suffix_of_readOpenTag htag).2
      refine .bind (.openTag hstarts htag) ?_
      dsimp only
      by_cases htext : tag.name = Element.text.tag
      · rw [if_pos htext, if_pos htext]
        split
        · next hleaf => exact .refused (.bind_error (.leaf hleaf)) rfl
        · next leaf afterLeaf hleaf =>
          have hleafLength := (suffix_of_readLeaf hleaf).length_le
          refine .bind (.leaf hleaf) (.goesOn (leaves ++ [leaf]) (by omega) ?_)
          simp only [childrenCourse]
          cases readChildren afterLeaf <;> simp [Except.map]
      · rw [if_neg htext, if_neg htext]
        by_cases hclosed : tag.selfClosing = true
        · rw [if_pos hclosed, if_pos hclosed]
          exact .goesOn leaves (by omega) rfl
        · rw [if_neg hclosed, if_neg hclosed]
          split
          · next hskip => exact .refused (.bind_error (.passElement hskip)) rfl
          · next rest hskip =>
            have hrest := (suffix_of_skipElement hskip).length_le
            exact .bind (.passElement hskip) (.goesOn leaves (by omega) rfl)
  · next c t _ hc htrivia =>
    have hlength := (suffix_of_skipTrivia htrivia).length_le
    have hless := (List.dropWhile_suffix (l := t) (· != '<')).length_le
    -- No tag starts here, so that at least one character is passed over.
    have hother (pattern : List Char) : ¬ ('<' :: pattern).isPrefixOf (c :: t) = true := by
      rw [List.isPrefixOf_iff_prefix]
      rintro ⟨u, hu⟩
      cases hu
      exact hc rfl
    have hpass : Follows src (c :: t) passText (.ok ((), t.dropWhile (· != '<'))) := by
      rw [← List.dropWhile_cons_of_pos (p := (· != '<')) (bne_iff_ne.2 hc)]
      exact .passText
    refine .bind (.passTrivia htrivia) (.bind .atEnd (.bind .rest ?_))
    rw [if_neg (hother _), if_neg (hother _)]
    refine .bind hpass (.goesOn leaves ?_ rfl)
    rw [List.length_cons] at hlength
    omega

/-- The cursor reads children as the reader does. -/
theorem Follows.children {read : Reading (List Leaf × List Char)} (h : readChildren s = read) :
    Follows src s Cursor.children read := by
  have hread : childrenCourse.read [] s = read := by
    subst h
    change (readChildren s).map (fun read => ([] ++ read.1, read.2)) = readChildren s
    cases readChildren s <;> rfl
  rw [← hread]
  exact .loop childrenCourse turns_childrenRound []

/-- The cursor reads a frame as the reader does. -/
theorem Follows.root {read : Reading (Frame × List Char)} (h : readFrame s = read) :
    Follows src s Cursor.root read := by
  subst h
  refine .bind .rest ?_
  rw [readFrame]
  -- Every decision of the reader is made by the cursor on the same text.
  by_cases hstarts : startsElement s = true
  · have hopening : ['<'] <+: s := by
      obtain ⟨c, t, rfl, -⟩ := startsElement_iff.1 hstarts
      exact ⟨c :: t, rfl⟩
    rw [if_pos hstarts, if_pos hstarts]
    cases htag : readOpenTag s with
    | error => exact .bind_error (.openTag hopening htag)
    | ok found =>
      obtain ⟨tag, afterTag⟩ := found
      refine .bind (.openTag hopening htag) ?_
      dsimp only
      by_cases hname : tag.name = Element.frame.tag
      · rw [if_pos hname, if_pos hname]
        cases Frame.ofAttributes tag.attributes with
        | error => exact .bind_error (.accept rfl)
        | ok frame =>
          refine .bind (.accept rfl) ?_
          dsimp only
          by_cases hclosed : tag.selfClosing = true
          · rw [if_pos hclosed, if_pos hclosed]
            exact .pure frame
          · rw [if_neg hclosed, if_neg hclosed]
            cases hchildren : readChildren afterTag with
            | error => exact .bind_error (.children hchildren)
            | ok found => exact .bind (.children hchildren) (.pure _)
      · rw [if_neg hname, if_neg hname]
        exact .halt (.missingRoot _)
  · rw [if_neg hstarts, if_neg hstarts]
    exact .halt (.missingRoot none)

/-- The cursor reads a document as the reader does, and stops at the end of it. -/
theorem Follows.document {read : Reading Frame} (h : readDocument s = read) :
    Follows src s Cursor.document (read.map fun frame => (frame, [])) := by
  subst h
  unfold readDocument
  split
  · next hbefore => exact .bind_error (.passTrivia hbefore)
  · next atRoot hbefore =>
    refine .bind (.passTrivia hbefore) ?_
    split
    · next hroot => exact .bind_error (.root hroot)
    · next frame afterFrame hroot =>
      refine .bind (.root hroot) ?_
      split
      · next hafter => exact .bind_error (.passTrivia hafter)
      · next hafter => exact .bind (.passTrivia hafter) (.bind .atEnd (.pure frame))
      · -- Something is left: the cursor is not at the end and refuses where it stands.
        next left hleft hafter =>
        refine .bind (.passTrivia hafter) (.bind .atEnd ?_)
        rw [if_neg (mt List.isEmpty_iff.1 hleft)]
        exact .bind .position (.refuse _ _)

/-! ## Whole documents -/

/-- **The cursor parses what the parser of markup parses.** -/
theorem outcome_parse (markup : String) :
    (parse markup).outcome = (Frame.parse markup).mapError .refused := by
  obtain ⟨hagrees, -⟩ := Follows.document (rfl : readDocument markup.toList = _)
    (List.suffix_refl _)
  rw [offsetOf_self] at hagrees
  rw [Frame.parse]
  cases hread : readDocument markup.toList with
  | ok frame =>
    rw [hread] at hagrees
    exact hagrees.2.2
  | error refusal =>
    rw [hread] at hagrees
    exact hagrees

/-- Whatever the markup, its parser only moves forward. -/
theorem forward_parse (markup : String) :
    Forward markup.toList 0 (parse markup).log (parse markup).position := by
  obtain ⟨-, hforward⟩ := Follows.document (rfl : readDocument markup.toList = _)
    (List.suffix_refl _)
  rwa [offsetOf_self] at hforward

/-- **The cursor always moves forward over whole characters.** Whatever the text, well-formed or
not, the cursor comes to the end of `Frame.parse`: no cut is out of range and no loop uses up its
bound, which is one round more than the text has bytes. From the start on its positions never
decrease; each of them lies between two characters or at an end of the text. A round of a loop that
is completed stops behind the position at which it started. -/
theorem parse_moves_forward (markup : String) :
    (parse markup).outcome = (Frame.parse markup).mapError .refused ∧
    (parse markup).outcome ≠ .error .outOfRange ∧
    (parse markup).outcome ≠ .error .exhausted ∧
    (0 :: (parse markup).positions).Pairwise (· ≤ ·) ∧
    (∀ p ∈ (parse markup).positions,
      String.Pos.Raw.IsValid markup ⟨p⟩ ∧ p ≤ markup.utf8ByteSize) ∧
    ∀ kind start stop, .completed kind start stop ∈ (parse markup).log → start < stop := by
  have hforward := forward_parse markup
  have houtcome := outcome_parse markup
  refine ⟨houtcome, ?_, ?_, hforward.pairwise, fun p hp => ?_,
    fun kind start stop => hforward.start_lt_stop⟩
  · rw [houtcome]
    cases Frame.parse markup <;> nofun
  · rw [houtcome]
    cases Frame.parse markup <;> nofun
  · have hvalid := isValid_iff_splitAtByte?.2 (hforward.exists_splitAtByte? hp)
    exact ⟨hvalid, hvalid.le_rawEndPos⟩

/-- The children of a frame that breaks off in a comment, behind a character of two bytes. -/
example : (parse "<Frame>é<!--").log =
    [.moved 0, .moved 1, .moved 6, .moved 6, .moved 7, .moved 7, .moved 9,
      .completed .children 7 9, .moved 9] := by
  decide +kernel

end CanvasLink.Markup.Cursor
