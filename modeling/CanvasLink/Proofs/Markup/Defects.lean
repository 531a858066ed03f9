import CanvasLink.Proofs.Markup.Acceptance
import CanvasLink.Proofs.Text.Slicing

/-!
# CanvasLink — where a defect is reported

Markup that is refused as malformed comes with an offset. It lies on a character boundary, and what
stands in front of it and behind it is what the defect speaks of.

* `ValueFault`, `AttributeFault`, `TagFault` — defects inside a tag or a comment, wherever that
  stands.
* `ElementFault` — defects of the frame's children: an element that is left open, an end tag of
  another element, an element inside a text.
* `Fault` — all of them, seen from the start of the document.
* `fault_of_skipElement` and `fault_of_readChildren` — the two loops, over the tags of an element
  that is passed over and over the children of the frame.
* **`malformed_points_at_fault`** — the headline.

The relations split the text at the offset, as `Document` splits a text at its parts; the offset
itself comes in only at the end.
-/

namespace CanvasLink.Markup

open CanvasLink.Text

/-! ## What the text around a defect is -/

/-- No element name starts with the text. -/
def NoNameStart (s : List Char) : Prop :=
  ∀ c ∈ s.head?, isNameStart c = false

/-- A value that is not one: what stands where the value of the attribute should. -/
inductive ValueFault (attr : String) : List Char → Defect → Prop
  | unterminatedString {quote s} : quote ∈ ['"', '\''] → quote ∉ s →
      ValueFault attr (quote :: s) (.unterminatedString attr)
  | unterminatedBraces {s} : '\x7d' ∉ s → ValueFault attr ('\x7b' :: s) (.unterminatedBraces attr)
  | missingValue {s} : (∀ c ∈ s.head?, c ∉ ['"', '\'', '\x7b'] ∧ isBlank c = false) →
      ValueFault attr s (.missingValue attr)

/-- A defect among the attributes of a tag; `before` starts right behind the tag's name. -/
inductive AttributeFault (tag : String) : List Char → List Char → Defect → Prop
  | unexpectedCharacter {before attributes c s} : AttributeList before attributes →
      isBlank c = false → isNameStart c = false → c ≠ '>' → ¬ ['/', '>'] <+: c :: s →
      AttributeFault tag before (c :: s) (.unexpectedCharacter c tag)
  | value {list attributes n w₁ w₂ rest defect} : AttributeList list attributes → Name n →
      Blanks w₁ → Blanks w₂ → ValueFault (String.ofList n) rest defect →
      AttributeFault tag (list ++ (n ++ (w₁ ++ '=' :: w₂))) rest defect

/-- A defect of a tag or a comment. -/
inductive TagFault : List Char → List Char → Defect → Prop
  | unterminatedComment {before rest} : commentOpen <+: rest → ¬ commentClose <:+: rest →
      TagFault before rest .unterminatedComment
  | missingName {before s} : NoNameStart s → TagFault before ('<' :: s) (.missingName false)
  | missingEndName {before s} : NoNameStart s →
      TagFault before ('<' :: '/' :: s) (.missingName true)
  /-- The text ends before the tag does. -/
  | unterminatedTag {before n s attributes} : Name n → StopsName s → AttributeList s attributes →
      TagFault before ('<' :: (n ++ s)) (.unterminatedTag (String.ofList n))
  | unterminatedEndTag {before n w s} : Name n → Blanks w → StopsName (w ++ s) →
      (∀ c ∈ s.head?, isBlank c = false ∧ c ≠ '>') →
      TagFault before ('<' :: '/' :: (n ++ (w ++ s))) (.unterminatedEndTag (String.ofList n))
  | inside {p n before rest defect} : Name n → StopsName (before ++ rest) →
      AttributeFault (String.ofList n) before rest defect →
      TagFault (p ++ '<' :: (n ++ before)) rest defect

/-- A defect of the content of a text element; `before` starts right behind the opening tag. -/
inductive ContentFault : List Char → List Char → Defect → Prop
  | missingEnd {rest} : ¬ ['<', '/'] <:+: rest → ContentFault [] rest (.missingEnd "Text")
  | wrongEnd {raw e found rest} : '<' ∉ raw → EndTag e found → found ≠ "Text" →
      ContentFault raw (e ++ rest) (.wrongEnd .text found)
  | nested {raw rest} : '<' ∉ raw → rest.head? ≠ some '/' →
      ContentFault raw ('<' :: rest) .nestedElement

/-- A defect inside a frame; `before` starts right behind the frame's opening tag. -/
inductive ElementFault : List Char → List Char → Defect → Prop
  | tag {before rest defect} : TagFault before rest defect → ElementFault before rest defect
  | text {s leaves t tag before rest defect} : Children s leaves → OpenTag t tag →
      tag.name = "Text" → tag.selfClosing = false → ContentFault before rest defect →
      ElementFault (s ++ (t ++ before)) rest defect
  /-- No end tag balances the opening tag of an element that is passed over. -/
  | missingEnd {s leaves t tag rest} : Children s leaves → OpenTag t tag → tag.name ≠ "Text" →
      tag.selfClosing = false →
      (∀ body more, rest = body ++ more → ¬ ClosingText tag.name 1 body) →
      ElementFault (s ++ t) rest (.missingEnd tag.name)
  /-- The text ends with the frame still open. -/
  | missingFrameEnd {before leaves} : Children before leaves →
      ElementFault before [] (.missingEnd "Frame")
  | wrongEnd {before leaves e found rest} : Children before leaves → EndTag e found →
      found ≠ "Frame" → ElementFault before (e ++ rest) (.wrongEnd .frame found)

/-- A defect of a document, with the text in front of it and the text behind it. -/
inductive Fault : List Char → List Char → Defect → Prop
  | tag {before rest defect} : TagFault before rest defect → Fault before rest defect
  | element {w t tag s rest defect} : Trivia w → OpenTag t tag → tag.name = "Frame" →
      tag.selfClosing = false → ElementFault s rest defect → Fault (w ++ (t ++ s)) rest defect
  | trailing {before frame rest} : Document before frame → rest ≠ [] → StopsTrivia rest →
      Fault before rest .trailingContent

/-! ### More text in front

A defect stays what it is when the text that holds it goes on to the left. -/

/-- What may stand in front of attributes may stand in front of a defect among them. -/
theorem AttributeFault.prepend {tag : String} {x before rest : List Char} {defect : Defect}
    (hx : ∀ list attributes, list <+: before → AttributeList list attributes →
      ∃ all, AttributeList (x ++ list) all)
    (h : AttributeFault tag before rest defect) : AttributeFault tag (x ++ before) rest defect := by
  cases h with
  | unexpectedCharacter hlist hblank hstart hclose hself =>
    obtain ⟨all, hall⟩ := hx _ _ List.prefix_rfl hlist
    exact .unexpectedCharacter hall hblank hstart hclose hself
  | value hlist hn hw₁ hw₂ hvalue =>
    obtain ⟨all, hall⟩ := hx _ _ (List.prefix_append _ _) hlist
    rw [← List.append_assoc]
    exact .value hall hn hw₁ hw₂ hvalue

/-- What stands further in front of a defect of a tag is not looked at. -/
theorem TagFault.append_left {before rest : List Char} {defect : Defect} (p : List Char)
    (h : TagFault before rest defect) : TagFault (p ++ before) rest defect := by
  cases h with
  | unterminatedComment hopen hclose => exact .unterminatedComment hopen hclose
  | missingName hname => exact .missingName hname
  | missingEndName hname => exact .missingEndName hname
  | unterminatedTag hn hstops hlist => exact .unterminatedTag hn hstops hlist
  | unterminatedEndTag hn hw hstops hend => exact .unterminatedEndTag hn hw hstops hend
  | inside hn hstops hfault =>
    rw [← List.append_assoc]
    exact .inside hn hstops hfault

/-- Children may stand in front of a defect inside a frame. -/
theorem ElementFault.append_left {p before rest : List Char} {leaves : List Leaf}
    {defect : Defect} (hp : Children p leaves) (h : ElementFault before rest defect) :
    ElementFault (p ++ before) rest defect := by
  cases h with
  | tag hfault => exact .tag (hfault.append_left p)
  | text hs ht hname hself hfault =>
    rw [← List.append_assoc]
    exact .text (hp.append hs) ht hname hself hfault
  | missingEnd hs ht hname hself hopen =>
    rw [← List.append_assoc]
    exact .missingEnd (hp.append hs) ht hname hself hopen
  | missingFrameEnd hbefore => exact .missingFrameEnd (hp.append hbefore)
  | wrongEnd hbefore he hfound => exact .wrongEnd (hp.append hbefore) he hfound

/-- The text has a defect of a tag or a comment where `rest` starts in it. -/
def HasTagFault (s rest : List Char) (defect : Defect) : Prop :=
  ∃ before, s = before ++ rest ∧ TagFault before rest defect

/-- A defect of a tag in what is left of a text is one of the text. -/
theorem HasTagFault.of_suffix {s t rest : List Char} {defect : Defect}
    (h : HasTagFault s rest defect) (hs : s <:+ t) : HasTagFault t rest defect := by
  obtain ⟨before, rfl, hfault⟩ := h
  obtain ⟨p, rfl⟩ := hs
  exact ⟨p ++ before, (List.append_assoc p before rest).symm, hfault.append_left p⟩

/-! ## Defects of tags and comments -/

/-- Skipping trivia fails only at a comment that does not end. -/
theorem fault_of_skipTrivia {s pos : List Char} {defect : Defect}
    (h : skipTrivia s = .error (.malformed pos defect)) : HasTagFault s pos defect := by
  fun_induction skipTrivia s with
  | case1 s hopen hcut =>
    cases h
    obtain ⟨w, -, hs⟩ := exists_blanks_append_skipBlanks s
    exact ⟨w, hs, .unterminatedComment (List.isPrefixOf_iff_prefix.1 hopen)
      (not_infix_of_breakBefore? hcut)⟩
  | case2 s _ before after hcut ih =>
    have hafter : after.drop commentClose.length <:+ skipBlanks s :=
      (List.drop_suffix _ after).trans (suffix_of_breakBefore? hcut)
    exact (ih h).of_suffix (hafter.trans (skipBlanks_suffix s))
  | case3 => cases h

/-- Where no name is read none starts. -/
theorem noNameStart_of_takeName? {s : List Char} (h : takeName? s = none) : NoNameStart s := by
  cases s with
  | nil => simp [NoNameStart]
  | cons c s =>
    intro d hd
    cases hd
    simp only [takeName?] at h
    split at h
    · cases h
    · next hc => simpa using hc

/-- A value that is refused is refused at its start, and for what stands there. -/
theorem valueFault_of_readValue {attr : String} {s pos : List Char} {defect : Defect}
    (hs : ∀ c ∈ s.head?, isBlank c = false)
    (h : readValue attr s = .error (.malformed pos defect)) :
    pos = s ∧ ValueFault attr s defect := by
  unfold readValue at h
  split at h
  · split at h
    · cases h
    · next hcut =>
      cases h
      exact ⟨rfl, .unterminatedString (by simp) (breakBefore?_singleton_eq_none.1 hcut)⟩
  · split at h
    · cases h
    · next hcut =>
      cases h
      exact ⟨rfl, .unterminatedString (by simp) (breakBefore?_singleton_eq_none.1 hcut)⟩
  · split at h
    · cases h
    · next hcut =>
      cases h
      exact ⟨rfl, .unterminatedBraces (breakBefore?_singleton_eq_none.1 hcut)⟩
  · next hdouble hsingle hbrace =>
    cases h
    refine ⟨rfl, .missingValue fun c hc => ⟨?_, hs c hc⟩⟩
    -- None of the three opening delimiters stands here, or its branch would have been taken.
    obtain ⟨t, rfl⟩ := List.head?_eq_some_iff.1 hc
    simp only [List.mem_cons, List.not_mem_nil, or_false, not_or]
    exact ⟨fun heq => hdouble t (by rw [heq]), fun heq => hsingle t (by rw [heq]),
      fun heq => hbrace t (by rw [heq])⟩

/-- What is refused behind the name of an attribute is its value, and `=` stands in front of
that. -/
theorem valueFault_of_readAssignment {attr : String} {s pos : List Char} {defect : Defect}
    (h : readAssignment attr s = .error (.malformed pos defect)) :
    ∃ w₁ w₂, s = w₁ ++ '=' :: (w₂ ++ pos) ∧ Blanks w₁ ∧ Blanks w₂ ∧ ValueFault attr pos defect := by
  unfold readAssignment at h
  split at h
  · next t ht =>
    obtain ⟨w₁, hw₁, hs⟩ := exists_blanks_append_skipBlanks s
    obtain ⟨w₂, hw₂, ht'⟩ := exists_blanks_append_skipBlanks t
    obtain ⟨rfl, hfault⟩ := valueFault_of_readValue (head?_skipBlanks t) h
    refine ⟨w₁, w₂, ?_, hw₁, hw₂, hfault⟩
    rw [← ht', ← ht]
    exact hs
  · cases h

/-- One attribute that has been read may stand in front of attributes with which the text goes on. -/
theorem exists_attribute_of_read {attr : String} {s afterName afterValue : List Char}
    {value : AttributeValue} (hname : takeName? (skipBlanks s) = some (attr, afterName))
    (hvalue : readAssignment attr afterName = .ok (value, afterValue)) :
    ∃ x, s = x ++ afterValue ∧ ∀ list attributes, list <+: afterValue →
      AttributeList list attributes → AttributeList (x ++ list) (⟨attr, value⟩ :: attributes) := by
  obtain ⟨w, hw, hsplit⟩ := exists_blanks_append_skipBlanks s
  obtain ⟨n, hn, rfl, hisName, hstops⟩ := name_of_takeName? hname
  rcases assignment_of_readAssignment hvalue with ⟨rfl, hafter⟩ | ⟨w₁, w₂, v, hv, hw₁, hw₂, hspell⟩
  · -- A name alone: the blanks behind it go to the attributes that follow.
    obtain ⟨w', hw', hname'⟩ := exists_blanks_append_skipBlanks afterName
    rw [← hafter] at hname'
    refine ⟨w ++ (n ++ w'), ?_, fun list attributes hlist hall => ?_⟩
    · rw [hsplit, hn, hname']
      simp only [List.append_assoc]
    · obtain ⟨r, rfl⟩ := hlist
      rw [hname', ← List.append_assoc] at hstops
      rw [List.append_assoc, List.append_assoc]
      exact .flag hw hisName hstops.of_append (hall.blanks_append hw')
  · refine ⟨w ++ (n ++ (w₁ ++ '=' :: (w₂ ++ v))), ?_, fun list attributes _ hall => ?_⟩
    · rw [hsplit, hn, hv]
      simp only [List.append_assoc, List.cons_append]
    · simp only [List.append_assoc, List.cons_append]
      exact .valued hw hisName hw₁ hw₂ hspell hall

/-- The reader of attributes fails at the tag's own start, when the text ends, or at a defect
among the attributes. Induction on the reader. -/
theorem fault_of_readAttributes {name : String} {start s pos : List Char} {defect : Defect}
    (h : readAttributes name start s = .error (.malformed pos defect)) :
    (pos = start ∧ defect = .unterminatedTag name ∧ ∃ attributes, AttributeList s attributes) ∨
      ∃ before, s = before ++ pos ∧ AttributeFault name before pos defect := by
  fun_induction readAttributes name start s with
  | case1 => cases h
  | case2 => cases h
  | case3 s hs =>
    -- The text ends among the attributes.
    cases h
    obtain ⟨w, hw, hsplit⟩ := exists_blanks_append_skipBlanks s
    rw [hs, List.append_nil] at hsplit
    exact .inl ⟨rfl, rfl, [], hsplit ▸ .nil hw⟩
  | case4 s c t hself hclose hs hname =>
    -- What stands here ends no tag and starts no name.
    cases h
    obtain ⟨w, hw, hsplit⟩ := exists_blanks_append_skipBlanks s
    rw [hs] at hsplit hname
    have hblank : isBlank c = false := head?_skipBlanks s c (by rw [hs]; rfl)
    have hstart : isNameStart c = false := noNameStart_of_takeName? hname c rfl
    refine .inr ⟨w, hsplit, .unexpectedCharacter (.nil hw) hblank hstart ?_ ?_⟩
    · rintro rfl
      exact hclose rfl
    · rintro ⟨r, hr⟩
      cases hr
      exact hself r rfl rfl
  | case5 s c t _ _ hs attr afterName hname refusal hvalue =>
    -- The value cannot be read.
    cases h
    obtain ⟨w, hw, hsplit⟩ := exists_blanks_append_skipBlanks s
    obtain ⟨n, hn, rfl, hisName, -⟩ := name_of_takeName? hname
    obtain ⟨w₁, w₂, hafter, hw₁, hw₂, hfault⟩ := valueFault_of_readAssignment hvalue
    refine .inr ⟨w ++ (n ++ (w₁ ++ '=' :: w₂)), ?_, .value (.nil hw) hisName hw₁ hw₂ hfault⟩
    rw [hsplit, hn, hafter]
    simp only [List.append_assoc, List.cons_append]
  | case6 s c t _ _ hs attr afterName hname value afterValue hvalue refusal hrest ih =>
    -- The defect lies behind the first attribute.
    cases h
    obtain ⟨x, hs, hx⟩ := exists_attribute_of_read hname hvalue
    rcases ih hrest with ⟨hpos, hdefect, attributes, hlist⟩ | ⟨before, rfl, hfault⟩
    · exact .inl ⟨hpos, hdefect, _, hs ▸ hx _ _ List.prefix_rfl hlist⟩
    · refine .inr ⟨x ++ before, by rw [hs, List.append_assoc], hfault.prepend ?_⟩
      exact fun list attributes hpre hall =>
        ⟨_, hx list attributes (hpre.trans (List.prefix_append _ _)) hall⟩
  | case7 => cases h

/-- An opening tag is refused where the tag has its defect. -/
theorem fault_of_readOpenTag {s pos : List Char} {defect : Defect} (hs : ['<'] <+: s)
    (h : readOpenTag s = .error (.malformed pos defect)) : HasTagFault s pos defect := by
  obtain ⟨s, rfl⟩ := hs
  unfold readOpenTag at h
  split at h
  · next hname =>
    cases h
    exact ⟨[], rfl, .missingName (noNameStart_of_takeName? hname)⟩
  · next name afterName hname =>
    split at h
    · next refusal hread =>
      cases h
      obtain ⟨n, hn, rfl, hisName, hstops⟩ := name_of_takeName? hname
      have hsplit : ['<'] ++ s = '<' :: (n ++ afterName) := congrArg ('<' :: ·) hn
      -- The tag is unterminated as a whole, or one of its attributes is at fault further in.
      rcases fault_of_readAttributes hread with ⟨rfl, rfl, attributes, hlist⟩ |
        ⟨before, rfl, hfault⟩
      · exact ⟨[], rfl, hsplit ▸ .unterminatedTag hisName hstops hlist⟩
      · refine ⟨'<' :: (n ++ before), ?_, .inside (p := []) hisName hstops hfault⟩
        rw [hsplit, List.cons_append, List.append_assoc]
    · cases h

/-- An end tag is refused where the tag has its defect. -/
theorem fault_of_readEndTag {s pos : List Char} {defect : Defect} (hs : ['<', '/'] <+: s)
    (h : readEndTag s = .error (.malformed pos defect)) : HasTagFault s pos defect := by
  obtain ⟨s, rfl⟩ := hs
  unfold readEndTag at h
  split at h
  · next hname =>
    cases h
    exact ⟨[], rfl, .missingEndName (noNameStart_of_takeName? hname)⟩
  · next name afterName hname =>
    split at h
    · cases h
    · next hopen =>
      cases h
      obtain ⟨n, hn, rfl, hisName, hstops⟩ := name_of_takeName? hname
      obtain ⟨w, hw, hblanks⟩ := exists_blanks_append_skipBlanks afterName
      have hsplit : ['<', '/'] ++ s = '<' :: '/' :: (n ++ (w ++ skipBlanks afterName)) := by
        rw [← hblanks]
        exact congrArg ('<' :: '/' :: ·) hn
      rw [hblanks] at hstops
      refine ⟨[], rfl, hsplit ▸ .unterminatedEndTag hisName hw hstops fun c hc => ?_⟩
      -- Neither a blank nor the closing bracket follows: blanks are skipped and `hopen` excludes
      -- the bracket.
      obtain ⟨t, ht⟩ := List.head?_eq_some_iff.1 hc
      refine ⟨head?_skipBlanks afterName c hc, ?_⟩
      rintro rfl
      exact hopen t ht

/-! ## Defects of elements -/

/-- A defect behind the part of a passed element that has been read. -/
theorem HasTagFault.behind {pattern s before atTag rest : List Char} {defect : Defect}
    (h : HasTagFault atTag rest defect) (hcut : breakBefore? pattern s = some (before, atTag)) :
    HasTagFault s rest defect :=
  h.of_suffix (suffix_of_breakBefore? hcut)

/-- The reader of a passed element fails at the element's start, when it does not end, or at a tag
or a comment in it. Induction on the reader. -/
theorem fault_of_skipElement {name : String} {start s pos : List Char} {depth : Nat}
    {defect : Defect} (h : skipElement name start depth s = .error (.malformed pos defect)) :
    (pos = start ∧ defect = .missingEnd name) ∨ HasTagFault s pos defect := by
  -- The only fault put at the start of the content is the missing end; all others lie where the
  -- scan stopped.
  fun_induction skipElement name start depth s with
  | case1 =>
    cases h
    exact .inl ⟨rfl, rfl⟩
  | case2 depth s before atTag hcut _ refusal htrivia =>
    cases h
    exact .inr ((fault_of_skipTrivia htrivia).behind hcut)
  | case3 depth s before atTag hcut _ afterTrivia htrivia ih =>
    exact (ih h).imp_right fun hfault => (hfault.of_suffix (suffix_of_skipTrivia htrivia)).behind hcut
  | case4 depth s before atTag hcut _ hslash refusal hend =>
    cases h
    exact .inr ((fault_of_readEndTag (List.isPrefixOf_iff_prefix.1 hslash) hend).behind hcut)
  | case5 => cases h
  | case6 s before atTag hcut _ _ afterTag depth hend ih =>
    exact (ih h).imp_right fun hfault => (hfault.of_suffix (suffix_of_readEndTag hend).1).behind hcut
  | case7 depth s before atTag hcut _ _ found afterTag hend _ ih =>
    exact (ih h).imp_right fun hfault => (hfault.of_suffix (suffix_of_readEndTag hend).1).behind hcut
  | case8 depth s before atTag hcut _ _ refusal htag =>
    cases h
    exact .inr ((fault_of_readOpenTag (prefix_of_breakBefore? hcut) htag).behind hcut)
  | case9 depth s before atTag hcut _ _ tag afterTag htag _ ih =>
    exact (ih h).imp_right fun hfault => (hfault.of_suffix (suffix_of_readOpenTag htag).1).behind hcut
  | case10 depth s before atTag hcut _ _ tag afterTag htag _ ih =>
    exact (ih h).imp_right fun hfault => (hfault.of_suffix (suffix_of_readOpenTag htag).1).behind hcut

/-- An element at whose start the reader reports a missing end is not closed. -/
theorem not_closingText_of_skipElement {name : String} {start s : List Char}
    {refusal : Refusal (List Char)} (h : skipElement name start 0 s = .error refusal) :
    ∀ body more, s = body ++ more → ¬ ClosingText name 1 body := by
  rintro body more rfl ⟨pieces, hbody, hcloses⟩
  rw [skipElement_of_closes hbody hcloses more] at h
  cases h

/-- The text of an element is cut at its first `</`, so that an earlier `<` starts another tag. -/
theorem head?_ne_slash_of_breakBefore? {s raw atEnd before rest : List Char}
    (hcut : breakBefore? ['<', '/'] s = some (raw, atEnd)) (hraw : raw = before ++ '<' :: rest) :
    (rest ++ atEnd).head? ≠ some '/' := by
  intro hslash
  obtain ⟨t, ht⟩ := List.head?_eq_some_iff.1 hslash
  obtain ⟨hfirst, -⟩ := endsAtFirst_of_breakBefore? hcut
  have hs : before ++ ['<', '/'] ++ t = s := by
    rw [← append_of_breakBefore? hcut, hraw]
    simp [ht]
  have hraw' : raw ++ ['<', '/'] <+: s := by
    obtain ⟨r, hr⟩ := prefix_of_breakBefore? hcut
    exact ⟨r, by rw [← append_of_breakBefore? hcut, ← hr, List.append_assoc]⟩
  -- A slash there would make an earlier `</` than the first one.
  have hpre : before ++ ['<', '/'] <+: raw ++ ['<', '/'] := by
    refine List.prefix_of_prefix_length_le ⟨t, hs⟩ hraw' ?_
    simp only [hraw, List.length_append, List.length_cons]
    omega
  have hle := hfirst.first before hpre
  simp only [hraw, List.length_append, List.length_cons] at hle
  omega

/-- The contents of a text element are refused for a defect of their end tag, or for what stands in
that tag's place. -/
theorem fault_of_readContent {s pos : List Char} {defect : Defect}
    (h : readContent s = .error (.malformed pos defect)) :
    HasTagFault s pos defect ∨ ∃ before, s = before ++ pos ∧ ContentFault before pos defect := by
  unfold readContent at h
  split at h
  · next hcut =>
    cases h
    exact .inr ⟨[], rfl, .missingEnd (not_infix_of_breakBefore? hcut)⟩
  · next raw atEnd hcut =>
    have hs : s = raw ++ atEnd := (append_of_breakBefore? hcut).symm
    split at h
    · next before tail hnested =>
      cases h
      obtain ⟨rest, rfl⟩ := prefix_of_breakBefore? hnested
      have hraw : raw = before ++ '<' :: rest := (append_of_breakBefore? hnested).symm
      have hbefore : '<' ∉ before := notMem_of_endsAtFirst (endsAtFirst_of_breakBefore? hnested).1
      have hpos : s.drop before.length = '<' :: (rest ++ atEnd) := by
        rw [hs, hraw, List.append_assoc, List.drop_left]
        rfl
      -- The `<` found is not the one of the end tag, so it opens a nested element.
      have hslash := head?_ne_slash_of_breakBefore? hcut hraw
      refine .inr ⟨before, ?_, hpos ▸ .nested hbefore hslash⟩
      rw [hpos, hs, hraw, List.append_assoc]
      rfl
    · next hflat =>
      have hraw : '<' ∉ raw := breakBefore?_singleton_eq_none.1 hflat
      split at h
      · next refusal hend =>
        cases h
        exact .inl ((fault_of_readEndTag (prefix_of_breakBefore? hcut) hend).behind hcut)
      · next name rest hend =>
        split at h
        · cases h
        · next hname =>
          cases h
          obtain ⟨e, rfl, he⟩ := endTag_of_readEndTag (prefix_of_breakBefore? hcut) hend
          exact .inr ⟨raw, hs, .wrongEnd hraw he hname⟩

/-! ## Refusals without a place

The values of attributes are read when their tag has been read, and are refused as values. -/

/-- A reading that is not refused as malformed. -/
def NotMalformed {α : Type} (reading : Reading α) : Prop :=
  ∀ pos defect, reading ≠ .error (.malformed pos defect)

theorem NotMalformed.ok {α : Type} (a : α) : NotMalformed (.ok a) :=
  fun _ _ h => by cases h

/-- To do something with what was read makes nothing malformed. -/
theorem NotMalformed.map {α β : Type} {reading : Reading α} (f : α → β)
    (h : NotMalformed reading) : NotMalformed (reading.map f) := by
  intro pos defect hmap
  cases hreading : reading with
  | ok a =>
    rw [hreading] at hmap
    cases hmap
  | error refusal =>
    rw [hreading] at hmap
    cases hmap
    exact h _ _ hreading

/-- One reading after the other is not malformed if neither is. -/
theorem NotMalformed.bind {α β : Type} {reading : Reading α} {f : α → Reading β}
    (h : NotMalformed reading) (hf : ∀ a, NotMalformed (f a)) : NotMalformed (reading >>= f) := by
  intro pos defect hbind
  cases hreading : reading with
  | ok a =>
    rw [hreading] at hbind
    exact hf a _ _ hbind
  | error refusal =>
    rw [hreading] at hbind
    cases hbind
    exact h _ _ hreading

section Values

variable (a : Attribute) (element : Element)

/-- A value that does not fit is refused by its attribute and not by a place. -/
theorem notMalformed_invalid {α : Type} (expected : Expectation) :
    NotMalformed (α := α) (a.invalid element expected) :=
  fun _ _ h => by cases h

/-- The text of an attribute is missing at no place of its own. -/
theorem notMalformed_text : NotMalformed (a.text element) := by
  unfold Attribute.text
  split
  · exact .ok _
  · exact notMalformed_invalid a element _

/-- A number that can not be read is refused by its attribute. -/
theorem notMalformed_number : NotMalformed (a.number element) := by
  unfold Attribute.number
  split
  · exact .ok _
  · exact notMalformed_invalid a element _

/-- A size that is not above zero is refused by its attribute. -/
theorem notMalformed_positive : NotMalformed (a.positive element) := by
  unfold Attribute.positive
  split
  · split
    · exact .ok _
    · exact notMalformed_invalid a element _
  · exact notMalformed_invalid a element _

/-- A color that can not be read is refused by its attribute. -/
theorem notMalformed_color : NotMalformed (a.color element) := by
  unfold Attribute.color
  split
  · split
    · exact .ok _
    · exact notMalformed_invalid a element _
  · exact notMalformed_invalid a element _

/-- A direction that is none is refused by its attribute. -/
theorem notMalformed_axis : NotMalformed (a.axis element) := by
  unfold Attribute.axis
  split
  any_goals exact .ok _
  · exact notMalformed_invalid a element _
  · next refusal htext =>
    rintro pos defect h
    cases h
    exact notMalformed_text a element pos defect htext

/-- Settings of a frame are refused by their attributes, whatever they are. -/
theorem notMalformed_frameKey_read (key : FrameKey) : NotMalformed (key.read a) := by
  cases key with
  | name => exact (notMalformed_text a .frame).map _
  | width => exact (notMalformed_positive a .frame).map _
  | height => exact (notMalformed_positive a .frame).map _
  | fill => exact (notMalformed_color a .frame).map _
  | axis => exact (notMalformed_axis a .frame).map _
  | _ => exact (notMalformed_number a .frame).map _

/-- Settings of a leaf are refused by their attributes, whatever they are. -/
theorem notMalformed_leafKey_read (key : LeafKey) : NotMalformed (key.read a) := by
  cases key with
  | size => exact (notMalformed_positive a .text).map _
  | color => exact (notMalformed_color a .text).map _
  | _ => exact .ok _

end Values

/-- A reader of attributes refuses no more than the reader of one value does. Induction on the
attributes. -/
theorem notMalformed_readSettings {κ σ : Type} (ofName? : String → Option κ)
    {readKey : Attribute → κ → Reading σ} {read : List Attribute → Reading (List σ)}
    (hkey : ∀ a key, NotMalformed (readKey a key)) (hnil : read [] = .ok [])
    (hcons : ∀ a rest, read (a :: rest) =
      match ofName? a.name with
      | none => read rest
      | some key => do
        let setting ← readKey a key
        let settings ← read rest
        return setting :: settings)
    (attributes : List Attribute) : NotMalformed (read attributes) := by
  induction attributes with
  | nil =>
    rw [hnil]
    exact .ok _
  | cons a rest ih =>
    rw [hcons]
    split
    · exact ih
    · exact (hkey a _).bind fun _ => ih.bind fun _ => .ok _

/-- No attributes make a frame malformed: each has been read already. -/
theorem notMalformed_frame_ofAttributes (attributes : List Attribute) :
    NotMalformed (Frame.ofAttributes attributes) := by
  refine NotMalformed.map _
    (notMalformed_readSettings FrameKey.ofName? notMalformed_frameKey_read rfl ?_ attributes)
  intro a rest
  rw [FrameSetting.ofAttributes]
  cases FrameKey.ofName? a.name <;> rfl

/-- No attributes make a leaf malformed: each has been read already. -/
theorem notMalformed_leaf_ofAttributes (attributes : List Attribute) (content : String) :
    NotMalformed (Leaf.ofAttributes attributes content) := by
  refine NotMalformed.map _
    (notMalformed_readSettings LeafKey.ofName? notMalformed_leafKey_read rfl ?_ attributes)
  intro a rest
  rw [LeafSetting.ofAttributes]
  cases LeafKey.ofName? a.name <;> rfl

/-! ## Defects of children and documents -/

/-- A text element is refused as malformed only for its contents, and so only if it has any. -/
theorem fault_of_readLeaf {tag : Tag} {s pos : List Char} {defect : Defect}
    (h : readLeaf tag s = .error (.malformed pos defect)) :
    tag.selfClosing = false ∧
      (HasTagFault s pos defect ∨ ∃ before, s = before ++ pos ∧ ContentFault before pos defect) := by
  unfold readLeaf at h
  split at h
  · next refusal hcontent =>
    cases h
    split at hcontent
    · cases hcontent
    · next hself => exact ⟨by simpa using hself, fault_of_readContent hcontent⟩
  · exact absurd h ((notMalformed_leaf_ofAttributes _ _).map _ pos defect)

/-- The text has a defect of the frame's children where `rest` starts in it. -/
def HasElementFault (s rest : List Char) (defect : Defect) : Prop :=
  ∃ before, s = before ++ rest ∧ ElementFault before rest defect

theorem HasTagFault.inElement {s rest : List Char} {defect : Defect}
    (h : HasTagFault s rest defect) : HasElementFault s rest defect := by
  obtain ⟨before, hs, hfault⟩ := h
  exact ⟨before, hs, .tag hfault⟩

theorem HasElementFault.append_left {p s rest : List Char} {leaves : List Leaf} {defect : Defect}
    (hp : Children p leaves) (h : HasElementFault s rest defect) :
    HasElementFault (p ++ s) rest defect := by
  obtain ⟨before, rfl, hfault⟩ := h
  exact ⟨p ++ before, (List.append_assoc p before rest).symm, hfault.append_left hp⟩

/-- **The reader of children fails at a defect**: it stops there, behind the children that it has
passed over. -/
theorem fault_of_readChildren {s pos : List Char} {defect : Defect}
    (h : readChildren s = .error (.malformed pos defect)) : HasElementFault s pos defect := by
  obtain ⟨t, rest, leaves, stop, rfl, ht, hstop, hread⟩ := readsChildren_readChildren s
  rw [h, eq_comm, map_eq_error] at hread
  subst hread
  -- What has been read are children, so the fault is where the reading stopped.
  refine HasElementFault.append_left ht ?_
  cases hstop with
  | trivia htrivia => exact (fault_of_skipTrivia htrivia).inElement
  | nil => exact ⟨[], rfl, .missingFrameEnd .nil⟩
  | @noEndTag t _ hend => exact (fault_of_readEndTag ⟨t, rfl⟩ hend).inElement
  | wrongEndTag he hname => exact ⟨[], rfl, .wrongEnd .nil he hname⟩
  | @noOpenTag t _ htag => exact (fault_of_readOpenTag ⟨t, rfl⟩ htag).inElement
  | @leaf opening s tag _ htag hname hleaf =>
    obtain ⟨hself, hfault | ⟨before, rfl, hfault⟩⟩ := fault_of_readLeaf hleaf
    · exact (hfault.of_suffix (List.suffix_append _ _)).inElement
    · exact ⟨opening ++ before, by simp, .text .nil htag hname hself hfault⟩
  | @element opening s tag _ htag hname hself hskip =>
    rcases fault_of_skipElement hskip with ⟨rfl, rfl⟩ | hfault
    · have hopen := not_closingText_of_skipElement hskip
      exact ⟨opening, rfl, .missingEnd .nil htag hname hself hopen⟩
    · exact (hfault.of_suffix (List.suffix_append _ _)).inElement

/-- A defect of a document where `rest` starts in it. -/
def HasFault (s rest : List Char) (defect : Defect) : Prop :=
  ∃ before, s = before ++ rest ∧ Fault before rest defect

theorem HasTagFault.inDocument {s rest : List Char} {defect : Defect}
    (h : HasTagFault s rest defect) : HasFault s rest defect := by
  obtain ⟨before, hs, hfault⟩ := h
  exact ⟨before, hs, .tag hfault⟩

/-- A frame is refused where it has its defect, with the trivia in front of it. -/
theorem fault_of_readFrame {w s pos : List Char} {defect : Defect} (hw : Trivia w)
    (h : readFrame s = .error (.malformed pos defect)) : HasFault (w ++ s) pos defect := by
  unfold readFrame at h
  split at h
  · next hstart =>
    obtain ⟨c, r, rfl, hc⟩ := startsElement_iff.1 hstart
    split at h
    · next refusal htag =>
      cases h
      have hfault := fault_of_readOpenTag ⟨c :: r, rfl⟩ htag
      exact (hfault.of_suffix (List.suffix_append _ _)).inDocument
    · next tag afterTag htag =>
      obtain ⟨opening, hopening, hisTag⟩ := openTag_of_readOpenTag ⟨c :: r, rfl⟩ htag
      split at h
      · next hname =>
        split at h
        · next refusal hattributes =>
          cases h
          exact absurd hattributes (notMalformed_frame_ofAttributes _ pos defect)
        · split at h
          · cases h
          · next hself =>
            obtain ⟨before, rfl, hfault⟩ := fault_of_readChildren (map_eq_error.1 h)
            refine ⟨w ++ (opening ++ before), ?_,
              .element hw hisTag hname (by simpa using hself) hfault⟩
            rw [show '<' :: c :: r = _ from hopening]
            simp only [List.append_assoc]
      · cases h
  · cases h

/-- A document is refused where it has its defect. -/
theorem fault_of_readDocument {s pos : List Char} {defect : Defect}
    (h : readDocument s = .error (.malformed pos defect)) : HasFault s pos defect := by
  unfold readDocument at h
  split at h
  · next refusal htrivia =>
    cases h
    exact (fault_of_skipTrivia htrivia).inDocument
  · next atRoot hbefore =>
    obtain ⟨w, rfl, hw, -⟩ := trivia_of_skipTrivia hbefore
    split at h
    · next refusal hframe =>
      cases h
      exact fault_of_readFrame hw hframe
    · next frame afterFrame hframe =>
      obtain ⟨root, rfl, hroot⟩ := root_of_readFrame hframe
      split at h
      · next refusal hafter =>
        cases h
        have hfault := (fault_of_skipTrivia hafter).of_suffix (List.suffix_append root _)
        exact (hfault.of_suffix (List.suffix_append w _)).inDocument
      · cases h
      · next rest hrest hafter =>
        cases h
        obtain ⟨after, rfl, hisAfter, hstops⟩ := trivia_of_skipTrivia hafter
        refine ⟨w ++ (root ++ after), by simp, .trailing (.mk hw hroot hisAfter) ?_ hstops⟩
        rintro rfl
        exact hrest rfl

/-! ## Offsets -/

/-- An offset is the number of bytes in front of it. -/
theorem offsetOf_append (before rest : List Char) :
    offsetOf (before ++ rest) rest = (String.ofList before).utf8ByteSize := by
  rw [offsetOf, utf8Length_eq_utf8Len, utf8Length_eq_utf8Len, String.utf8Len_append,
    Nat.add_sub_cancel, String.utf8ByteSize_ofList]

/-- **Malformed markup is refused where the fault is.** The offset is a byte position between two
characters of the markup, or its end, and the text in front of it and behind it has the defect that
is reported. -/
theorem malformed_points_at_fault {markup : String} {offset : Nat} {defect : Defect}
    (h : Frame.parse markup = .error (.malformed offset defect)) :
    offset ≤ markup.utf8ByteSize ∧ String.Pos.Raw.IsValid markup ⟨offset⟩ ∧
      ∃ before rest : String, markup = before ++ rest ∧ before.utf8ByteSize = offset ∧
        Fault before.toList rest.toList defect := by
  unfold Frame.parse at h
  split at h
  · cases h
  · next refusal hread =>
    cases refusal with
    | missingRoot found => cases h
    | invalidValue element attr value expected => cases h
    | malformed pos found =>
      cases h
      obtain ⟨before, hs, hfault⟩ := fault_of_readDocument hread
      have hmarkup : markup = String.ofList before ++ String.ofList pos := by
        rw [← String.ofList_append, ← hs, String.ofList_toList]
      -- The fault is told as what is left from it on, and the offset counts the bytes before that.
      have hoffset : (String.ofList before).utf8ByteSize = offsetOf markup.toList pos := by
        rw [hs, offsetOf_append]
      refine ⟨?_, ?_, String.ofList before, String.ofList pos, hmarkup, hoffset, ?_⟩
      · rw [← hoffset, hmarkup, String.utf8ByteSize_append]
        exact Nat.le_add_right _ _
      · rw [String.Pos.Raw.isValid_iff_exists_append]
        refine ⟨_, _, hmarkup, ?_⟩
        rw [← hoffset]
        rfl
      · simpa only [String.toList_ofList] using hfault

/-- Characters of two bytes stand in front of the element inside a text. -/
theorem nested_element_behind_umlaut :
    Frame.parse "<Frame><Text>é</Text><Text>ü<b/></Text></Frame>" =
        .error (.malformed 30 .nestedElement) ∧
      30 ≤ "<Frame><Text>é</Text><Text>ü<b/></Text></Frame>".utf8ByteSize ∧
      String.Pos.Raw.IsValid "<Frame><Text>é</Text><Text>ü<b/></Text></Frame>" ⟨30⟩ ∧
      ∃ before rest : String, "<Frame><Text>é</Text><Text>ü<b/></Text></Frame>" = before ++ rest ∧
        before.utf8ByteSize = 30 ∧ Fault before.toList rest.toList .nestedElement := by
  have hparse : Frame.parse "<Frame><Text>é</Text><Text>ü<b/></Text></Frame>" =
      .error (.malformed 30 .nestedElement) := by
    have hrefusal : (match Frame.parse "<Frame><Text>é</Text><Text>ü<b/></Text></Frame>" with
        | .ok _ => none
        | .error refusal => some refusal) = some (.malformed 30 .nestedElement) := by
      decide +kernel
    split at hrefusal
    · cases hrefusal
    · next refusal hread => rw [hread, Option.some.inj hrefusal]
  exact ⟨hparse, malformed_points_at_fault hparse⟩

end CanvasLink.Markup
