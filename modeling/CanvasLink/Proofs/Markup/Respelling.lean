import CanvasLink.Proofs.Markup.Printing

/-!
# CanvasLink — values that may be written in several ways

A text can stand between quotes, or between quotes inside braces. The readers of the two have
nothing in common: one looks for the quote, the other for the brace and takes the quotes away
afterwards.

* `Quoting` — the ways to write a text.
* `ValuePlace` — what stands in front of a value, in any tag of a document.
* `Agree` — readings that succeed alike. Refusals may differ: they hold the input that is left.
* `ValuePlace.agree` — a document depends on how a value is written through the value alone.
* **`parse_requoted`** — the headline. It leaves out a closing brace inside of braces, which ends
  the value wherever it stands (`brace_in_quotes`).
-/

namespace CanvasLink.Markup

open CanvasLink.Text

/-! ## Quotings -/

/-- The ways to write a text `s`, in braces or not. Inside of braces there may be blanks around the
quotes. -/
inductive Quoting (s : List Char) : Bool → List Char → Prop
  | bare {quote} : quote ∈ ['"', '\''] → Quoting s false (quote :: (s ++ [quote]))
  | braced {quote u w} : quote ∈ quotes → Blanks u → Blanks w →
      Quoting s true ('\x7b' :: (u ++ (quote :: (s ++ [quote]) ++ w) ++ ['\x7d']))

/-- None of the three quotes stands in the text. -/
def Quoteless (s : List Char) : Prop :=
  ∀ quote ∈ quotes, quote ∉ s

/-- A quote is neither a closing brace nor blank. -/
theorem quotes_facts {quote : Char} (h : quote ∈ quotes) :
    quote ≠ '\x7d' ∧ isBlank quote = false := by
  simp only [quotes, List.mem_cons, List.not_mem_nil, or_false] at h
  obtain rfl | rfl | rfl := h
  all_goals decide

theorem isBlank_brace : isBlank '\x7d' = false := by decide

/-- **All quotings of a text write the same value**, unless it has a closing brace and stands in
braces. -/
theorem Quoting.spelling {s v : List Char} {braced : Bool} (h : Quoting s braced v)
    (hs : Quoteless s) (hbrace : braced = true → '\x7d' ∉ s) :
    Spelling v (.literal (String.ofList (decodeEntities s))) := by
  cases h with
  | bare hquote =>
    refine .quoted hquote (hs _ ?_)
    revert hquote
    simp only [quotes, List.mem_cons, List.not_mem_nil, or_false]
    tauto
  | @braced quote w₁ w₂ hquote hw₁ hw₂ =>
    obtain ⟨hne, hblank⟩ := quotes_facts hquote
    -- The quotes are no blanks, so trimming stops at them.
    have htrim : Trimmed (w₁ ++ (quote :: (s ++ [quote]) ++ w₂)) (quote :: (s ++ [quote])) := by
      refine ⟨w₁, w₂, rfl, hw₁, hw₂, ?_, ?_⟩
      · simpa using hblank
      · rw [← List.cons_append, List.getLast?_concat]
        simpa using hblank
    -- The only closing brace is the delimiter's own.
    have hnot : '\x7d' ∉ w₁ ++ (quote :: (s ++ [quote]) ++ w₂) := by
      have hleft := hw₁.notMem isBlank_brace
      have hright := hw₂.notMem isBlank_brace
      simp [hleft, hright, hbrace rfl, Ne.symm hne]
    exact .braced hnot htrim (.quoted hquote)

/-! ## Agreement -/

/-- The readings succeed alike. -/
def Agree {α : Type} (x y : Reading α) : Prop :=
  ∀ a, x = .ok a ↔ y = .ok a

namespace Agree

variable {α β : Type} {x y : Reading α}

theorem refl (x : Reading α) : Agree x x := fun _ => .rfl

/-- Readings that agree do so whatever is done with what they give. -/
theorem map (h : Agree x y) (f : α → β) : Agree (x.map f) (y.map f) := by
  intro b
  rw [map_eq_ok, map_eq_ok]
  simp only [h _]

theorem error (refusal other : Refusal (List Char)) :
    Agree (.error refusal : Reading α) (.error other) := by
  simp [Agree]

/-- Readings that agree are both accepted, with the same outcome, or both refused. -/
theorem cases (h : Agree x y) :
    (∃ a, x = .ok a ∧ y = .ok a) ∨ ∃ refusal other, x = .error refusal ∧ y = .error other := by
  cases x with
  | ok a => exact .inl ⟨a, rfl, (h a).1 rfl⟩
  | error refusal =>
    cases y with
    | ok b => exact absurd ((h b).2 rfl) (by simp)
    | error other => exact .inr ⟨refusal, other, rfl, rfl⟩

end Agree

/-! ## In a tag -/

/-- What stands between the name of a tag and one of its values: other attributes, then a name and
an equals sign. -/
inductive UpToValue : List Char → Prop
  | here {w n w₁ w₂} : Blanks w → Name n → Blanks w₁ → Blanks w₂ →
      UpToValue (w ++ (n ++ (w₁ ++ '=' :: w₂)))
  | flag {w n s} : Blanks w → Name n → StopsName s → UpToValue s → UpToValue (w ++ (n ++ s))
  | valued {w n w₁ w₂ v value s} : Blanks w → Name n → Blanks w₁ → Blanks w₂ → Spelling v value →
      UpToValue s → UpToValue (w ++ (n ++ (w₁ ++ '=' :: (w₂ ++ (v ++ s)))))

/-- In front of a value there is the name of an attribute, behind blank characters at most. -/
theorem UpToValue.name {p : List Char} (h : UpToValue p) :
    ∃ w n s, p = w ++ (n ++ s) ∧ Blanks w ∧ Name n := by
  cases h with
  | here hw hn | flag hw hn | valued hw hn => exact ⟨_, _, _, rfl, hw, hn⟩

/-- What stands in front of a value does not begin with an equals sign. -/
theorem UpToValue.head?_ne_equals {p : List Char} (h : UpToValue p) (s : List Char) :
    ∀ c ∈ (skipBlanks (p ++ s)).head?, c ≠ '=' := by
  obtain ⟨w, n, t, rfl, hw, hn⟩ := h.name
  rw [List.append_assoc, List.append_assoc, head_skipBlanks_of_name hw hn]
  obtain ⟨d, n, rfl, hd, -⟩ := hn
  intro c hc
  cases hc
  rintro rfl
  exact absurd hd (by decide)

/-- A name in front of such a text ends where it did, whatever the value is. -/
theorem UpToValue.stopsName {p : List Char} (h : UpToValue p) (hstops : StopsName p)
    (s : List Char) : StopsName (p ++ s) := by
  obtain ⟨w, n, t, rfl, -, c, n, rfl, -⟩ := h.name
  cases w with
  | nil => exact hstops
  | cons d w => exact hstops

/-- **The attributes up to a value are read alike, and so is the value.** Induction on what stands
in front of it; the input need only agree with that behind its blanks, because a name that stands
alone takes the blanks behind it along. -/
theorem readAttributes_upToValue {p : List Char} (h : UpToValue p) :
    ∃ attributes attr, ∀ name start v value rest s, Spelling v value →
      skipBlanks s = skipBlanks (p ++ (v ++ rest)) →
      readAttributes name start s =
        (readAttributes name start rest).map fun (others, selfClosing, rest) =>
          (attributes ++ ⟨attr, value⟩ :: others, selfClosing, rest) := by
  -- The attributes before the place are read as they are; the value there is the only thing left
  -- open.
  induction h with
  | @here w n w₁ w₂ hw hn hw₁ hw₂ =>
    refine ⟨[], String.ofList n, fun name start v value rest s hv hs => ?_⟩
    have hname : takeName? (skipBlanks s) =
        some (String.ofList n, w₁ ++ '=' :: (w₂ ++ (v ++ rest))) :=
      takeName?_assigned hw hn hw₁ (by simpa using hs)
    exact readAttributes_cons hname (readAssignment_valued _ hw₁ hw₂ hv rest)
  | @flag w n p hw hn hstops hp ih =>
    obtain ⟨attributes, attr, hread⟩ := ih
    refine ⟨⟨String.ofList n, .flag⟩ :: attributes, attr, fun name start v value rest s hv hs => ?_⟩
    have hname : takeName? (skipBlanks s) = some (String.ofList n, p ++ (v ++ rest)) := by
      rw [hs]
      simp only [List.append_assoc]
      rw [head_skipBlanks_of_name hw hn]
      exact takeName?_append hn (hp.stopsName hstops _)
    rw [readAttributes_cons hname (readAssignment_flag _ (hp.head?_ne_equals _)),
      hread name start v value rest _ hv (skipBlanks_idem _)]
    cases readAttributes name start rest <;> rfl
  | @valued w n w₁ w₂ v' value' p hw hn hw₁ hw₂ hv' hp ih =>
    obtain ⟨attributes, attr, hread⟩ := ih
    refine ⟨⟨String.ofList n, value'⟩ :: attributes, attr,
      fun name start v value rest s hv hs => ?_⟩
    have hname : takeName? (skipBlanks s) =
        some (String.ofList n, w₁ ++ '=' :: (w₂ ++ (v' ++ (p ++ (v ++ rest))))) :=
      takeName?_assigned hw hn hw₁ (by simpa using hs)
    rw [readAttributes_cons hname (readAssignment_valued _ hw₁ hw₂ hv' _),
      hread name start v value rest _ hv rfl]
    cases readAttributes name start rest <;> rfl

/-- Where the tag starts matters for refusals only. -/
theorem agree_readAttributes (name : String) (start start' s : List Char) :
    Agree (readAttributes name start s) (readAttributes name start' s) := by
  have imp {start start' : List Char} (result : List Attribute × Bool × List Char)
      (h : readAttributes name start s = .ok result) :
      readAttributes name start' s = .ok result := by
    obtain ⟨attributes, selfClosing, rest⟩ := result
    obtain ⟨text, rfl, hlist⟩ := attributeList_of_readAttributes h
    exact readAttributes_of_attributeList name start' hlist selfClosing rest _ rfl
  exact fun result => ⟨imp result, imp result⟩

/-- **A tag depends on how a value is written through the value alone.** -/
theorem agree_readOpenTag {n p v v' : List Char} {value : AttributeValue} (hn : Name n)
    (hstops : StopsName p) (hp : UpToValue p) (hv : Spelling v value) (hv' : Spelling v' value)
    (rest : List Char) :
    Agree (readOpenTag ('<' :: (n ++ (p ++ (v ++ rest)))))
      (readOpenTag ('<' :: (n ++ (p ++ (v' ++ rest))))) := by
  obtain ⟨attributes, attr, hread⟩ := readAttributes_upToValue hp
  have hname (x : List Char) : takeName? (('<' :: (n ++ (p ++ x))).drop 1) =
      some (String.ofList n, p ++ x) :=
    takeName?_append hn (hp.stopsName hstops x)
  have hopen {v : List Char} (hv : Spelling v value) :
      readOpenTag ('<' :: (n ++ (p ++ (v ++ rest)))) =
        (readAttributes (String.ofList n) ('<' :: (n ++ (p ++ (v ++ rest)))) rest).map
          fun (others, selfClosing, rest) =>
            (⟨String.ofList n, attributes ++ ⟨attr, value⟩ :: others, selfClosing⟩, rest) := by
    rw [readOpenTag, hname]
    simp only [hread _ _ v value rest _ hv rfl]
    cases readAttributes (String.ofList n) ('<' :: (n ++ (p ++ (v ++ rest)))) rest <;> rfl
  -- The reader keeps the start of the tag for its refusals, and there the two differ.
  rw [hopen hv, hopen hv']
  exact (agree_readAttributes _ _ _ rest).map _

/-! ## In a document -/

/-- With `depth + 1` elements of a name open in front of them, neither the pieces nor a shorter
stretch of them closes the last one. -/
def Open (name : String) (depth : Nat) (pieces : List Piece) : Prop :=
  ∀ shorter, shorter <+: pieces → closings name shorter ≠ depth + 1

/-- What stands in front of a tag: trivia for the tag of the frame, the children before it for the
tag of a child, and for a tag inside an element that is passed over what stands in it before. -/
inductive TagPlace : List Char → Prop
  | root {w} : Trivia w → TagPlace w
  | child {w t tag s leaves} : Trivia w → OpenTag t tag → tag.name = "Frame" →
      tag.selfClosing = false → Children s leaves → TagPlace (w ++ (t ++ s))
  | inside {w t tag s leaves u outer pieces body} : Trivia w → OpenTag t tag → tag.name = "Frame" →
      tag.selfClosing = false → Children s leaves → OpenTag u outer → outer.name ≠ "Text" →
      outer.selfClosing = false → Stretch pieces body → Open outer.name 0 pieces →
      TagPlace (w ++ (t ++ (s ++ (u ++ body))))

/-- What stands in front of a value. -/
inductive ValuePlace : List Char → Prop
  | mk {before n p} : TagPlace before → Name n → StopsName p → UpToValue p →
      ValuePlace (before ++ '<' :: (n ++ p))

/-- Where the element starts matters for refusals only. -/
theorem agree_skipElement_start (name : String) (start start' : List Char) (depth : Nat)
    (s : List Char) : Agree (skipElement name start depth s) (skipElement name start' depth s) := by
  have imp {start start' : List Char} (rest : List Char)
      (h : skipElement name start depth s = .ok rest) :
      skipElement name start' depth s = .ok rest := by
    obtain ⟨body, rfl, pieces, hbody, hcloses⟩ := closes_of_skipElement h
    exact skipElement_of_closes hbody hcloses rest
  exact fun rest => ⟨imp rest, imp rest⟩

/-- **What stands open is passed over**, whatever follows. Induction on the pieces. -/
theorem skipElement_append_open {name : String} {pieces : List Piece} {body : List Char}
    (hbody : Stretch pieces body) {depth : Nat} (hopen : Open name depth pieces) :
    ∃ depth', ∀ start s,
      skipElement name start depth (body ++ s) = skipElement name start depth' s := by
  induction hbody generalizing depth with
  | nil => exact ⟨depth, fun _ _ => rfl⟩
  | @cons piece pieces t body hpiece _ ih =>
    have hle := closing_le name piece
    -- The first end tag of the name would close the element.
    have hnotLast : piece.closing name ≠ depth + 1 := by
      have hfirst := hopen [piece] (by simp)
      rwa [closings_cons, closings, List.foldr_nil, Int.add_zero] at hfirst
    -- What the first piece leaves open is what stands open in front of the others.
    have hrest : Open name (depth - piece.closing name).toNat pieces := by
      intro shorter hpre hshort
      refine hopen (piece :: shorter) (List.cons_prefix_cons.2 ⟨rfl, hpre⟩) ?_
      rw [closings_cons]
      omega
    obtain ⟨depth', hread⟩ := ih hrest
    refine ⟨depth', fun start s => ?_⟩
    rw [List.append_assoc, skipElement_append_piece hpiece, if_neg hnotLast, hread]

section Tags

variable {c d : Char} {s t : List Char} (hc : isNameStart c = true) (hd : isNameStart d = true)
  (h : Agree (readOpenTag ('<' :: c :: s)) (readOpenTag ('<' :: d :: t)))

include hc hd h

/-- Two tags that agree are passed over alike inside an element. -/
theorem agree_skipElement (name : String) (start start' : List Char) (depth : Nat) :
    Agree (skipElement name start depth ('<' :: c :: s))
      (skipElement name start' depth ('<' :: d :: t)) := by
  rw [skipElement_cons_lt hc, skipElement_cons_lt hd]
  obtain ⟨⟨tag, afterTag⟩, hs, ht⟩ | ⟨refusal, other, hs, ht⟩ := h.cases
  · rw [hs, ht]
    exact agree_skipElement_start name start start' _ afterTag
  · rw [hs, ht]
    exact .error refusal other

/-- Two tags that agree are read alike as children. -/
theorem agree_readChildren :
    Agree (readChildren ('<' :: c :: s)) (readChildren ('<' :: d :: t)) := by
  rw [readChildren_cons_lt hc, readChildren_cons_lt hd]
  obtain ⟨result, hs, ht⟩ | ⟨refusal, other, hs, ht⟩ := h.cases
  · rw [hs, ht]
    exact .refl _
  · rw [hs, ht]
    exact .error refusal other

/-- Two tags that agree are read alike as the frame's. -/
theorem agree_readFrame : Agree (readFrame ('<' :: c :: s)) (readFrame ('<' :: d :: t)) := by
  have hstarts : startsElement ('<' :: c :: s) = true := hc
  have hstarts' : startsElement ('<' :: d :: t) = true := hd
  rw [readFrame, readFrame, if_pos hstarts, if_pos hstarts']
  obtain ⟨result, hs, ht⟩ | ⟨refusal, other, hs, ht⟩ := h.cases
  · rw [hs, ht]
    exact .refl _
  · rw [hs, ht]
    exact .error refusal other

end Tags

/-- The children of a frame count for it, and nothing else does behind its tag. -/
theorem agree_readFrame_of_readChildren {t s s' : List Char} {tag : Tag} (ht : OpenTag t tag)
    (hself : tag.selfClosing = false) (h : Agree (readChildren s) (readChildren s')) :
    Agree (readFrame (t ++ s)) (readFrame (t ++ s')) := by
  rw [readFrame, readFrame, if_pos (startsElement_append ht s), if_pos (startsElement_append ht s'),
    readOpenTag_append ht, readOpenTag_append ht]
  simp only [hself]
  split
  · cases Frame.ofAttributes tag.attributes with
    | error refusal => exact .refl _
    | ok frame => exact h.map _
  · exact .refl _

/-- Children that differ inside an element that is passed over are read alike. -/
theorem agree_readChildren_of_skipElement {t s s' : List Char} {tag : Tag} (ht : OpenTag t tag)
    (hname : tag.name ≠ "Text") (hself : tag.selfClosing = false)
    (h : Agree (skipElement tag.name s 0 s) (skipElement tag.name s' 0 s')) :
    Agree (readChildren (t ++ s)) (readChildren (t ++ s')) := by
  rw [readChildren_append_openTag ht, readChildren_append_openTag ht, if_neg hname, if_neg hname,
    if_neg (by simp [hself]), if_neg (by simp [hself])]
  obtain ⟨rest, hs, hs'⟩ | ⟨refusal, other, hs, hs'⟩ := h.cases
  · rw [hs, hs']
    exact .refl _
  · rw [hs, hs']
    exact .error refusal other

/-- Documents that differ in the frame are read alike if their frames are. -/
theorem agree_readDocument {w s s' : List Char} (hw : Trivia w) (hs : StopsTrivia s)
    (hs' : StopsTrivia s') (h : Agree (readFrame s) (readFrame s')) :
    Agree (readDocument (w ++ s)) (readDocument (w ++ s')) := by
  rw [readDocument, readDocument, skipTrivia_append hw, skipTrivia_append hw,
    skipTrivia_of_stops hs, skipTrivia_of_stops hs']
  obtain ⟨result, hread, hread'⟩ | ⟨refusal, other, hread, hread'⟩ := h.cases
  · simp only [hread, hread']
    exact .refl _
  · simp only [hread, hread']
    exact .error refusal other

/-- **A document depends on a tag through what is read of the tag alone**, wherever the tag
stands. -/
theorem TagPlace.agree {before : List Char} (hplace : TagPlace before) {c d : Char}
    {s t : List Char} (hc : isNameStart c = true) (hd : isNameStart d = true)
    (h : Agree (readOpenTag ('<' :: c :: s)) (readOpenTag ('<' :: d :: t))) :
    Agree (readDocument (before ++ '<' :: c :: s)) (readDocument (before ++ '<' :: d :: t)) := by
  cases hplace with
  | root hw =>
    exact agree_readDocument hw (stopsTrivia_cons hc s) (stopsTrivia_cons hd t)
      (agree_readFrame hc hd h)
  | @child w u tag body leaves hw hu hname hself hbody =>
    have hchildren : Agree (readChildren (body ++ '<' :: c :: s))
        (readChildren (body ++ '<' :: d :: t)) := by
      rw [readChildren_append hbody, readChildren_append hbody]
      exact (agree_readChildren hc hd h).map _
    simp only [List.append_assoc]
    exact agree_readDocument hw (hu.stopsTrivia _) (hu.stopsTrivia _)
      (agree_readFrame_of_readChildren hu hself hchildren)
  | @inside w u tag body leaves e outer pieces inner hw hu hname hself hbody he houter houterSelf
      hinner hopen =>
    -- The element being passed is not closed before the tag, whatever the depth it stands at.
    obtain ⟨depth, hskip⟩ := skipElement_append_open hinner hopen
    have hpassed : Agree
        (skipElement outer.name (inner ++ '<' :: c :: s) 0 (inner ++ '<' :: c :: s))
        (skipElement outer.name (inner ++ '<' :: d :: t) 0 (inner ++ '<' :: d :: t)) := by
      rw [hskip, hskip]
      exact agree_skipElement hc hd h outer.name _ _ depth
    have hchildren : Agree (readChildren (body ++ (e ++ (inner ++ '<' :: c :: s))))
        (readChildren (body ++ (e ++ (inner ++ '<' :: d :: t)))) := by
      rw [readChildren_append hbody, readChildren_append hbody]
      exact (agree_readChildren_of_skipElement he houter houterSelf hpassed).map _
    simp only [List.append_assoc]
    exact agree_readDocument hw (hu.stopsTrivia _) (hu.stopsTrivia _)
      (agree_readFrame_of_readChildren hu hself hchildren)

/-- **A document depends on how a value is written through the value alone.** -/
theorem ValuePlace.agree {before v v' : List Char} {value : AttributeValue}
    (hplace : ValuePlace before) (hv : Spelling v value) (hv' : Spelling v' value)
    (after : List Char) :
    Agree (readDocument (before ++ (v ++ after))) (readDocument (before ++ (v' ++ after))) := by
  obtain ⟨htag, hn, hstops, hp⟩ := hplace
  rename_i before n p
  have hread := agree_readOpenTag hn hstops hp hv hv' after
  obtain ⟨c, n, rfl, hc, -⟩ := hn
  simp only [List.append_assoc, List.cons_append] at hread ⊢
  exact htag.agree hc hc hread

/-! ## The headline -/

/-- A brace inside of the quotes ends the value, and what stands in front of it is no text in
quotes any more. -/
theorem Quoting.readValue_of_brace {s v a b : List Char} (h : Quoting s true v) (hs : Quoteless s)
    (hsplit : s = a ++ '\x7d' :: b) (ha : '\x7d' ∉ a) (attr : String) (after : List Char) :
    ∃ quote ∈ quotes, ∃ rest, readValue attr (v ++ after) =
      .ok (.expression (String.ofList (trim (quote :: a))), rest) := by
  cases h with
  | @braced quote w₁ w₂ hquote hw₁ hw₂ =>
  obtain ⟨hne, hblank⟩ := quotes_facts hquote
  obtain ⟨left, right, hwhole, hleft, hright, hends⟩ := trimmed_iff.2 (rfl : trim (quote :: a) = _)
  have htrim : Trimmed (w₁ ++ quote :: a) (trim (quote :: a)) := by
    refine ⟨w₁ ++ left, right, ?_, hw₁.append hleft, hright, hends⟩
    rw [List.append_assoc, ← hwhole]
  have hbare : ∀ other ∈ quotes, ∀ inner, trim (quote :: a) ≠ other :: (inner ++ [other]) := by
    intro other hother inner heq
    -- Behind the first quote there is no other one.
    have hnil : left = [] := by
      cases left with
      | nil => rfl
      | cons c left =>
        obtain ⟨rfl, -⟩ := List.cons.inj hwhole
        rw [hleft quote List.mem_cons_self] at hblank
        cases hblank
    rw [hnil, heq, List.nil_append, List.cons_append] at hwhole
    obtain ⟨rfl, rfl⟩ := List.cons.inj hwhole
    exact hs quote hquote (by simp [hsplit])
  have hnot : '\x7d' ∉ w₁ ++ quote :: a := by
    have hleft := hw₁.notMem isBlank_brace
    simp [hleft, ha, Ne.symm hne]
  have hvalue := readValue_append attr (.braced hnot htrim (.bare hbare))
    (b ++ quote :: (w₂ ++ '\x7d' :: after))
  refine ⟨quote, hquote, b ++ quote :: (w₂ ++ '\x7d' :: after), ?_⟩
  rw [← hvalue, hsplit]
  simp

/-- **Quotings are interchangeable.** Behind any text with a value still to come, all quotings of a
text without quotes lead to the same frames, but those in braces only if no brace closes inside of
the text. There the value ends at the first such brace, and it is read with its opening quote as a
bare token. -/
theorem parse_requoted {before s v v' : String} {braced braced' : Bool} (after : String)
    (hplace : ValuePlace before.toList) (hs : Quoteless s.toList)
    (hv : Quoting s.toList braced v.toList) (hv' : Quoting s.toList braced' v'.toList) :
    ((braced = true ∨ braced' = true → '\x7d' ∉ s.toList) → ∀ frame,
      Frame.parse (before ++ v ++ after) = .ok frame ↔
        Frame.parse (before ++ v' ++ after) = .ok frame) ∧
    ∀ a b, braced = true → s.toList = a ++ '\x7d' :: b → '\x7d' ∉ a → ∀ attr,
      ∃ quote ∈ quotes, ∃ rest, readValue attr (v.toList ++ after.toList) =
        .ok (.expression (String.ofList (trim (quote :: a))), rest) := by
  refine ⟨fun hbrace frame => ?_, fun a b hbraced hsplit ha attr => ?_⟩
  · have hagree := hplace.agree (hv.spelling hs fun h => hbrace (.inl h))
      (hv'.spelling hs fun h => hbrace (.inr h)) after.toList
    simp only [parse_eq_ok_iff_readDocument, String.toList_append, List.append_assoc]
    exact hagree frame
  · subst hbraced
    exact hv.readValue_of_brace hs hsplit ha attr after.toList

instance (s : List Char) : Decidable (Quoteless s) :=
  decidable_of_iff (quotes.all (· ∉ s) = true) (by simp [Quoteless])

/-- In a frame's tag a value may stand behind `name=`. -/
theorem valuePlace_name : ValuePlace "<Frame name=".toList := by
  have hplace : ValuePlace ([] ++ '<' :: ("Frame".toList ++ " name=".toList)) :=
    .mk (.root .nil) (by decide) (by simp [StopsName]; decide)
      (.here (n := "name".toList) .space (by decide) .nil .nil)
  exact hplace

/-- The value of an attribute of a leaf, behind another one. -/
theorem valuePlace_color : ValuePlace "<Frame><Text size=\"9\" color=".toList := by
  have hframe : OpenTag "<Frame>".toList ⟨"Frame", [], false⟩ :=
    .mk (n := "Frame".toList) (s := []) false (by decide) (by simp [StopsName]) (.nil .nil)
  have hsize : Spelling ('"' :: (['9'] ++ ['"']))
      (.literal (String.ofList (decodeEntities ['9']))) :=
    .quoted (by decide) (by decide)
  have hplace : ValuePlace ([] ++ ("<Frame>".toList ++ []) ++
      '<' :: ("Text".toList ++ " size=\"9\" color=".toList)) :=
    .mk (.child .nil hframe rfl rfl .nil) (by decide) (by simp [StopsName]; decide)
      (.valued (n := "size".toList) .space (by decide) .nil .nil hsize
        (.here (n := "color".toList) .space (by decide) .nil .nil))
  exact hplace

/-- What is accepted has an outcome. -/
theorem exists_of_isOk {ε α : Type} {x : Except ε α} (h : x.isOk = true) : ∃ a, x = .ok a := by
  cases x with
  | ok a => exact ⟨a, rfl⟩
  | error e => cases h

/-- A name with an angle bracket, an open brace and an entity, in quotes and in braces; a color, in
quotes of two kinds; and a name that is cut at its brace. -/
theorem parse_requoted_name :
    (∃ frame, Frame.parse ("<Frame name=" ++ "\"a > \x7bb&amp;\"" ++ "/>") = .ok frame ∧
      Frame.parse ("<Frame name=" ++ "\x7b \x60a > \x7bb&amp;\x60\x7d" ++ "/>") = .ok frame) ∧
    (∃ frame, Frame.parse ("<Frame><Text size=\"9\" color=" ++ "\"00ff10\"" ++ "/></Frame>") =
        .ok frame ∧
      Frame.parse ("<Frame><Text size=\"9\" color=" ++ "'00ff10'" ++ "/></Frame>") = .ok frame) ∧
    ∃ quote ∈ quotes, ∃ rest, readValue "name" ("\x7b\"a\x7db\"\x7d".toList ++ "/>".toList) =
      .ok (.expression (String.ofList (trim [quote, 'a'])), rest) := by
  have hname : Quoting "a > \x7bb&amp;".toList false "\"a > \x7bb&amp;\"".toList :=
    .bare (s := "a > \x7bb&amp;".toList) (by decide)
  have hname' : Quoting "a > \x7bb&amp;".toList true
      "\x7b \x60a > \x7bb&amp;\x60\x7d".toList :=
    .braced (s := "a > \x7bb&amp;".toList) (u := [' ']) (w := []) (by decide) .space .nil
  have hcolor : Quoting "00ff10".toList false "\"00ff10\"".toList :=
    .bare (s := "00ff10".toList) (by decide)
  have hcolor' : Quoting "00ff10".toList false "'00ff10'".toList :=
    .bare (s := "00ff10".toList) (by decide)
  have hcut : Quoting "a\x7db".toList true "\x7b\"a\x7db\"\x7d".toList :=
    .braced (s := "a\x7db".toList) (u := []) (w := []) (by decide) .nil .nil
  have hnamed : (Frame.parse ("<Frame name=" ++ "\"a > \x7bb&amp;\"" ++ "/>")).isOk = true := by
    decide +kernel
  have hcolored : (Frame.parse ("<Frame><Text size=\"9\" color=" ++ "\"00ff10\"" ++
      "/></Frame>")).isOk = true := by
    decide +kernel
  refine ⟨?_, ?_, ?_⟩
  · obtain ⟨frame, hparse⟩ := exists_of_isOk hnamed
    obtain ⟨hsame, -⟩ := parse_requoted "/>" valuePlace_name (by decide) hname hname'
    exact ⟨frame, hparse, (hsame (fun _ => by decide) frame).1 hparse⟩
  · obtain ⟨frame, hparse⟩ := exists_of_isOk hcolored
    obtain ⟨hsame, -⟩ := parse_requoted "/></Frame>" valuePlace_color (by decide) hcolor
      hcolor'
    exact ⟨frame, hparse, (hsame (fun _ => by decide) frame).1 hparse⟩
  · obtain ⟨-, hbrace⟩ := parse_requoted "/>" valuePlace_name (by decide) hcut hcut
    exact hbrace ['a'] ['b'] rfl (by decide) (by decide) "name"

/-- **A brace inside of quotes.** As long as no brace stands around it, it is a character like any
other; in braces it ends the value. -/
theorem brace_in_quotes :
    ¬ ∀ (before after s v v' : String) (braced braced' : Bool) (frame : Frame),
      ValuePlace before.toList → Quoteless s.toList → Quoting s.toList braced v.toList →
      Quoting s.toList braced' v'.toList → Frame.parse (before ++ v ++ after) = .ok frame →
      Frame.parse (before ++ v' ++ after) = .ok frame := by
  intro h
  have hbare : Quoting "a\x7db".toList false "\"a\x7db\"".toList :=
    .bare (s := "a\x7db".toList) (by decide)
  have hbraced : Quoting "a\x7db".toList true "\x7b\"a\x7db\"\x7d".toList :=
    .braced (s := "a\x7db".toList) (u := []) (w := []) (by decide) .nil .nil
  -- The same text between the quotes is a name when bare and cut short in braces.
  have haccepted : (Frame.parse ("<Frame name=" ++ "\"a\x7db\"" ++ "/>")).isOk = true := by
    decide +kernel
  have hrefused : (Frame.parse ("<Frame name=" ++ "\x7b\"a\x7db\"\x7d" ++ "/>")).isOk = false := by
    decide +kernel
  obtain ⟨frame, hparse⟩ := exists_of_isOk haccepted
  have hsame := h "<Frame name=" "/>" "a\x7db" _ _ false true frame valuePlace_name (by decide)
    hbare hbraced hparse
  rw [hsame] at hrefused
  cases hrefused

end CanvasLink.Markup
