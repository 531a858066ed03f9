import CanvasLink.Proofs.Markup.Scanning

/-!
# CanvasLink — the documents that are accepted

The reader of documents accepts exactly the documents of the grammar, and reads the frame that each
of them denotes.

* `skipElement_of_closes` and `closes_of_skipElement` — the counter of the reader of passed
  elements against the balance of the tags (`Closes`).
* `readChildren_append` and `readsChildren_readChildren` — children of the grammar are read, and the
  reader passes over nothing else up to the place where it stops (`ChildrenStop`).
* **`parse_eq_ok_iff_document`** — the headline.
-/

namespace CanvasLink.Markup

open CanvasLink.Text

/-! ## How tags and comments start -/

theorem EndTag.starts {e : List Char} {name : String} (h : EndTag e name) : ['<', '/'] <+: e := by
  obtain ⟨-, -⟩ := h
  exact ⟨_, rfl⟩

/-- An opening tag starts with `<` and the first character of its name. -/
theorem OpenTag.starts {t : List Char} {tag : Tag} (h : OpenTag t tag) :
    ∃ c s, t = '<' :: c :: s ∧ isNameStart c = true := by
  obtain ⟨-, hn, -, -⟩ := h
  obtain ⟨c, n, rfl, hc, -⟩ := hn
  exact ⟨c, _, rfl, hc⟩

theorem EndTag.starts_lt {e : List Char} {name : String} (h : EndTag e name) : ['<'] <+: e := by
  obtain ⟨s, rfl⟩ := h.starts
  exact ⟨'/' :: s, rfl⟩

/-- What stands behind the `<` tells the three kinds of markup apart. -/
theorem not_commentOpen_cons {c : Char} (hc : isNameStart c = true) (s : List Char) :
    ¬ commentOpen <+: '<' :: c :: s := by
  intro hpre
  have hbang : '!' = c := by
    have h₁ := (List.cons_prefix_cons.1 hpre).2
    exact (List.cons_prefix_cons.1 h₁).1
  subst hbang
  exact absurd hc (by decide)

/-- What starts like an opening tag does not start like an end tag. -/
theorem not_slash_cons {c : Char} (hc : isNameStart c = true) (s : List Char) :
    ¬ ['<', '/'] <+: '<' :: c :: s := by
  intro hpre
  have hslash : '/' = c := by
    have h₁ := (List.cons_prefix_cons.1 hpre).2
    exact (List.cons_prefix_cons.1 h₁).1
  subst hslash
  exact absurd hc (by decide)

/-- What starts like an opening tag is neither blank nor a comment. -/
theorem stopsTrivia_cons {c : Char} (hc : isNameStart c = true) (s : List Char) :
    StopsTrivia ('<' :: c :: s) := by
  refine ⟨fun d hd => ?_, not_commentOpen_cons hc s⟩
  cases hd
  decide

theorem OpenTag.stopsTrivia {t : List Char} {tag : Tag} (h : OpenTag t tag) (s : List Char) :
    StopsTrivia (t ++ s) := by
  obtain ⟨c, r, rfl, hc⟩ := h.starts
  exact stopsTrivia_cons hc _

theorem EndTag.not_commentOpen {e : List Char} {name : String} (h : EndTag e name)
    (s : List Char) : ¬ commentOpen <+: e ++ s := by
  obtain ⟨r, rfl⟩ := h.starts
  simp [commentOpen]

/-! ## Contents of text elements -/

/-- The contents of a text element are read up to its end tag, trimmed and decoded. -/
theorem readContent_append {raw content e : List Char} (hraw : '<' ∉ raw)
    (htrim : Trimmed raw content) (he : EndTag e "Text") (s : List Char) :
    readContent (raw ++ (e ++ s)) = .ok (String.ofList (decodeEntities content), s) := by
  have hend : readEndTag (e ++ s) = .ok ("Text", s) := readEndTag_append he s
  have hcut : breakBefore? ['<', '/'] (raw ++ (e ++ s)) = some (raw, e ++ s) :=
    breakBefore?_append hraw (he.starts.trans (List.prefix_append e s))
  have hflat : breakBefore? ['<'] raw = none := breakBefore?_singleton_eq_none.2 hraw
  unfold readContent
  simp only [hcut, hflat, hend, trimmed_iff.1 htrim, Element.tag, if_true]

/-- Contents that are read are a stretch without `<`, and then the end tag of a text element. -/
theorem content_of_readContent {s rest : List Char} {text : String}
    (h : readContent s = .ok (text, rest)) :
    ∃ raw content e, s = raw ++ (e ++ rest) ∧ '<' ∉ raw ∧ Trimmed raw content ∧
      EndTag e "Text" ∧ text = String.ofList (decodeEntities content) := by
  unfold readContent at h
  split at h
  · cases h
  · next raw atEnd hcut =>
    split at h
    · cases h
    · next hflat =>
      split at h
      · cases h
      · next name r hend =>
        split at h
        · -- The content ends at the first `</`, and what stands there has to be the end tag of a
          -- `Text`.
          next hname =>
          cases h
          obtain ⟨e, rfl, he⟩ := endTag_of_readEndTag (prefix_of_breakBefore? hcut) hend
          rw [hname] at he
          exact ⟨raw, trim raw, e, (append_of_breakBefore? hcut).symm,
            breakBefore?_singleton_eq_none.1 hflat, trimmed_iff.2 rfl, he, rfl⟩
        · cases h

/-- Behind its opening tag the rest of a text element is read as its leaf. -/
theorem readLeaf_append {t : List Char} {leaf : Leaf} (h : TextElement t leaf) :
    ∃ opening tag body, t = opening ++ body ∧ OpenTag opening tag ∧ tag.name = "Text" ∧
      ∀ s, readLeaf tag (body ++ s) = .ok (leaf, s) := by
  cases h with
  | @empty t tag leaf htag hname hself hleaf =>
    refine ⟨t, tag, [], by simp, htag, hname, fun s => ?_⟩
    rw [← leaf_ofAttributes_eq_ok_iff] at hleaf
    simp only [readLeaf, hself, if_true, List.nil_append, hleaf]
    rfl
  | @filled t tag raw content e leaf htag hname hself hraw htrim hend hleaf =>
    refine ⟨t, tag, raw ++ e, rfl, htag, hname, fun s => ?_⟩
    -- The content has no `<`, so its end tag is the first thing found behind it.
    have hcontent := readContent_append hraw htrim hend s
    rw [← leaf_ofAttributes_eq_ok_iff] at hleaf
    rw [readLeaf, hself, List.append_assoc]
    simp only [Bool.false_eq_true, if_false, hcontent, hleaf]
    rfl

/-- What is read as a leaf is the rest of a text element. -/
theorem textElement_of_readLeaf {t s rest : List Char} {tag : Tag} {leaf : Leaf}
    (htag : OpenTag t tag) (hname : tag.name = "Text") (h : readLeaf tag s = .ok (leaf, rest)) :
    ∃ body, s = body ++ rest ∧ TextElement (t ++ body) leaf := by
  unfold readLeaf at h
  split at h
  · cases h
  · next text r hr =>
    obtain ⟨leaf', hleaf, hparts⟩ := map_eq_ok.1 h
    cases hparts
    rw [leaf_ofAttributes_eq_ok_iff] at hleaf
    -- A self-closing element has neither content nor an end tag to split off.
    cases hself : tag.selfClosing with
    | true =>
      rw [if_pos hself] at hr
      cases hr
      refine ⟨[], rfl, ?_⟩
      rw [List.append_nil]
      exact .empty htag hname hself hleaf
    | false =>
      rw [hself, if_neg (by decide)] at hr
      obtain ⟨raw, content, e, rfl, hraw, htrim, hend, rfl⟩ := content_of_readContent hr
      exact ⟨raw ++ e, by simp, .filled htag hname hself hraw htrim hend hleaf⟩

/-! ## Elements that are passed over

The reader of a passed element looks for the next `<`, so its rounds are not the pieces of the
grammar. The first four lemmas say what it makes of one piece in front of its input. -/

section PassedOver

variable {name : String} {start : List Char} {depth : Nat}

/-- The reader of elements that are passed over, one step at a time and without its bound. -/
theorem skipElement_eq (name : String) (start : List Char) (depth : Nat) (s : List Char) :
    skipElement name start depth s =
      match breakBefore? ['<'] s with
      | none => .error (.malformed start (.missingEnd name))
      | some (_, atTag) =>
        if commentOpen.isPrefixOf atTag then
          match skipTrivia atTag with
          | .error refusal => .error refusal
          | .ok afterTrivia => skipElement name start depth afterTrivia
        else if ['<', '/'].isPrefixOf atTag then
          match readEndTag atTag with
          | .error refusal => .error refusal
          | .ok (found, afterTag) =>
            if found = name then
              match depth with
              | 0 => .ok afterTag
              | depth + 1 => skipElement name start depth afterTag
            else skipElement name start depth afterTag
        else
          match readOpenTag atTag with
          | .error refusal => .error refusal
          | .ok (tag, afterTag) =>
            if tag.name = name ∧ tag.selfClosing = false then
              skipElement name start (depth + 1) afterTag
            else skipElement name start depth afterTag := by
  conv_lhs => rw [skipElement]
  repeat' split
  all_goals simp_all

/-- A character that starts no tag is passed over. -/
theorem skipElement_cons {c : Char} (hc : c ≠ '<') (s : List Char) :
    skipElement name start depth (c :: s) = skipElement name start depth s := by
  have hcut : breakBefore? ['<'] (c :: s) =
      (breakBefore? ['<'] s).map fun parts => (c :: parts.1, parts.2) := by
    have hnot : ¬ ['<'].isPrefixOf (c :: s) = true := by
      simp [Ne.symm hc]
    rw [breakBefore?, if_neg hnot]
  rw [skipElement_eq name start depth (c :: s), hcut, skipElement_eq name start depth s]
  cases breakBefore? ['<'] s <;> rfl

/-- Blank characters make no difference to what is passed over. -/
theorem skipElement_skipBlanks (s : List Char) :
    skipElement name start depth (skipBlanks s) = skipElement name start depth s := by
  induction s with
  | nil => rfl
  | cons c s ih =>
    cases hc : isBlank c with
    | false => rw [skipBlanks, List.dropWhile_cons_of_neg (by simp [hc])]
    | true =>
      have hlt : c ≠ '<' := by
        rintro rfl
        exact absurd hc (by decide)
      rw [skipElement_cons hlt, ← ih, skipBlanks, List.dropWhile_cons_of_pos hc]
      rfl

/-- Trivia in front is passed over first, with its defects. -/
theorem skipElement_eq_skipTrivia (s : List Char) :
    skipElement name start depth s =
      (skipTrivia s).bind (skipElement name start depth) := by
  rw [← skipElement_skipBlanks]
  by_cases hopen : commentOpen.isPrefixOf (skipBlanks s) = true
  · -- The comment stands at the front, so the cut at the next `<` leaves nothing before it.
    have hcut : breakBefore? ['<'] (skipBlanks s) = some ([], skipBlanks s) := by
      obtain ⟨t, ht⟩ := List.isPrefixOf_iff_prefix.1 hopen
      rw [← ht]
      rfl
    have hsame : skipTrivia (skipBlanks s) = skipTrivia s := by
      obtain ⟨w, hw, hs⟩ := exists_blanks_append_skipBlanks s
      conv_rhs => rw [hs]
      exact (skipTrivia_append_blanks hw _).symm
    rw [skipElement_eq, hcut]
    simp only [hopen, if_true, hsame]
    cases skipTrivia s <;> rfl
  · rw [skipTrivia_eq s, if_neg hopen]
    rfl

theorem skipElement_append_comment {c : List Char} (hc : Comment c) (s : List Char) :
    skipElement name start depth (c ++ s) = skipElement name start depth s := by
  rw [skipElement_eq_skipTrivia, skipTrivia_append_comment hc, ← skipElement_eq_skipTrivia]

/-- A text that starts with `<` has nothing in front of its first `<`. -/
theorem breakBefore?_of_starts {t : List Char} (ht : ['<'] <+: t) (s : List Char) :
    breakBefore? ['<'] (t ++ s) = some ([], t ++ s) := by
  obtain ⟨r, rfl⟩ := ht
  rfl

/-- An opening tag in front of the input, if one can be read there. -/
theorem skipElement_cons_lt {c : Char} (hc : isNameStart c = true) (s : List Char) :
    skipElement name start depth ('<' :: c :: s) =
      match readOpenTag ('<' :: c :: s) with
      | .error refusal => .error refusal
      | .ok (tag, afterTag) =>
        skipElement name start
          (if tag.name = name ∧ tag.selfClosing = false then depth + 1 else depth) afterTag := by
  have hcomment : ¬ commentOpen.isPrefixOf ('<' :: c :: s) = true := by
    rw [List.isPrefixOf_iff_prefix]
    exact not_commentOpen_cons hc s
  have hslash : ¬ ['<', '/'].isPrefixOf ('<' :: c :: s) = true := by
    rw [List.isPrefixOf_iff_prefix]
    exact not_slash_cons hc s
  rw [skipElement_eq, show breakBefore? ['<'] ('<' :: c :: s) = some ([], '<' :: c :: s) from rfl]
  simp only [if_neg hcomment, if_neg hslash]
  split
  · rfl
  · split <;> rfl

/-- An opening tag of the name opens one element more, unless it closes itself; all others are
passed over. -/
theorem skipElement_append_openTag {t : List Char} {tag : Tag} (ht : OpenTag t tag)
    (s : List Char) :
    skipElement name start depth (t ++ s) =
      skipElement name start
        (if tag.name = name ∧ tag.selfClosing = false then depth + 1 else depth) s := by
  have hread := readOpenTag_append ht s
  obtain ⟨c, r, rfl, hc⟩ := ht.starts
  rw [List.cons_append, List.cons_append] at hread ⊢
  rw [skipElement_cons_lt hc, hread]

/-- An end tag of the name closes one element, and with the last one the reader stops; all others
are passed over. -/
theorem skipElement_append_endTag {e : List Char} {found : String} (he : EndTag e found)
    (s : List Char) :
    skipElement name start depth (e ++ s) =
      if found = name then
        match depth with
        | 0 => .ok s
        | depth + 1 => skipElement name start depth s
      else skipElement name start depth s := by
  have hcomment : ¬ commentOpen.isPrefixOf (e ++ s) = true := by
    rw [List.isPrefixOf_iff_prefix]
    exact he.not_commentOpen s
  have hslash : ['<', '/'].isPrefixOf (e ++ s) = true := by
    rw [List.isPrefixOf_iff_prefix]
    exact he.starts.trans (List.prefix_append e s)
  rw [skipElement_eq, breakBefore?_of_starts he.starts_lt]
  simp only [if_neg hcomment, hslash, if_true, readEndTag_append he]

end PassedOver

/-! ### Balance -/

theorem closings_cons (name : String) (piece : Piece) (pieces : List Piece) :
    closings name (piece :: pieces) = piece.closing name + closings name pieces :=
  rfl

theorem closing_character (name : String) : Piece.character.closing name = 0 :=
  rfl

/-- A comment closes nothing, though tags may stand in it. -/
theorem closing_comment (name : String) : Piece.comment.closing name = 0 :=
  rfl

/-- An opening tag of the name takes one back, unless it closes itself. -/
theorem closing_openTag (name found : String) (selfClosing : Bool) :
    (Piece.openTag found selfClosing).closing name =
      if found = name ∧ selfClosing = false then -1 else 0 := by
  cases selfClosing <;> simp [Piece.closing]

/-- With nothing left to close there are no pieces. -/
theorem closes_zero_iff {name : String} {pieces : List Piece} :
    Closes name 0 pieces ↔ pieces = [] := by
  constructor
  · rintro ⟨-, hfirst⟩
    exact (hfirst [] List.nil_prefix rfl).symm
  · rintro rfl
    exact ⟨rfl, fun shorter h _ => List.prefix_nil.1 h⟩

/-- Pieces that have something left to close close it behind their first piece. -/
theorem closes_cons_iff {name : String} {count : Int} {piece : Piece} {pieces : List Piece}
    (hcount : count ≠ 0) :
    Closes name count (piece :: pieces) ↔ Closes name (count - piece.closing name) pieces := by
  constructor
  · rintro ⟨hsum, hfirst⟩
    rw [closings_cons] at hsum
    refine ⟨by omega, fun shorter hpre hshort => ?_⟩
    have h := hfirst (piece :: shorter) (List.cons_prefix_cons.2 ⟨rfl, hpre⟩) (by
      rw [closings_cons]
      omega)
    exact (List.cons.inj h).2
  · rintro ⟨hsum, hfirst⟩
    refine ⟨by rw [closings_cons]; omega, fun shorter hpre hshort => ?_⟩
    -- The empty prefix is excluded by `hcount`; any other starts with the same piece.
    cases shorter with
    | nil => exact absurd hshort.symm hcount
    | cons other shorter =>
      obtain ⟨rfl, hrest⟩ := List.cons_prefix_cons.1 hpre
      rw [closings_cons] at hshort
      rw [hfirst shorter hrest (by omega)]

/-- One piece closes one element at most, so that no number of open elements is jumped over. -/
theorem closing_le (name : String) (piece : Piece) : piece.closing name ≤ 1 := by
  rcases piece with _ | _ | ⟨found, selfClosing⟩ | found
  · rw [closing_character]
    decide
  · rw [closing_comment]
    decide
  · rw [closing_openTag]
    split <;> decide
  · rw [Piece.closing]
    split <;> decide

/-- The reader takes one piece at a time: it stops behind the end tag that closes the element, and
otherwise goes on with as many open elements as the piece leaves. -/
theorem skipElement_append_piece {name : String} {start : List Char} {depth : Nat} {piece : Piece}
    {p : List Char} (hp : piece.Text p) (s : List Char) :
    skipElement name start depth (p ++ s) =
      if piece.closing name = depth + 1 then .ok s
      else skipElement name start (depth - piece.closing name).toNat s := by
  cases hp with
  | @character c hc =>
    rw [List.singleton_append, skipElement_cons hc, closing_character, if_neg (by omega),
      Int.sub_zero, Int.toNat_natCast]
  | comment hcomment =>
    rw [skipElement_append_comment hcomment, closing_comment, if_neg (by omega), Int.sub_zero,
      Int.toNat_natCast]
  | @openTag p tag htag =>
    rw [skipElement_append_openTag htag, closing_openTag]
    split
    · rw [if_neg (by omega), show (depth - -1 : Int).toNat = depth + 1 by omega]
    · rw [if_neg (by omega), Int.sub_zero, Int.toNat_natCast]
  | @endTag p found hend =>
    rw [skipElement_append_endTag hend, Piece.closing]
    -- Only an end tag of the same name lowers the depth, and at depth zero it ends the element.
    by_cases hname : found = name
    · rw [if_pos hname, if_pos hname]
      cases depth with
      | zero => rfl
      | succ depth =>
        rw [if_neg (by omega), show ((depth + 1 : Nat) - 1 : Int).toNat = depth by omega]
    · rw [if_neg hname, if_neg hname, if_neg (by omega), Int.sub_zero, Int.toNat_natCast]

/-- **What closes an element is passed over.** Induction on the pieces; `depth + 1` elements of the
name are open in front of them. -/
theorem skipElement_of_closes {name : String} {start : List Char} {pieces : List Piece}
    {body : List Char} (hbody : Stretch pieces body) {depth : Nat}
    (hcloses : Closes name (depth + 1) pieces) (rest : List Char) :
    skipElement name start depth (body ++ rest) = .ok rest := by
  induction hbody generalizing depth with
  | nil =>
    obtain ⟨hsum, -⟩ := hcloses
    simp only [closings, List.foldr_nil] at hsum
    omega
  | @cons piece pieces s body hpiece hstretch ih =>
    rw [closes_cons_iff (by omega)] at hcloses
    rw [List.append_assoc, skipElement_append_piece hpiece]
    split
    · next hlast =>
      -- The element is closed, so that nothing of the stretch is left.
      rw [hlast, Int.sub_self, closes_zero_iff] at hcloses
      subst hcloses
      cases hstretch
      rfl
    · next hopen =>
      have hle := closing_le name piece
      refine ih ?_
      rw [show (((depth : Int) - piece.closing name).toNat + 1 : Int) =
        depth + 1 - piece.closing name by omega]
      exact hcloses

/-- The text closes `count` elements of the name. -/
def ClosingText (name : String) (count : Int) (s : List Char) : Prop :=
  ∃ pieces, Stretch pieces s ∧ Closes name count pieces

theorem closingText_nil (name : String) : ClosingText name 0 [] :=
  ⟨[], .nil, closes_zero_iff.2 rfl⟩

/-- A piece in front takes from what is to be closed what it closes itself. -/
theorem ClosingText.cons {name : String} {count : Int} {piece : Piece} {s rest : List Char}
    (hcount : count ≠ 0) (hpiece : piece.Text s)
    (h : ClosingText name (count - piece.closing name) rest) :
    ClosingText name count (s ++ rest) := by
  obtain ⟨pieces, hrest, hcloses⟩ := h
  exact ⟨piece :: pieces, .cons hpiece hrest, (closes_cons_iff hcount).2 hcloses⟩

/-- A character in front changes nothing. -/
theorem ClosingText.character {name : String} {count : Int} {c : Char} {rest : List Char}
    (hcount : count ≠ 0) (hc : c ≠ '<') (h : ClosingText name count rest) :
    ClosingText name count (c :: rest) := by
  have htext : Piece.character.Text [c] := .character hc
  refine ClosingText.cons hcount htext ?_
  rw [closing_character, Int.sub_zero]
  exact h

/-- Characters in front, none of which starts a tag, change nothing. -/
theorem ClosingText.characters {name : String} {count : Int} {s rest : List Char}
    (hcount : count ≠ 0) (hs : '<' ∉ s) (h : ClosingText name count rest) :
    ClosingText name count (s ++ rest) := by
  induction s with
  | nil => exact h
  | cons c s ih =>
    have hc : c ≠ '<' := fun heq => hs (by simp [heq])
    exact .character hcount hc (ih fun hmem => hs (List.mem_cons_of_mem c hmem))

/-- Trivia in front change nothing. -/
theorem ClosingText.trivia {name : String} {count : Int} {t rest : List Char}
    (hcount : count ≠ 0) (ht : Trivia t) (h : ClosingText name count rest) :
    ClosingText name count (t ++ rest) := by
  induction ht with
  | nil => exact h
  | @blank c t hc _ ih =>
    have hlt : c ≠ '<' := by
      rintro rfl
      exact absurd hc (by decide)
    exact .character hcount hlt ih
  | comment hc _ ih =>
    rw [List.append_assoc]
    refine ClosingText.cons hcount (.comment hc) ?_
    rw [closing_comment, Int.sub_zero]
    exact ih

/-- One round of the reader: characters up to the next `<`, the piece that starts there, and what
the later rounds pass over. -/
theorem exists_closingText {name : String} {count : Int} {piece : Piece}
    {s before x body rest : List Char} (hcount : count ≠ 0)
    (hcut : breakBefore? ['<'] s = some (before, x ++ (body ++ rest))) (hpiece : piece.Text x)
    (hbody : ClosingText name (count - piece.closing name) body) :
    ∃ all, s = all ++ rest ∧ ClosingText name count all := by
  have hbefore : '<' ∉ before := notMem_of_endsAtFirst (endsAtFirst_of_breakBefore? hcut).1
  refine ⟨before ++ (x ++ body), ?_, .characters hcount hbefore (.cons hcount hpiece hbody)⟩
  rw [← append_of_breakBefore? hcut]
  simp only [List.append_assoc]

/-- **What is passed over closes the element.** -/
theorem closes_of_skipElement {name : String} {start s rest : List Char} {depth : Nat}
    (h : skipElement name start depth s = .ok rest) :
    ∃ body, s = body ++ rest ∧ ClosingText name (depth + 1) body := by
  fun_induction skipElement name start depth s with
  | case1 => cases h
  | case2 => cases h
  | case3 depth s before atTag hcut _ afterTrivia htrivia ih =>
    obtain ⟨body, rfl, hbody⟩ := ih h
    obtain ⟨t, rfl, ht, -⟩ := trivia_of_skipTrivia htrivia
    have hbefore : '<' ∉ before := notMem_of_endsAtFirst (endsAtFirst_of_breakBefore? hcut).1
    refine ⟨before ++ (t ++ body), ?_, .characters (by omega) hbefore (.trivia (by omega) ht hbody)⟩
    rw [← append_of_breakBefore? hcut]
    simp only [List.append_assoc]
  | case4 => cases h
  | case5 s before atTag hcut _ hslash afterTag hend =>
    -- The end tag of the element itself.
    cases h
    obtain ⟨e, rfl, he⟩ := endTag_of_readEndTag (List.isPrefixOf_iff_prefix.1 hslash) hend
    have hclosed : ClosingText name (1 - Piece.closing name (.endTag name)) [] := by
      rw [Piece.closing, if_pos rfl]
      exact closingText_nil name
    exact exists_closingText (by decide) hcut (.endTag he) hclosed
  | case6 s before atTag hcut _ hslash afterTag depth hend ih =>
    -- The end tag of an element of the same name inside.
    obtain ⟨body, rfl, hbody⟩ := ih h
    obtain ⟨e, rfl, he⟩ := endTag_of_readEndTag (List.isPrefixOf_iff_prefix.1 hslash) hend
    refine exists_closingText (by omega) hcut (.endTag he) ?_
    rw [Piece.closing, if_pos rfl, Int.natCast_succ, Int.add_sub_cancel]
    exact hbody
  | case7 depth s before atTag hcut _ hslash found afterTag hend hname ih =>
    obtain ⟨body, rfl, hbody⟩ := ih h
    obtain ⟨e, rfl, he⟩ := endTag_of_readEndTag (List.isPrefixOf_iff_prefix.1 hslash) hend
    refine exists_closingText (by omega) hcut (.endTag he) ?_
    rw [Piece.closing, if_neg hname, Int.sub_zero]
    exact hbody
  | case8 => cases h
  | case9 depth s before atTag hcut _ _ tag afterTag htag hopens ih =>
    -- An element of the same name is opened inside.
    obtain ⟨body, rfl, hbody⟩ := ih h
    obtain ⟨t, rfl, ht⟩ := openTag_of_readOpenTag (prefix_of_breakBefore? hcut) htag
    refine exists_closingText (by omega) hcut (.openTag ht) ?_
    rw [closing_openTag, if_pos hopens, Int.sub_neg]
    exact hbody
  | case10 depth s before atTag hcut _ _ tag afterTag htag hopens ih =>
    obtain ⟨body, rfl, hbody⟩ := ih h
    obtain ⟨t, rfl, ht⟩ := openTag_of_readOpenTag (prefix_of_breakBefore? hcut) htag
    refine exists_closingText (by omega) hcut (.openTag ht) ?_
    rw [closing_openTag, if_neg hopens, Int.sub_zero]
    exact hbody

/-! ## Children

Every child in front of the input adds its leaves to those of the input behind it. -/

/-- The reader of children, one child at a time and without its bound. -/
theorem readChildren_eq (s : List Char) :
    readChildren s =
      match skipTrivia s with
      | .error refusal => .error refusal
      | .ok [] => .error (.malformed [] (.missingEnd Element.frame.tag))
      | .ok ('<' :: '/' :: t) =>
        match readEndTag ('<' :: '/' :: t) with
        | .error refusal => .error refusal
        | .ok (name, rest) =>
          if name = Element.frame.tag then .ok ([], rest)
          else .error (.malformed ('<' :: '/' :: t) (.wrongEnd .frame name))
      | .ok ('<' :: t) =>
        match readOpenTag ('<' :: t) with
        | .error refusal => .error refusal
        | .ok (tag, afterTag) =>
          if tag.name = Element.text.tag then
            match readLeaf tag afterTag with
            | .error refusal => .error refusal
            | .ok (leaf, afterLeaf) =>
              (readChildren afterLeaf).map fun result => (leaf :: result.1, result.2)
          else if tag.selfClosing then readChildren afterTag
          else
            match skipElement tag.name afterTag 0 afterTag with
            | .error refusal => .error refusal
            | .ok rest => readChildren rest
      | .ok (_ :: t) => readChildren (t.dropWhile (· != '<')) := by
  conv_lhs => rw [readChildren]
  repeat' split
  all_goals first | (simp_all; done) | grind

theorem readChildren_congr {a b : List Char} (h : skipTrivia a = skipTrivia b) :
    readChildren a = readChildren b := by
  rw [readChildren_eq a, readChildren_eq b, h]

theorem readChildren_append_comment {c : List Char} (hc : Comment c) (s : List Char) :
    readChildren (c ++ s) = readChildren s :=
  readChildren_congr (skipTrivia_append_comment hc s)

theorem readChildren_cons_of_isBlank {c : Char} (hc : isBlank c = true) (s : List Char) :
    readChildren (c :: s) = readChildren s := by
  have hw : Blanks [c] := by simpa [Blanks] using hc
  exact readChildren_congr (skipTrivia_append_blanks hw s)

/-- Other character data is passed over up to the next `<`. -/
theorem readChildren_cons_of_not_isBlank {c : Char} (hc : c ≠ '<') (hblank : isBlank c = false)
    (s : List Char) : readChildren (c :: s) = readChildren (s.dropWhile (· != '<')) := by
  have hstops : StopsTrivia (c :: s) := by
    refine ⟨fun d hd => ?_, fun hpre => ?_⟩
    · cases hd
      exact hblank
    · exact hc (List.cons_prefix_cons.1 hpre).1.symm
  rw [readChildren_eq, skipTrivia_of_stops hstops]
  split <;> simp_all

/-- What stands in front of the first `<` makes no difference. -/
theorem readChildren_dropWhile (s : List Char) :
    readChildren (s.dropWhile (· != '<')) = readChildren s := by
  induction s with
  | nil => rfl
  | cons c s ih =>
    by_cases hc : c = '<'
    · rw [List.dropWhile_cons_of_neg (by simp [hc])]
    · rw [List.dropWhile_cons_of_pos (by simp [hc])]
      cases hblank : isBlank c with
      | true => rw [readChildren_cons_of_isBlank hblank, ih]
      | false => rw [readChildren_cons_of_not_isBlank hc hblank]

/-- A character that starts no tag makes no difference. -/
theorem readChildren_cons {c : Char} (hc : c ≠ '<') (s : List Char) :
    readChildren (c :: s) = readChildren s := by
  cases hblank : isBlank c with
  | true => exact readChildren_cons_of_isBlank hblank s
  | false => rw [readChildren_cons_of_not_isBlank hc hblank, readChildren_dropWhile]

/-- The children end at the end tag of the frame, and at no other. -/
theorem readChildren_append_endTag {e : List Char} {name : String} (he : EndTag e name)
    (s : List Char) :
    readChildren (e ++ s) =
      if name = "Frame" then .ok ([], s)
      else .error (.malformed (e ++ s) (.wrongEnd .frame name)) := by
  have hend : readEndTag (e ++ s) = .ok (name, s) := readEndTag_append he s
  have hstops : StopsTrivia (e ++ s) := by
    refine ⟨fun d hd => ?_, he.not_commentOpen s⟩
    obtain ⟨r, rfl⟩ := he.starts
    cases hd
    decide
  obtain ⟨r, rfl⟩ := he.starts
  rw [readChildren_eq, skipTrivia_of_stops hstops]
  simp only [List.cons_append, List.nil_append] at hend ⊢
  rw [hend]
  rfl

/-- An element in front of the input is read by its tag, if one can be read there. -/
theorem readChildren_cons_lt {c : Char} (hc : isNameStart c = true) (s : List Char) :
    readChildren ('<' :: c :: s) =
      match readOpenTag ('<' :: c :: s) with
      | .error refusal => .error refusal
      | .ok (tag, afterTag) =>
        if tag.name = "Text" then
          match readLeaf tag afterTag with
          | .error refusal => .error refusal
          | .ok (leaf, afterLeaf) =>
            (readChildren afterLeaf).map fun result => (leaf :: result.1, result.2)
        else if tag.selfClosing then readChildren afterTag
        else
          match skipElement tag.name afterTag 0 afterTag with
          | .error refusal => .error refusal
          | .ok rest => readChildren rest := by
  have hc' : c ≠ '/' := by
    rintro rfl
    exact absurd hc (by decide)
  rw [readChildren_eq, skipTrivia_of_stops (stopsTrivia_cons hc s)]
  -- A name follows the `<`, which rules out the branches for the end and for an end tag.
  split
  · simp_all
  · simp_all
  · next heq =>
    cases heq
    exact absurd rfl hc'
  · next heq =>
    cases heq
    rfl
  · next heq =>
    cases heq
    simp_all

/-- An element in front of the input is read by its tag. -/
theorem readChildren_append_openTag {t : List Char} {tag : Tag} (ht : OpenTag t tag)
    (s : List Char) :
    readChildren (t ++ s) =
      if tag.name = "Text" then
        match readLeaf tag s with
        | .error refusal => .error refusal
        | .ok (leaf, afterLeaf) =>
          (readChildren afterLeaf).map fun result => (leaf :: result.1, result.2)
      else if tag.selfClosing then readChildren s
      else
        match skipElement tag.name s 0 s with
        | .error refusal => .error refusal
        | .ok rest => readChildren rest := by
  have hread := readOpenTag_append ht s
  obtain ⟨c, r, rfl, hc⟩ := ht.starts
  rw [List.cons_append, List.cons_append] at hread ⊢
  rw [readChildren_cons_lt hc, hread]

theorem readChildren_append_text {t : List Char} {leaf : Leaf} (ht : TextElement t leaf)
    (s : List Char) :
    readChildren (t ++ s) = (readChildren s).map fun result => (leaf :: result.1, result.2) := by
  obtain ⟨opening, tag, body, rfl, hopening, hname, hread⟩ := readLeaf_append ht
  rw [List.append_assoc, readChildren_append_openTag hopening, if_pos hname, hread]

/-- An element of another name is passed over. -/
theorem readChildren_append_passed {t : List Char} (ht : PassedElement t) (s : List Char) :
    readChildren (t ++ s) = readChildren s := by
  cases ht with
  | empty htag hname hself =>
    rw [readChildren_append_openTag htag, if_neg hname, if_pos hself]
  | @filled t tag pieces body htag hname hself hbody hcloses =>
    have hskip : skipElement tag.name (body ++ s) 0 (body ++ s) = .ok s :=
      skipElement_of_closes hbody hcloses s
    rw [List.append_assoc, readChildren_append_openTag htag, if_neg hname, hself, hskip]
    rfl

/-- **Children of the grammar are read.** Induction on the children. -/
theorem readChildren_append {t : List Char} {leaves : List Leaf} (ht : Children t leaves)
    (s : List Char) :
    readChildren (t ++ s) = (readChildren s).map fun result => (leaves ++ result.1, result.2) := by
  induction ht with
  | nil =>
    rw [List.nil_append]
    cases readChildren s <;> rfl
  | character hc _ ih => rw [List.cons_append, readChildren_cons hc, ih]
  | comment hc _ ih => rw [List.append_assoc, readChildren_append_comment hc, ih]
  | text hleaf _ ih =>
    rw [List.append_assoc, readChildren_append_text hleaf, ih]
    cases readChildren s <;> rfl
  | passed hpassed _ ih => rw [List.append_assoc, readChildren_append_passed hpassed, ih]

/-- Trivia may stand in front of children. -/
theorem Children.trivia {t s : List Char} {leaves : List Leaf} (ht : Trivia t)
    (h : Children s leaves) : Children (t ++ s) leaves := by
  induction ht with
  | nil => exact h
  | @blank c t hc _ ih =>
    refine .character ?_ ih
    rintro rfl
    exact absurd hc (by decide)
  | comment hc _ ih =>
    rw [List.append_assoc]
    exact .comment hc ih

/-- Characters that start no tag may stand in front of children. -/
theorem Children.characters {t s : List Char} {leaves : List Leaf} (ht : '<' ∉ t)
    (h : Children s leaves) : Children (t ++ s) leaves := by
  induction t with
  | nil => exact h
  | cons c t ih =>
    have hc : c ≠ '<' := fun heq => ht (by simp [heq])
    exact .character hc (ih fun hmem => ht (List.mem_cons_of_mem c hmem))

/-- Children may stand behind children, with the leaves in this order. -/
theorem Children.append {s t : List Char} {leaves others : List Leaf} (hs : Children s leaves)
    (ht : Children t others) : Children (s ++ t) (leaves ++ others) := by
  induction hs with
  | nil => exact ht
  | character hc _ ih => exact .character hc ih
  | comment hc _ ih =>
    rw [List.append_assoc]
    exact .comment hc ih
  | text hleaf _ ih =>
    rw [List.append_assoc]
    exact .text hleaf ih
  | passed hpassed _ ih =>
    rw [List.append_assoc]
    exact .passed hpassed ih

/-- Where the reader of children comes to an end, and what it reads there. -/
inductive ChildrenStop : List Char → Reading (List Leaf × List Char) → Prop
  | trivia {s : List Char} {refusal : Refusal (List Char)} (h : skipTrivia s = .error refusal) :
      ChildrenStop s (.error refusal)
  | nil : ChildrenStop [] (.error (.malformed [] (.missingEnd Element.frame.tag)))
  | noEndTag {t : List Char} {refusal : Refusal (List Char)}
      (h : readEndTag ('<' :: '/' :: t) = .error refusal) :
      ChildrenStop ('<' :: '/' :: t) (.error refusal)
  | endTag {e rest : List Char} (he : EndTag e Element.frame.tag) :
      ChildrenStop (e ++ rest) (.ok ([], rest))
  | wrongEndTag {e rest : List Char} {name : String} (he : EndTag e name)
      (hname : name ≠ Element.frame.tag) :
      ChildrenStop (e ++ rest) (.error (.malformed (e ++ rest) (.wrongEnd .frame name)))
  | noOpenTag {t : List Char} {refusal : Refusal (List Char)}
      (h : readOpenTag ('<' :: t) = .error refusal) : ChildrenStop ('<' :: t) (.error refusal)
  | leaf {opening s : List Char} {tag : Tag} {refusal : Refusal (List Char)}
      (htag : OpenTag opening tag) (hname : tag.name = Element.text.tag)
      (h : readLeaf tag s = .error refusal) : ChildrenStop (opening ++ s) (.error refusal)
  | element {opening s : List Char} {tag : Tag} {refusal : Refusal (List Char)}
      (htag : OpenTag opening tag) (hname : tag.name ≠ Element.text.tag)
      (hself : tag.selfClosing = false) (h : skipElement tag.name s 0 s = .error refusal) :
      ChildrenStop (opening ++ s) (.error refusal)

/-- Children of the grammar, and behind them a place to stop. -/
def ReadsChildren (s : List Char) (read : Reading (List Leaf × List Char)) : Prop :=
  ∃ t rest leaves stop, s = t ++ rest ∧ Children t leaves ∧ ChildrenStop rest stop ∧
    read = stop.map fun result => (leaves ++ result.1, result.2)

theorem ChildrenStop.reads {s : List Char} {read : Reading (List Leaf × List Char)}
    (h : ChildrenStop s read) : ReadsChildren s read :=
  ⟨[], s, [], read, rfl, .nil, h, by cases read <;> rfl⟩

/-- A child that is no leaf is passed over. -/
theorem ReadsChildren.pass {p s : List Char} {read : Reading (List Leaf × List Char)}
    (hp : Children p []) (h : ReadsChildren s read) : ReadsChildren (p ++ s) read := by
  obtain ⟨t, rest, leaves, stop, rfl, ht, hstop, hread⟩ := h
  exact ⟨p ++ t, rest, leaves, stop, (List.append_assoc ..).symm, hp.append ht, hstop, hread⟩

/-- A text element in front is one leaf more. -/
theorem ReadsChildren.text {p s : List Char} {leaf : Leaf} {read : Reading (List Leaf × List Char)}
    (hp : TextElement p leaf) (h : ReadsChildren s read) :
    ReadsChildren (p ++ s) (read.map fun result => (leaf :: result.1, result.2)) := by
  obtain ⟨t, rest, leaves, stop, rfl, ht, hstop, rfl⟩ := h
  refine ⟨p ++ t, rest, leaf :: leaves, stop, (List.append_assoc ..).symm, .text hp ht, hstop, ?_⟩
  cases stop <;> rfl

/-- An element in front that is passed over is no leaf. -/
theorem ReadsChildren.passElement {p s : List Char} {read : Reading (List Leaf × List Char)}
    (hp : PassedElement p) (h : ReadsChildren s read) : ReadsChildren (p ++ s) read := by
  have hchildren := Children.passed hp .nil
  rw [List.append_nil] at hchildren
  exact h.pass hchildren

/-- What is skipped in front of children is trivia of the grammar, and changes nothing. -/
theorem ReadsChildren.of_skipTrivia {s rest : List Char} {read : Reading (List Leaf × List Char)}
    (htrivia : skipTrivia s = .ok rest) (h : ReadsChildren rest read) : ReadsChildren s read := by
  obtain ⟨w, rfl, hw, -⟩ := trivia_of_skipTrivia htrivia
  have hchildren := Children.trivia hw .nil
  rw [List.append_nil] at hchildren
  exact h.pass hchildren

/-- **The reader of children passes over children of the grammar** up to the place where it stops.
The cases are those of the reader; each of them passes over trivia first. -/
theorem readsChildren_readChildren (s : List Char) : ReadsChildren s (readChildren s) := by
  fun_induction readChildren s with
  | case1 s refusal htrivia => exact (ChildrenStop.trivia htrivia).reads
  | case2 s htrivia => exact ChildrenStop.nil.reads.of_skipTrivia htrivia
  | case3 s t htrivia refusal hend => exact (ChildrenStop.noEndTag hend).reads.of_skipTrivia htrivia
  | case4 s t htrivia rest hend =>
    obtain ⟨e, he, hisEnd⟩ := endTag_of_readEndTag ⟨t, rfl⟩ hend
    rw [show '<' :: '/' :: t = _ from he] at htrivia
    exact (ChildrenStop.endTag hisEnd).reads.of_skipTrivia htrivia
  | case5 s t htrivia name rest hend hname =>
    obtain ⟨e, he, hisEnd⟩ := endTag_of_readEndTag ⟨t, rfl⟩ hend
    rw [show '<' :: '/' :: t = _ from he] at htrivia ⊢
    exact (ChildrenStop.wrongEndTag hisEnd hname).reads.of_skipTrivia htrivia
  | case6 s t hslash htrivia refusal htag =>
    exact (ChildrenStop.noOpenTag htag).reads.of_skipTrivia htrivia
  | case7 s t hslash htrivia tag afterTag htag hname refusal hleaf =>
    obtain ⟨opening, hopening, hisTag⟩ := openTag_of_readOpenTag ⟨t, rfl⟩ htag
    rw [show '<' :: t = _ from hopening] at htrivia
    exact (ChildrenStop.leaf hisTag hname hleaf).reads.of_skipTrivia htrivia
  | case8 s t hslash htrivia tag afterTag htag hname leaf afterLeaf hleaf ih =>
    obtain ⟨opening, hopening, hisTag⟩ := openTag_of_readOpenTag ⟨t, rfl⟩ htag
    obtain ⟨body, rfl, htext⟩ := textElement_of_readLeaf hisTag hname hleaf
    rw [show '<' :: t = _ from hopening, ← List.append_assoc] at htrivia
    exact (ih.text htext).of_skipTrivia htrivia
  | case9 s t hslash htrivia tag afterTag htag hname hself ih =>
    obtain ⟨opening, hopening, hisTag⟩ := openTag_of_readOpenTag ⟨t, rfl⟩ htag
    rw [show '<' :: t = _ from hopening] at htrivia
    exact (ih.passElement (.empty hisTag hname hself)).of_skipTrivia htrivia
  | case10 s t hslash htrivia tag afterTag htag hname hself refusal hskip =>
    obtain ⟨opening, hopening, hisTag⟩ := openTag_of_readOpenTag ⟨t, rfl⟩ htag
    rw [show '<' :: t = _ from hopening] at htrivia
    have hstop := ChildrenStop.element hisTag hname (by simpa using hself) hskip
    exact hstop.reads.of_skipTrivia htrivia
  | case11 s t hslash htrivia tag afterTag htag hname hself afterElement hskip ih =>
    obtain ⟨opening, hopening, hisTag⟩ := openTag_of_readOpenTag ⟨t, rfl⟩ htag
    obtain ⟨body, rfl, pieces, hbody, hcloses⟩ := closes_of_skipElement hskip
    have hpassed := PassedElement.filled hisTag hname (by simpa using hself) hbody hcloses
    rw [show '<' :: t = _ from hopening, ← List.append_assoc] at htrivia
    exact (ih.passElement hpassed).of_skipTrivia htrivia
  | case12 s c t _ hc htrivia ih =>
    -- Characters that start no tag are passed up to the next `<`, all at once.
    have hflat : '<' ∉ t.takeWhile (· != '<') := by
      intro hmem
      have hne := List.mem_takeWhile_imp hmem
      simp at hne
    have hcharacters := Children.character hc (Children.characters hflat .nil)
    rw [List.append_nil] at hcharacters
    rw [← List.takeWhile_append_dropWhile (p := (· != '<')) (l := t), ← List.cons_append] at htrivia
    exact (ih.pass hcharacters).of_skipTrivia htrivia

/-- **What is read as children is children**, with the frame's end tag behind them. -/
theorem children_of_readChildren {s rest : List Char} {leaves : List Leaf}
    (h : readChildren s = .ok (leaves, rest)) :
    ∃ t e, s = t ++ (e ++ rest) ∧ Children t leaves ∧ EndTag e "Frame" := by
  obtain ⟨t, behind, passed, stop, rfl, ht, hstop, hread⟩ := readsChildren_readChildren s
  rw [h, eq_comm, map_eq_ok] at hread
  obtain ⟨⟨others, r⟩, rfl, hparts⟩ := hread
  cases hstop with
  | @endTag e _ he =>
    simp only [List.append_nil, Prod.mk.injEq] at hparts
    obtain ⟨rfl, rfl⟩ := hparts
    exact ⟨t, e, rfl, ht, he⟩

/-! ## Documents -/

/-- An element starts with `<` and the first character of a name. -/
theorem startsElement_iff {s : List Char} :
    startsElement s = true ↔ ∃ c r, s = '<' :: c :: r ∧ isNameStart c = true := by
  constructor
  · intro h
    unfold startsElement at h
    split at h
    · next c r => exact ⟨c, r, rfl, h⟩
    · cases h
  · rintro ⟨c, r, rfl, hc⟩
    exact hc

theorem startsElement_append {t : List Char} {tag : Tag} (ht : OpenTag t tag) (s : List Char) :
    startsElement (t ++ s) = true := by
  obtain ⟨c, r, rfl, hc⟩ := ht.starts
  exact hc

/-- **Frame elements are read.** -/
theorem readFrame_append {t : List Char} {frame : Frame} (h : Root t frame) (s : List Char) :
    readFrame (t ++ s) = .ok (frame, s) := by
  cases h with
  | @empty t tag frame htag hname hself hdenoted =>
    rw [← frame_ofAttributes_eq_ok_iff_nil] at hdenoted
    rw [readFrame, if_pos (startsElement_append htag s), readOpenTag_append htag]
    simp only [hname, Element.tag, if_true, hdenoted, hself]
  | @filled t tag body leaves e frame htag hname hself hchildren hend hdenoted =>
    obtain ⟨bare, hbare, rfl⟩ := frame_ofAttributes_eq_ok_iff.2 hdenoted
    -- The children are read up to the end tag of the frame, which ends them.
    have hread : readChildren (body ++ (e ++ s)) = .ok (leaves, s) := by
      rw [readChildren_append hchildren, readChildren_append_endTag hend, if_pos rfl]
      simp [Except.map]
    rw [List.append_assoc, List.append_assoc, readFrame, if_pos (startsElement_append htag _),
      readOpenTag_append htag]
    simp only [hname, Element.tag, if_true, hbare, hself, hread]
    rfl

/-- What is read as a frame is one of the grammar. -/
theorem root_of_readFrame {s rest : List Char} {frame : Frame}
    (h : readFrame s = .ok (frame, rest)) : ∃ t, s = t ++ rest ∧ Root t frame := by
  unfold readFrame at h
  split at h
  · next hstart =>
    obtain ⟨c, r, rfl, hc⟩ := startsElement_iff.1 hstart
    split at h
    · cases h
    · next tag afterTag htag =>
      obtain ⟨opening, hopening, hisTag⟩ := openTag_of_readOpenTag ⟨c :: r, rfl⟩ htag
      split at h
      · next hname =>
        split at h
        · cases h
        · next bare hbare =>
          split at h
          · next hself =>
            cases h
            exact ⟨opening, hopening, .empty hisTag hname hself
              (frame_ofAttributes_eq_ok_iff_nil.1 hbare)⟩
          · next hself =>
            obtain ⟨⟨leaves, r'⟩, hchildren, hparts⟩ := map_eq_ok.1 h
            cases hparts
            obtain ⟨children, e, rfl, hischildren, hend⟩ := children_of_readChildren hchildren
            -- The leaves are put into the frame afterwards; its attributes denote the rest.
            have hdenoted : Frame.Denoted tag.attributes leaves { bare with leaves := leaves } :=
              frame_ofAttributes_eq_ok_iff.1 ⟨bare, hbare, rfl⟩
            refine ⟨opening ++ (children ++ e), ?_,
              .filled hisTag hname (by simpa using hself) hischildren hend hdenoted⟩
            rw [show '<' :: c :: r = _ from hopening]
            simp only [List.append_assoc]
      · cases h
  · cases h

/-- A document of the grammar is read as its frame. -/
theorem readDocument_of_document {s : List Char} {frame : Frame} (h : Document s frame) :
    readDocument s = .ok frame := by
  obtain ⟨hbefore, hroot, hafter⟩ := h
  rename_i before root after
  -- A root starts with an open tag, so the trivia before it ends there.
  have hstops : StopsTrivia (root ++ after) := by
    obtain ⟨t, tag, body, rfl, htag⟩ : ∃ t tag body, root = t ++ body ∧ OpenTag t tag := by
      cases hroot with
      | empty htag => exact ⟨_, _, [], (List.append_nil _).symm, htag⟩
      | filled htag => exact ⟨_, _, _, rfl, htag⟩
    rw [List.append_assoc]
    exact htag.stopsTrivia _
  have hend : skipTrivia after = .ok [] := by
    rw [← List.append_nil after, skipTrivia_append hafter, skipTrivia_of_stops .nil]
  unfold readDocument
  rw [skipTrivia_append hbefore, skipTrivia_of_stops hstops]
  simp only [readFrame_append hroot, hend]

/-- What is read as a document is one of the grammar. -/
theorem document_of_readDocument {s : List Char} {frame : Frame}
    (h : readDocument s = .ok frame) : Document s frame := by
  unfold readDocument at h
  split at h
  · cases h
  · next atRoot hbefore =>
    split at h
    · cases h
    · next found afterFrame hframe =>
      split at h
      · cases h
      · next hafter =>
        cases h
        obtain ⟨before, rfl, hisBefore, -⟩ := trivia_of_skipTrivia hbefore
        obtain ⟨root, rfl, hroot⟩ := root_of_readFrame hframe
        obtain ⟨after, rfl, hisAfter, -⟩ := trivia_of_skipTrivia hafter
        rw [List.append_nil]
        exact .mk hisBefore hroot hisAfter
      · cases h

/-- The parser accepts what the reader accepts, and differs only in how it tells positions. -/
theorem parse_eq_ok_iff_readDocument {markup : String} {frame : Frame} :
    Frame.parse markup = .ok frame ↔ readDocument markup.toList = .ok frame := by
  rw [Frame.parse]
  cases readDocument markup.toList <;> simp

/-- **What is accepted, and as what.** A text parses as a frame exactly when it is a document that
denotes the frame. -/
theorem parse_eq_ok_iff_document {markup : String} {frame : Frame} :
    Frame.parse markup = .ok frame ↔ Document markup.toList frame := by
  constructor
  · intro h
    unfold Frame.parse at h
    split at h
    · next found hread =>
      cases h
      exact document_of_readDocument hread
    · cases h
  · intro h
    unfold Frame.parse
    rw [readDocument_of_document h]

end CanvasLink.Markup
