import CanvasLink.Markup.Tag

/-!
# CanvasLink — documents

A document is one `<Frame>` element with trivia around it. Inside the frame, `<Text>` elements are
leaves; elements of any other name are passed over with all they hold, and so is character data.

The readers follow the grammar; each loop ends because every round leaves a shorter input
(`suffix_of_readOpenTag`, `suffix_of_readEndTag`, `suffix_of_skipElement`). `Frame.parse` is the
reader of whole documents and turns the input left at a defect into a byte offset.
-/

namespace CanvasLink.Markup

open CanvasLink.Text

/-! ## What the tag readers leave -/

theorem suffix_of_readAttributes {name : String} {start s rest : List Char}
    {attributes : List Attribute} {selfClosing : Bool}
    (h : readAttributes name start s = .ok (attributes, selfClosing, rest)) : rest <:+ s := by
  fun_induction readAttributes name start s generalizing attributes selfClosing rest with
  | case1 s r hs =>
    cases h
    have hb := skipBlanks_suffix s
    rw [hs] at hb
    exact (List.suffix_append ['/', '>'] r).trans hb
  | case2 s r hs =>
    cases h
    have hb := skipBlanks_suffix s
    rw [hs] at hb
    exact (List.suffix_cons '>' r).trans hb
  | case3 => cases h
  | case4 => cases h
  | case5 => cases h
  | case6 => cases h
  -- Name, assignment and the remaining attributes each leave a suffix of what they read.
  | case7 s c t hs _ _ attr afterName hname value afterValue hvalue as closing r hr ih =>
    cases h
    exact ((ih hr).trans (suffix_of_readAssignment hvalue)).trans
      ((suffix_of_takeName? hname).1.trans (skipBlanks_suffix s))

/-- What stands behind an opening tag is a suffix of the input, and a shorter one. -/
theorem suffix_of_readOpenTag {s rest : List Char} {tag : Tag}
    (h : readOpenTag s = .ok (tag, rest)) : rest <:+ s ∧ rest.length < s.length := by
  unfold readOpenTag at h
  split at h
  · cases h
  · next name afterName hname =>
    split at h
    · cases h
    · next attributes selfClosing r hr =>
      cases h
      have hrest := suffix_of_readAttributes hr
      have hn := suffix_of_takeName? hname
      have hs : s.drop 1 <:+ s := List.drop_suffix 1 s
      -- A name is never empty, so the rest is strictly shorter.
      refine ⟨(hrest.trans hn.1).trans hs, ?_⟩
      have h₁ := hrest.length_le
      have h₂ := hs.length_le
      omega

/-- What stands behind an end tag is a suffix of the input, and a shorter one. -/
theorem suffix_of_readEndTag {s rest : List Char} {name : String}
    (h : readEndTag s = .ok (name, rest)) : rest <:+ s ∧ rest.length < s.length := by
  unfold readEndTag at h
  split at h
  · cases h
  · next found afterName hname =>
    split at h
    · next r hr =>
      cases h
      have hn := suffix_of_takeName? hname
      have hs : s.drop 2 <:+ s := List.drop_suffix 2 s
      have hb : '>' :: rest <:+ afterName := hr ▸ skipBlanks_suffix afterName
      have hrest : rest <:+ afterName := (List.suffix_cons '>' rest).trans hb
      refine ⟨(hrest.trans hn.1).trans hs, ?_⟩
      have h₁ := hrest.length_le
      have h₂ := hs.length_le
      omega
    · cases h

theorem suffix_of_skipTrivia {s rest : List Char} (h : skipTrivia s = .ok rest) : rest <:+ s := by
  fun_induction skipTrivia s with
  | case1 => cases h
  | case2 s _ before after hb ih =>
    exact (ih h).trans ((List.drop_suffix _ after).trans
      ((suffix_of_breakBefore? hb).trans (skipBlanks_suffix s)))
  | case3 s =>
    cases h
    exact skipBlanks_suffix s

/-- Trivia that starts with a comment is not empty. -/
theorem length_skipTrivia_lt {s rest : List Char} (hs : commentOpen.isPrefixOf s = true)
    (h : skipTrivia s = .ok rest) : rest.length < s.length := by
  -- A comment opens with no blank, so skipping blanks changes nothing.
  have hblank : skipBlanks s = s := by
    obtain ⟨t, rfl⟩ := List.isPrefixOf_iff_prefix.1 hs
    rfl
  unfold skipTrivia at h
  rw [hblank, if_pos hs] at h
  split at h
  · cases h
  · next before after hb =>
    have h₁ := (suffix_of_skipTrivia h).length_le
    have h₂ := length_drop_of_breakBefore? hb
    simp only [commentClose, List.length_cons, List.length_nil] at h₁ h₂
    omega

/-! ## Elements -/

/-- Reads the content of a text element and its end tag; the input stands behind the opening
tag. Entities are decoded after blank characters at both ends are dropped. -/
def readContent (s : List Char) : Reading (String × List Char) :=
  match breakBefore? ['<', '/'] s with
  | none => .error (.malformed s (.missingEnd Element.text.tag))
  | some (raw, atEnd) =>
    match breakBefore? ['<'] raw with
    | some (before, _) => .error (.malformed (s.drop before.length) .nestedElement)
    | none =>
      match readEndTag atEnd with
      | .error refusal => .error refusal
      | .ok (name, rest) =>
        if name = Element.text.tag then .ok (String.ofList (decodeEntities (trim raw)), rest)
        else .error (.malformed atEnd (.wrongEnd .text name))

theorem suffix_of_readContent {s rest : List Char} {content : String}
    (h : readContent s = .ok (content, rest)) : rest <:+ s ∧ rest.length < s.length := by
  unfold readContent at h
  split at h
  · cases h
  · next raw atEnd hraw =>
    split at h
    · cases h
    · split at h
      · cases h
      · next name r hr =>
        split at h <;> cases h
        have hend := suffix_of_readEndTag hr
        have hs := suffix_of_breakBefore? hraw
        exact ⟨hend.1.trans hs, Nat.lt_of_lt_of_le hend.2 hs.length_le⟩

set_option linter.unusedVariables false in
/-- Passes over the rest of an element that is not read, with `depth` further open elements of the
same name around the input. Only tags of this name count; `start` is the input behind the
element's opening tag, where a missing end is reported. -/
def skipElement (name : String) (start : List Char) (depth : Nat) (s : List Char) :
    Reading (List Char) :=
  match hopen : breakBefore? ['<'] s with
  | none => .error (.malformed start (.missingEnd name))
  | some (_, atTag) =>
    if hcomment : commentOpen.isPrefixOf atTag then
      match htrivia : skipTrivia atTag with
      | .error refusal => .error refusal
      | .ok afterTrivia =>
        -- Tags inside a comment do not count.
        skipElement name start depth afterTrivia
    else if ['<', '/'].isPrefixOf atTag then
      match hend : readEndTag atTag with
      | .error refusal => .error refusal
      | .ok (found, afterTag) =>
        if found = name then
          match depth with
          | 0 => .ok afterTag
          | depth + 1 => skipElement name start depth afterTag
        else skipElement name start depth afterTag
    else
      match htag : readOpenTag atTag with
      | .error refusal => .error refusal
      | .ok (tag, afterTag) =>
        if tag.name = name ∧ tag.selfClosing = false then
          skipElement name start (depth + 1) afterTag
        else skipElement name start depth afterTag
termination_by s.length
decreasing_by
  · exact Nat.lt_of_lt_of_le (length_skipTrivia_lt hcomment htrivia)
      (suffix_of_breakBefore? hopen).length_le
  · exact Nat.lt_of_lt_of_le (suffix_of_readEndTag hend).2 (suffix_of_breakBefore? hopen).length_le
  · exact Nat.lt_of_lt_of_le (suffix_of_readEndTag hend).2 (suffix_of_breakBefore? hopen).length_le
  · exact Nat.lt_of_lt_of_le (suffix_of_readOpenTag htag).2
      (suffix_of_breakBefore? hopen).length_le
  · exact Nat.lt_of_lt_of_le (suffix_of_readOpenTag htag).2
      (suffix_of_breakBefore? hopen).length_le

theorem suffix_of_skipElement {name : String} {start s rest : List Char} {depth : Nat}
    (h : skipElement name start depth s = .ok rest) : rest <:+ s := by
  fun_induction skipElement name start depth s with
  | case1 => cases h
  | case2 => cases h
  | case3 depth s before atTag hopen _ afterTrivia htrivia ih =>
    exact (ih h).trans ((suffix_of_skipTrivia htrivia).trans (suffix_of_breakBefore? hopen))
  | case4 => cases h
  | case5 s before atTag hopen _ _ afterTag hend =>
    cases h
    exact (suffix_of_readEndTag hend).1.trans (suffix_of_breakBefore? hopen)
  | case6 s before atTag hopen _ _ afterTag depth hend ih =>
    exact (ih h).trans ((suffix_of_readEndTag hend).1.trans (suffix_of_breakBefore? hopen))
  | case7 depth s before atTag hopen _ _ found afterTag hend _ ih =>
    exact (ih h).trans ((suffix_of_readEndTag hend).1.trans (suffix_of_breakBefore? hopen))
  | case8 => cases h
  | case9 depth s before atTag hopen _ _ tag afterTag htag _ ih =>
    exact (ih h).trans ((suffix_of_readOpenTag htag).1.trans (suffix_of_breakBefore? hopen))
  | case10 depth s before atTag hopen _ _ tag afterTag htag _ ih =>
    exact (ih h).trans ((suffix_of_readOpenTag htag).1.trans (suffix_of_breakBefore? hopen))

/-- Reads a text element whose opening tag has just been read. -/
def readLeaf (tag : Tag) (s : List Char) : Reading (Leaf × List Char) :=
  match if tag.selfClosing then .ok ("", s) else readContent s with
  | .error refusal => .error refusal
  | .ok (content, rest) => (Leaf.ofAttributes tag.attributes content).map fun leaf => (leaf, rest)

theorem suffix_of_readLeaf {tag : Tag} {s rest : List Char} {leaf : Leaf}
    (h : readLeaf tag s = .ok (leaf, rest)) : rest <:+ s := by
  unfold readLeaf at h
  split at h
  · cases h
  · next content r hr =>
    -- A self-closing tag has no content; any other is read to its end tag.
    have hrest : r <:+ s := by
      split at hr
      · cases hr
        exact List.suffix_refl s
      · exact (suffix_of_readContent hr).1
    cases hleaf : Leaf.ofAttributes tag.attributes content with
    | error refusal =>
      rw [hleaf] at h
      cases h
    | ok _ =>
      rw [hleaf] at h
      cases h
      exact hrest

/-! ## Children and documents -/

set_option linter.unusedVariables false in
/-- Reads the children of the frame and its end tag: the leaves in source order and the input
behind the frame. -/
def readChildren (s : List Char) : Reading (List Leaf × List Char) :=
  match htrivia : skipTrivia s with
  | .error refusal => .error refusal
  | .ok [] => .error (.malformed [] (.missingEnd Element.frame.tag))
  | .ok ('<' :: '/' :: t) =>
    match readEndTag ('<' :: '/' :: t) with
    | .error refusal => .error refusal
    | .ok (name, rest) =>
      if name = Element.frame.tag then .ok ([], rest)
      else .error (.malformed ('<' :: '/' :: t) (.wrongEnd .frame name))
  | .ok ('<' :: t) =>
    match htag : readOpenTag ('<' :: t) with
    | .error refusal => .error refusal
    | .ok (tag, afterTag) =>
      if tag.name = Element.text.tag then
        match hleaf : readLeaf tag afterTag with
        | .error refusal => .error refusal
        | .ok (leaf, afterLeaf) =>
          (readChildren afterLeaf).map fun result => (leaf :: result.1, result.2)
      else if tag.selfClosing then readChildren afterTag
      else
        match hskip : skipElement tag.name afterTag 0 afterTag with
        | .error refusal => .error refusal
        | .ok rest => readChildren rest
  -- Character data between children is passed over.
  | .ok (_ :: t) => readChildren (t.dropWhile (· != '<'))
termination_by s.length
decreasing_by
  · have h₁ := (suffix_of_skipTrivia htrivia).length_le
    have h₂ := (suffix_of_readOpenTag htag).2
    have h₃ := (suffix_of_readLeaf hleaf).length_le
    omega
  · exact Nat.lt_of_lt_of_le (suffix_of_readOpenTag htag).2
      (suffix_of_skipTrivia htrivia).length_le
  · have h₁ := (suffix_of_skipTrivia htrivia).length_le
    have h₂ := (suffix_of_readOpenTag htag).2
    have h₃ := (suffix_of_skipElement hskip).length_le
    omega
  · have h₁ := (suffix_of_skipTrivia htrivia).length_le
    have h₂ := (List.dropWhile_suffix (l := t) (· != '<')).length_le
    simp only [List.length_cons] at h₁
    omega

/-- Whether an element starts here. -/
def startsElement : List Char → Bool
  | '<' :: c :: _ => isNameStart c
  | _ => false

/-- Reads the frame element; the input stands at its `<`. -/
def readFrame (s : List Char) : Reading (Frame × List Char) :=
  if startsElement s then
    match readOpenTag s with
    | .error refusal => .error refusal
    | .ok (tag, afterTag) =>
      if tag.name = Element.frame.tag then
        match Frame.ofAttributes tag.attributes with
        | .error refusal => .error refusal
        | .ok frame =>
          if tag.selfClosing then .ok (frame, afterTag)
          else
            (readChildren afterTag).map fun result =>
              ({ frame with leaves := result.1 }, result.2)
      else .error (.missingRoot (some tag.name))
  else .error (.missingRoot none)

/-- Reads a whole document. -/
def readDocument (s : List Char) : Reading Frame :=
  match skipTrivia s with
  | .error refusal => .error refusal
  | .ok atRoot =>
    match readFrame atRoot with
    | .error refusal => .error refusal
    | .ok (frame, afterFrame) =>
      match skipTrivia afterFrame with
      | .error refusal => .error refusal
      | .ok [] => .ok frame
      | .ok rest => .error (.malformed rest .trailingContent)

/-- The byte offset at which `rest` starts in `source`, of which it is a suffix. -/
def offsetOf (source rest : List Char) : Nat :=
  utf8Length source - utf8Length rest

/-- Parses one unit of markup. -/
def Frame.parse (markup : String) : Except (Refusal Nat) Frame :=
  match readDocument markup.toList with
  | .ok frame => .ok frame
  | .error refusal => .error (refusal.mapPosition (offsetOf markup.toList))

end CanvasLink.Markup
