import CanvasLink.Markup.Tag
import CanvasLink.Proofs.Markup.Denotation

/-!
# CanvasLink — the grammar of documents

The texts that are documents, and the frame that each of them denotes, said without a reader. Every
relation below has the text first and what it denotes behind it:

* `Trivia`, `Comment` — blank characters and comments, in any mix.
* `Spelling`, `AttributeList`, `OpenTag`, `EndTag` — tags with their attributes. Names are maximal:
  where a name could go on, it does (`StopsName`).
* `TextElement`, `PassedElement` — the two kinds of elements inside a frame. A passed element ends
  with the end tag at which the tags of its own name balance for the first time (`Closes`).
* `Children`, `Root`, `Document` — the rest of the grammar.

Nothing here scans: a text belongs to a relation when it splits as the relation says.
-/

namespace CanvasLink.Markup

open CanvasLink.Text

/-! ## Trivia and names -/

/-- A comment runs from `<!--` through the first `-->` in it. The two may share characters. -/
def Comment (s : List Char) : Prop :=
  commentOpen <+: s ∧ ∃ before, EndsAtFirst commentClose before s

/-- Blank characters and comments. -/
inductive Trivia : List Char → Prop
  | nil : Trivia []
  | blank {c s} : isBlank c = true → Trivia s → Trivia (c :: s)
  | comment {c s} : Comment c → Trivia s → Trivia (c ++ s)

/-- A name. -/
def Name (n : List Char) : Prop :=
  ∃ c s, n = c :: s ∧ isNameStart c = true ∧ ∀ d ∈ s, isNameChar d = true

/-- A name in front of the text does not go on into it. -/
def StopsName (s : List Char) : Prop :=
  ∀ c ∈ s.head?, isNameChar c = false

/-! ## Tags -/

/-- A token in braces: a text in quotes, or a bare token. -/
inductive TokenSpelling : List Char → AttributeValue → Prop
  | quoted {quote inner} : quote ∈ quotes →
      TokenSpelling (quote :: (inner ++ [quote])) (.literal (String.ofList (decodeEntities inner)))
  | bare {token} : (∀ quote ∈ quotes, ∀ inner, token ≠ quote :: (inner ++ [quote])) →
      TokenSpelling token (.expression (String.ofList token))

/-- A value behind an equals sign. -/
inductive Spelling : List Char → AttributeValue → Prop
  | quoted {quote raw} : quote ∈ ['"', '\''] → quote ∉ raw →
      Spelling (quote :: (raw ++ [quote])) (.literal (String.ofList (decodeEntities raw)))
  | braced {raw token value} : '\x7d' ∉ raw → Trimmed raw token → TokenSpelling token value →
      Spelling ('\x7b' :: (raw ++ ['\x7d'])) value

/-- Attributes: each is a name alone, or a name with an equals sign and a value. -/
inductive AttributeList : List Char → List Attribute → Prop
  | nil {w} : Blanks w → AttributeList w []
  | flag {w n s attributes} : Blanks w → Name n → StopsName s → AttributeList s attributes →
      AttributeList (w ++ (n ++ s)) (⟨String.ofList n, .flag⟩ :: attributes)
  | valued {w n w₁ w₂ v value s attributes} : Blanks w → Name n → Blanks w₁ → Blanks w₂ →
      Spelling v value → AttributeList s attributes →
      AttributeList (w ++ (n ++ (w₁ ++ '=' :: (w₂ ++ (v ++ s)))))
        (⟨String.ofList n, value⟩ :: attributes)

/-- The end of an opening tag. -/
def tagEnd : Bool → List Char
  | true => ['/', '>']
  | false => ['>']

/-- An opening tag. -/
inductive OpenTag : List Char → Tag → Prop
  | mk {n s attributes} (selfClosing : Bool) : Name n → StopsName s → AttributeList s attributes →
      OpenTag ('<' :: (n ++ (s ++ tagEnd selfClosing))) ⟨String.ofList n, attributes, selfClosing⟩

/-- The end tag of an element. -/
inductive EndTag : List Char → String → Prop
  | mk {n w} : Name n → Blanks w → EndTag ('<' :: '/' :: (n ++ (w ++ ['>']))) (String.ofList n)

/-! ## Elements inside a frame -/

/-- A text element. Its content holds no `<`; blank characters around it do not count. -/
inductive TextElement : List Char → Leaf → Prop
  | empty {t tag leaf} : OpenTag t tag → tag.name = "Text" → tag.selfClosing = true →
      Leaf.Denoted tag.attributes "" leaf → TextElement t leaf
  | filled {t tag raw content e leaf} : OpenTag t tag → tag.name = "Text" →
      tag.selfClosing = false → '<' ∉ raw → Trimmed raw content → EndTag e "Text" →
      Leaf.Denoted tag.attributes (String.ofList (decodeEntities content)) leaf →
      TextElement (t ++ (raw ++ e)) leaf

/-- What stands inside an element that is passed over. -/
inductive Piece where
  | character
  | comment
  | openTag (name : String) (selfClosing : Bool)
  | endTag (name : String)

/-- The text of a piece. -/
inductive Piece.Text : Piece → List Char → Prop
  | character {c} : c ≠ '<' → Text .character [c]
  | comment {s} : Comment s → Text .comment s
  | openTag {s tag} : OpenTag s tag → Text (.openTag tag.name tag.selfClosing) s
  | endTag {s name} : EndTag s name → Text (.endTag name) s

/-- The text of pieces that follow each other. -/
inductive Stretch : List Piece → List Char → Prop
  | nil : Stretch [] []
  | cons {piece pieces s rest} : piece.Text s → Stretch pieces rest →
      Stretch (piece :: pieces) (s ++ rest)

/-- How far a piece closes elements of a name: an end tag of the name closes one and an opening tag
opens one. Nothing else counts. -/
def Piece.closing (name : String) : Piece → Int
  | .openTag other false => if other = name then -1 else 0
  | .endTag other => if other = name then 1 else 0
  | _ => 0

/-- How many more elements of a name the pieces close than they open. -/
def closings (name : String) (pieces : List Piece) : Int :=
  pieces.foldr (fun piece count => piece.closing name + count) 0

/-- The pieces close `count` elements of the name, and no shorter stretch of them does. -/
def Closes (name : String) (count : Int) (pieces : List Piece) : Prop :=
  closings name pieces = count ∧
    ∀ shorter, shorter <+: pieces → closings name shorter = count → shorter = pieces

/-- An element that is passed over, with all it holds. -/
inductive PassedElement : List Char → Prop
  | empty {t tag} : OpenTag t tag → tag.name ≠ "Text" → tag.selfClosing = true → PassedElement t
  | filled {t tag pieces body} : OpenTag t tag → tag.name ≠ "Text" → tag.selfClosing = false →
      Stretch pieces body → Closes tag.name 1 pieces → PassedElement (t ++ body)

/-! ## Documents -/

/-- What stands inside a frame: trivia, character data, text elements and elements that are passed
over, in any order. Blank characters are character data like any other. -/
inductive Children : List Char → List Leaf → Prop
  | nil : Children [] []
  | character {c s leaves} : c ≠ '<' → Children s leaves → Children (c :: s) leaves
  | comment {c s leaves} : Comment c → Children s leaves → Children (c ++ s) leaves
  | text {t s leaf leaves} : TextElement t leaf → Children s leaves →
      Children (t ++ s) (leaf :: leaves)
  | passed {t s leaves} : PassedElement t → Children s leaves → Children (t ++ s) leaves

/-- A frame element. -/
inductive Root : List Char → Frame → Prop
  | empty {t tag frame} : OpenTag t tag → tag.name = "Frame" → tag.selfClosing = true →
      Frame.Denoted tag.attributes [] frame → Root t frame
  | filled {t tag s leaves e frame} : OpenTag t tag → tag.name = "Frame" →
      tag.selfClosing = false → Children s leaves → EndTag e "Frame" →
      Frame.Denoted tag.attributes leaves frame → Root (t ++ (s ++ e)) frame

/-- A document: a frame element with trivia around it. -/
inductive Document : List Char → Frame → Prop
  | mk {before root after frame} : Trivia before → Root root frame → Trivia after →
      Document (before ++ (root ++ after)) frame

end CanvasLink.Markup
