import CanvasLink.Markup.Attribute
import CanvasLink.Markup.Entity
import CanvasLink.Text.Search

/-!
# CanvasLink — trivia, names and tags

The pieces from which a document is made. Each reader takes the input that is left and returns
what it read with the rest; the lemmas beside it say that the rest is a suffix of the input, and a
shorter one, which is why the loops over these readers end.

* `skipTrivia` passes over blank characters and comments.
* `takeName?` reads a name as far as it goes.
* `readOpenTag` and `readEndTag` read a tag that starts where the input stands.
-/

namespace CanvasLink.Markup

open CanvasLink.Text

/-- The start of a comment. -/
def commentOpen : List Char := ['<', '!', '-', '-']

/-- The end of a comment. -/
def commentClose : List Char := ['-', '-', '>']

set_option linter.unusedVariables false in
/-- Passes over blank characters and comments. A comment ends at the first `-->` counted from its
own `<!--`, so the two may share characters. -/
def skipTrivia (s : List Char) : Reading (List Char) :=
  if commentOpen.isPrefixOf (skipBlanks s) then
    match h : breakBefore? commentClose (skipBlanks s) with
    | none => .error (.malformed (skipBlanks s) .unterminatedComment)
    | some (_, rest) => skipTrivia (rest.drop commentClose.length)
  else .ok (skipBlanks s)
termination_by s.length
decreasing_by
  have hclose := length_drop_of_breakBefore? h
  have hblank := length_skipBlanks_le s
  simp only [commentClose, List.length_cons, List.length_nil] at hclose ⊢
  omega

/-! ## Names -/

/-- Whether a name may start with the character. -/
def isNameStart (c : Char) : Bool :=
  c.isAlpha || c == '_'

/-- Whether a name may go on with the character. -/
def isNameChar (c : Char) : Bool :=
  c.isAlphanum || c == '_' || c == '-' || c == '.' || c == ':'

/-- Reads the longest name at the start of the input. -/
def takeName? : List Char → Option (String × List Char)
  | [] => none
  | c :: s =>
    if isNameStart c then
      some (String.ofList (c :: s.takeWhile isNameChar), s.dropWhile isNameChar)
    else none

/-! ## Attribute values -/

/-- The text inside a pair of quotes of one kind, if the token is such a pair. -/
def unquoteWith? (quote : Char) : List Char → Option (List Char)
  | [] => none
  | c :: s => if c = quote ∧ s.getLast? = some quote then some s.dropLast else none

/-- The quotes that may stand around a token in braces. -/
def quotes : List Char := ['"', '\'', '\x60']

/-- The text of a token that is quoted. -/
def unquote? (token : List Char) : Option (List Char) :=
  quotes.findSome? fun quote => unquoteWith? quote token

/-- The value that a token in braces writes. -/
def AttributeValue.ofToken (token : List Char) : AttributeValue :=
  match unquote? token with
  | some inner => .literal (String.ofList (decodeEntities inner))
  | none => .expression (String.ofList token)

/-- Reads the value that stands behind an equals sign. -/
def readValue (attr : String) : List Char → Reading (AttributeValue × List Char)
  | '"' :: s =>
    match breakBefore? ['"'] s with
    | some (raw, rest) => .ok (.literal (String.ofList (decodeEntities raw)), rest.drop 1)
    | none => .error (.malformed ('"' :: s) (.unterminatedString attr))
  | '\'' :: s =>
    match breakBefore? ['\''] s with
    | some (raw, rest) => .ok (.literal (String.ofList (decodeEntities raw)), rest.drop 1)
    | none => .error (.malformed ('\'' :: s) (.unterminatedString attr))
  | '\x7b' :: s =>
    match breakBefore? ['\x7d'] s with
    | some (raw, rest) => .ok (.ofToken (trim raw), rest.drop 1)
    | none => .error (.malformed ('\x7b' :: s) (.unterminatedBraces attr))
  | s => .error (.malformed s (.missingValue attr))

/-- Reads what stands behind an attribute name: an equals sign and a value, or nothing. -/
def readAssignment (attr : String) (s : List Char) : Reading (AttributeValue × List Char) :=
  match skipBlanks s with
  | '=' :: rest => readValue attr (skipBlanks rest)
  | rest => .ok (.flag, rest)

theorem suffix_of_readValue {attr : String} {s rest : List Char} {value : AttributeValue}
    (h : readValue attr s = .ok (value, rest)) : rest <:+ s := by
  have cut {pattern t before after : List Char} {c : Char}
      (hb : breakBefore? pattern t = some (before, after)) : after.drop 1 <:+ c :: t :=
    ((List.drop_suffix 1 after).trans (suffix_of_breakBefore? hb)).trans (List.suffix_cons c t)
  unfold readValue at h
  split at h
  all_goals try split at h
  all_goals cases h
  all_goals exact cut (by assumption)

theorem suffix_of_readAssignment {attr : String} {s rest : List Char}
    {value : AttributeValue} (h : readAssignment attr s = .ok (value, rest)) : rest <:+ s := by
  unfold readAssignment at h
  have hs := skipBlanks_suffix s
  split at h
  · next t ht =>
    rw [ht] at hs
    exact ((suffix_of_readValue h).trans (skipBlanks_suffix t)).trans
      ((List.suffix_cons '=' t).trans hs)
  · cases h
    exact hs

/-! ## Tags -/

/-- An opening tag. -/
structure Tag where
  name : String
  attributes : List Attribute
  selfClosing : Bool

theorem suffix_of_takeName? {s rest : List Char} {name : String}
    (h : takeName? s = some (name, rest)) : rest <:+ s ∧ rest.length < s.length := by
  cases s with
  | nil => cases h
  | cons c s =>
    simp only [takeName?] at h
    split at h <;> cases h
    have hs : s.dropWhile isNameChar <:+ s := List.dropWhile_suffix _
    exact ⟨hs.trans (List.suffix_cons c s), Nat.lt_succ_of_le hs.length_le⟩

set_option linter.unusedVariables false in
/-- Reads the attributes and the end of an opening tag. `start` is the input from the tag's `<`
on, where a tag that does not end is reported. -/
def readAttributes (name : String) (start s : List Char) :
    Reading (List Attribute × Bool × List Char) :=
  match skipBlanks s with
  | '/' :: '>' :: rest => .ok ([], true, rest)
  | '>' :: rest => .ok ([], false, rest)
  | [] => .error (.malformed start (.unterminatedTag name))
  | c :: t =>
    match hname : takeName? (skipBlanks s) with
    | none => .error (.malformed (c :: t) (.unexpectedCharacter c name))
    | some (attr, afterName) =>
      match hvalue : readAssignment attr afterName with
      | .error refusal => .error refusal
      | .ok (value, afterValue) =>
        match readAttributes name start afterValue with
        | .error refusal => .error refusal
        | .ok (attributes, selfClosing, rest) =>
          .ok (⟨attr, value⟩ :: attributes, selfClosing, rest)
termination_by s.length
decreasing_by
  have hn := (suffix_of_takeName? hname).2
  have hv := (suffix_of_readAssignment hvalue).length_le
  have hb := length_skipBlanks_le s
  omega

/-- Reads an opening tag; the input stands at its `<`. -/
def readOpenTag (s : List Char) : Reading (Tag × List Char) :=
  match takeName? (s.drop 1) with
  | none => .error (.malformed s (.missingName false))
  | some (name, afterName) =>
    match readAttributes name s afterName with
    | .error refusal => .error refusal
    | .ok (attributes, selfClosing, rest) => .ok (⟨name, attributes, selfClosing⟩, rest)

/-- Reads an end tag; the input stands at its `</`. -/
def readEndTag (s : List Char) : Reading (String × List Char) :=
  match takeName? (s.drop 2) with
  | none => .error (.malformed s (.missingName true))
  | some (name, afterName) =>
    match skipBlanks afterName with
    | '>' :: rest => .ok (name, rest)
    | _ => .error (.malformed s (.unterminatedEndTag name))

end CanvasLink.Markup
