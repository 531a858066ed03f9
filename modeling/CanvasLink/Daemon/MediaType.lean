/-!
# CanvasLink — media types

Which media types of a request's body stand for JSON. A media type is `type/subtype`, where the
subtype may end in a suffix after `+`, with parameters after a semicolon. Letter case does not
matter.
-/

namespace CanvasLink.Daemon

/-- Whether a character may stand in the names and plain values of a media type. -/
def isMediaToken (c : Char) : Bool :=
  c.isAlphanum || c ∈
    ['!', '#', '$', '%', '&', '\'', '*', '+', '-', '.', '^', '_', '\x60', '|', '~']

/-- Whether a character may stand between the quotes of a parameter's value. -/
def isQuotedMediaChar (c : Char) : Bool :=
  ' ' ≤ c && c ≤ '~'

/-- A media type without its parameters. -/
structure MediaType where
  main : List Char
  /-- All of the subtype, with its suffix. -/
  subtype : List Char
deriving DecidableEq, Repr

/-! ## Parameters -/

/-- What is expected next among parameters. -/
inductive ParameterState where
  /-- A parameter, after blanks. -/
  | start
  | name
  | valueStart
  | value
  /-- Inside quotes; a quote right after the opening one does not close. -/
  | quoteStart
  | quote
  /-- After the closing quote. -/
  | quoteEnd
deriving DecidableEq, Repr

/-- The state after a character, if it may stand there. -/
def ParameterState.next (state : ParameterState) (c : Char) : Option ParameterState :=
  match state with
  | start =>
    if c = ' ' then some start else if isMediaToken c then some name else none
  | name =>
    if isMediaToken c then some name else if c = '=' then some valueStart else none
  | valueStart =>
    if c = '"' then some quoteStart else if isMediaToken c then some value else none
  | value =>
    if isMediaToken c then some value else if c = ';' then some start else none
  | quoteStart => if isQuotedMediaChar c then some quote else none
  | quote =>
    if c = '"' then some quoteEnd else if isQuotedMediaChar c then some quote else none
  | quoteEnd =>
    if c = ' ' then some quoteEnd else if c = ';' then some start else none

/-- Whether parameters may end in a state. -/
def ParameterState.mayEnd : ParameterState → Bool
  | start => true
  | name => false
  | valueStart => true
  | value => true
  | quoteStart => false
  | quote => false
  | quoteEnd => true

/-- Whether a text is a list of parameters. -/
def isParameters (text : List Char) : Bool :=
  (text.foldlM ParameterState.next .start).any (·.mayEnd)

/-! ## Media types -/

namespace MediaType

/-- Reads a media type with its parameters. -/
def parse? (text : List Char) : Option MediaType :=
  let main := text.takeWhile isMediaToken
  match text.dropWhile isMediaToken with
  | '/' :: rest =>
    let subtype := rest.takeWhile isMediaToken
    if main.isEmpty || subtype.isEmpty then none
    else match rest.dropWhile isMediaToken with
      | [] => some ⟨main, subtype⟩
      | separator :: parameters =>
        if separator = ';' && isParameters parameters then some ⟨main, subtype⟩ else none
  | _ => none

/-- The subtype before the last `+`, which may not stand first, and the suffix after it. -/
def splitSuffix (subtype : List Char) : List Char × Option (List Char) :=
  let suffix := (subtype.reverse.takeWhile (· ≠ '+')).reverse
  let stem := (subtype.take (subtype.length - suffix.length)).dropLast
  if stem.isEmpty then (subtype, none) else (stem, some suffix)

/-- Whether a body of this type is JSON. -/
def isJson (m : MediaType) : Bool :=
  let lower := fun (s : List Char) => String.ofList (s.map Char.toLower)
  let (stem, suffix) := splitSuffix m.subtype
  lower m.main == "application" && (lower stem == "json" || suffix.any (lower · == "json"))

end MediaType

end CanvasLink.Daemon
