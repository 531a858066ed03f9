import CanvasLink.Proofs.Decimal.RoundTrip

/-!
# CanvasLink — reading a script back

A reader of the part of the scripting language in which scripts are written. It knows nothing of
how they are written: it cuts a text into tokens, takes the tokens apart into statements, and reads
each statement by the ordinary rules of the language.

* `tokens?` — words, quoted texts, numerals and marks, with blanks anywhere between them.
* `Expr`, `expr?` — values: literals, objects, lists, paths and calls.
* `Stmt`, `statement?` — constants, assignments, calls, `await` and `return`.
* `program?` — an asynchronous function without parameters that is called at once.

Texts and numerals follow JSON, which is a part of the language. Older engines take two line
separators for the end of a line, so that a text must not hold them as they stand.
-/

namespace CanvasLink.Script

/-! ## Tokens -/

inductive Token where
  | word (name : String)
  | text (value : String)
  | number (value : Float)
  | arrow
  | mark (c : Char)
deriving DecidableEq

def isWordStart (c : Char) : Bool :=
  c.isAlpha || c == '_' || c == '$'

def isWordChar (c : Char) : Bool :=
  isWordStart c || c.isDigit

def isMark (c : Char) : Bool :=
  c ∈ ['(', ')', '[', ']', '\x7b', '\x7d', ',', ';', ':', '.', '=', '/', '-']

def breaksLine : Json.Piece → Bool
  | .plain c => c == '\u2028' || c == '\u2029'
  | .unit _ => false

/-- Reads a text behind its opening quote. -/
def text? (s : List Char) : Option (Token × List Char) := do
  let (pieces, rest) ← Json.readPieces? s
  if pieces.any breaksLine then none
  else
    let value ← Json.joinPieces? pieces
    return (.text (String.ofList value), rest)

def number? (s : List Char) : Option (Token × List Char) :=
  (Json.readMagnitude? false s).map fun (digits, rest) => (.number (Decimal.numeralValue digits), rest)

/-- Reads one token at the start of the text. -/
def token? : List Char → Option (Token × List Char)
  | [] => none
  | '"' :: s => text? s
  | '=' :: '>' :: s => some (.arrow, s)
  | c :: s =>
    if isWordStart c then
      some (.word (String.ofList (c :: s.takeWhile isWordChar)), s.dropWhile isWordChar)
    else if c.isDigit then number? (c :: s)
    else if isMark c then some (.mark c, s)
    else none

theorem length_token?_lt {s rest : List Char} {token : Token}
    (h : token? s = some (token, rest)) : rest.length < s.length := by
  unfold token? at h
  split at h
  · cases h
  · next t =>
    simp only [text?, Option.bind_eq_bind, Option.bind_eq_some_iff] at h
    obtain ⟨⟨pieces, r⟩, hpieces, h⟩ := h
    have hlt := Json.length_readPieces?_lt hpieces
    split at h
    · cases h
    · obtain ⟨_, _, h⟩ := Option.bind_eq_some_iff.1 h
      cases h
      exact Nat.lt_succ_of_lt hlt
  · -- The arrow takes two characters.
    cases h
    simp only [List.length_cons]
    omega
  · next c t =>
    split at h
    · cases h
      exact Nat.lt_succ_of_le (List.dropWhile_suffix _).length_le
    · split at h
      · obtain ⟨⟨_, r⟩, hr, h⟩ := Option.map_eq_some_iff.1 h
        cases h
        exact Json.length_readMagnitude?_lt hr
      · split at h
        · cases h
          exact Nat.lt_succ_self _
        · cases h

def isSpace (c : Char) : Bool :=
  c == ' ' || c == '\n'

set_option linter.unusedVariables false in
/-- The tokens of a text. -/
def tokens? (s : List Char) : Option (List Token) :=
  match hs : s.dropWhile isSpace with
  | [] => some []
  | c :: t =>
    match ht : token? (c :: t) with
    | none => none
    | some (token, rest) => (tokens? rest).map (token :: ·)
termination_by s.length
decreasing_by
  have hlt := length_token?_lt ht
  have hle := (List.dropWhile_suffix (l := s) isSpace).length_le
  rw [hs] at hle
  omega

/-! ## Expressions -/

inductive Expr where
  | text (value : String)
  | number (value : Float)
  | boolean (b : Bool)
  /-- A name, and the properties that are read from it one after the other. -/
  | path (names : List String)
  | object (keys : List String) (values : List Expr)
  | list (items : List Expr)
  | call (callee : List String) (arguments : List Expr)

/-- The names behind a first one, each with its point. -/
def trail : List Token → List String × List Token
  | .mark '.' :: .word name :: rest => (name :: (trail rest).1, (trail rest).2)
  | rest => ([], rest)

mutual

/-- Reads an expression. It nests, and its lists run, no further than `fuel`. -/
def expr? : Nat → List Token → Option (Expr × List Token)
  | 0, _ => none
  | _ + 1, .text value :: rest => some (.text value, rest)
  | _ + 1, .number value :: rest => some (.number value, rest)
  | _ + 1, .mark '-' :: .number value :: rest => some (.number (-value), rest)
  | fuel + 1, .mark '[' :: rest =>
    (items? fuel ']' rest).map fun (items, rest) => (.list items, rest)
  | fuel + 1, .mark '\x7b' :: rest =>
    (members? fuel rest).map fun (keys, values, rest) => (.object keys values, rest)
  | fuel + 1, .word name :: rest =>
    if name = "true" then some (.boolean true, rest)
    else if name = "false" then some (.boolean false, rest)
    else
      match trail rest with
      | (names, .mark '(' :: rest) =>
        (items? fuel ')' rest).map fun (items, rest) => (.call (name :: names) items, rest)
      | (names, rest) => some (.path (name :: names), rest)
  | _ + 1, _ => none

/-- Reads the items of a list up to its closing mark; a comma may stand behind the last one. -/
def items? : Nat → Char → List Token → Option (List Expr × List Token)
  | 0, _, _ => none
  | fuel + 1, close, tokens =>
    if tokens.head? = some (.mark close) then some ([], tokens.tail)
    else
      match expr? fuel tokens with
      | some (item, .mark c :: rest) =>
        if c = ',' then (items? fuel close rest).map fun (items, rest) => (item :: items, rest)
        else if c = close then some ([item], rest)
        else none
      | _ => none

/-- Reads the members of an object up to its closing brace. -/
def members? : Nat → List Token → Option (List String × List Expr × List Token)
  | 0, _ => none
  | _ + 1, .mark '\x7d' :: rest => some ([], [], rest)
  | fuel + 1, .word key :: .mark ':' :: rest =>
    match expr? fuel rest with
    | some (value, .mark ',' :: rest) =>
      (members? fuel rest).map fun (keys, values, rest) => (key :: keys, value :: values, rest)
    | some (value, .mark '\x7d' :: rest) => some ([key], [value], rest)
    | _ => none
  | _ + 1, _ => none

end

/-- Reads all tokens as one expression. -/
def whole? (tokens : List Token) : Option Expr :=
  match expr? tokens.length tokens with
  | some (e, []) => some e
  | _ => none

/-! ## Statements -/

inductive Stmt where
  /-- The constant `rgb`: a function that turns six digits into the channels of a color. -/
  | colors
  | constant (name : String) (value : Expr)
  | assign (path : List String) (value : Expr)
  | evaluate (e : Expr)
  | wait (e : Expr)
  | result (e : Expr)

/-- One channel of the color function: two digits as a byte, divided by 255. -/
def channelTokens (key : String) (first last : Float) : List Token :=
  [.word key, .mark ':', .word "parseInt", .mark '(', .word "hex", .mark '.', .word "slice",
   .mark '(', .number first, .mark ',', .number last, .mark ')', .mark ',', .number 16, .mark ')',
   .mark '/', .number 255]

/-- The definition of the color function. Its body is not read any further. -/
def colorTokens : List Token :=
  [Token.word "const", .word "rgb", .mark '=', .mark '(', .word "hex", .mark ')', .arrow, .mark '(',
   .mark '\x7b'] ++ channelTokens "r" 0 2 ++ [Token.mark ','] ++ channelTokens "g" 2 4 ++ [Token.mark ','] ++
    channelTokens "b" 4 6 ++ [Token.mark '\x7d', .mark ')']

/-- Reads one statement, without its semicolon. -/
def statement? (tokens : List Token) : Option Stmt :=
  if tokens = colorTokens then some .colors
  else
    match tokens with
    | .word "const" :: .word name :: .mark '=' :: rest => (whole? rest).map (.constant name)
    | .word "await" :: rest => (whole? rest).map .wait
    | .word "return" :: rest => (whole? rest).map .result
    | .word name :: rest =>
      match trail rest with
      | (names, .mark '=' :: rest) => (whole? rest).map (.assign (name :: names))
      | _ => (whole? tokens).map .evaluate
    | _ => none

/-- Cuts tokens behind each semicolon. -/
def cut? : List Token → Option (List (List Token))
  | [] => some []
  | .mark ';' :: rest => (cut? rest).map ([] :: ·)
  | token :: rest =>
    match cut? rest with
    | some (statement :: statements) => some ((token :: statement) :: statements)
    -- What is left has no semicolon.
    | _ => none

def opening : List Token :=
  [.mark '(', .word "async", .mark '(', .mark ')', .arrow, .mark '\x7b']

def closing : List Token :=
  [.mark '\x7d', .mark ')', .mark '(', .mark ')']

/-- The tokens inside the function. -/
def body? (tokens : List Token) : Option (List Token) :=
  if opening <+: tokens ∧ closing <:+ tokens.drop opening.length then
    some ((tokens.drop opening.length).take (tokens.length - opening.length - closing.length))
  else none

/-- The statements of a script. -/
def program? (script : String) : Option (List Stmt) := do
  let tokens ← tokens? script.toList
  let body ← body? tokens
  let statements ← cut? body
  statements.mapM statement?

end CanvasLink.Script
