import CanvasLink.Proofs.Markup.Printing
import CanvasLink.Proofs.Text.Slicing

/-!
# CanvasLink — parsing with a cursor

The parser of markup once more, as a cursor that walks over the bytes of a text: it cuts the text at
its position whenever it looks at what is left, moves by numbers of bytes, and goes round loops that
nothing but their bound is sure to end.

* `Scan` — programs that move a cursor. A run tells every move and every round of a loop that did
  not end it, also when it stops early (`Run`, `Event`, `Halt`).
* `rest`, `advance`, `eat`, `takeUntil`, `name` — the steps of the cursor.
* `loop` — a loop, with one round more than the text has bytes for its bound.
* `parse` — the parser of whole documents. It comes to the same as `Frame.parse`, which is shown
  together with what the runs have in common.
-/

namespace CanvasLink.Markup.Cursor

open CanvasLink.Text

/-! ## Searching by bytes -/

/-- The byte position of the first occurrence of a pattern. -/
def findPattern? (pattern s : List Char) : Option Nat :=
  (breakBefore? pattern s).map fun parts => utf8Length parts.1

/-- The byte position of the first character with a property. -/
def findChar? (p : Char → Bool) : List Char → Option Nat
  | [] => none
  | c :: s => if p c then some 0 else (findChar? p s).map (c.utf8Size + ·)

/-- The first character with a property is found behind all those without it, or at the end. -/
theorem findChar?_getD (p : Char → Bool) (s : List Char) :
    (findChar? p s).getD (utf8Length s) = utf8Length (s.takeWhile fun c => !p c) := by
  induction s with
  | nil => rfl
  | cons c s ih =>
    rw [findChar?, List.takeWhile_cons]
    cases p c with
    | true => rfl
    | false =>
      simp only [Bool.false_eq_true, if_false, Bool.not_false, if_true, utf8Length, ← ih]
      cases findChar? p s <;> rfl

/-! ## Runs -/

/-- Why a run stops early. -/
inductive Halt where
  | refused (refusal : Refusal Nat)
  /-- A text is cut behind its end or inside of a character. -/
  | outOfRange
  /-- A loop has used up its bound. -/
  | exhausted
deriving DecidableEq, Repr

/-- The loops of the parser. -/
inductive Loop where
  | trivia
  | attributes
  | children
  /-- The loop over an element that is not read. -/
  | element
  | entities
deriving DecidableEq, Repr

/-- What can be seen of a run. -/
inductive Event where
  | moved (position : Nat)
  /-- A round of a loop has neither ended the loop nor the run. -/
  | completed (loop : Loop) (start stop : Nat)
deriving DecidableEq, Repr

/-- A run, with the position at which it stops. -/
structure Run (α : Type) where
  log : List Event
  position : Nat
  outcome : Except Halt α

/-- The position to which the cursor is moved. -/
def Event.position? : Event → Option Nat
  | .moved position => some position
  | .completed _ _ _ => none

/-- The positions to which the cursor is moved, in their order. -/
def Run.positions {α : Type} (run : Run α) : List Nat :=
  run.log.filterMap Event.position?

/-- A program that moves a cursor over a text, from a byte position on. -/
def Scan (α : Type) :=
  (src : List Char) → (position : Nat) → Run α

namespace Scan

variable {α β : Type}

def done (a : α) : Scan α := fun _ position =>
  ⟨[], position, .ok a⟩

def bind (scan : Scan α) (next : α → Scan β) : Scan β := fun src position =>
  let run := scan src position
  match run.outcome with
  | .error halt => ⟨run.log, run.position, .error halt⟩
  | .ok a =>
    let after := next a src run.position
    ⟨run.log ++ after.log, after.position, after.outcome⟩

instance : Monad Scan where
  pure := done
  bind := bind

end Scan

variable {α σ β : Type}

/-! ## Steps -/

def halt (why : Halt) : Scan α := fun _ position =>
  ⟨[], position, .error why⟩

def refuse (position : Nat) (defect : Defect) : Scan α :=
  halt (.refused (.malformed position defect))

/-- Goes on with what was read from attributes. -/
def accept (reading : Reading α) : Scan α := fun src position =>
  match reading with
  | .ok a => ⟨[], position, .ok a⟩
  | .error refusal => ⟨[], position, .error (.refused (refusal.mapPosition (offsetOf src)))⟩

def position : Scan Nat := fun _ position =>
  ⟨[], position, .ok position⟩

/-- Cuts out a part of a text. -/
def slice (start stop : Nat) (text : List Char) : Scan (List Char) :=
  match slice? start stop text with
  | some part => return part
  | none => halt .outOfRange

/-- The text from the position on. -/
def rest : Scan (List Char) := fun src position =>
  match splitAtByte? position src with
  | some (_, behind) => ⟨[], position, .ok behind⟩
  | none => ⟨[], position, .error .outOfRange⟩

def atEnd : Scan Bool := fun src position =>
  ⟨[], position, .ok (decide (utf8Length src ≤ position))⟩

def moveTo (target : Nat) : Scan Unit := fun _ _ =>
  ⟨[.moved target], target, .ok ()⟩

def advance (bytes : Nat) : Scan Unit := do
  moveTo ((← position) + bytes)

def moveToEnd : Scan Unit := fun src =>
  moveTo (utf8Length src) src

def record (event : Event) : Scan Unit := fun _ position =>
  ⟨[event], position, .ok ()⟩

/-- Passes over a token if the text goes on with it. -/
def eat (token : List Char) : Scan Bool := do
  if token.isPrefixOf (← rest) then
    advance (utf8Length token)
    return true
  else return false

def passBlanks : Scan Unit := do
  let left ← rest
  advance (utf8Length left - utf8Length (skipBlanks left))

/-- The text in front of the next occurrence of a pattern, where the cursor is moved. -/
def takeUntil (pattern : List Char) : Scan (Option (List Char)) := do
  let left ← rest
  match findPattern? pattern left with
  | none => return none
  | some stop =>
    advance stop
    let before ← slice 0 stop left
    return some before

def name : Scan (Option String) := do
  let left ← rest
  match left with
  | [] => return none
  | c :: t =>
    if isNameStart c then
      let next := findChar? (fun d => !isNameChar d) t
      let stop := (next.map (c.utf8Size + ·)).getD (utf8Length left)
      advance stop
      let text ← slice 0 stop left
      return some (String.ofList text)
    else return none

/-- Runs a program over a text of its own; its positions are no positions of the cursor. -/
def within (text : List Char) (scan : Scan α) : Scan α := fun _ position =>
  ⟨[], position, (scan text 0).outcome⟩

/-! ## Loops -/

/-- How a round of a loop ends that does not fail. -/
inductive Round (σ β : Type) where
  | ends (result : β)
  | goesOn (state : σ)

/-- Goes round a loop, at most so often. -/
def rounds (kind : Loop) (body : σ → Scan (Round σ β)) : Nat → σ → Scan β
  | 0, _ => halt .exhausted
  | bound + 1, state => do
    let start ← position
    match ← body state with
    | .ends result => return result
    | .goesOn next =>
      -- Only a round behind which the loop goes on is recorded.
      record (.completed kind start (← position))
      rounds kind body bound next

/-- A loop: its bound is one round more than the text has bytes. -/
def loop (kind : Loop) (body : σ → Scan (Round σ β)) (state : σ) : Scan β := fun src =>
  rounds kind body (utf8Length src + 1) state src

/-! ## Trivia and tags -/

def triviaRound (_ : Unit) : Scan (Round Unit Unit) := do
  passBlanks
  if commentOpen.isPrefixOf (← rest) then
    let start ← position
    match findPattern? commentClose (← rest) with
    | some stop =>
      advance (stop + utf8Length commentClose)
      return .goesOn ()
    | none => refuse start .unterminatedComment
  else return .ends ()

def passTrivia : Scan Unit :=
  loop .trivia triviaRound ()

/-- `decoded` is the text that stands for what the cursor has passed. -/
def decodeRound (decoded : List Char) : Scan (Round (List Char) (List Char)) := do
  let left ← rest
  match findPattern? ['&'] left with
  | none =>
    moveToEnd
    return .ends (decoded ++ left)
  | some stop =>
    let before ← slice 0 stop left
    advance stop
    -- The cursor stands in front of an ampersand.
    let behind ← rest
    match entities.find? fun entity => entity.1.isPrefixOf behind with
    | some (entity, c) =>
      advance (utf8Length entity)
      return .goesOn (decoded ++ before ++ [c])
    | none =>
      advance 1
      return .goesOn (decoded ++ before ++ ['&'])

def decode (raw : List Char) : Scan (List Char) :=
  within raw (loop .entities decodeRound [])

def literal (raw : List Char) : Scan AttributeValue := do
  return .literal (String.ofList (← decode raw))

def token (raw : List Char) : Scan AttributeValue :=
  match unquote? (trim raw) with
  | some inner => literal inner
  | none => return .expression (String.ofList (trim raw))

/-- A value between two marks, if the text goes on with the first of them. `start` is where a value
is reported that does not end. -/
def enclosed (opening closing : Char) (unterminated : Defect)
    (ofRaw : List Char → Scan AttributeValue) (start : Nat) : Scan (Option AttributeValue) := do
  if ← eat [opening] then
    match ← takeUntil [closing] with
    | none => refuse start unterminated
    | some raw =>
      advance (utf8Length [closing])
      let found ← ofRaw raw
      return some found
  else return none

def value (attr : String) : Scan AttributeValue := do
  let start ← position
  match ← enclosed '"' '"' (.unterminatedString attr) literal start with
  | some found => return found
  | none =>
    match ← enclosed '\'' '\'' (.unterminatedString attr) literal start with
    | some found => return found
    | none =>
      match ← enclosed '\x7b' '\x7d' (.unterminatedBraces attr) token start with
      | some found => return found
      | none => refuse start (.missingValue attr)

def assignment (attr : String) : Scan AttributeValue := do
  passBlanks
  if ← eat ['='] then
    passBlanks
    value attr
  else return .flag

/-- One attribute of a tag, or the end of the tag. `start` is where the tag starts. -/
def attributesRound (tag : String) (start : Nat) (attributes : List Attribute) :
    Scan (Round (List Attribute) (List Attribute × Bool)) := do
  passBlanks
  if ← eat ['/', '>'] then return .ends (attributes, true)
  else if ← eat ['>'] then return .ends (attributes, false)
  else if ← atEnd then refuse start (.unterminatedTag tag)
  else
    let here ← position
    match ← name with
    | none =>
      let left ← rest
      refuse here (.unexpectedCharacter (left.headD '\x00') tag)
    | some attr =>
      let value ← assignment attr
      return .goesOn (attributes ++ [⟨attr, value⟩])

def openTag : Scan Tag := do
  let start ← position
  let _ ← eat ['<']
  match ← name with
  | none => refuse start (.missingName false)
  | some tag =>
    let (attributes, selfClosing) ← loop .attributes (attributesRound tag start) []
    return ⟨tag, attributes, selfClosing⟩

def endTag : Scan String := do
  let start ← position
  let _ ← eat ['<', '/']
  match ← name with
  | none => refuse start (.missingName true)
  | some found =>
    passBlanks
    if ← eat ['>'] then return found
    else refuse start (.unterminatedEndTag found)

/-! ## Elements and documents -/

def content : Scan String := do
  let start ← position
  match ← takeUntil ['<', '/'] with
  | none => refuse start (.missingEnd Element.text.tag)
  | some raw =>
    match findPattern? ['<'] raw with
    | some nested => refuse (start + nested) .nestedElement
    | none =>
      let stop ← position
      let found ← endTag
      if found = Element.text.tag then
        let text ← decode (trim raw)
        return String.ofList text
      else refuse stop (.wrongEnd .text found)

/-- `depth` counts the open elements of the name. -/
def elementRound (element : String) (start depth : Nat) : Scan (Round Nat Unit) := do
  match ← takeUntil ['<'] with
  | none => refuse start (.missingEnd element)
  | some _ =>
    let left ← rest
    if commentOpen.isPrefixOf left then
      passTrivia
      return .goesOn depth
    else if ['<', '/'].isPrefixOf left then
      let found ← endTag
      if found = element then
        -- Tags of other names are not matched with each other.
        if depth - 1 = 0 then return .ends ()
        else return .goesOn (depth - 1)
      else return .goesOn depth
    else
      let tag ← openTag
      if tag.name = element ∧ tag.selfClosing = false then return .goesOn (depth + 1)
      else return .goesOn depth

/-- Passes over the rest of an element whose opening tag has just been read. -/
def passElement (element : String) : Scan Unit := do
  let start ← position
  loop .element (elementRound element start) 1

def leafText (tag : Tag) : Scan String :=
  if tag.selfClosing then return "" else content

def leaf (tag : Tag) : Scan Leaf := do
  let text ← leafText tag
  accept (Leaf.ofAttributes tag.attributes text)

/-- Passes over character data. -/
def passText : Scan Unit := do
  match findPattern? ['<'] (← rest) with
  | some stop => advance stop
  | none => moveToEnd

def childrenRound (leaves : List Leaf) : Scan (Round (List Leaf) (List Leaf)) := do
  passTrivia
  if ← atEnd then refuse (← position) (.missingEnd Element.frame.tag)
  else
    let left ← rest
    if ['<', '/'].isPrefixOf left then
      let start ← position
      let found ← endTag
      if found = Element.frame.tag then return .ends leaves
      else refuse start (.wrongEnd .frame found)
    else if ['<'].isPrefixOf left then
      let tag ← openTag
      if tag.name = Element.text.tag then
        let read ← leaf tag
        return .goesOn (leaves ++ [read])
      else if tag.selfClosing then return .goesOn leaves
      else
        passElement tag.name
        return .goesOn leaves
    else
      passText
      return .goesOn leaves

def children : Scan (List Leaf) :=
  loop .children childrenRound []

def root : Scan Frame := do
  if startsElement (← rest) then
    let tag ← openTag
    if tag.name = Element.frame.tag then
      let frame ← accept (Frame.ofAttributes tag.attributes)
      if tag.selfClosing then return frame
      else
        let leaves ← children
        return { frame with leaves := leaves }
    else halt (.refused (.missingRoot (some tag.name)))
  else halt (.refused (.missingRoot none))

def document : Scan Frame := do
  passTrivia
  let frame ← root
  passTrivia
  if ← atEnd then return frame
  else refuse (← position) .trailingContent

/-- Parses one unit of markup, from its first byte on. -/
def parse (markup : String) : Run Frame :=
  document markup.toList 0

end CanvasLink.Markup.Cursor
