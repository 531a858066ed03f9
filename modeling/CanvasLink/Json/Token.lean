import CanvasLink.Decimal.Numeral
import CanvasLink.Json.Numeral

/-!
# CanvasLink — tokens of a JSON text

A text is first cut into tokens. A number that is out of range and a string that escapes half of a
surrogate pair are tokens without a value: they may stand where nobody looks at them. Where no
token starts, the list ends with `stray`.
-/

namespace CanvasLink.Json

inductive Token where
  | openArray
  | closeArray
  | openObject
  | closeObject
  | comma
  | colon
  | null
  | boolean (b : Bool)
  | number (n : Option Number)
  | string (s : Option String)
  | stray

/-! ## Strings -/

/-- A piece of a string: a character as it stands, or a UTF-16 unit given by its code. -/
inductive Piece where
  | plain (c : Char)
  | unit (code : Nat)

/-- The value of a hexadecimal digit in either case. -/
def hexValue? (c : Char) : Option Nat :=
  if '0' ≤ c ∧ c ≤ '9' then some (c.toNat - '0'.toNat)
  else if 'a' ≤ c ∧ c ≤ 'f' then some (c.toNat - 'a'.toNat + 10)
  else if 'A' ≤ c ∧ c ≤ 'F' then some (c.toNat - 'A'.toNat + 10)
  else none

/-- The code written by four hexadecimal digits. -/
def hexCode? (a b c d : Char) : Option Nat := do
  let a ← hexValue? a
  let b ← hexValue? b
  let c ← hexValue? c
  let d ← hexValue? d
  return 4096 * a + 256 * b + 16 * c + d

/-- The character behind a backslash, other than the escape by code. -/
def simpleEscape? : Char → Option Char
  | '"' => some '"'
  | '\\' => some '\\'
  | '/' => some '/'
  | 'b' => some '\x08'
  | 'f' => some '\x0c'
  | 'n' => some '\n'
  | 'r' => some '\r'
  | 't' => some '\t'
  | _ => none

/-- Reads the pieces of a string up to its closing quote. -/
def readPieces? : List Char → Option (List Piece × List Char)
  | [] => none
  | '"' :: s => some ([], s)
  | '\\' :: 'u' :: a :: b :: c :: d :: s => do
    let code ← hexCode? a b c d
    let (pieces, rest) ← readPieces? s
    return (.unit code :: pieces, rest)
  | '\\' :: c :: s => do
    let escaped ← simpleEscape? c
    let (pieces, rest) ← readPieces? s
    return (.plain escaped :: pieces, rest)
  | c :: s =>
    if c.toNat < 0x20 || c == '\\' then none
    else do
      let (pieces, rest) ← readPieces? s
      return (.plain c :: pieces, rest)

/-- Joins pieces to a text, unless half of a surrogate pair stands alone. -/
def joinPieces? : List Piece → Option (List Char)
  | [] => some []
  | .plain c :: pieces => (joinPieces? pieces).map (c :: ·)
  | .unit high :: pieces =>
    if high < 0xD800 || 0xE000 ≤ high then (joinPieces? pieces).map (Char.ofNat high :: ·)
    else match pieces with
      | .unit low :: pieces =>
        if high < 0xDC00 && 0xDC00 ≤ low && low < 0xE000 then
          (joinPieces? pieces).map
            (Char.ofNat (0x10000 + 1024 * (high - 0xD800) + (low - 0xDC00)) :: ·)
        else none
      | _ => none

/-! ## Numbers -/

/-- Reads digits behind a point: at least one. -/
def readFraction? : List Char → Option (Option (List Char) × List Char)
  | '.' :: s =>
    let digits := s.takeWhile Char.isDigit
    if digits.isEmpty then none else some (some digits, s.dropWhile Char.isDigit)
  | s => some (none, s)

/-- Reads an exponent, if one stands here. -/
def readExponent? : List Char → Option (Option (Bool × List Char) × List Char)
  | [] => some (none, [])
  | c :: s =>
    if c = 'e' || c = 'E' then
      let (negative, body) := Decimal.splitSign s
      let digits := body.takeWhile Char.isDigit
      if digits.isEmpty then none
      else some (some (negative, digits), body.dropWhile Char.isDigit)
    else some (none, c :: s)

/-- Reads a number without its sign; there are no leading zeros. -/
def readMagnitude? (negative : Bool) (s : List Char) : Option (Digits × List Char) := do
  let whole := s.takeWhile Char.isDigit
  if whole.isEmpty || (whole.head? == some '0' && 1 < whole.length) then none
  else
    let (fraction, afterFraction) ← readFraction? (s.dropWhile Char.isDigit)
    let (exponent, rest) ← readExponent? afterFraction
    return (⟨negative, whole, fraction, exponent⟩, rest)

/-! ## Texts -/

/-- The four blank characters of JSON. -/
def isSpace (c : Char) : Bool :=
  c == ' ' || c == '\t' || c == '\n' || c == '\r'

/-- Reads one token at the start of the text. -/
def readToken? : List Char → Option (Token × List Char)
  | [] => none
  | '[' :: s => some (.openArray, s)
  | ']' :: s => some (.closeArray, s)
  | '\x7b' :: s => some (.openObject, s)
  | '\x7d' :: s => some (.closeObject, s)
  | ',' :: s => some (.comma, s)
  | ':' :: s => some (.colon, s)
  | 'n' :: 'u' :: 'l' :: 'l' :: s => some (.null, s)
  | 't' :: 'r' :: 'u' :: 'e' :: s => some (.boolean true, s)
  | 'f' :: 'a' :: 'l' :: 's' :: 'e' :: s => some (.boolean false, s)
  | '"' :: s => (readPieces? s).map fun (pieces, rest) =>
    (.string ((joinPieces? pieces).map String.ofList), rest)
  | '-' :: s => (readMagnitude? true s).map fun (digits, rest) => (.number digits.number?, rest)
  | c :: s => (readMagnitude? false (c :: s)).map fun (digits, rest) =>
    (.number digits.number?, rest)

/-! ### Every token takes at least one character -/

theorem length_readPieces?_lt {s rest : List Char} {pieces : List Piece}
    (h : readPieces? s = some (pieces, rest)) : rest.length < s.length := by
  -- Every piece takes at least one character: `case3` is an escape by code, `case4` a short one.
  fun_induction readPieces? s generalizing pieces with
  | case1 => cases h
  | case2 s =>
    cases h
    simp
  | case3 a b c d s ih =>
    simp only [Option.bind_eq_bind, Option.bind_eq_some_iff] at h
    obtain ⟨_, _, ⟨_, _⟩, hr, h⟩ := h
    cases h
    have hlt := ih hr
    simp only [List.length_cons] at hlt ⊢
    omega
  | case4 c s _ ih =>
    simp only [Option.bind_eq_bind, Option.bind_eq_some_iff] at h
    obtain ⟨_, _, ⟨_, _⟩, hr, h⟩ := h
    cases h
    have hlt := ih hr
    simp only [List.length_cons] at hlt ⊢
    omega
  | case5 => cases h
  | case6 c s _ _ _ _ ih =>
    simp only [Option.bind_eq_bind, Option.bind_eq_some_iff] at h
    obtain ⟨⟨_, _⟩, hr, h⟩ := h
    cases h
    have hlt := ih hr
    simp only [List.length_cons] at hlt ⊢
    omega

theorem suffix_of_readFraction? {s rest : List Char} {fraction : Option (List Char)}
    (h : readFraction? s = some (fraction, rest)) : rest <:+ s := by
  unfold readFraction? at h
  split at h
  · next t =>
    simp only at h
    split at h
    · cases h
    · cases h
      exact (List.dropWhile_suffix _).trans (List.suffix_cons '.' t)
  · cases h
    exact List.suffix_refl _

theorem suffix_of_readExponent? {s rest : List Char} {exponent : Option (Bool × List Char)}
    (h : readExponent? s = some (exponent, rest)) : rest <:+ s := by
  unfold readExponent? at h
  split at h
  · cases h
    exact List.suffix_refl _
  · next c t =>
    split at h
    · simp only at h
      split at h
      · cases h
      · cases h
        exact ((List.dropWhile_suffix _).trans (Decimal.splitSign_suffix t)).trans
          (List.suffix_cons c t)
    · cases h
      exact List.suffix_refl _

theorem length_readMagnitude?_lt {negative : Bool} {s rest : List Char} {digits : Digits}
    (h : readMagnitude? negative s = some (digits, rest)) : rest.length < s.length := by
  unfold readMagnitude? at h
  simp only at h
  split at h
  · cases h
  · next hwhole =>
    simp only [Option.bind_eq_bind, Option.bind_eq_some_iff] at h
    obtain ⟨⟨_, afterFraction⟩, hf, ⟨_, _⟩, he, h⟩ := h
    dsimp only at he h
    cases h
    have h₁ := (suffix_of_readExponent? he).length_le
    have h₂ := (suffix_of_readFraction? hf).length_le
    -- There is a whole part, or the reading would have failed.
    have h₃ : 0 < (s.takeWhile Char.isDigit).length := by
      rw [List.length_pos_iff]
      intro hnil
      simp [hnil] at hwhole
    have h₄ := congrArg List.length (List.takeWhile_append_dropWhile (p := Char.isDigit) (l := s))
    simp only [List.length_append] at h₁ h₂ h₄
    omega

theorem length_readToken?_lt {s rest : List Char} {token : Token}
    (h : readToken? s = some (token, rest)) : rest.length < s.length := by
  unfold readToken? at h
  split at h
  case h_1 => cases h
  case h_11 =>
    obtain ⟨⟨_, _⟩, hr, h⟩ := Option.map_eq_some_iff.1 h
    cases h
    exact Nat.lt_succ_of_lt (length_readPieces?_lt hr)
  case h_12 =>
    obtain ⟨⟨_, _⟩, hr, h⟩ := Option.map_eq_some_iff.1 h
    cases h
    exact Nat.lt_succ_of_lt (length_readMagnitude?_lt hr)
  case h_13 =>
    obtain ⟨⟨_, _⟩, hr, h⟩ := Option.map_eq_some_iff.1 h
    cases h
    exact length_readMagnitude?_lt hr
  all_goals
    cases h
    simp only [List.length_cons]
    omega

set_option linter.unusedVariables false in
/-- The tokens of a text. -/
def tokens (s : List Char) : List Token :=
  match hs : s.dropWhile isSpace with
  | [] => []
  | c :: t =>
    match ht : readToken? (c :: t) with
    | some (token, rest) => token :: tokens rest
    | none => [.stray]
termination_by s.length
decreasing_by
  have h₁ := length_readToken?_lt ht
  have h₂ := (List.dropWhile_suffix (l := s) isSpace).length_le
  rw [hs] at h₂
  omega

end CanvasLink.Json
