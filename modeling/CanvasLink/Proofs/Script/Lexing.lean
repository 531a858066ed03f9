import CanvasLink.Markup.Script
import CanvasLink.Proofs.Json.Lexing
import CanvasLink.Proofs.Script.Reading
import Mathlib.Data.List.Chain

/-!
# CanvasLink — the tokens of a script's text

A text is cut into the tokens it is meant to have when no two of its words or numerals touch. The
`Lexeme`s of a text are its tokens with the blanks between them; `tokens?_of_lexemes` is the one
induction over texts, and every statement of a script is a list of lexemes.

* `text?_append` — a text between quotes reads back as itself, whatever characters it holds.
* **`tokens?_of_lexemes`** — lexemes that do not touch are read one by one.
-/

namespace CanvasLink.Script

open CanvasLink.Markup

/-! ## Texts -/

/-- What one character of a text is written as, in pieces. -/
def pieceOf (c : Char) : Json.Piece :=
  if c = '\u2028' ∨ c = '\u2029' then .unit c.toNat else Json.pieceOf c

/-- An escaped character is read as one piece, whatever follows it. -/
theorem readPieces?_escaped (c : Char) (s : List Char) :
    Json.readPieces? (escapeScriptChar c ++ s) =
      (Json.readPieces? s).map fun (pieces, rest) => (pieceOf c :: pieces, rest) := by
  unfold escapeScriptChar pieceOf
  split
  · next h =>
    subst h
    cases h : Json.readPieces? s <;> simp [Json.readPieces?, Json.hexCode?, Json.hexValue?, h]
  split
  · next h =>
    subst h
    cases h : Json.readPieces? s <;> simp [Json.readPieces?, Json.hexCode?, Json.hexValue?, h]
  · next h₁ h₂ =>
    rw [if_neg (by simp [h₁, h₂])]
    exact Json.readPieces?_escapeChar c s

/-- A character is written as itself, or as a code that is no half of a pair. -/
theorem pieceOf_eq (c : Char) :
    pieceOf c = .plain c ∨ pieceOf c = .unit c.toNat ∧ c.toNat < 0xD800 := by
  unfold pieceOf
  split
  · next h =>
    refine .inr ⟨rfl, ?_⟩
    rcases h with rfl | rfl <;> decide
  · exact Json.pieceOf_eq c

/-- No written piece breaks the line. -/
theorem breaksLine_pieceOf (c : Char) : breaksLine (pieceOf c) = false := by
  unfold pieceOf Json.pieceOf
  split
  · rfl
  · next h =>
    split
    · rfl
    · simpa [breaksLine] using h

/-- **Texts read back.** -/
theorem text?_append (value : String) (s : List Char) :
    text? (value.toList.flatMap escapeScriptChar ++ '"' :: s) = some (.text value, s) := by
  have hflat : (value.toList.map pieceOf).any breaksLine = false := by
    rw [List.any_map, List.any_eq_false]
    intro c _
    simp [breaksLine_pieceOf]
  unfold text?
  rw [Json.readPieces?_flatMap readPieces?_escaped]
  simp only [Option.bind_eq_bind, Option.bind_some, hflat, Json.joinPieces?_map pieceOf_eq,
    Bool.false_eq_true, if_false, String.ofList_toList]
  rfl

/-! ## Lexemes -/

/-- The numerals of a number: a sign is a mark of its own. -/
def numberTokens (x : Float) : List Token :=
  if Decimal.isNegative x then [.mark '-', .number (-x)] else [.number x]

inductive Lexeme where
  | blank (c : Char)
  | word (name : String)
  | text (value : String)
  | number (value : Float)
  | arrow
  | mark (c : Char)

def isWord : List Char → Bool
  | [] => false
  | c :: s => isWordStart c && s.all isWordChar

/-- A word starts like one and goes on like one. -/
theorem isWord_iff {s : List Char} :
    isWord s = true ↔ ∃ c t, s = c :: t ∧ isWordStart c = true ∧ ∀ d ∈ t, isWordChar d = true := by
  cases s with
  | nil => simp [isWord]
  | cons c s => simp [isWord]

namespace Lexeme

def chars : Lexeme → List Char
  | blank c => [c]
  | word name => name.toList
  | text value => (scriptString value).toList
  | number value => (Decimal.plain.render value).toList
  | arrow => ['=', '>']
  | mark c => [c]

def tokens : Lexeme → List Token
  | blank _ => []
  | word name => [.word name]
  | text value => [.text value]
  | number value => numberTokens value
  | arrow => [.arrow]
  | mark c => [.mark c]

/-- Whether the lexeme is what its constructor says. -/
def isValid : Lexeme → Bool
  | blank c => isSpace c
  | word name => isWord name.toList
  | number value => value.isFinite
  | mark c => isMark c
  | _ => true

/-- Whether two lexemes would run together. -/
def touches : Lexeme → Lexeme → Bool
  | word _, word _ => true
  | word _, number _ => true
  | number _, word _ => true
  | number _, number _ => true
  | number _, mark c => c == '.'
  | _, _ => false

end Lexeme

/-- Valid lexemes, none of which runs into the next one. -/
def Separate (lexemes : List Lexeme) : Prop :=
  (∀ l ∈ lexemes, l.isValid = true) ∧ lexemes.IsChain fun a b => a.touches b = false

/-! ## Reading lexemes -/

theorem tokens?_nil : tokens? [] = some [] := by
  rw [tokens?]
  rfl

theorem tokens?_blank {c : Char} (hc : isSpace c = true) (s : List Char) :
    tokens? (c :: s) = tokens? s := by
  rw [tokens?, tokens?, List.dropWhile_cons_of_pos hc]

/-- The first token is read, and then the others from behind it. -/
theorem tokens?_cons {c : Char} {s rest : List Char} {token : Token} (hc : isSpace c = false)
    (h : token? (c :: s) = some (token, rest)) :
    tokens? (c :: s) = (tokens? rest).map (token :: ·) := by
  have hs : (c :: s).dropWhile isSpace = c :: s := List.dropWhile_cons_of_neg (by simp [hc])
  rw [tokens?]
  split
  · next heq =>
    rw [hs] at heq
    cases heq
  · next d t heq =>
    rw [hs] at heq
    cases heq
    split
    · next hnone =>
      rw [h] at hnone
      cases hnone
    · next token' rest' hsome =>
      rw [h] at hsome
      cases hsome
      rfl

/-- A text does not go on with a character of a class. -/
def Stops (p : Char → Bool) (s : List Char) : Prop :=
  ∀ c ∈ s.head?, p c = false

/-- A run of characters of a class is taken up to where the class stops. -/
theorem takeWhile_append_stops {p : Char → Bool} {n s : List Char} (hn : ∀ c ∈ n, p c = true)
    (hs : Stops p s) : (n ++ s).takeWhile p = n ∧ (n ++ s).dropWhile p = s := by
  rw [List.takeWhile_append_of_pos hn, List.dropWhile_append_of_pos hn]
  cases s with
  | nil => simp
  | cons d s => simp [hs d rfl]

theorem isSpace_eq_false_of_isWordStart {c : Char} (h : isWordStart c = true) :
    isSpace c = false := by
  rw [Bool.eq_false_iff]
  intro hspace
  simp only [isSpace, Bool.or_eq_true, beq_iff_eq] at hspace
  rcases hspace with rfl | rfl <;> exact absurd h (by decide)

/-- A word is one token, if what follows it does not go on with it. -/
theorem tokens?_word {name : String} {c : Char} {n : List Char} (hname : name.toList = c :: n)
    (hc : isWordStart c = true) (hn : ∀ d ∈ n, isWordChar d = true) {s : List Char}
    (hs : Stops isWordChar s) :
    tokens? (name.toList ++ s) = (tokens? s).map (.word name :: ·) := by
  obtain ⟨htake, hdrop⟩ := takeWhile_append_stops hn hs
  have hquote : c ≠ '"' := by
    rintro rfl
    exact absurd hc (by decide)
  have hequals : c ≠ '=' := by
    rintro rfl
    exact absurd hc (by decide)
  -- A word starts neither a text nor an arrow, so the scanner takes it as a word.
  have htoken : token? (c :: (n ++ s)) = some (.word name, s) := by
    rw [token?.eq_4 _ _ (fun h => hquote h) (fun _ h => absurd h hequals), if_pos hc, htake, hdrop,
      ← hname, String.ofList_toList]
  rw [hname, List.cons_append]
  exact tokens?_cons (isSpace_eq_false_of_isWordStart hc) htoken

/-- A script string is one token, whatever its text and whatever follows it. -/
theorem tokens?_text (value : String) (s : List Char) :
    tokens? ((scriptString value).toList ++ s) = (tokens? s).map (.text value :: ·) := by
  have htoken : token? ('"' :: (value.toList.flatMap escapeScriptChar ++ '"' :: s)) =
      some (.text value, s) := text?_append value s
  rw [scriptString, String.toList_ofList]
  simp only [List.cons_append, List.append_assoc, List.nil_append]
  exact tokens?_cons (by decide) htoken

/-- A mark is nothing else. -/
theorem mark_spec {c : Char} (h : isMark c = true) :
    isSpace c = false ∧ isWordChar c = false ∧ c ≠ '"' ∧ c ≠ '>' := by
  simp only [isMark, decide_eq_true_eq, List.mem_cons, List.not_mem_nil, or_false] at h
  rcases h with rfl | rfl | rfl | rfl | rfl | rfl | rfl | rfl | rfl | rfl | rfl | rfl | rfl <;> decide

/-- A mark is one token; only an equals sign could be the start of an arrow. -/
theorem tokens?_mark {c : Char} (hc : isMark c = true) {s : List Char}
    (hs : c = '=' → s.head? ≠ some '>') :
    tokens? (c :: s) = (tokens? s).map (.mark c :: ·) := by
  obtain ⟨hspace, hother, hquote, -⟩ := mark_spec hc
  obtain ⟨hword, hdigit⟩ := Bool.or_eq_false_iff.1 hother
  refine tokens?_cons hspace ?_
  rw [token?.eq_4 _ _ (fun h => hquote h), if_neg (by simp [hword]), if_neg (by simp [hdigit]),
    if_pos hc]
  rintro t rfl rfl
  exact hs rfl rfl

/-- A digit can start nothing but a numeral. -/
theorem digit_starts {c : Char} (h : c.isDigit = true) :
    isSpace c = false ∧ isWordStart c = false ∧ c ≠ '"' ∧ c ≠ '=' := by
  have hrange : 48 ≤ c.toNat ∧ c.toNat ≤ 57 := by
    simpa [Char.isDigit, UInt32.le_iff_toNat_le] using h
  have hall : ∀ n < 58, 48 ≤ n → isSpace (Char.ofNat n) = false ∧
      isWordStart (Char.ofNat n) = false ∧ Char.ofNat n ≠ '"' ∧ Char.ofNat n ≠ '=' := by
    decide
  have hc := hall c.toNat (by omega) hrange.1
  rwa [Char.ofNat_toNat] at hc

/-- A numeral is one token, if what follows it does not go on with it. -/
theorem tokens?_numeral {m : List Char} {x : Float} (h : Decimal.NumeralOf m x) {s : List Char}
    (hs : Decimal.StopsNumeral s) : tokens? (m ++ s) = (tokens? s).map (.number x :: ·) := by
  obtain ⟨⟨c, n, rfl, hc⟩, d, rfl, hread⟩ := h
  obtain ⟨hspace, hword, hquote, hequals⟩ := digit_starts hc
  have hread' : Json.readMagnitude? false (c :: (n ++ s)) = some (d, s) := hread s hs
  refine tokens?_cons hspace ?_
  rw [token?.eq_4 _ _ (fun h => hquote h) (fun _ h => absurd h hequals), if_neg (by simp [hword]),
    if_pos hc, number?]
  change (Json.readMagnitude? false (c :: (n ++ s))).map _ = _
  rw [hread']
  rfl

/-- A written number is its numeral, behind the mark of its sign. -/
theorem tokens?_number {x : Float} (hx : x.isFinite = true) {s : List Char}
    (hs : Decimal.StopsNumeral s) :
    tokens? ((Decimal.plain.render x).toList ++ s) =
      (tokens? s).map (numberTokens x ++ ·) := by
  obtain ⟨m, hm, hnumeral⟩ := Decimal.plain_render hx
  rw [hm, numberTokens]
  -- The sign is a token of its own.
  cases hsign : Decimal.isNegative x with
  | false =>
    simp only [Decimal.magnitude, Decimal.signChars, hsign, Bool.false_eq_true, if_false]
      at hnumeral ⊢
    exact tokens?_numeral hnumeral hs
  | true =>
    simp only [Decimal.magnitude, Decimal.signChars, hsign, if_true] at hnumeral ⊢
    have hminus : tokens? ('-' :: (m ++ s)) = (tokens? (m ++ s)).map (.mark '-' :: ·) :=
      tokens?_mark (by decide) fun h => absurd h (by decide)
    rw [List.append_assoc, List.singleton_append, hminus, tokens?_numeral hnumeral hs,
      Option.map_map]
    rfl

/-! ### Lists of lexemes -/

/-- The first character of a lexeme tells what the lexeme before it must not be. -/
theorem chars_starts {l : Lexeme} (h : l.isValid = true) :
    ∃ d s, l.chars = d :: s ∧ d ≠ '>' ∧ (d = '.' → l = .mark '.') ∧
      (isWordChar d = true → (∃ name, l = .word name) ∨ ∃ x, l = .number x) := by
  cases l with
  | blank c =>
    have hc : c = ' ' ∨ c = '\n' := by simpa [Lexeme.isValid, isSpace] using h
    refine ⟨c, [], rfl, ?_⟩
    rcases hc with rfl | rfl
    · exact ⟨by decide, fun hd => absurd hd (by decide), fun hd => absurd hd (by decide)⟩
    · exact ⟨by decide, fun hd => absurd hd (by decide), fun hd => absurd hd (by decide)⟩
  | word name =>
    obtain ⟨c, s, hname, hc, -⟩ := isWord_iff.1 h
    refine ⟨c, s, hname, ?_, ?_, fun _ => .inl ⟨name, rfl⟩⟩
    · rintro rfl
      exact absurd hc (by decide)
    · rintro rfl
      exact absurd hc (by decide)
  | text value =>
    refine ⟨'"', value.toList.flatMap escapeScriptChar ++ ['"'], ?_, by decide,
      fun hd => absurd hd (by decide), fun hd => absurd hd (by decide)⟩
    simp [Lexeme.chars, scriptString]
  | number x =>
    obtain ⟨m, hm, ⟨c, s, rfl, hc⟩, -⟩ := Decimal.plain_render h
    rw [Lexeme.chars, hm, Decimal.signChars]
    split
    · exact ⟨'-', c :: s, rfl, by decide, fun hd => absurd hd (by decide),
        fun hd => absurd hd (by decide)⟩
    · refine ⟨c, s, rfl, ?_, ?_, fun _ => .inr ⟨x, rfl⟩⟩
      · rintro rfl
        exact absurd hc (by decide)
      · rintro rfl
        exact absurd hc (by decide)
  | arrow =>
    exact ⟨'=', ['>'], rfl, by decide, fun hd => absurd hd (by decide),
      fun hd => absurd hd (by decide)⟩
  | mark c =>
    -- A mark is its own first character, and no mark is a word character.
    obtain ⟨-, hword, -, hgreater⟩ := mark_spec h
    refine ⟨c, [], rfl, hgreater, fun hd => by rw [hd], fun hd => ?_⟩
    rw [hword] at hd
    cases hd

/-- What stands behind a lexeme does not belong to it. -/
theorem head?_flatMap_chars {lexemes : List Lexeme} (hvalid : ∀ l ∈ lexemes, l.isValid = true) :
    ∀ d ∈ (lexemes.flatMap Lexeme.chars).head?, d ≠ '>' ∧
      ∃ l ∈ lexemes.head?, (d = '.' → l = .mark '.') ∧
        (isWordChar d = true → (∃ name, l = .word name) ∨ ∃ x, l = .number x) := by
  intro d hd
  cases lexemes with
  | nil => simp at hd
  | cons l lexemes =>
    obtain ⟨c, s, hchars, hgreater, hpoint, hword⟩ := chars_starts (hvalid l (by simp))
    rw [List.flatMap_cons, hchars] at hd
    cases hd
    exact ⟨hgreater, l, rfl, hpoint, hword⟩

/-- What does not touch a word does not go on with it. -/
theorem stops_of_word {name : String} {lexemes : List Lexeme} (hvalid : ∀ l ∈ lexemes, l.isValid = true)
    (h : ∀ l ∈ lexemes.head?, (Lexeme.word name).touches l = false) :
    Stops isWordChar (lexemes.flatMap Lexeme.chars) := by
  intro d hd
  obtain ⟨-, l, hl, -, hword⟩ := head?_flatMap_chars hvalid d hd
  rw [Bool.eq_false_iff]
  intro hd
  have htouch := h l hl
  rcases hword hd with ⟨other, rfl⟩ | ⟨x, rfl⟩
  · cases htouch
  · cases htouch

/-- What does not touch a number does not go on with it. -/
theorem stopsNumeral_of_number {x : Float} {lexemes : List Lexeme}
    (hvalid : ∀ l ∈ lexemes, l.isValid = true)
    (h : ∀ l ∈ lexemes.head?, (Lexeme.number x).touches l = false) :
    Decimal.StopsNumeral (lexemes.flatMap Lexeme.chars) := by
  intro d hd
  obtain ⟨-, l, hl, hpoint, hword⟩ := head?_flatMap_chars hvalid d hd
  have htouch := h l hl
  -- Words and numbers touch a number in front of them, so neither follows.
  have hnot : isWordChar d = false := by
    rw [Bool.eq_false_iff]
    intro hd
    rcases hword hd with ⟨other, rfl⟩ | ⟨y, rfl⟩
    · cases htouch
    · cases htouch
  refine ⟨?_, ?_, ?_, ?_⟩
  · rw [isWordChar, Bool.or_eq_false_iff] at hnot
    exact hnot.2
  · intro hd
    rw [hpoint hd] at htouch
    cases htouch
  · rintro rfl
    exact absurd hnot (by decide)
  · rintro rfl
    exact absurd hnot (by decide)

/-- **Lexemes are read one by one.** Induction on the lexemes. -/
theorem tokens?_of_lexemes {lexemes : List Lexeme} (h : Separate lexemes) :
    tokens? (lexemes.flatMap Lexeme.chars) = some (lexemes.flatMap Lexeme.tokens) := by
  obtain ⟨hvalid, hchain⟩ := h
  induction lexemes with
  | nil => exact tokens?_nil
  | cons l lexemes ih =>
    rw [List.isChain_cons] at hchain
    have htail : ∀ l' ∈ lexemes, l'.isValid = true := fun l' hl' =>
      hvalid l' (List.mem_cons_of_mem l hl')
    have hread := ih htail hchain.2
    have hl : l.isValid = true := hvalid l (by simp)
    rw [List.flatMap_cons, List.flatMap_cons]
    cases l with
    | blank c =>
      rw [Lexeme.chars, List.singleton_append, tokens?_blank hl, hread]
      rfl
    | word name =>
      -- A word and a numeral end where the next lexeme starts, since the two do not touch.
      obtain ⟨c, n, hname, hc, hn⟩ := isWord_iff.1 hl
      rw [Lexeme.chars, tokens?_word hname hc hn (stops_of_word htail hchain.1), hread]
      rfl
    | text value =>
      rw [Lexeme.chars, tokens?_text, hread]
      rfl
    | number x =>
      rw [Lexeme.chars, tokens?_number hl (stopsNumeral_of_number htail hchain.1), hread]
      rfl
    | arrow =>
      have hspace : isSpace '=' = false := by decide
      have harrow := tokens?_cons (s := '>' :: lexemes.flatMap Lexeme.chars) hspace rfl
      rw [Lexeme.chars, List.cons_append, List.singleton_append, harrow, hread]
      rfl
    | mark c =>
      -- No lexeme starts with `>`, so that no mark becomes an arrow.
      have hnext : c = '=' → (lexemes.flatMap Lexeme.chars).head? ≠ some '>' := fun _ hd =>
        (head?_flatMap_chars htail '>' hd).1 rfl
      rw [Lexeme.chars, List.singleton_append, tokens?_mark hl hnext, hread]
      rfl

end CanvasLink.Script
