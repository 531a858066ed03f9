import CanvasLink.Json.Printer
import CanvasLink.Proofs.Json.Numerals

/-!
# CanvasLink — the tokens of a written JSON text

What is written for a string is read as that string, whatever characters it holds, and what is
written for a number as one number.

* `readPieces?_flatMap`, `joinPieces?_map` — a string, in any way of escaping its characters.
* **`tokens_quoteString`**, **`tokens_number`** — a string and a number in front of other text.
-/

namespace CanvasLink.Json

open Decimal (StopsNumeral numeralChars)

/-! ## Strings -/

/-- What one character is written as, in pieces. -/
def pieceOf (c : Char) : Piece :=
  if c.toNat < 0x20 ∧ c ∉ ['\x08', '\x0c', '\n', '\r', '\t'] then .unit c.toNat else .plain c

/-- A control character is read from its code. -/
theorem readPieces?_control {c : Char} (hc : c.toNat < 0x20) (s : List Char) :
    readPieces? (['\\', 'u'] ++ hexCode c ++ s) =
      (readPieces? s).map fun (pieces, rest) => (.unit c.toNat :: pieces, rest) := by
  have hcode : ∀ n < 0x20, hexCode? (hexDigit (n / 4096 % 16)) (hexDigit (n / 256 % 16))
      (hexDigit (n / 16 % 16)) (hexDigit (n % 16)) = some n := by decide
  simp only [hexCode, List.cons_append, List.nil_append, readPieces?, hcode _ hc]
  cases readPieces? s <;> rfl

/-- A character other than quotes, backslash and controls is read as itself. -/
theorem readPieces?_plain {c : Char} (hquote : c ≠ '"') (hslash : c ≠ '\\')
    (hc : ¬ c.toNat < 0x20) (s : List Char) :
    readPieces? (c :: s) =
      (readPieces? s).map fun (pieces, rest) => (.plain c :: pieces, rest) := by
  rw [readPieces?.eq_5 c s (by simp [hquote]) (by simp [hslash]) (by simp [hslash])]
  rw [if_neg (by simp [hc, hslash])]
  cases readPieces? s <;> rfl

/-- An escaped character is read as one piece, whatever follows it. -/
theorem readPieces?_escapeChar (c : Char) (s : List Char) :
    readPieces? (escapeChar c ++ s) =
      (readPieces? s).map fun (pieces, rest) => (pieceOf c :: pieces, rest) := by
  unfold escapeChar pieceOf
  split
  case h_8 c hquote hslash hb hf hn hr ht =>
    split
    · next hc =>
      rw [if_pos ⟨hc, by simp_all⟩]
      exact readPieces?_control hc s
    · next hc =>
      rw [if_neg (by simp [hc])]
      exact readPieces?_plain hquote hslash hc s
  all_goals cases h : readPieces? s <;> simp [readPieces?, simpleEscape?, h]

/-- A string that is read character by character, however its characters are escaped. -/
theorem readPieces?_flatMap {escape : Char → List Char} {piece : Char → Piece}
    (h : ∀ c s, readPieces? (escape c ++ s) =
      (readPieces? s).map fun (pieces, rest) => (piece c :: pieces, rest)) (t s : List Char) :
    readPieces? (t.flatMap escape ++ '"' :: s) = some (t.map piece, s) := by
  induction t with
  | nil => simp [readPieces?]
  | cons c t ih =>
    rw [List.flatMap_cons, List.append_assoc, h, ih]
    rfl

/-- Pieces that stand for one character each, no half of a surrogate pair among them. -/
theorem joinPieces?_map {piece : Char → Piece}
    (h : ∀ c, piece c = .plain c ∨ piece c = .unit c.toNat ∧ c.toNat < 0xD800) (t : List Char) :
    joinPieces? (t.map piece) = some t := by
  induction t with
  | nil => rfl
  | cons c t ih =>
    rw [List.map_cons]
    rcases h c with hplain | ⟨hunit, hlow⟩
    · rw [hplain, joinPieces?, ih, Option.map_some]
    · rw [hunit]
      unfold joinPieces?
      simp [hlow, ih]

/-- A character is written as itself, or as a code that is no half of a pair. -/
theorem pieceOf_eq (c : Char) :
    pieceOf c = .plain c ∨ pieceOf c = .unit c.toNat ∧ c.toNat < 0xD800 := by
  unfold pieceOf
  split
  · next h => exact .inr ⟨rfl, by omega⟩
  · exact .inl rfl

/-! ## Tokens in front of other text -/

theorem tokens_nil : tokens [] = [] := by
  rw [tokens]
  rfl

/-- The first token is read, and then the others from behind it. -/
theorem tokens_cons {c : Char} {s rest : List Char} {token : Token} (hc : isSpace c = false)
    (h : readToken? (c :: s) = some (token, rest)) : tokens (c :: s) = token :: tokens rest := by
  have hs : (c :: s).dropWhile isSpace = c :: s := List.dropWhile_cons_of_neg (by simp [hc])
  rw [tokens]
  split
  · next heq =>
    rw [hs] at heq
    cases heq
  · next d t heq =>
    rw [hs] at heq
    cases heq
    split
    · next hsome =>
      rw [h] at hsome
      cases hsome
      rfl
    · next hnone =>
      rw [h] at hnone
      cases hnone

/-- A quoted text is one token, whatever the text. -/
theorem tokens_quoteString (value : String) (s : List Char) :
    tokens (quoteString value ++ s) = .string (some value) :: tokens s := by
  have hread : readPieces? (value.toList.flatMap escapeChar ++ '"' :: s) =
      some (value.toList.map pieceOf, s) := readPieces?_flatMap readPieces?_escapeChar _ _
  have htoken : readToken? ('"' :: (value.toList.flatMap escapeChar ++ '"' :: s)) =
      some (.string (some value), s) := by
    show (readPieces? (value.toList.flatMap escapeChar ++ '"' :: s)).map _ = _
    rw [hread]
    simp only [Option.map_some, joinPieces?_map pieceOf_eq, String.ofList_toList]
  rw [quoteString, quote]
  simp only [List.cons_append, List.append_assoc, List.nil_append]
  exact tokens_cons (by decide) htoken

theorem isSpace_of_isDigit {c : Char} (h : c.isDigit = true) : isSpace c = false := by
  rw [Bool.eq_false_iff]
  intro hspace
  simp only [isSpace, Bool.or_eq_true, beq_iff_eq] at hspace
  rcases hspace with ((rfl | rfl) | rfl) | rfl <;> exact absurd h (by decide)

/-- A written number is one token, if what follows it does not go on with it. -/
theorem tokens_number {n : Number} (h : n.IsProper) {s : List Char} (hs : StopsNumeral s) :
    tokens (n.text.toList ++ s) = .number n.reread? :: tokens s := by
  have hread := Number.readToken?_text h hs
  obtain ⟨d, hd, htext⟩ := Number.exists_text h
  obtain ⟨c, t, hchars, hc⟩ :=
    hd.whole.starts (Decimal.fractionChars d.fraction ++ Decimal.exponentChars d.exponent)
  -- Neither a minus sign nor a digit is skipped as a blank.
  have hstart : ∃ c t, n.text.toList = c :: t ∧ isSpace c = false := by
    rw [htext, numeralChars, List.append_assoc, hchars]
    cases d.negative with
    | true => exact ⟨'-', c :: t, rfl, by decide⟩
    | false => exact ⟨c, t, rfl, isSpace_of_isDigit hc⟩
  obtain ⟨c, t, hsplit, hspace⟩ := hstart
  rw [hsplit] at hread ⊢
  exact tokens_cons hspace hread

end CanvasLink.Json
