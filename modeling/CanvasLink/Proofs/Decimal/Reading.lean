import CanvasLink.Decimal.Numeral
import CanvasLink.Proofs.Decimal.RoundTrip
import Mathlib.Data.List.TakeWhile

/-!
# CanvasLink — the texts that read as numbers

* `isNumeralChar_of_read?` — the characters of a text that reads as a number: letters, digits, a
  point and signs.
* **`read?_plain_render`** — the plain form of a finite number reads as that number.
-/

namespace CanvasLink.Decimal

/-! ## Characters -/

/-- Whether a numeral may hold the character. -/
def isNumeralChar (c : Char) : Bool :=
  c.isAlphanum || c ∈ ['.', '+', '-']

theorem isAlphanum_of_isDigit {c : Char} (h : c.isDigit = true) : c.isAlphanum = true := by
  rw [Char.isAlphanum, h, Bool.or_true]

theorem isNumeralChar_of_isDigit {c : Char} (h : c.isDigit = true) : isNumeralChar c = true := by
  rw [isNumeralChar, isAlphanum_of_isDigit h, Bool.true_or]

/-- A sign is a numeral's character, so taking it off hides nothing. -/
theorem isNumeralChar_of_splitSign {s : List Char}
    (h : ∀ c ∈ (splitSign s).2, isNumeralChar c = true) :
    ∀ c ∈ s, isNumeralChar c = true := by
  unfold splitSign at h
  split at h
  · exact List.forall_mem_cons.2 ⟨by decide, h⟩
  · exact List.forall_mem_cons.2 ⟨by decide, h⟩
  · exact h

/-- What is read as digits is characters of numerals. -/
theorem isNumeralChar_of_digits? {s : List Char} {n : Nat} (h : digits? s = some n) :
    ∀ c ∈ s, isNumeralChar c = true := by
  intro c hc
  unfold digits? at h
  split at h
  · cases h
  · next hs =>
    simp only [Bool.or_eq_true, Bool.not_eq_true', not_or, Bool.not_eq_false] at hs
    exact isNumeralChar_of_isDigit (List.all_eq_true.1 hs.2 c hc)

/-- So is what is read as an exponent. -/
theorem isNumeralChar_of_exponent? {s : List Char} {e : Int} (h : exponent? s = some e) :
    ∀ c ∈ s, isNumeralChar c = true := by
  cases s with
  | nil => simp
  | cons c s =>
    rw [exponent?] at h
    split at h
    · next hc =>
      simp only [integer?, Option.map_eq_some_iff, Option.bind_eq_bind,
        Option.bind_eq_some_iff] at h
      obtain ⟨-, ⟨n, hn, -⟩, -⟩ := h
      have hmark : isNumeralChar c = true := by
        simp only [Bool.or_eq_true, decide_eq_true_eq] at hc
        obtain rfl | rfl := hc
        all_goals decide
      exact List.forall_mem_cons.2
        ⟨hmark, isNumeralChar_of_splitSign (isNumeralChar_of_digits? hn)⟩
    · cases h

/-- So is what is read as a decimal number. -/
theorem isNumeralChar_of_decimal? {s : List Char} {x : Float} (h : decimal? s = some x) :
    ∀ c ∈ s, isNumeralChar c = true := by
  have htake (t : List Char) : ∀ c ∈ t.takeWhile Char.isDigit, isNumeralChar c = true :=
    fun c hc => isNumeralChar_of_isDigit (List.mem_takeWhile_imp hc)
  have hsplit (t : List Char) (ht : ∀ c ∈ t.dropWhile Char.isDigit, isNumeralChar c = true) :
      ∀ c ∈ t, isNumeralChar c = true := by
    intro c hc
    rw [← List.takeWhile_append_dropWhile (p := Char.isDigit) (l := t), List.mem_append] at hc
    exact hc.elim (htake t c) (ht c)
  apply hsplit
  unfold decimal? at h
  -- The digits may be followed by a point with more digits; an exponent ends the text.
  split at h
  next _ fraction rest hrest =>
  dsimp only at h
  split at h
  · cases h
  · obtain ⟨e, he, -⟩ := Option.map_eq_some_iff.1 h
    have hexponent := isNumeralChar_of_exponent? he
    split at hrest
    · next t ht =>
      cases hrest
      rw [ht]
      exact List.forall_mem_cons.2 ⟨by decide, hsplit t hexponent⟩
    · cases hrest
      exact hexponent

/-- So are the letters of the words for infinity and for no number, in either case. -/
theorem isNumeralChar_of_toLower {c : Char} {word : List Char} (hc : c.toLower ∈ word)
    (hword : word.all Char.isAlpha = true) : isNumeralChar c = true := by
  have halpha : c.isAlpha = true := by
    by_cases hupper : c.isUpper = true
    · show (c.isUpper || c.isLower) = true
      rw [hupper, Bool.true_or]
    · have hlower : c.toLower = c := dif_neg fun hrange => hupper (decide_eq_true hrange)
      exact List.all_eq_true.1 hword c (hlower ▸ hc)
  rw [isNumeralChar, Char.isAlphanum, halpha, Bool.true_or, Bool.true_or]

/-- All that is read as a number is characters of numerals. -/
theorem isNumeralChar_of_read? {s : List Char} {x : Float} (h : read? s = some x) :
    ∀ c ∈ s, isNumeralChar c = true := by
  obtain ⟨y, hy, -⟩ : ∃ y, magnitude? (splitSign s).2 = some y ∧ _ := Option.map_eq_some_iff.1 h
  apply isNumeralChar_of_splitSign
  generalize (splitSign s).2 = body at hy
  -- The words for infinity and not-a-number are letters, in whatever case.
  have hword {word : String} (hlower : String.ofList (body.map Char.toLower) = word)
      (hletters : word.toList.all Char.isAlpha = true) : ∀ c ∈ body, isNumeralChar c = true := by
    intro c hc
    apply isNumeralChar_of_toLower (List.mem_map_of_mem hc)
    rwa [← String.toList_ofList (l := body.map Char.toLower), hlower]
  unfold magnitude? at hy
  dsimp only at hy
  split at hy
  · next h =>
    simp only [Bool.or_eq_true, decide_eq_true_eq] at h
    obtain h | h := h
    · exact hword h (by decide)
    · exact hword h (by decide)
  · split at hy
    · next h => exact hword h (by decide)
    · exact isNumeralChar_of_decimal? hy

/-! ## The plain form -/

theorem digits?_of_isDigit {s : List Char} (hne : s ≠ []) (h : ∀ c ∈ s, c.isDigit = true) :
    digits? s = some (ofDigits s) := by
  rw [digits?, if_neg]
  simpa [hne] using h

/-- An exponent is read alike in both places. -/
theorem exponent?_of_readExponent? {s : List Char} {d : Json.Digits}
    (h : Json.readExponent? s = some (d.exponent, [])) : exponent? s = some d.exponentValue := by
  cases s with
  | nil =>
    simp only [Json.readExponent?, Option.some.injEq, Prod.mk.injEq, and_true] at h
    rw [exponent?, Json.Digits.exponentValue, ← h]
  | cons c s =>
    rw [Json.readExponent?] at h
    split at h
    · next hmark =>
      -- Both read the sign first; a JSON exponent has at least one digit behind it.
      generalize hsign : splitSign s = sign at h
      obtain ⟨negative, body⟩ := sign
      dsimp only at h
      split at h
      · cases h
      · next hne =>
        simp only [Option.some.injEq, Prod.mk.injEq, List.dropWhile_eq_nil_iff] at h
        obtain ⟨he, hdigits⟩ := h
        have htake : body.takeWhile Char.isDigit = body := List.takeWhile_eq_self_iff.2 hdigits
        rw [htake] at he hne
        rw [exponent?, if_pos hmark, integer?, hsign]
        dsimp only
        rw [digits?_of_isDigit (by simpa using hne) hdigits, Json.Digits.exponentValue, ← he]
        cases negative <;> rfl
    · simp at h

section Decimal

variable {m : List Char} (hwhole : ¬ (m.takeWhile Char.isDigit).isEmpty = true)

include hwhole

/-- Digits, a point and what follows it. -/
theorem decimal?_of_point {t : List Char} (h : m.dropWhile Char.isDigit = '.' :: t) :
    decimal? m = (exponent? (t.dropWhile Char.isDigit)).map fun e =>
      nearest (ofDigits (m.takeWhile Char.isDigit ++ t.takeWhile Char.isDigit))
        (e - (t.takeWhile Char.isDigit).length) := by
  unfold decimal?
  rw [h]
  simp only [hwhole, Bool.false_and]
  rw [if_neg Bool.false_ne_true]

/-- Digits without a point. -/
theorem decimal?_of_no_point (h : ∀ t, m.dropWhile Char.isDigit ≠ '.' :: t) :
    decimal? m = (exponent? (m.dropWhile Char.isDigit)).map fun e =>
      nearest (ofDigits (m.takeWhile Char.isDigit)) e := by
  unfold decimal?
  split
  next _ fraction rest hrest =>
  split at hrest
  · next t ht => exact absurd ht (h t)
  · cases hrest
    simp only [hwhole, Bool.false_and, List.append_nil, List.length_nil, Int.natCast_zero,
      Int.sub_zero]
    rw [if_neg Bool.false_ne_true]

end Decimal

/-- What JSON takes as a number without a sign is a numeral of the same value. -/
theorem decimal?_of_readMagnitude? {m : List Char} {d : Json.Digits}
    (h : Json.readMagnitude? false m = some (d, [])) : decimal? m = some (numeralValue d) := by
  unfold Json.readMagnitude? at h
  dsimp only at h
  split at h
  · cases h
  · next hwhole =>
    simp only [Option.bind_eq_bind, Option.bind_eq_some_iff, Option.pure_def, Option.some.injEq,
      Prod.mk.injEq, Prod.exists] at h
    obtain ⟨fraction, afterFraction, hfraction, exponent, rest, hexponent, rfl, rfl⟩ := h
    -- JSON asks for a whole part, where a decimal may go without.
    have hsome : ¬ (m.takeWhile Char.isDigit).isEmpty = true :=
      fun h => hwhole (by rw [h, Bool.true_or])
    have hvalue (d : Json.Digits) := exponent?_of_readExponent? (s := afterFraction) (d := d)
    unfold Json.readFraction? at hfraction
    split at hfraction
    · next t hpoint =>
      dsimp only at hfraction
      split at hfraction
      · cases hfraction
      · cases hfraction
        rw [decimal?_of_point hsome hpoint, hvalue ⟨false, _, some _, exponent⟩ hexponent]
        rfl
    · next hpoint =>
      cases hfraction
      have hexponentValue := hvalue ⟨false, m.takeWhile Char.isDigit, none, exponent⟩ hexponent
      rw [decimal?_of_no_point hsome hpoint, hexponentValue, Option.map_some, numeralValue]
      simp only [Option.getD_none, List.append_nil, List.length_nil, Int.natCast_zero, Int.sub_zero]

theorem toLower_of_isDigit {c : Char} (h : c.isDigit = true) : c.toLower = c := by
  have hupper : ¬ (c.val ≥ 'A'.val ∧ c.val ≤ 'Z'.val) := by
    rintro ⟨hle, -⟩
    simp only [Char.isDigit, Bool.and_eq_true, decide_eq_true_eq] at h
    exact absurd (UInt32.le_trans hle h.2) (by decide)
  exact dif_neg hupper

/-- A text that starts with a digit is none of the words. -/
theorem magnitude?_of_isDigit {c : Char} (h : c.isDigit = true) (s : List Char) :
    magnitude? (c :: s) = decimal? (c :: s) := by
  -- A text that starts with a digit is none of the words.
  have hword {d : Char} {word : List Char} (hd : d.isDigit = false) :
      String.ofList ((c :: s).map Char.toLower) ≠ String.ofList (d :: word) := by
    intro heq
    have hlist := String.ofList_injective heq
    rw [List.map_cons, toLower_of_isDigit h, List.cons.injEq] at hlist
    rw [← hlist.1, h] at hd
    cases hd
  have hinf : String.ofList ((c :: s).map Char.toLower) ≠ "inf" := hword (by decide)
  have hinfinity : String.ofList ((c :: s).map Char.toLower) ≠ "infinity" := hword (by decide)
  have hnan : String.ofList ((c :: s).map Char.toLower) ≠ "nan" := hword (by decide)
  simp only [magnitude?, hinf, hinfinity, hnan, decide_false, Bool.or_false, Bool.false_eq_true,
    if_false]

/-- What starts with a digit has no sign. -/
theorem splitSign_of_isDigit {c : Char} (h : c.isDigit = true) (s : List Char) :
    splitSign (c :: s) = (false, c :: s) := by
  unfold splitSign
  split
  · next heq =>
    cases heq
    cases h
  · next heq =>
    cases heq
    cases h
  · rfl

/-- **The plain form is read back.** -/
theorem read?_plain_render {x : Float} (h : x.isFinite = true) :
    read? (plain.render x).toList = some x := by
  obtain ⟨m, htext, ⟨c, s, rfl, hc⟩, d, hvalue, hreads⟩ := plain_render h
  have hread : Json.readMagnitude? false (c :: s) = some (d, []) := by
    rw [← List.append_nil (c :: s)]
    exact hreads [] (by simp [StopsNumeral])
  have hmagnitude : magnitude? (c :: s) = some (magnitude x) := by
    rw [magnitude?_of_isDigit hc, decimal?_of_readMagnitude? hread, hvalue]
  rw [magnitude] at hmagnitude
  rw [htext, read?, signChars]
  -- The sign is read off the text and put back on the magnitude.
  by_cases hnegative : isNegative x = true
  · rw [if_pos hnegative] at hmagnitude ⊢
    show (magnitude? (c :: s)).map (fun y => -y) = some x
    rw [hmagnitude, Option.map_some, neg_neg_of_isFinite h]
  · rw [if_neg hnegative] at hmagnitude ⊢
    rw [List.nil_append, splitSign_of_isDigit hc]
    show (magnitude? (c :: s)).map (fun y => y) = some x
    rw [hmagnitude, Option.map_some]

end CanvasLink.Decimal
