import CanvasLink.Json.Token
import CanvasLink.Proofs.Decimal.RoundTrip

/-!
# CanvasLink — a JSON number that is written and read again

What is written for a number is read as one number, wherever it stands: `Number.reread?`. An integer
of 64 bits is read as itself. A floating-point number is made of its significand and a power of ten,
both of which may be rounded before the result is; it is read as itself when neither needs to be, and
may otherwise be read as one of its neighbours.

* `Number.exists_isRealDigits` — the numeral of a floating-point number.
* **`Number.readToken?_text`** — a number in front of other text.
* **`Number.reread?_integer`** — integers are read as themselves.
* **`Number.reread?_real`** — so are numbers of few digits.
-/

namespace CanvasLink.Json

open Decimal (IsNumeral StopsNumeral numeralChars signChars)

namespace Number

/-- Whether an integer is one of 64 bits, with or without a sign. -/
def IsWord (i : Int) : Prop :=
  -(2 ^ 63 : Int) ≤ i ∧ i < 2 ^ 64

/-- The numbers that a value in memory can hold. -/
def IsProper : Number → Prop
  | integer i => IsWord i
  | real x => x.isFinite = true

/-- What the text of a number is read as. -/
def reread? (n : Number) : Option Number :=
  match readToken? n.text.toList with
  | some (.number m?, _) => m?
  | _ => none

end Number

/-- A digit starts nothing but a number. -/
theorem readToken?_digit {c : Char} (hc : c.isDigit = true) (s : List Char) :
    readToken? (c :: s) =
      (readMagnitude? false (c :: s)).map fun (d, rest) => (.number d.number?, rest) := by
  have hne (e : Char) (he : e.isDigit = false) : c ≠ e := by
    rintro rfl
    rw [hc] at he
    cases he
  unfold readToken?
  split
  case h_1 heq => cases heq
  case h_13 heq =>
    cases heq
    rfl
  -- The remaining branches read a fixed character, none of which is a digit.
  all_goals
    next heq =>
      injection heq with hhead
      exact absurd hhead (hne _ (by decide))

/-- A numeral is one token, if what follows it does not go on with it. -/
theorem readToken?_chars {d : Digits} (h : IsNumeral d) {s : List Char} (hs : StopsNumeral s) :
    readToken? (signChars d.negative ++ numeralChars d ++ s) = some (.number d.number?, s) := by
  have hread := Decimal.readMagnitude?_chars h hs
  -- A minus sign is read by a branch of its own, before the digits.
  cases hsign : d.negative with
  | true =>
    rw [hsign] at hread
    show (readMagnitude? true (numeralChars d ++ s)).map _ = _
    rw [hread]
    rfl
  | false =>
    rw [hsign] at hread
    obtain ⟨c, t, hchars, hc⟩ :=
      h.whole.starts (Decimal.fractionChars d.fraction ++ Decimal.exponentChars d.exponent ++ s)
    have hsplit : signChars false ++ numeralChars d ++ s = c :: t := by
      rw [← hchars]
      simp [signChars, numeralChars]
    have hsplit' : numeralChars d ++ s = c :: t := hsplit
    rw [hsplit, readToken?_digit hc, ← hsplit', hread]
    rfl

namespace Number

/-- The numeral of an integer. -/
def integerDigits (i : Int) : Digits :=
  ⟨decide (i < 0), Nat.toDigits 10 i.natAbs, none, none⟩

theorem isNumeral_integerDigits (i : Int) : IsNumeral (integerDigits i) :=
  ⟨Decimal.isWhole_toDigits i.natAbs, nofun, nofun⟩

/-- An integer is written with its sign and its digits. -/
theorem text_integer (i : Int) :
    (integer i).text.toList = signChars (integerDigits i).negative ++
      numeralChars (integerDigits i) := by
  have hchars : numeralChars (integerDigits i) = Nat.toDigits 10 i.natAbs := by
    simp [numeralChars, integerDigits, Decimal.fractionChars, Decimal.exponentChars]
  rw [hchars]
  cases i with
  | ofNat n =>
    show (Nat.repr n).toList = _
    rw [Nat.repr, String.toList_ofList]
    rfl
  | negSucc n =>
    have hneg : decide (Int.negSucc n < 0) = true := decide_eq_true (Int.negSucc_lt_zero n)
    have hrepr : (Nat.repr (n + 1)).toList = Nat.toDigits 10 (n + 1) := String.toList_ofList
    show ("-" ++ Nat.repr (n + 1)).toList = _
    rw [integerDigits, hneg, String.toList_append, hrepr]
    rfl

/-- A numeral of a floating-point number: it has a point or an exponent, so that it cannot be taken
for an integer, and the number is the nearest one to what it writes. -/
structure IsRealDigits (x : Float) (d : Digits) : Prop where
  isNumeral : IsNumeral d
  text : (real x).text.toList = signChars d.negative ++ numeralChars d
  negative : d.negative = Decimal.isNegative x
  marked : d.fraction ≠ none ∨ d.exponent ≠ none
  rounds : Decimal.Rounds (Decimal.quantity d) (Decimal.magnitude x)

/-- Every finite number is written with digits that round to it. -/
theorem exists_isRealDigits {x : Float} (h : x.isFinite = true) : ∃ d, IsRealDigits x d := by
  have hmark : Json.layout.wholeMark = "" ∨ Json.layout.wholeMark = ".0" := .inr rfl
  -- The sign is no part of what is written behind it.
  have hsigned {text : List Char} {q : ℚ} {d : Digits} (htext : (Json.layout.render x).toList =
      signChars (Decimal.isNegative x) ++ text) (hwrites : Decimal.Writes d text q)
      (hmarked : d.fraction ≠ none ∨ d.exponent ≠ none)
      (hrounds : Decimal.Rounds q (Decimal.magnitude x)) : ∃ d, IsRealDigits x d := by
    refine ⟨{ d with negative := Decimal.isNegative x }, ⟨?_, ?_, ?_⟩, ?_, rfl, hmarked, ?_⟩
    · exact hwrites.isNumeral.whole
    · exact hwrites.isNumeral.fraction
    · exact hwrites.isNumeral.exponent
    · show (Json.layout.render x).toList = _
      rw [htext, hwrites.chars]
      rfl
    · rw [← hwrites.quantity] at hrounds
      exact hrounds
  by_cases hzero : x = Float.ofModel (Float.Model.pack (.zero (Binary.signOf x)))
  · have hwrites := Decimal.writes_whole hmark (Decimal.isWhole_toDigits 0)
    refine hsigned (d := ⟨false, Nat.toDigits 10 0, some ['0'], none⟩) ?_ hwrites (.inl nofun) ?_
    · rw [hzero, Decimal.render_zero, List.append_assoc]
      rfl
    · rw [Decimal.magnitude_zero hzero]
      exact .zero (by decide)
  · obtain ⟨htext, m, e, hc, hmax, hmagnitude, hnear⟩ := Decimal.render_finite Json.layout h hzero
    obtain ⟨d, hwrites, hmarked⟩ :=
      Decimal.exists_magnitude _ hmark (hnear.digits_pos hc hmax)
    refine hsigned htext hwrites ?_ ?_
    · rcases hmarked with hfraction | hmarked
      · rw [hfraction]
        exact .inl nofun
      · exact hmarked
    · rw [hmagnitude]
      exact .finite hc hmax hnear

/-- **The text of a number** is a numeral behind its sign. -/
theorem exists_text {n : Number} (h : n.IsProper) :
    ∃ d, IsNumeral d ∧ n.text.toList = signChars d.negative ++ numeralChars d := by
  cases n with
  | integer i => exact ⟨_, isNumeral_integerDigits i, text_integer i⟩
  | real x =>
    obtain ⟨d, hd⟩ := exists_isRealDigits h
    exact ⟨d, hd.isNumeral, hd.text⟩

/-- A number whose text is a numeral is read again as the number of that numeral. -/
theorem reread?_of_text {n : Number} {d : Digits} (h : IsNumeral d)
    (htext : n.text.toList = signChars d.negative ++ numeralChars d) : n.reread? = d.number? := by
  have hread := readToken?_chars h (s := []) (by simp [StopsNumeral])
  rw [List.append_nil] at hread
  rw [reread?, htext, hread]

/-- **A number is read alike wherever it stands.** -/
theorem readToken?_text {n : Number} (h : n.IsProper) {s : List Char} (hs : StopsNumeral s) :
    readToken? (n.text.toList ++ s) = some (.number n.reread?, s) := by
  obtain ⟨d, hd, htext⟩ := exists_text h
  rw [reread?_of_text hd htext, htext]
  exact readToken?_chars hd hs

/-! ### Significands -/

/-- With further digits a number does not become less. -/
theorem le_ofDigitChars (digits : List Char) (n : Nat) : n ≤ Nat.ofDigitChars 10 digits n := by
  induction digits generalizing n with
  | nil => exact Nat.le_refl n
  | cons c digits ih =>
    rw [Nat.ofDigitChars_cons]
    exact Nat.le_trans (by omega) (ih _)

/-- Digits that write less than the bound all go into the significand. -/
theorem takeWhole_of_lt {digits : List Char} {significand : Nat}
    (h : Nat.ofDigitChars 10 digits significand < significandBound) :
    takeWhole significand digits = (Nat.ofDigitChars 10 digits significand, 0) := by
  induction digits generalizing significand with
  | nil => rfl
  | cons c digits ih =>
    rw [Nat.ofDigitChars_cons] at h ⊢
    have hle := le_ofDigitChars digits (10 * significand + (c.toNat - '0'.toNat))
    have hfits : 10 * significand + digitValue c < significandBound := lt_of_le_of_lt hle h
    rw [takeWhole, if_pos hfits]
    exact ih h

/-- So do the digits behind the point. -/
theorem takeFraction_of_lt (digits : List Char) {significand : Nat}
    (h : Nat.ofDigitChars 10 digits significand < significandBound) :
    takeFraction significand digits =
      (Nat.ofDigitChars 10 digits significand, digits.length) := by
  induction digits generalizing significand with
  | nil => rfl
  | cons c digits ih =>
    rw [Nat.ofDigitChars_cons] at h ⊢
    have hle := le_ofDigitChars digits (10 * significand + (c.toNat - '0'.toNat))
    have hfits : 10 * significand + digitValue c < significandBound := lt_of_le_of_lt hle h
    have hrest : takeFraction (10 * significand + digitValue c) digits = _ := ih h
    rw [takeFraction, if_pos hfits, hrest]
    rfl

/-! ### Integers -/

/-- An integer of a machine word is read again as itself. -/
theorem reread?_integer {i : Int} (h : IsWord i) : (integer i).reread? = some (integer i) := by
  obtain ⟨hlow, hhigh⟩ := h
  have hbound : significandBound = 2 ^ 64 := rfl
  have hvalue : Nat.ofDigitChars 10 (Nat.toDigits 10 i.natAbs) 0 = i.natAbs :=
    Nat.ofDigitChars_ten_toDigits
  -- A word has few enough digits for all of them to be taken.
  have htake : takeWhole 0 (Nat.toDigits 10 i.natAbs) = (i.natAbs, 0) := by
    rw [takeWhole_of_lt (by omega), hvalue]
  rw [reread?_of_text (isNumeral_integerDigits i) (text_integer i)]
  simp only [Digits.number?, integerDigits, htake, Option.isNone_none, Bool.and_self, beq_self_eq_true,
    if_true]
  by_cases hneg : i < 0
  · have hpow : i.natAbs ≤ Nat.pow 2 63 := by
      show i.natAbs ≤ 2 ^ 63
      omega
    rw [if_pos (by simpa using hneg), if_pos ⟨by omega, hpow⟩]
    congr 2
    omega
  · rw [if_neg (by simpa using hneg)]
    congr 2
    omega

/-! ### Floating-point numbers -/

open Binary

/-- A small natural number is the same float by way of a machine word. -/
theorem toFloat_eq_toUInt64 {n : Nat} (hpos : 0 < n) (hlt : n < 2 ^ 53) :
    n.toFloat = n.toUInt64.toFloat := by
  have hlog := (Nat.log2_lt (Nat.pos_iff_ne_zero.1 hpos)).2 hlt
  have hnear : Near (n * 10 ^ (0 : Int)) (n <<< (52 - n.log2)) ((n.log2 : Int) - 52) := by
    rw [zpow_zero, mul_one, ← value_whole hpos hlt]
    exact near_value
  have hnearest : n.toFloat = Float.ofModel (Float.Model.pack (.finite .positive _ _ _)) :=
    nearest_eq (canonical_whole hpos hlt) (by omega) hnear
  rw [hnearest, toFloat_eq hpos hlt]

/-- The powers of ten up to the twenty-second one are exact. -/
theorem powerOfTen_eq_exact {k : Nat} (hk : k < 23) : Json.powerOfTen k = Binary.powerOfTen k hk := by
  obtain ⟨-, -, -, hlog⟩ := tenMantissa_spec ⟨k, hk⟩
  dsimp only at hlog
  have hnear : Near ((1 : Nat) * 10 ^ (k : Int)) (tenMantissa k) (((10 ^ k).log2 : Int) - 52) := by
    rw [Nat.cast_one, one_mul, zpow_natCast, ← value_tenMantissa hk]
    exact near_value
  have hnearest := nearest_eq (canonical_tenMantissa hk) (by omega) hnear
  have hsign : decide ((k : Int) < 0) = false := by simp
  rw [Decimal.nearest, hsign, Int.natAbs_natCast] at hnearest
  rw [Json.powerOfTen, hnearest, powerOfTen_eq hk]

theorem zero_div_powerOfTen : ∀ k : Fin 23, (0 : Nat).toFloat / Json.powerOfTen k =
    Float.ofModel (Float.Model.pack (.zero .positive)) := by
  decide +kernel

/-- A significand and a power of ten that are not rounded make the number that they lie near. -/
theorem scale?_eq {n : Nat} {k : Int} (hlt : n < 2 ^ 53) (hk : k.natAbs < 23) {y : Float}
    (h : Decimal.Rounds (n * 10 ^ k) y) : scale? n.toFloat k = some y := by
  cases h with
  | zero hzero =>
    have hn : n = 0 := by
      have hpow : (10 : ℚ) ^ k ≠ 0 := by positivity
      exact_mod_cast (mul_eq_zero.1 hzero).resolve_right hpow
    subst hn
    by_cases hneg : k < 0
    · rw [scale?, if_pos hneg, scaleDown, dif_pos (by omega)]
      exact congrArg some (zero_div_powerOfTen ⟨k.natAbs, hk⟩)
    · have hbeq : ((0 : Nat).toFloat == 0) = true := by decide +kernel
      have hfloat : (0 : Nat).toFloat = Float.ofModel (Float.Model.pack (.zero .positive)) := by
        decide +kernel
      rw [scale?, if_neg hneg, hbeq, if_pos rfl, hfloat]
  | @finite m e hc hmax hq =>
    have hpos := hq.digits_pos hc hmax
    have hlog := (Nat.log2_lt (Nat.pos_iff_ne_zero.1 hpos)).2 hlt
    -- Both operands are exact, so that the one division or multiplication is all that rounds.
    by_cases hneg : k < 0
    · have hexponent : (k.natAbs : Int) = -k := by omega
      rw [scale?, if_pos hneg, scaleDown, dif_pos (by omega), toFloat_eq_toUInt64 hpos hlt,
        powerOfTen_eq_exact hk, div_powerOfTen hpos hlt hk hc]
      rw [div_eq_mul_inv, ← zpow_natCast, ← zpow_neg, hexponent, neg_neg]
      exact hq
    · have hexponent : (k.natAbs : Int) = k := by omega
      have hnonzero : (n.toFloat == 0) = false := by
        rw [toFloat_eq_toUInt64 hpos hlt, toFloat_eq hpos hlt]
        exact finite_beq_zero (canonical_whole hpos hlt) (by omega) _
      have hproduct : n.toFloat * Json.powerOfTen k.natAbs =
          Float.ofModel (Float.Model.pack (.finite .positive m e hc.pos)) := by
        rw [toFloat_eq_toUInt64 hpos hlt, powerOfTen_eq_exact hk, mul_powerOfTen hpos hlt hk hc]
        rw [← zpow_natCast, hexponent]
        exact hq
      rw [scale?, if_neg hneg, hnonzero, if_neg Bool.false_ne_true, if_neg (by omega)]
      show (if (n.toFloat * Json.powerOfTen k.natAbs).isInf then none else
        some (n.toFloat * Json.powerOfTen k.natAbs)) = _
      rw [hproduct, isInf_finite hc hmax, if_neg Bool.false_ne_true]

/-- A numeral whose significand and whose power of ten are floating-point numbers. -/
structure IsShort (d : Digits) : Prop where
  significand : Decimal.ofDigits (d.whole ++ d.fraction.getD []) < 2 ^ 53
  exponent : (d.exponentValue - (d.fraction.getD []).length).natAbs < 23

/-- A numeral with few digits and a small exponent is read by one exact division or multiplication,
so it is rounded once. -/
theorem number?_of_isShort {d : Digits} (hshort : IsShort d)
    (hmarked : d.fraction ≠ none ∨ d.exponent ≠ none) {y : Float}
    (h : Decimal.Rounds (Decimal.quantity d) y) :
    d.number? = some (.real (withSign d.negative y)) := by
  have hbound : significandBound = 2 ^ 64 := rfl
  obtain ⟨hlt, hexponent⟩ := hshort
  have hall : Nat.ofDigitChars 10 (d.fraction.getD []) (Nat.ofDigitChars 10 d.whole 0) =
      Decimal.ofDigits (d.whole ++ d.fraction.getD []) := (Nat.ofDigitChars_append 0).symm
  have hle := le_ofDigitChars (d.fraction.getD []) (Nat.ofDigitChars 10 d.whole 0)
  have hwhole : takeWhole 0 d.whole = (Nat.ofDigitChars 10 d.whole 0, 0) :=
    takeWhole_of_lt (by omega)
  have hfraction := takeFraction_of_lt (d.fraction.getD []) (hall ▸ hlt.trans (by decide))
  -- A fraction or an exponent makes the number a real one, whatever its value.
  have hreal : (d.fraction.isNone && d.exponent.isNone && (0 : Nat) == 0) = false := by
    rcases hmarked with hmarked | hmarked
    · simp [Option.isNone_eq_false_iff.2 (Option.isSome_iff_ne_none.2 hmarked)]
    · simp [Option.isNone_eq_false_iff.2 (Option.isSome_iff_ne_none.2 hmarked)]
  have hplaces : ((0 : Nat) : Int) - ((d.fraction.getD []).length : Nat) + d.exponentValue =
      d.exponentValue - (d.fraction.getD []).length := by omega
  simp only [Digits.number?, hwhole, hreal, hfraction, hall, hplaces, Bool.false_eq_true, if_false]
  rw [scale?_eq hlt hexponent h, Option.map_some]

/-- **A number of few digits** is read as itself. -/
theorem reread?_real {x : Float} (hx : x.isFinite = true) {d : Digits} (hd : IsRealDigits x d)
    (hshort : IsShort d) : (real x).reread? = some (real x) := by
  rw [reread?_of_text hd.isNumeral hd.text, number?_of_isShort hshort hd.marked hd.rounds,
    hd.negative, withSign, Decimal.magnitude]
  by_cases hsign : Decimal.isNegative x = true
  · rw [if_pos hsign, if_pos hsign, Decimal.neg_neg_of_isFinite hx]
  · rw [if_neg hsign, if_neg hsign]

end Number

end CanvasLink.Json
