import CanvasLink.Json.Token
import CanvasLink.Decimal.Layout
import CanvasLink.Proofs.Decimal.Shortest

/-!
# CanvasLink — a number that is written and read again

A finite number is written as a minus for a negative one and a numeral: digits, which may have a
point among them and an exponent behind them. A reader that takes the nearest number for what the
numeral writes gets the same number.

* `readMagnitude?_chars` — a numeral is read as its parts, whatever stands behind it.
* `Writes` — a text is the numeral of a rational.
* `exists_magnitude` — the numeral of a number, in any form.
* `render_finite` — that numeral rounds to the number.
* **`plain_render`** — the plain form, read as the nearest number.
-/

namespace CanvasLink.Decimal

open Binary

/-! ## Numerals -/

/-- Whether the sign of a number is a minus. -/
def isNegative (x : Float) : Bool :=
  x.toBits.toNat / Nat.pow 2 63 == 1

/-- Nothing that could belong to a numeral stands here. -/
def StopsNumeral (s : List Char) : Prop :=
  ∀ c ∈ s.head?, c.isDigit = false ∧ c ≠ '.' ∧ c ≠ 'e' ∧ c ≠ 'E'

/-- The number that a numeral writes: the nearest one there is. -/
def numeralValue (d : Json.Digits) : Float :=
  let fraction := d.fraction.getD []
  nearest (ofDigits (d.whole ++ fraction)) (d.exponentValue - fraction.length)

structure NumeralOf (m : List Char) (x : Float) : Prop where
  starts : ∃ c s, m = c :: s ∧ c.isDigit = true
  reads : ∃ d, numeralValue d = x ∧
    ∀ s, StopsNumeral s → Json.readMagnitude? false (m ++ s) = some (d, s)

/-! ## Reading digits -/

/-- Digits are taken as far as they go. -/
theorem span_digits {digits s : List Char} (hdigits : ∀ c ∈ digits, c.isDigit = true)
    (hs : ∀ c ∈ s.head?, c.isDigit = false) :
    (digits ++ s).takeWhile Char.isDigit = digits ∧ (digits ++ s).dropWhile Char.isDigit = s := by
  rw [List.takeWhile_append_of_pos hdigits, List.dropWhile_append_of_pos hdigits]
  cases s with
  | nil => exact ⟨List.append_nil _, rfl⟩
  | cons c s =>
    have hc : ¬ c.isDigit = true := by
      rw [hs c rfl]
      decide
    rw [List.takeWhile_cons_of_neg hc, List.dropWhile_cons_of_neg hc]
    exact ⟨List.append_nil _, rfl⟩

/-- Digits that a numeral may start with: a zero stands alone. -/
structure IsWhole (whole : List Char) : Prop where
  isDigit : ∀ c ∈ whole, c.isDigit = true
  ne_nil : whole ≠ []
  leading : whole.head? = some '0' → whole.length = 1

theorem IsWhole.starts {whole : List Char} (h : IsWhole whole) (s : List Char) :
    ∃ c t, whole ++ s = c :: t ∧ c.isDigit = true := by
  obtain ⟨c, t, rfl⟩ := List.exists_cons_of_ne_nil h.ne_nil
  exact ⟨c, t ++ s, rfl, h.isDigit c List.mem_cons_self⟩

/-- Digits that a numeral may start with are not refused for a leading zero. -/
theorem IsWhole.accepted {whole : List Char} (h : IsWhole whole) :
    ¬ (whole.isEmpty || (whole.head? == some '0' && decide (1 < whole.length))) = true := by
  have hne := h.ne_nil
  have hleading := h.leading
  simp only [Bool.or_eq_true, List.isEmpty_iff, Bool.and_eq_true, beq_iff_eq, decide_eq_true_eq]
  rintro (rfl | ⟨hzero, hlong⟩)
  · exact hne rfl
  · rw [hleading hzero] at hlong
    omega

/-- Where no digit stands, digits end. -/
theorem StopsNumeral.isDigit {s : List Char} (h : StopsNumeral s) :
    ∀ c ∈ s.head?, c.isDigit = false :=
  fun c hc => (h c hc).1

/-- The digits behind a point, with the point. -/
def fractionChars : Option (List Char) → List Char
  | none => []
  | some digits => '.' :: digits

/-- An exponent with its sign. -/
def exponentChars : Option (Bool × List Char) → List Char
  | none => []
  | some (negative, digits) => 'e' :: (if negative then '-' else '+') :: digits

/-- The text of a numeral, its sign aside. -/
def numeralChars (d : Json.Digits) : List Char :=
  d.whole ++ fractionChars d.fraction ++ exponentChars d.exponent

/-- A numeral as it may be written: wherever digits may stand there are some. -/
structure IsNumeral (d : Json.Digits) : Prop where
  whole : IsWhole d.whole
  fraction : ∀ digits ∈ d.fraction, digits ≠ [] ∧ ∀ c ∈ digits, c.isDigit = true
  exponent : ∀ e ∈ d.exponent, e.2 ≠ [] ∧ ∀ c ∈ e.2, c.isDigit = true

/-- An exponent is read as far as it goes, and none where none is written. -/
theorem readExponent?_chars {exponent : Option (Bool × List Char)}
    (h : ∀ e ∈ exponent, e.2 ≠ [] ∧ ∀ c ∈ e.2, c.isDigit = true) {s : List Char}
    (hs : StopsNumeral s) : Json.readExponent? (exponentChars exponent ++ s) = some (exponent, s) := by
  cases exponent with
  | none =>
    cases s with
    | nil => rfl
    | cons c s =>
      -- What follows does not begin with either letter, so no exponent is read.
      obtain ⟨-, -, hlower, hupper⟩ := hs c rfl
      rw [exponentChars, List.nil_append, Json.readExponent?, if_neg (by simp [hlower, hupper])]
  | some e =>
    obtain ⟨negative, digits⟩ := e
    obtain ⟨hne, hdigits⟩ := h _ rfl
    obtain ⟨htake, hdrop⟩ := span_digits hdigits hs.isDigit
    have hsign : splitSign ((if negative then '-' else '+') :: (digits ++ s)) =
        (negative, digits ++ s) := by
      cases negative <;> rfl
    rw [exponentChars, List.cons_append, List.cons_append, Json.readExponent?, if_pos (by decide)]
    simp only [hsign, htake, hdrop, List.isEmpty_iff, if_neg hne]

/-- A fraction is read as far as it goes, and none where none is written. -/
theorem readFraction?_chars {fraction : Option (List Char)}
    (h : ∀ digits ∈ fraction, digits ≠ [] ∧ ∀ c ∈ digits, c.isDigit = true) {s : List Char}
    (hs : ∀ c ∈ s.head?, c.isDigit = false ∧ c ≠ '.') :
    Json.readFraction? (fractionChars fraction ++ s) = some (fraction, s) := by
  cases fraction with
  | none =>
    rw [fractionChars, List.nil_append]
    unfold Json.readFraction?
    split
    · exact absurd rfl (hs '.' rfl).2
    · rfl
  | some digits =>
    obtain ⟨hne, hdigits⟩ := h _ rfl
    obtain ⟨htake, hdrop⟩ := span_digits hdigits fun c hc => (hs c hc).1
    rw [fractionChars, List.cons_append, Json.readFraction?]
    simp only [htake, hdrop, List.isEmpty_iff, if_neg hne]

/-- **A numeral is read as its parts**, whatever stands behind it. -/
theorem readMagnitude?_chars {d : Json.Digits} (h : IsNumeral d) {s : List Char}
    (hs : StopsNumeral s) : Json.readMagnitude? d.negative (numeralChars d ++ s) = some (d, s) := by
  -- What follows the digits before the point goes on with a mark or stops.
  have hexponent : ∀ c ∈ (exponentChars d.exponent ++ s).head?, c.isDigit = false ∧ c ≠ '.' := by
    cases d.exponent with
    | none => exact fun c hc => ⟨(hs c hc).1, (hs c hc).2.1⟩
    | some e =>
      rintro c ⟨⟩
      exact ⟨by decide, by decide⟩
  have hfraction : ∀ c ∈ (fractionChars d.fraction ++ (exponentChars d.exponent ++ s)).head?,
      c.isDigit = false := by
    cases d.fraction with
    | none => exact fun c hc => (hexponent c hc).1
    | some digits =>
      rintro c ⟨⟩
      decide
  obtain ⟨htake, hdrop⟩ := span_digits h.whole.isDigit hfraction
  rw [numeralChars, List.append_assoc, List.append_assoc]
  simp only [Json.readMagnitude?, htake, hdrop, if_neg h.whole.accepted,
    readFraction?_chars h.fraction hexponent, readExponent?_chars h.exponent hs,
    Option.bind_eq_bind, Option.bind_some, Option.pure_def]

/-- The rational that a numeral writes, its sign aside. -/
def quantity (d : Json.Digits) : ℚ :=
  ofDigits (d.whole ++ d.fraction.getD []) * 10 ^ (d.exponentValue - (d.fraction.getD []).length)

/-- The text of a numeral without a sign is a numeral of its value. -/
theorem numeralOf_chars {d : Json.Digits} (h : IsNumeral d) (hsign : d.negative = false) {x : Float}
    (hx : numeralValue d = x) : NumeralOf (numeralChars d) x := by
  refine ⟨?_, d, hx, fun s hs => ?_⟩
  · rw [numeralChars, List.append_assoc]
    exact h.whole.starts _
  · rw [← hsign]
    exact readMagnitude?_chars h hs

/-! ## Writing digits -/

theorem ofDigits_eq (digits : List Char) : ofDigits digits = Nat.ofDigitChars 10 digits 0 := rfl

theorem ofDigits_append_zeros (digits : List Char) (n : Nat) :
    ofDigits (digits ++ List.replicate n '0') = ofDigits digits * 10 ^ n := by
  rw [ofDigits_eq, ofDigits_eq, Nat.ofDigitChars_append, Nat.ofDigitChars_replicate_zero,
    Nat.mul_comm]

theorem ofDigits_zeros_append (digits : List Char) (n : Nat) :
    ofDigits (List.replicate n '0' ++ digits) = ofDigits digits := by
  rw [ofDigits_eq, ofDigits_eq, Nat.ofDigitChars_append, Nat.ofDigitChars_replicate_zero,
    Nat.mul_zero]

theorem isDigit_of_mem_zeros {n : Nat} {c : Char} (h : c ∈ List.replicate n '0') :
    c.isDigit = true := by
  rw [List.eq_of_mem_replicate h]
  decide

theorem digitChar_ne_zero : ∀ n : Fin 10, 0 < n.val → n.val.digitChar ≠ '0' := by decide

/-- The digits of a number other than zero do not start with a zero. -/
theorem head?_toDigits_ne {n : Nat} (hn : 0 < n) : (Nat.toDigits 10 n).head? ≠ some '0' := by
  induction n using Nat.strong_induction_on with
  | _ n ih =>
    by_cases hsmall : n < 10
    · rw [Nat.toDigits_of_lt_base hsmall, List.head?_cons, ne_eq, Option.some_inj]
      exact digitChar_ne_zero ⟨n, hsmall⟩ hn
    · rw [Nat.toDigits_of_base_le (by decide) (by omega),
        List.head?_append_of_ne_nil _ Nat.toDigits_ne_nil]
      exact ih (n / 10) (by omega) (by omega)

/-- Digits that do not start with a zero. -/
structure IsLeading (digits : List Char) : Prop where
  isDigit : ∀ c ∈ digits, c.isDigit = true
  ne_nil : digits ≠ []
  leading : digits.head? ≠ some '0'

theorem isLeading_toDigits {n : Nat} (hn : 0 < n) : IsLeading (Nat.toDigits 10 n) :=
  ⟨fun _ hc => Nat.isDigit_of_mem_toDigits (by decide) (by decide) hc, Nat.toDigits_ne_nil,
    head?_toDigits_ne hn⟩

/-- Digits of a number start with a zero only where it is all there is. -/
theorem isWhole_toDigits (n : Nat) : IsWhole (Nat.toDigits 10 n) := by
  refine ⟨fun _ hc => Nat.isDigit_of_mem_toDigits (by decide) (by decide) hc, Nat.toDigits_ne_nil,
    fun hzero => ?_⟩
  cases n with
  | zero => rfl
  | succ n => exact absurd hzero (head?_toDigits_ne n.succ_pos)

/-- What is stripped off is zeros, and they are counted in the exponent. -/
theorem stripZeros_eq (digits : List Char) (exponent : Int) :
    ∃ n : Nat, digits = (stripZeros digits exponent).1 ++ List.replicate n '0' ∧
      (stripZeros digits exponent).2 = exponent + n := by
  refine ⟨digits.length - (digits.reverse.dropWhile (· == '0')).reverse.length, ?_, rfl⟩
  have hsplit : digits = (digits.reverse.dropWhile (· == '0')).reverse ++
      (digits.reverse.takeWhile (· == '0')).reverse := by
    rw [← List.reverse_append, List.takeWhile_append_dropWhile, List.reverse_reverse]
  -- The digits dropped from the end are all zeros, so their number determines them.
  have hzeros : (digits.reverse.takeWhile (· == '0')).reverse =
      List.replicate (digits.reverse.takeWhile (· == '0')).length '0' := by
    rw [List.eq_replicate_iff]
    refine ⟨List.length_reverse, fun c hc => ?_⟩
    have hall := List.all_takeWhile (l := digits.reverse) (p := (· == '0'))
    exact beq_iff_eq.1 (List.all_eq_true.1 hall c (List.mem_reverse.1 hc))
  have hlength : digits.length - (digits.reverse.dropWhile (· == '0')).reverse.length =
      (digits.reverse.takeWhile (· == '0')).length := by
    have hsum := congrArg List.length hsplit
    simp only [List.length_append, List.length_reverse] at hsum ⊢
    omega
  rw [hlength, ← hzeros]
  exact hsplit

/-- Digits that start with no zero do so without those at their end. -/
theorem IsLeading.stripZeros {digits : List Char} (h : IsLeading digits) (exponent : Int) :
    IsLeading (stripZeros digits exponent).1 := by
  obtain ⟨n, hdigits, -⟩ := stripZeros_eq digits exponent
  generalize (Decimal.stripZeros digits exponent).1 = kept at hdigits
  have hne : kept ≠ [] := by
    -- Otherwise there are only zeros, and the first one leads.
    rintro rfl
    rw [List.nil_append] at hdigits
    have hleading := h.leading
    have hne := h.ne_nil
    rw [hdigits] at hleading hne
    cases n with
    | zero => exact hne rfl
    | succ n => exact hleading rfl
  refine ⟨fun c hc => h.isDigit c (hdigits ▸ List.mem_append_left _ hc), hne, ?_⟩
  have hleading := h.leading
  rwa [hdigits, List.head?_append_of_ne_nil _ hne] at hleading

/-! ### Digits with a point -/

/-- Zeros behind such digits leave them a whole number. -/
theorem IsLeading.isWhole {digits : List Char} (h : IsLeading digits) (n : Nat) :
    IsWhole (digits ++ List.replicate n '0') := by
  refine ⟨fun c hc => ?_, List.append_ne_nil_of_left_ne_nil h.ne_nil _, fun hzero => ?_⟩
  · rcases List.mem_append.1 hc with hc | hc
    · exact h.isDigit c hc
    · exact isDigit_of_mem_zeros hc
  · rw [List.head?_append_of_ne_nil _ h.ne_nil] at hzero
    exact absurd hzero h.leading

/-- Digits that are padded with zeros so that at least one stands in front of the point. -/
def padded (digits : List Char) (places : Nat) : List Char :=
  List.replicate (places + 1 - digits.length) '0' ++ digits

theorem lt_length_padded (digits : List Char) (places : Nat) :
    places < (padded digits places).length := by
  rw [padded, List.length_append, List.length_replicate]
  omega

/-- What is padded is digits. -/
theorem IsLeading.isDigit_padded {digits : List Char} (h : IsLeading digits) {places : Nat}
    {c : Char} (hc : c ∈ padded digits places) : c.isDigit = true := by
  rcases List.mem_append.1 hc with hc | hc
  · exact isDigit_of_mem_zeros hc
  · exact h.isDigit c hc

/-- What stands in front of the point is a whole number; if it starts with a zero it is that zero
alone. -/
theorem IsLeading.isWhole_padded {digits : List Char} (h : IsLeading digits) (places : Nat) :
    IsWhole ((padded digits places).take ((padded digits places).length - places)) := by
  have hlength := lt_length_padded digits places
  refine ⟨fun c hc => h.isDigit_padded (List.mem_of_mem_take hc), ?_, fun hzero => ?_⟩
  · rw [ne_eq, List.take_eq_nil_iff, not_or]
    refine ⟨by omega, fun hnil => ?_⟩
    rw [hnil] at hlength
    cases hlength
  · -- A zero in front is padding, and there is only as much of it as one place needs.
    rw [List.head?_take, if_neg (by omega)] at hzero
    rw [List.length_take]
    by_cases hpad : places + 1 - digits.length = 0
    · rw [padded, hpad, List.replicate_zero, List.nil_append] at hzero
      exact absurd hzero h.leading
    · rw [padded, List.length_append, List.length_replicate]
      omega

/-- A text is a numeral without a sign that writes a rational. -/
structure Writes (d : Json.Digits) (text : List Char) (q : ℚ) : Prop where
  isNumeral : IsNumeral d
  positive : d.negative = false
  chars : text = numeralChars d
  quantity : quantity d = q

/-- What may stand behind a whole number. -/
def wholeFraction (wholeMark : String) : Option (List Char) :=
  if wholeMark = "" then none else some ['0']

/-- A whole number with the mark of a layout. -/
theorem writes_whole {wholeMark : String} (hmark : wholeMark = "" ∨ wholeMark = ".0")
    {whole : List Char} (h : IsWhole whole) :
    Writes ⟨false, whole, wholeFraction wholeMark, none⟩ (whole ++ wholeMark.toList)
      (ofDigits whole) := by
  rcases hmark with rfl | rfl
  · refine ⟨⟨h, nofun, nofun⟩, rfl, ?_, ?_⟩
    · simp [numeralChars, fractionChars, exponentChars, wholeFraction]
    · simp [quantity, Json.Digits.exponentValue, wholeFraction]
  · refine ⟨⟨h, ?_, nofun⟩, rfl, ?_, ?_⟩
    · rintro _ ⟨⟩
      exact ⟨List.cons_ne_nil _ _, (isWhole_toDigits 0).isDigit⟩
    · simp [numeralChars, fractionChars, exponentChars, wholeFraction]
    · have hzero : ofDigits (whole ++ ['0']) = ofDigits whole * 10 ^ 1 :=
        ofDigits_append_zeros whole 1
      simp [quantity, Json.Digits.exponentValue, wholeFraction, hzero]

/-- A positional numeral has no exponent, so that the point says what its digits stand for. -/
theorem exists_positional {wholeMark : String} (hmark : wholeMark = "" ∨ wholeMark = ".0")
    {digits : List Char} (h : IsLeading digits) (exponent : Int) :
    ∃ d, Writes d (positional wholeMark digits exponent).toList (ofDigits digits * 10 ^ exponent) ∧
      (d.fraction = wholeFraction wholeMark ∨ d.fraction ≠ none) := by
  unfold positional
  split
  · next hexponent =>
    -- No digit behind the point: the exponent only appends zeros.
    have hpow : (exponent.toNat : Int) = exponent := Int.toNat_of_nonneg hexponent
    have hwrites := writes_whole hmark (h.isWhole exponent.toNat)
    rw [ofDigits_append_zeros, Nat.cast_mul, Nat.cast_pow, Nat.cast_ofNat, ← zpow_natCast,
      hpow] at hwrites
    rw [String.toList_append, String.toList_ofList]
    exact ⟨_, hwrites, .inl rfl⟩
  · next hexponent =>
    simp only
    -- As many digits behind the point as the exponent takes off.
    generalize hplaces : (-exponent).toNat = places
    have hlength := lt_length_padded digits places
    have hdrop : ((padded digits places).drop ((padded digits places).length - places)).length =
        places := by
      rw [List.length_drop]
      omega
    rw [String.toList_append, String.toList_append, String.toList_ofList, String.toList_ofList,
      String.toList_ofList, List.append_assoc]
    refine ⟨⟨false, (padded digits places).take ((padded digits places).length - places),
      some ((padded digits places).drop ((padded digits places).length - places)), none⟩,
      ⟨⟨h.isWhole_padded places, ?_, nofun⟩, rfl, ?_, ?_⟩, .inr nofun⟩
    · rintro _ ⟨⟩
      refine ⟨fun hnil => ?_, fun c hc => h.isDigit_padded (List.mem_of_mem_drop hc)⟩
      rw [hnil, List.length_nil] at hdrop
      omega
    · simp [numeralChars, fractionChars, exponentChars, padded]
    · have hpow : 0 - (places : Int) = exponent := by omega
      rw [quantity, Option.getD_some, List.take_append_drop, hdrop, padded, ofDigits_zeros_append]
      exact congrArg (fun k : Int => (ofDigits digits : ℚ) * 10 ^ k) hpow

/-- The exponent behind a single digit counts the places of the digits after it. -/
theorem exists_scientific {digits : List Char} (h : IsLeading digits) (exponent : Int) :
    ∃ d, Writes d (scientific digits (exponent + digits.length - 1)).toList
      (ofDigits digits * 10 ^ exponent) ∧ d.exponent ≠ none := by
  obtain ⟨first, rest, rfl⟩ := List.exists_cons_of_ne_nil h.ne_nil
  generalize hleading : exponent + ((first :: rest).length : Int) - 1 = leading
  have hwhole : IsWhole [first] :=
    ⟨fun c hc => h.isDigit c (List.mem_singleton.1 hc ▸ List.mem_cons_self), by simp, fun _ => rfl⟩
  have hfraction : ∀ digits ∈ (if rest = [] then none else some rest), digits ≠ [] ∧
      ∀ c ∈ digits, c.isDigit = true := by
    intro digits hdigits
    split at hdigits
    · cases hdigits
    · next hne =>
      cases hdigits
      exact ⟨hne, fun c hc => h.isDigit c (List.mem_cons_of_mem _ hc)⟩
  have hfraction' : (if rest = [] then none else some rest).getD [] = rest := by
    split
    · next hnil => exact hnil.symm
    · rfl
  have hvalue : Json.digitsValue (Nat.toDigits 10 leading.natAbs) = leading.natAbs :=
    Nat.ofDigitChars_ten_toDigits
  refine ⟨⟨false, [first], if rest = [] then none else some rest,
    some (decide (leading < 0), Nat.toDigits 10 leading.natAbs)⟩,
    ⟨⟨hwhole, hfraction, ?_⟩, rfl, ?_, ?_⟩, nofun⟩
  · rintro _ ⟨⟩
    exact ⟨Nat.toDigits_ne_nil, fun _ hc => Nat.isDigit_of_mem_toDigits (by decide) (by decide) hc⟩
  · by_cases hnil : rest = [] <;> by_cases hneg : leading < 0 <;>
      simp [scientific, hnil, hneg, numeralChars, fractionChars, exponentChars, Nat.repr]
  · have hexponent : (Json.Digits.mk false [first] (if rest = [] then none else some rest)
        (some (decide (leading < 0), Nat.toDigits 10 leading.natAbs))).exponentValue = leading := by
      by_cases hneg : leading < 0
      · simp only [Json.Digits.exponentValue, hneg, decide_true, hvalue]
        omega
      · simp only [Json.Digits.exponentValue, hneg, decide_false, hvalue]
        omega
    -- The first digit stands before the point, so the exponent counts the others.
    have hpow : leading - (rest.length : Int) = exponent := by
      rw [List.length_cons] at hleading
      omega
    rw [quantity, hexponent, hfraction', hpow]
    rfl

/-! ## Numbers -/

/-- Zeros that are taken off the digits go into the exponent. -/
theorem exists_stripZeros {n : Nat} (hn : 0 < n) (exponent : Int) :
    ∃ digits exponent', stripZeros (Nat.toDigits 10 n) exponent = (digits, exponent') ∧
      IsLeading digits ∧ (n : ℚ) * 10 ^ exponent = ofDigits digits * 10 ^ exponent' := by
  obtain ⟨zeros, hsplit, hexponent⟩ := stripZeros_eq (Nat.toDigits 10 n) exponent
  have hvalue : ofDigits (Nat.toDigits 10 n) = n := Nat.ofDigitChars_ten_toDigits
  rw [hsplit, ofDigits_append_zeros] at hvalue
  refine ⟨(stripZeros (Nat.toDigits 10 n) exponent).1, (stripZeros (Nat.toDigits 10 n) exponent).2,
    rfl, (isLeading_toDigits hn).stripZeros exponent, ?_⟩
  have hvalue' : (n : ℚ) =
      ofDigits (stripZeros (Nat.toDigits 10 n) exponent).1 * 10 ^ zeros := by
    exact_mod_cast hvalue.symm
  rw [hexponent, zpow_add₀ (by norm_num), zpow_natCast, hvalue']
  ring

/-- A number without its sign, in any form. -/
theorem exists_magnitude (layout : Layout) (hmark : layout.wholeMark = "" ∨ layout.wholeMark = ".0")
    {x : Float} (hdigits : 0 < (shortest x layout.tie).digits) :
    ∃ d, Writes d (layout.magnitude x).toList
        ((shortest x layout.tie).digits * 10 ^ (shortest x layout.tie).exponent) ∧
      (d.fraction = wholeFraction layout.wholeMark ∨ d.fraction ≠ none ∨ d.exponent ≠ none) := by
  obtain ⟨digits, exponent, hkept, hleading, hquantity⟩ :=
    exists_stripZeros hdigits (shortest x layout.tie).exponent
  rw [hquantity]
  simp only [Layout.magnitude, hkept]
  split
  · obtain ⟨d, hwrites, hfraction⟩ := exists_positional hmark hleading exponent
    exact ⟨d, hwrites, hfraction.imp_right .inl⟩
  · obtain ⟨d, hwrites, hd⟩ := exists_scientific hleading exponent
    exact ⟨d, hwrites, .inr (.inr hd)⟩

/-- The sign is the highest bit. -/
theorem isNegative_eq_true_iff (x : Float) : isNegative x = true ↔ signOf x = .negative := by
  have hbit := signBit_signOf x
  rw [isNegative, beq_iff_eq, Nat.pow_eq, ← hbit]
  cases signOf x with
  | negative => exact ⟨fun _ => rfl, fun _ => rfl⟩
  | positive => exact ⟨fun h => absurd h (by decide), fun h => by cases h⟩

/-- The sign of a number as it is written. -/
def signChars (negative : Bool) : List Char :=
  if negative then ['-'] else []

/-- Zero is written as such in every layout, with its sign. -/
theorem render_zero (layout : Layout) (sign : Float.Model.UnpackedFloat.Sign) :
    let x := Float.ofModel (Float.Model.pack (.zero sign))
    (layout.render x).toList = signChars (isNegative x) ++ ['0'] ++ layout.wholeMark.toList := by
  intro x
  have hnan : x.isNaN = false := by cases sign <;> decide +kernel
  have hinf : x.isInf = false := by cases sign <;> decide +kernel
  have hbeq : (x == 0) = true := by cases sign <;> decide +kernel
  have hsign : (x.toBits.toNat / Nat.pow 2 63 == 1) = isNegative x := rfl
  simp only [Layout.render, hnan, hinf, hbeq, hsign, Bool.false_eq_true, if_false, if_true]
  rw [String.toList_append, String.toList_append]
  congr 2
  cases isNegative x <;> rfl

/-- A number without its sign. -/
def magnitude (x : Float) : Float :=
  if isNegative x then -x else x

theorem magnitude_zero {x : Float} (h : x = Float.ofModel (Float.Model.pack (.zero (signOf x)))) :
    magnitude x = Float.ofModel (Float.Model.pack (.zero .positive)) := by
  rw [h]
  cases signOf x <;> decide +kernel

/-- A rational rounds to a number without a sign. -/
inductive Rounds (q : ℚ) : Float → Prop
  | zero (h : q = 0) : Rounds q (Float.ofModel (Float.Model.pack (.zero .positive)))
  | finite {m : Nat} {e : Int} (hc : Canonical m e) (hmax : e ≤ 971) (hq : Near q m e) :
    Rounds q (Float.ofModel (Float.Model.pack (.finite .positive m e hc.pos)))

/-- A finite number other than zero is written as the number without its sign, and what is written
rounds to that. -/
theorem render_finite (layout : Layout) {x : Float} (h : x.isFinite = true)
    (hzero : x ≠ Float.ofModel (Float.Model.pack (.zero (signOf x)))) :
    (layout.render x).toList = signChars (isNegative x) ++ (layout.magnitude x).toList ∧
      ∃ m e, ∃ hc : Canonical m e, e ≤ 971 ∧
        magnitude x = Float.ofModel (Float.Model.pack (.finite .positive m e hc.pos)) ∧
        Near ((shortest x layout.tie).digits * 10 ^ (shortest x layout.tie).exponent) m e := by
  obtain ⟨m, e, hc, hmax, hx, hnear⟩ := near_shortest h hzero layout.tie
  refine ⟨?_, m, e, hc, hmax, ?_, hnear⟩
  · have hnan : x.isNaN = false := hx ▸ isNaN_finite hc hmax (signOf x)
    have hinf : x.isInf = false := hx ▸ isInf_finite hc hmax (signOf x)
    have hbeq : (x == 0) = false := hx ▸ finite_beq_zero hc hmax (signOf x)
    have hsign : (x.toBits.toNat / Nat.pow 2 63 == 1) = isNegative x := rfl
    simp only [Layout.render, hnan, hinf, hbeq, hsign, Bool.false_eq_true, if_false]
    rw [String.toList_append]
    congr 1
    cases isNegative x <;> rfl
  · rw [magnitude]
    by_cases hnegative : isNegative x = true
    · rw [if_pos hnegative, hx, (isNegative_eq_true_iff x).1 hnegative, neg_finite hc hmax]
      rfl
    · rw [if_neg hnegative]
      -- Negating a number flips its sign and nothing else.
      cases hs : signOf x with
      | negative => exact absurd ((isNegative_eq_true_iff x).2 hs) hnegative
      | positive => rw [← hs, ← hx]

/-- In the plain form a finite number is its sign and a numeral of its magnitude. -/
theorem plain_render {x : Float} (h : x.isFinite = true) :
    ∃ m, (plain.render x).toList = signChars (isNegative x) ++ m ∧ NumeralOf m (magnitude x) := by
  -- Zero has no shortest digits and is written as itself.
  by_cases hzero : x = Float.ofModel (Float.Model.pack (.zero (signOf x)))
  · have hwrites := writes_whole (.inl rfl) (isWhole_toDigits 0)
    refine ⟨['0'], ?_, ?_⟩
    · rw [hzero, render_zero, plain, String.toList_empty, List.append_nil]
    · rw [magnitude_zero hzero]
      exact numeralOf_chars hwrites.isNumeral rfl nearest_zero
  · obtain ⟨htext, m, e, hc, hmax, hmagnitude, hnear⟩ := render_finite plain h hzero
    obtain ⟨d, hwrites, -⟩ := exists_magnitude plain (.inl rfl) (hnear.digits_pos hc hmax)
    refine ⟨_, htext, ?_⟩
    rw [hwrites.chars, hmagnitude]
    refine numeralOf_chars hwrites.isNumeral hwrites.positive (nearest_eq hc hmax ?_)
    show Near (quantity d) m e
    rw [hwrites.quantity]
    exact hnear

/-- A finite number is the negative of its negative. -/
theorem neg_neg_of_isFinite {x : Float} (h : x.isFinite = true) : - -x = x := by
  have hsign (s : Float.Model.UnpackedFloat.Sign) : - -s = s := by cases s <;> rfl
  rcases finite_cases h with hx | ⟨m, e, hc, hmax, hx, -⟩
  · rw [hx, neg_zero, neg_zero, hsign]
  · rw [hx, neg_finite hc hmax, neg_finite hc hmax, hsign]

end CanvasLink.Decimal
