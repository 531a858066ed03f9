import CanvasLink.Markup.Color
import CanvasLink.Proofs.Text.Cutting
import CanvasLink.Proofs.Text.Slicing

/-!
# CanvasLink — how colors are written

A text is a color when six ASCII hexadecimal digits are left of it, apart from blank characters at
its ends and one `#`; nothing else is.

* `isHexDigit` — the digits of either case; `digitValue?_eq_some_iff` and `byte?_eq_some_iff` read
  them through their lower-case forms.
* `Spelled` — the texts that are a color.
* `ofHex?_eq_some_iff` — the reader of colors.
* `ofHexBytes` — the same reader by bytes: a length in bytes, a test of every byte, cuts at fixed
  byte positions, and numerals that might have a sign. `run_ofHexBytes` says that no cut fails and
  that the outcome is the same.
* **`hex_recognised_exactly`** — the headline.
-/

namespace CanvasLink.Markup.Color

open CanvasLink.Text

/-! ## Digits -/

/-- Whether a character is an ASCII hexadecimal digit, in either case. -/
def isHexDigit (c : Char) : Bool :=
  ('0' ≤ c && c ≤ '9') || ('a' ≤ c && c ≤ 'f') || ('A' ≤ c && c ≤ 'F')

theorem isSome_digitValue? (c : Char) : (digitValue? c).isSome = isHexDigit c := by
  unfold digitValue? isHexDigit
  grind

/-- A digit is an ASCII character, so that it is one byte. -/
theorem toNat_of_isHexDigit {c : Char} (h : isHexDigit c = true) : c.toNat < 128 := by
  have hle {d : Char} (hd : d.toNat < 128) (hc : c ≤ d) : c.toNat < 128 := by
    rw [Char.le_def, UInt32.le_iff_toNat_le] at hc
    exact Nat.lt_of_le_of_lt hc hd
  simp only [isHexDigit, Bool.or_eq_true, Bool.and_eq_true, decide_eq_true_eq] at h
  rcases h with (⟨-, h⟩ | ⟨-, h⟩) | ⟨-, h⟩ <;> exact hle (by decide) h

/-- What holds of the ASCII characters holds of the digits. -/
theorem forall_hexDigit {P : Char → Prop} (h : ∀ k < 128, isHexDigit (.ofNat k) = true → P (.ofNat k))
    {c : Char} (hc : isHexDigit c = true) : P c := by
  have hk := h c.toNat (toNat_of_isHexDigit hc)
  rw [Char.ofNat_toNat] at hk
  exact hk hc

/-- A digit is no blank character, and none of those that colors and markup set off. -/
theorem plain_of_isHexDigit {c : Char} (hc : isHexDigit c = true) :
    isBlank c = false ∧ c ∉ ['#', '+', '"', '&'] :=
  forall_hexDigit (P := fun c => isBlank c = false ∧ c ∉ ['#', '+', '"', '&']) (by decide +kernel) hc

theorem digitValue?_digit : ∀ n < 16, digitValue? (digit n) = some n := by
  decide

/-- The value of a digit is the place of its lower-case form. -/
theorem digitValue?_eq_some_iff {c : Char} {n : Nat} :
    digitValue? c = some n ↔ n < 16 ∧ c.toLower = digit n := by
  constructor
  · intro h
    have hc : isHexDigit c = true := by
      rw [← isSome_digitValue?, h]
      rfl
    have hall := forall_hexDigit
      (P := fun c => (digitValue? c).all fun n => n < 16 && c.toLower == digit n)
      (by decide +kernel) hc
    simpa [h] using hall
  · rintro ⟨hn, hlower⟩
    rcases Nat.lt_or_ge c.toNat 128 with hc | hc
    · have hascii : ∀ k < 128, ∀ n < 16, (Char.ofNat k).toLower = digit n →
          digitValue? (.ofNat k) = some n := by
        decide +kernel
      have hread := hascii c.toNat hc n hn
      rw [Char.ofNat_toNat] at hread
      exact hread hlower
    · -- A character that is not ASCII is its own lower-case form.
      have hsame : c.toLower = c := by
        refine dif_neg ?_
        rintro ⟨-, hle⟩
        rw [UInt32.le_iff_toNat_le] at hle
        exact absurd (Nat.le_trans hc hle) (by decide)
      rw [← hsame, hlower]
      exact digitValue?_digit n hn

/-- A digit, in either case, is in lower case that of a number below sixteen. -/
theorem isHexDigit_iff {c : Char} : isHexDigit c = true ↔ ∃ n < 16, c.toLower = digit n := by
  rw [← isSome_digitValue?, Option.isSome_iff_exists]
  simp only [digitValue?_eq_some_iff]

/-- Two digits write the byte whose digits are their lower-case forms. -/
theorem byte?_eq_some_iff {high low : Char} {b : UInt8} :
    byte? high low = some b ↔ [high.toLower, low.toLower] = byteDigits b := by
  have hb := b.toNat_lt
  simp only [byte?, bind, Option.bind_eq_some_iff, pure, Option.some.injEq,
    digitValue?_eq_some_iff, byteDigits, List.cons.injEq, and_true]
  constructor
  · rintro ⟨m, ⟨hm, hhigh⟩, n, ⟨hn, hlow⟩, rfl⟩
    -- Two digits never overflow the byte.
    have hvalue : (UInt8.ofNat (16 * m + n)).toNat = 16 * m + n := by
      rw [UInt8.toNat_ofNat']
      omega
    rw [hvalue, show (16 * m + n) / 16 = m by omega, show (16 * m + n) % 16 = n by omega]
    exact ⟨hhigh, hlow⟩
  · rintro ⟨hhigh, hlow⟩
    refine ⟨b.toNat / 16, ⟨by omega, hhigh⟩, b.toNat % 16, ⟨by omega, hlow⟩, ?_⟩
    rw [Nat.div_add_mod, UInt8.ofNat_toNat]

theorem length_of_map_toLower {digits : List Char} {c : Color}
    (h : digits.map Char.toLower = c.toHex) : digits.length = 6 := by
  rw [← List.length_map Char.toLower, h]
  rfl

/-- **Six digits write the color whose digits are their lower-case forms.** -/
theorem ofDigits?_eq_some_iff {digits : List Char} {c : Color} :
    ofDigits? digits = some c ↔ digits.map Char.toLower = c.toHex := by
  obtain ⟨red, green, blue⟩ := c
  constructor
  · intro h
    unfold ofDigits? at h
    split at h
    · simp only [bind, Option.bind_eq_some_iff, pure, Option.some.injEq, Color.mk.injEq] at h
      obtain ⟨_, hr, _, hg, _, hb, rfl, rfl, rfl⟩ := h
      rw [byte?_eq_some_iff] at hr hg hb
      simp only [toHex, ← hr, ← hg, ← hb]
      rfl
    · cases h
  · intro h
    simp only [toHex, byteDigits, List.cons_append, List.nil_append, List.map_eq_cons_iff,
      List.map_eq_nil_iff] at h
    -- Six digits, two for each channel.
    obtain ⟨r₁, _, rfl, hr₁, r₂, _, rfl, hr₂, g₁, _, rfl, hg₁, g₂, _, rfl, hg₂,
      b₁, _, rfl, hb₁, b₂, _, rfl, hb₂, rfl⟩ := h
    have hr : byte? r₁ r₂ = some red := byte?_eq_some_iff.2 (by rw [hr₁, hr₂]; rfl)
    have hg : byte? g₁ g₂ = some green := byte?_eq_some_iff.2 (by rw [hg₁, hg₂]; rfl)
    have hb : byte? b₁ b₂ = some blue := byte?_eq_some_iff.2 (by rw [hb₁, hb₂]; rfl)
    simp [ofDigits?, hr, hg, hb]

/-- Each digit of a color is that of a number below sixteen. -/
theorem exists_digit_of_mem_toHex {c : Color} {d : Char} (h : d ∈ c.toHex) :
    ∃ n < 16, d = digit n := by
  have hbyte (b : UInt8) (hd : d ∈ byteDigits b) : ∃ n < 16, d = digit n := by
    have hb := b.toNat_lt
    simp only [byteDigits, List.mem_cons, List.not_mem_nil, or_false] at hd
    obtain hd | hd := hd
    · exact ⟨_, by omega, hd⟩
    · exact ⟨_, by omega, hd⟩
  simp only [toHex, List.mem_append] at h
  obtain (h | h) | h := h
  all_goals exact hbyte _ h

/-- The digits of a color are in lower case. -/
theorem map_toLower_toHex (c : Color) : c.toHex.map Char.toLower = c.toHex := by
  have hdigit : ∀ n < 16, (digit n).toLower = digit n := by decide
  refine (List.map_congr_left (g := id) fun d hd => ?_).trans (List.map_id _)
  obtain ⟨n, hn, rfl⟩ := exists_digit_of_mem_toHex hd
  exact hdigit n hn

/-- The digits of a color are the color's. -/
theorem ofDigits?_toHex (c : Color) : ofDigits? c.toHex = some c :=
  ofDigits?_eq_some_iff.2 c.map_toLower_toHex

/-- In whatever case the digits of a color are, they are digits. -/
theorem isHexDigit_of_map_toLower {digits : List Char} {c : Color}
    (h : digits.map Char.toLower = c.toHex) : ∀ d ∈ digits, isHexDigit d = true := by
  intro d hd
  have hmem : d.toLower ∈ c.toHex := h ▸ List.mem_map_of_mem hd
  exact isHexDigit_iff.2 (exists_digit_of_mem_toHex hmem)

/-! ## Texts -/

/-- A text is a color: six digits, which are its own in either case, with at most one `#` in front
and any blank characters around. -/
def Spelled (s : List Char) (c : Color) : Prop :=
  ∃ t digits, Trimmed s t ∧ (t = digits ∨ t = '#' :: digits) ∧ digits.length = 6 ∧
    (∀ d ∈ digits, isHexDigit d = true) ∧ c.toHex = digits.map Char.toLower

/-- One `#` is taken off, or none was there. -/
theorem stripHash_cases (t : List Char) : t = stripHash t ∨ t = '#' :: stripHash t := by
  unfold stripHash
  split
  · exact .inr rfl
  · exact .inl rfl

/-- From digits nothing is taken off. -/
theorem stripHash_of_isHexDigit {digits : List Char} (h : ∀ d ∈ digits, isHexDigit d = true) :
    stripHash digits = digits := by
  unfold stripHash
  split
  · next s => exact absurd (h '#' List.mem_cons_self) (by decide)
  · rfl

/-- **The reader of colors.** -/
theorem ofHex?_eq_some_iff {s : List Char} {c : Color} : ofHex? s = some c ↔ Spelled s c := by
  rw [ofHex?, ofDigits?_eq_some_iff]
  constructor
  · intro h
    exact ⟨trim s, stripHash (trim s), trimmed_iff.2 rfl, stripHash_cases _,
      length_of_map_toLower h, isHexDigit_of_map_toLower h, h.symm⟩
  · rintro ⟨t, digits, htrim, ht, -, hdigits, hhex⟩
    have hstrip : stripHash t = digits := by
      obtain rfl | rfl := ht
      · exact stripHash_of_isHexDigit hdigits
      · rfl
    rw [trimmed_iff.1 htrim, hstrip, hhex]

/-- The digits of a color in any case, with or without `#`, among blank characters. -/
theorem spelled_of_map_toLower {before hash digits after : List Char} {c : Color}
    (hbefore : Blanks before) (hafter : Blanks after) (hhash : hash = [] ∨ hash = ['#'])
    (h : digits.map Char.toLower = c.toHex) : Spelled (before ++ (hash ++ digits ++ after)) c := by
  have hdigits := isHexDigit_of_map_toLower h
  -- Neither the hash nor a digit is a blank, so trimming keeps them.
  have hplain : ∀ d ∈ hash ++ digits, isBlank d = false := by
    intro d hd
    rcases List.mem_append.1 hd with hd | hd
    · obtain rfl | rfl := hhash
      · cases hd
      · obtain rfl := List.mem_singleton.1 hd
        decide
    · exact (plain_of_isHexDigit (hdigits d hd)).1
  refine ⟨hash ++ digits, digits, ⟨before, after, rfl, hbefore, hafter, ?_, ?_⟩, ?_,
    length_of_map_toLower h, hdigits, h.symm⟩
  · exact fun d hd => hplain d (List.mem_of_mem_head? hd)
  · exact fun d hd => hplain d (List.mem_of_getLast? hd)
  · obtain rfl | rfl := hhash
    · exact .inl rfl
    · exact .inr rfl

/-! ## By bytes -/

/-- The bytes of a text in UTF-8. -/
def utf8Bytes (s : List Char) : List UInt8 :=
  s.flatMap String.utf8EncodeChar

/-- The bytes of a text are as many as its length says. -/
theorem length_utf8Bytes (s : List Char) : (utf8Bytes s).length = utf8Length s := by
  induction s with
  | nil => rfl
  | cons c s ih =>
    rw [utf8Bytes, List.flatMap_cons, List.length_append, String.length_utf8EncodeChar, utf8Length]
    exact congrArg _ ih

/-- Whether a byte is that of an ASCII hexadecimal digit. -/
def isHexByte (b : UInt8) : Bool :=
  (0x30 ≤ b && b ≤ 0x39) || (0x61 ≤ b && b ≤ 0x66) || (0x41 ≤ b && b ≤ 0x46)

/-- The bytes of a character are those of digits exactly if it is one. -/
theorem all_isHexByte_utf8EncodeChar (c : Char) :
    (String.utf8EncodeChar c).all isHexByte = isHexDigit c := by
  rcases Nat.lt_or_ge c.toNat 128 with hc | hc
  · have hascii : ∀ k < 128, (String.utf8EncodeChar (.ofNat k)).all isHexByte =
        isHexDigit (.ofNat k) := by
      decide +kernel
    have hk := hascii c.toNat hc
    rwa [Char.ofNat_toNat] at hk
  · -- The first of several bytes is too large.
    have hnot : isHexDigit c = false := by
      rw [Bool.eq_false_iff]
      exact fun h => absurd (toNat_of_isHexDigit h) (Nat.not_lt.2 hc)
    have hlarge {n : Nat} (h₁ : 128 ≤ n) (h₂ : n < 256) : isHexByte (.ofNat n) = false := by
      have hn : (UInt8.ofNat n).toNat = n := by
        rw [UInt8.toNat_ofNat']
        omega
      simp only [isHexByte, UInt8.le_iff_toNat_le, hn]
      simp
      omega
    have hval : ¬ c.val.toNat ≤ 0x7f := Nat.not_le.2 hc
    rw [hnot]
    unfold String.utf8EncodeChar
    dsimp only
    rw [if_neg hval]
    split
    · rw [List.all_cons, hlarge (by omega) (by omega), Bool.false_and]
    · split
      · rw [List.all_cons, hlarge (by omega) (by omega), Bool.false_and]
      · rw [List.all_cons, hlarge (by omega) (by omega), Bool.false_and]

/-- The bytes are those of digits exactly if the characters are digits: no byte of a longer
character is an ASCII one. -/
theorem all_isHexByte_utf8Bytes (s : List Char) :
    (utf8Bytes s).all isHexByte = s.all isHexDigit := by
  rw [utf8Bytes, List.all_flatMap]
  simp only [all_isHexByte_utf8EncodeChar]

/-- A digit is one byte long. -/
theorem utf8Length_of_isHexDigit {s : List Char} (h : ∀ d ∈ s, isHexDigit d = true) :
    utf8Length s = s.length := by
  have hone : ∀ k < 128, isHexDigit (.ofNat k) = true → (Char.ofNat k).utf8Size = 1 := by
    decide +kernel
  induction s with
  | nil => rfl
  | cons c s ih =>
    rw [List.forall_mem_cons] at h
    rw [utf8Length, ih h.2, forall_hexDigit (P := fun c => c.utf8Size = 1) hone h.1,
      List.length_cons, Nat.add_comm]

/-- The number of up to eight bits that a text writes to base sixteen. The digits may have a plus
sign in front, but not be missing. -/
def readByte? (s : List Char) : Option UInt8 :=
  let digits := match s with
    | '+' :: digits => digits
    | digits => digits
  if digits = [] then none
  else do
    let n ← digits.foldlM (fun n d => (digitValue? d).map (16 * n + ·)) 0
    if n < 256 then some (.ofNat n) else none

/-- Digits have no sign, and two of them do not need more than eight bits. -/
theorem readByte?_pair {high low : Char} (hhigh : isHexDigit high = true)
    (hlow : isHexDigit low = true) : readByte? [high, low] = byte? high low := by
  obtain ⟨m, hm⟩ := Option.isSome_iff_exists.1 ((isSome_digitValue? high).trans hhigh)
  obtain ⟨n, hn⟩ := Option.isSome_iff_exists.1 ((isSome_digitValue? low).trans hlow)
  have hbits : 16 * m + n < 256 := by
    have hm' := (digitValue?_eq_some_iff.1 hm).1
    have hn' := (digitValue?_eq_some_iff.1 hn).1
    omega
  -- A leading `+` would be taken for a sign, and no hex digit is one.
  have hplus : high ≠ '+' := by
    rintro rfl
    exact absurd hhigh (by decide)
  have hdigits : (match [high, low] with
      | '+' :: digits => digits
      | digits => digits) = [high, low] := by
    split
    · next heq =>
      cases heq
      exact absurd rfl hplus
    · rfl
  simp [readByte?, hdigits, byte?, hm, hn, hbits]

/-- The channel whose two digits start at a byte position, unless the text cannot be cut there. -/
def channelAt (hex : List Char) (start : Nat) : OptionT Option UInt8 :=
  .mk ((slice? start (start + 2) hex).map readByte?)

/-- Reads a color by bytes. There is no outcome when a cut fails. -/
def ofHexBytes (s : List Char) : OptionT Option Color :=
  let hex := stripHash (trim s)
  if (utf8Bytes hex).length = 6 ∧ (utf8Bytes hex).all isHexByte = true then do
    let red ← channelAt hex 0
    let green ← channelAt hex 2
    let blue ← channelAt hex 4
    return ⟨red, green, blue⟩
  else failure

/-- Behind digits, which are one byte each, the next two are cut out whole. -/
theorem channelAt_append {before : List Char} (after : List Char) {high low : Char}
    (hbefore : ∀ d ∈ before, isHexDigit d = true) (hhigh : isHexDigit high = true)
    (hlow : isHexDigit low = true) :
    channelAt (before ++ ([high, low] ++ after)) before.length = .mk (some (byte? high low)) := by
  have hpair : utf8Length [high, low] = 2 :=
    utf8Length_of_isHexDigit (by simp [hhigh, hlow])
  rw [channelAt, ← utf8Length_of_isHexDigit hbefore, ← hpair, slice?_append, Option.map_some,
    readByte?_pair hhigh hlow]

/-- **No cut fails, and the color is the same.** -/
theorem run_ofHexBytes (s : List Char) : (ofHexBytes s).run = some (ofHex? s) := by
  rw [ofHexBytes, ofHex?, all_isHexByte_utf8Bytes, length_utf8Bytes]
  generalize stripHash (trim s) = hex
  split
  · next h =>
    obtain ⟨hlength, hall⟩ := h
    have hdigits : ∀ d ∈ hex, isHexDigit d = true := List.all_eq_true.1 hall
    rw [utf8Length_of_isHexDigit hdigits] at hlength
    match hex, hlength with
    | [r₁, r₂, g₁, g₂, b₁, b₂], _ =>
      simp only [List.forall_mem_cons] at hdigits
      obtain ⟨hr₁, hr₂, hg₁, hg₂, hb₁, hb₂, -⟩ := hdigits
      have hbeforeGreen : ∀ d ∈ [r₁, r₂], isHexDigit d = true := by simp [hr₁, hr₂]
      have hbeforeBlue : ∀ d ∈ [r₁, r₂, g₁, g₂], isHexDigit d = true := by
        simp [hr₁, hr₂, hg₁, hg₂]
      have hred : channelAt [r₁, r₂, g₁, g₂, b₁, b₂] 0 = .mk (some (byte? r₁ r₂)) :=
        channelAt_append [g₁, g₂, b₁, b₂] (List.forall_mem_nil _) hr₁ hr₂
      have hgreen : channelAt [r₁, r₂, g₁, g₂, b₁, b₂] 2 = .mk (some (byte? g₁ g₂)) :=
        channelAt_append [b₁, b₂] hbeforeGreen hg₁ hg₂
      have hblue : channelAt [r₁, r₂, g₁, g₂, b₁, b₂] 4 = .mk (some (byte? b₁ b₂)) :=
        channelAt_append [] hbeforeBlue hb₁ hb₂
      rw [hred, hgreen, hblue, ofDigits?]
      cases byte? r₁ r₂ with
      | none => rfl
      | some red =>
        cases byte? g₁ g₂ with
        | none => rfl
        | some green => cases byte? b₁ b₂ <;> rfl
  · next h =>
    -- What is not made of six digits is no color either way.
    cases hcolor : ofDigits? hex with
    | none => rfl
    | some c =>
      rw [ofDigits?_eq_some_iff] at hcolor
      have hdigits := isHexDigit_of_map_toLower hcolor
      have hlength := (utf8Length_of_isHexDigit hdigits).trans (length_of_map_toLower hcolor)
      exact absurd ⟨hlength, List.all_eq_true.2 hdigits⟩ h

/-! ## What is a color -/

/-- **Colors are recognised exactly.** A text is read as a color if and only if it spells the color.
The digits of a color in any case are read as the color, with or without `#` and with any blank
characters around. Reading by bytes comes to the same, and never cuts a text inside of a character
or behind its end. -/
theorem hex_recognised_exactly :
    (∀ s c, ofHex? s = some c ↔ Spelled s c) ∧
    (∀ (c : Color) (before hash digits after : List Char), Blanks before → Blanks after →
      (hash = [] ∨ hash = ['#']) → digits.map Char.toLower = c.toHex →
      ofHex? (before ++ (hash ++ digits ++ after)) = some c) ∧
    ∀ s, (ofHexBytes s).run = some (ofHex? s) :=
  ⟨fun _ _ => ofHex?_eq_some_iff,
    fun _ _ _ _ _ hbefore hafter hhash h =>
      ofHex?_eq_some_iff.2 (spelled_of_map_toLower hbefore hafter hhash h),
    run_ofHexBytes⟩

/-- Digits in mixed case between an ideographic space and a line break; and three characters of two
bytes each. -/
theorem hex_recognised_exactly_mixedCase :
    (Blanks ['\u3000'] ∧ Blanks ['\n'] ∧
      ['a', 'B', '0', '1', 'F', 'f'].map Char.toLower = toHex ⟨0xAB, 0x01, 0xFF⟩) ∧
    ofHex? ['\u3000', '#', 'a', 'B', '0', '1', 'F', 'f', '\n'] = some ⟨0xAB, 0x01, 0xFF⟩ ∧
    (ofHexBytes ['é', 'é', 'é']).run = some none := by
  have hspace : Blanks ['\u3000'] := List.forall_mem_singleton.2 (by decide)
  have hbreak : Blanks ['\n'] := List.forall_mem_singleton.2 (by decide)
  have hdigits : ['a', 'B', '0', '1', 'F', 'f'].map Char.toLower = toHex ⟨0xAB, 0x01, 0xFF⟩ := by
    decide
  obtain ⟨-, hread, hbytes⟩ := hex_recognised_exactly
  refine ⟨⟨hspace, hbreak, hdigits⟩, hread _ _ _ _ _ hspace hbreak (.inr rfl) hdigits, ?_⟩
  rw [hbytes]
  rfl

end CanvasLink.Markup.Color
