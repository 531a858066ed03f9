import CanvasLink.Decimal.Numeral
import CanvasLink.Proofs.Binary.Packing

/-!
# CanvasLink — reading digits with a power of ten

`Decimal.nearest` multiplies or divides two exact numbers when the digits and the power are small,
and otherwise rounds the exact quotient or product. Either way a numeral near a number becomes that
number.

* **`nearest_eq`** — the number that digits with a power of ten become.
-/

namespace CanvasLink.Binary

open Float.Model Float.Model.UnpackedFloat

/-! ## Whole numbers -/

/-- A whole number, shifted to the left end of the mantissa, is canonical. -/
theorem canonical_whole {n : Nat} (hpos : 0 < n) (hlt : n < 2 ^ 53) :
    Canonical (n <<< (52 - n.log2)) ((n.log2 : Int) - 52) := by
  have hne : n ≠ 0 := Nat.pos_iff_ne_zero.1 hpos
  have hlog : n.log2 < 53 := (Nat.log2_lt hne).2 hlt
  -- Shifting brings the leading bit to place 52.
  have hshift : (n <<< (52 - n.log2)).log2 = 52 := by
    rw [log2_shiftLeft hpos]
    omega
  have hpos' : 0 < n <<< (52 - n.log2) := by
    rw [Nat.shiftLeft_eq]
    positivity
  have hne' := Nat.pos_iff_ne_zero.1 hpos'
  refine ⟨hpos', ?_, by omega, .inl ?_⟩
  · rw [← Nat.log2_lt hne', hshift]
    decide
  · rw [← Nat.le_log2 hne', hshift]

/-- Shifting has not changed its value. -/
theorem value_whole {n : Nat} (hpos : 0 < n) (hlt : n < 2 ^ 53) :
    value (n <<< (52 - n.log2)) ((n.log2 : Int) - 52) = n := by
  have hlog : n.log2 < 53 := (Nat.log2_lt (Nat.pos_iff_ne_zero.1 hpos)).2 hlt
  have hexponent : (n.log2 : Int) - 52 = -((52 - n.log2 : Nat) : Int) := by omega
  rw [value, hexponent, Nat.shiftLeft_eq, zpow_neg, zpow_natCast]
  push_cast
  field_simp

/-- A whole number below two to the fifty-third is stored exactly. -/
theorem ofNat_eq {n : Nat} (hpos : 0 < n) (hlt : n < 2 ^ 53) :
    UnpackedFloat.ofNat Format.binary64 n =
      .finite .positive (n <<< (52 - n.log2)) ((n.log2 : Int) - 52) (canonical_whole hpos hlt).pos := by
  have hlog : n.log2 < 53 := (Nat.log2_lt (Nat.pos_iff_ne_zero.1 hpos)).2 hlt
  have htarget : Format.binary64.targetExponent (totalExponent n 0) = (n.log2 : Int) - 52 := by
    rw [targetExponent_eq]
    omega
  have hsign : compare (n : Int) 0 = .gt := by
    rw [Int.compare_eq_gt]
    exact_mod_cast hpos
  have hshift : (0 - ((n.log2 : Int) - 52)).toNat = 52 - n.log2 := by omega
  have hleft : (0 : Int) - ((52 - n.log2 : Nat) : Int) = (n.log2 : Int) - 52 := by omega
  -- The number fits its format exactly, so the rounding has nothing to round.
  have hround : UnpackedFloat.ofNat Format.binary64 n = roundWithAccuracy Format.binary64 .positive
      (n <<< (52 - n.log2)) ((n.log2 : Int) - 52) .exact := by
    simp only [UnpackedFloat.ofNat, UnpackedFloat.ofInt, UnpackedFloat.normalize, hsign,
      Int.toNat_natCast, UnpackedFloat.round, htarget, decreaseExponent, hshift, hleft]
  have hc := canonical_whole hpos hlt
  rw [hround]
  refine roundWithAccuracy_eq .positive ?_ hc.targetExponent.ge hc near_value
  change _ = ((n <<< (52 - n.log2) : Nat) : ℚ)
  rw [value]
  field_simp

/-- So is one that comes from a machine word. -/
theorem toFloat_eq {n : Nat} (hpos : 0 < n) (hlt : n < 2 ^ 53) :
    n.toUInt64.toFloat = Float.ofModel (Float.Model.pack (.finite .positive (n <<< (52 - n.log2))
      ((n.log2 : Int) - 52) (canonical_whole hpos hlt).pos)) := by
  have hn : n.toUInt64.toNat = n := by
    rw [Nat.toUInt64, UInt64.toNat_ofNat']
    omega
  change Float.ofModel (Float.Model.pack
    (UnpackedFloat.ofNat Format.binary64 n.toUInt64.toNat)) = _
  rw [hn, ofNat_eq hpos hlt]

/-! ## Powers of ten -/

/-- The mantissa of a power of ten that has one. -/
def tenMantissa (k : Nat) : Nat :=
  10 ^ k <<< 52 >>> (10 ^ k).log2

/-- The powers of ten up to the twenty-second one have a mantissa of the right size, and their other
bits are zeros. -/
theorem tenMantissa_spec : ∀ k : Fin 23, 2 ^ 52 ≤ tenMantissa k ∧ tenMantissa k < 2 ^ 53 ∧
    tenMantissa k * 2 ^ (10 ^ k.val).log2 = 10 ^ k.val * 2 ^ 52 ∧ (10 ^ k.val).log2 ≤ 73 := by
  decide +kernel

/-- They are canonical. -/
theorem canonical_tenMantissa {k : Nat} (h : k < 23) :
    Canonical (tenMantissa k) (((10 ^ k).log2 : Int) - 52) := by
  obtain ⟨hfull, hlt, -, -⟩ := tenMantissa_spec ⟨k, h⟩
  have hfull' : 2 ^ 52 ≤ tenMantissa k := hfull
  exact ⟨by omega, hlt, by omega, .inl hfull⟩

/-- They are exact. -/
theorem value_tenMantissa {k : Nat} (h : k < 23) :
    value (tenMantissa k) (((10 ^ k).log2 : Int) - 52) = 10 ^ k := by
  obtain ⟨-, -, hvalue, -⟩ := tenMantissa_spec ⟨k, h⟩
  have hvalue' : (tenMantissa k : ℚ) * 2 ^ (10 ^ k).log2 = 10 ^ k * 2 ^ 52 := by
    exact_mod_cast hvalue
  rw [value, zpow_sub₀ (by norm_num), zpow_natCast, ← mul_div_assoc, hvalue']
  exact mul_div_cancel_right₀ _ (by norm_num)

/-- The table of powers of ten that have a mantissa. -/
def powerOfTen (k : Nat) (h : k < 23) : Float :=
  getElem Float.exactlyRepresentablePowersOfTen k h

theorem toBits_powerOfTen : ∀ k : Fin 23, (powerOfTen k k.isLt).toBits.toNat =
    (((10 ^ k.val).log2 : Int) - 52 + 1075).toNat * 2 ^ 52 + tenMantissa k % 2 ^ 52 := by
  decide +kernel

/-- The literals for the powers of ten are exactly these. -/
theorem powerOfTen_eq {k : Nat} (h : k < 23) :
    powerOfTen k h = Float.ofModel (Float.Model.pack
      (.finite .positive (tenMantissa k) (((10 ^ k).log2 : Int) - 52)
        (canonical_tenMantissa h).pos)) := by
  obtain ⟨hfull, -, -, hlog⟩ := tenMantissa_spec ⟨k, h⟩
  dsimp only at hfull hlog
  refine toModel_eq_pack ?_
  rw [toNat_pack (canonical_tenMantissa h) (by omega), if_pos hfull, toBits_powerOfTen ⟨k, h⟩,
    signBit, Nat.zero_mul, Nat.zero_add]

/-! ## Products and quotients of the two -/

/-- A whole number times a power of ten is rounded once, as both factors are exact. -/
theorem mul_powerOfTen {n k : Nat} (hpos : 0 < n) (hlt : n < 2 ^ 53) (hk : k < 23) {m : Nat} {e : Int}
    (hc : Canonical m e) (hq : Near (n * 10 ^ k) m e) :
    n.toUInt64.toFloat * powerOfTen k hk =
      Float.ofModel (Float.Model.pack (.finite .positive m e hc.pos)) := by
  obtain ⟨hfull, -, -, hlog⟩ := tenMantissa_spec ⟨k, hk⟩
  dsimp only at hfull hlog
  have hn := canonical_whole hpos hlt
  have hlogn := (Nat.log2_lt (Nat.pos_iff_ne_zero.1 hpos)).2 hlt
  -- Both factors are full, so their product has bits enough to be rounded from.
  have hlong : 52 ≤ (n <<< (52 - n.log2) * tenMantissa k).log2 := by
    have hne : n <<< (52 - n.log2) * tenMantissa k ≠ 0 :=
      Nat.mul_ne_zero (Nat.pos_iff_ne_zero.1 hn.pos) (by omega)
    rw [Nat.le_log2 hne]
    exact hfull.trans (Nat.le_mul_of_pos_left _ hn.pos)
  rw [toFloat_eq hpos hlt, powerOfTen_eq hk]
  change Float.ofModel (Float.Model.pack (UnpackedFloat.mul Format.binary64
    (Float.Model.pack _).unpack (Float.Model.pack _).unpack)) = _
  rw [unpack_pack hn (by omega), unpack_pack (canonical_tenMantissa hk) (by omega),
    mul_eq hn.pos (canonical_tenMantissa hk).pos hlong hc]
  · rfl
  · rw [value_whole hpos hlt, value_tenMantissa hk]
    exact hq

/-- A whole number by a power of ten is rounded once, as both are exact. -/
theorem div_powerOfTen {n k : Nat} (hpos : 0 < n) (hlt : n < 2 ^ 53) (hk : k < 23) {m : Nat} {e : Int}
    (hc : Canonical m e) (hq : Near (n / 10 ^ k) m e) :
    n.toUInt64.toFloat / powerOfTen k hk =
      Float.ofModel (Float.Model.pack (.finite .positive m e hc.pos)) := by
  obtain ⟨-, -, -, hlog⟩ := tenMantissa_spec ⟨k, hk⟩
  dsimp only at hlog
  have hn := canonical_whole hpos hlt
  have hlogn := (Nat.log2_lt (Nat.pos_iff_ne_zero.1 hpos)).2 hlt
  rw [toFloat_eq hpos hlt, powerOfTen_eq hk]
  change Float.ofModel (Float.Model.pack (UnpackedFloat.div Format.binary64
    (Float.Model.pack _).unpack (Float.Model.pack _).unpack)) = _
  rw [unpack_pack hn (by omega), unpack_pack (canonical_tenMantissa hk) (by omega),
    div_eq hn.pos (canonical_tenMantissa hk).pos hc]
  · rfl
  · rw [value_whole hpos hlt, value_tenMantissa hk]
    exact hq

/-! ## Numerals -/

/-- Digits that round to a number other than zero are not all zeros. -/
theorem Near.digits_pos {digits : Nat} {exponent : Int} {m : Nat} {e : Int}
    (hq : Near (digits * 10 ^ exponent) m e) (hc : Canonical m e) (hmax : e ≤ 971) : 0 < digits := by
  obtain ⟨hlow, -⟩ := hq.bounds hc hmax
  have htiny : (0 : ℚ) < 2 ^ (-1075 : Int) := by positivity
  refine Nat.pos_of_ne_zero ?_
  rintro rfl
  rw [Nat.cast_zero, zero_mul] at hlow
  linarith

/-- **Reading.** Digits with a power of ten become the number that they lie near. -/
theorem nearest_eq {digits : Nat} {exponent : Int} {m : Nat} {e : Int} (hc : Canonical m e)
    (hmax : e ≤ 971) (hq : Near (digits * 10 ^ exponent) m e) :
    Decimal.nearest digits exponent =
      Float.ofModel (Float.Model.pack (.finite .positive m e hc.pos)) := by
  have hpos := hq.digits_pos hc hmax
  generalize hx : Float.ofModel (Float.Model.pack (.finite .positive m e hc.pos)) = x
  unfold Decimal.nearest Float.ofScientific
  split
  · -- Few digits and a small exponent: one multiplication or division by an exact power of ten.
    next hsmall =>
    obtain ⟨hlt, hle⟩ := hsmall
    by_cases hneg : exponent < 0
    · have hexponent : (exponent.natAbs : Int) = -exponent := by omega
      rw [if_pos (decide_eq_true hneg), ← hx]
      refine div_powerOfTen hpos hlt (by omega) hc ?_
      rw [div_eq_mul_inv, ← zpow_natCast, ← zpow_neg, hexponent, neg_neg]
      exact hq
    · have hexponent : (exponent.natAbs : Int) = exponent := by omega
      rw [if_neg (by simpa using hneg), ← hx]
      refine mul_powerOfTen hpos hlt (by omega) hc ?_
      rw [← zpow_natCast, hexponent]
      exact hq
  · next =>
    have hexponent : (if decide (exponent < 0) = true then Int.negOfNat exponent.natAbs
        else Int.ofNat exponent.natAbs) = exponent := by
      by_cases hneg : exponent < 0
      · rw [if_pos (decide_eq_true hneg), Int.negOfNat_eq, Int.ofNat_eq_natCast]
        omega
      · rw [if_neg (by simpa using hneg), Int.ofNat_eq_natCast]
        omega
    simp only [hexponent]
    change Float.ofModel (Float.Model.pack _) = _
    rw [ofScientific_eq hc hmax hq, hx]

/-- No digits make zero. -/
theorem nearest_zero : Decimal.nearest 0 0 = Float.ofModel (Float.Model.pack (.zero .positive)) := by
  decide +kernel

end CanvasLink.Binary
