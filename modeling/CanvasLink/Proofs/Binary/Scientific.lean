import CanvasLink.Proofs.Binary.Rounding

/-!
# CanvasLink — products, quotients and decimal numerals

Products and quotients of finite numbers, and numbers that are written in decimal, are rounded once:
whatever lies near a number becomes that number.

* `mul_eq`, `div_eq` — a product and a quotient.
* **`ofScientific_eq`** — digits with a power of ten.
-/

namespace CanvasLink.Binary

open Float.Model Float.Model.UnpackedFloat

/-- The rational that a mantissa and an exponent stand for. -/
def value (m : Nat) (e : Int) : ℚ :=
  m * 2 ^ e

/-- A number rounds to itself. -/
theorem near_value {m : Nat} {e : Int} : Near (value m e) m e := by
  have he : (0 : ℚ) < 2 ^ e := by positivity
  have hgap := lowGap_le m e
  apply near_of_lt
  · exact mul_lt_mul_of_pos_right (by linarith) he
  · exact mul_lt_mul_of_pos_right (by linarith) he

/-! ## Products -/

/-- A product is the number that the exact product rounds to. -/
theorem mul_eq {s₁ s₂ : Sign} {m₁ m₂ : Nat} {e₁ e₂ : Int} (h₁ : 0 < m₁) (h₂ : 0 < m₂) {m : Nat}
    {e : Int} (hlong : 52 ≤ (m₁ * m₂).log2) (hc : Canonical m e)
    (hq : Near (value m₁ e₁ * value m₂ e₂) m e) :
    mul Format.binary64 (.finite s₁ m₁ e₁ h₁) (.finite s₂ m₂ e₂ h₂) =
      .finite (s₁ * s₂) m e hc.pos := by
  have hloc : Locates (m₁ * m₂) (value m₁ e₁ * value m₂ e₂ / 2 ^ (e₁ + e₂)) .exact := by
    have hsum : (2 : ℚ) ^ (e₁ + e₂) = 2 ^ e₁ * 2 ^ e₂ := zpow_add₀ (by norm_num) _ _
    have hne : (2 : ℚ) ^ e₁ * 2 ^ e₂ ≠ 0 := by positivity
    change _ = ((m₁ * m₂ : Nat) : ℚ)
    rw [hsum, value, value, div_eq_iff hne]
    push_cast
    ring
  have hfit : e₁ + e₂ ≤ Format.binary64.targetExponent (totalExponent (m₁ * m₂) (e₁ + e₂)) := by
    rw [targetExponent_eq]
    omega
  exact roundWithAccuracy_eq (s₁ * s₂) hloc hfit hc hq

/-! ## Quotients -/

/-- A whole number and a proper fraction: the fraction is told by twice its numerator. -/
theorem locates_fraction (M : Nat) {r d : Nat} (hr : r < d) :
    Locates M (M + (r : ℚ) / d) (accuracyOfFraction r d) := by
  have hd : (0 : ℚ) < d := by exact_mod_cast Nat.zero_lt_of_lt hr
  unfold accuracyOfFraction
  split
  · next hzero =>
    change _ = (M : ℚ)
    rw [hzero, Nat.cast_zero, zero_div, add_zero]
  · next hzero =>
    have hpos : (0 : ℚ) < r / d := div_pos (by exact_mod_cast Nat.pos_of_ne_zero hzero) hd
    have hone : (r : ℚ) / d < 1 := (div_lt_one hd).2 (by exact_mod_cast hr)
    have htwice : ((2 * r : Nat) : ℚ) = 2 * (r / d) * d := by
      push_cast
      field_simp
    -- Where the fraction lies against a half is decided by comparing `2 * r` with `d`.
    cases hcompare : compare (2 * r) d with
    | lt =>
      have h : ((2 * r : Nat) : ℚ) < d := by exact_mod_cast Nat.compare_eq_lt.1 hcompare
      have hhalf : 2 * ((r : ℚ) / d) < 1 := by rwa [htwice, mul_lt_iff_lt_one_left hd] at h
      exact ⟨by linarith, by linarith⟩
    | eq =>
      have h : ((2 * r : Nat) : ℚ) = d := by exact_mod_cast Nat.compare_eq_eq.1 hcompare
      have hhalf : 2 * ((r : ℚ) / d) = 1 := by rwa [htwice, mul_eq_right₀ hd.ne'] at h
      change _ = (M : ℚ) + 1 / 2
      linarith
    | gt =>
      have h : (d : ℚ) < (2 * r : Nat) := by exact_mod_cast Nat.compare_eq_gt.1 hcompare
      have hhalf : 1 < 2 * ((r : ℚ) / d) := by rwa [htwice, lt_mul_iff_one_lt_left hd] at h
      exact ⟨by linarith, by linarith⟩

/-- A division with remainder says where the quotient lies. -/
theorem locates_div (n d : Nat) (hd : 0 < d) :
    Locates (n / d) ((n : ℚ) / d) (accuracyOfFraction (n % d) d) := by
  have hd' : (d : ℚ) ≠ 0 := by exact_mod_cast hd.ne'
  have hn : (n : ℚ) = d * (n / d : Nat) + (n % d : Nat) := by
    exact_mod_cast (Nat.div_add_mod n d).symm
  have hsplit : (n : ℚ) / d = (n / d : Nat) + ((n % d : Nat) : ℚ) / d := by
    rw [div_eq_iff hd', add_mul, div_mul_cancel₀ _ hd', mul_comm]
    exact hn
  rw [hsplit]
  exact locates_fraction (n / d) (Nat.mod_lt n hd)

/-- A quotient has no fewer places than the difference of its parts' places, less one. -/
theorem log2_div_ge {n d : Nat} (hn : 0 < n) (hd : 0 < d) {places : Nat}
    (h : d.log2 + 1 + places ≤ n.log2) : places ≤ (n / d).log2 := by
  have hlow : 2 ^ n.log2 ≤ n := Nat.log2_self_le (Nat.pos_iff_ne_zero.1 hn)
  have hhigh : d < 2 ^ (d.log2 + 1) := Nat.lt_log2_self
  have hle : 2 ^ places ≤ n / d := by
    rw [Nat.le_div_iff_mul_le hd]
    calc 2 ^ places * d ≤ 2 ^ places * 2 ^ (d.log2 + 1) := Nat.mul_le_mul_left _ hhigh.le
      _ = 2 ^ (d.log2 + 1 + places) := by rw [← Nat.pow_add, Nat.add_comm]
      _ ≤ 2 ^ n.log2 := Nat.pow_le_pow_right (by decide) h
      _ ≤ n := hlow
  have hne : n / d ≠ 0 := by
    have := Nat.two_pow_pos places
    omega
  exact (Nat.le_log2 hne).2 hle

/-- A shift to the left makes a number longer by as much. -/
theorem log2_shiftLeft {n : Nat} (hn : 0 < n) (k : Nat) : (n <<< k).log2 = n.log2 + k := by
  have hne : n ≠ 0 := Nat.pos_iff_ne_zero.1 hn
  have hlow := Nat.log2_self_le hne
  have hhigh := Nat.lt_log2_self (n := n)
  have hpos : 0 < 2 ^ k := Nat.two_pow_pos k
  rw [Nat.shiftLeft_eq, Nat.log2_eq_iff (Nat.mul_ne_zero hne hpos.ne')]
  constructor
  · rw [Nat.pow_add]
    exact Nat.mul_le_mul_right _ hlow
  · rw [Nat.add_right_comm, Nat.pow_add]
    exact Nat.mul_lt_mul_of_pos_right hhigh hpos

/-- A quotient is the number that the exact quotient rounds to. -/
theorem div_eq {s₁ s₂ : Sign} {m₁ m₂ : Nat} {e₁ e₂ : Int} (h₁ : 0 < m₁) (h₂ : 0 < m₂) {m : Nat}
    {e : Int} (hc : Canonical m e) (hq : Near (value m₁ e₁ / value m₂ e₂) m e) :
    div Format.binary64 (.finite s₁ m₁ e₁ h₁) (.finite s₂ m₂ e₂ h₂) =
      .finite (s₁ / s₂) m e hc.pos := by
  have htarget : Format.binary64.targetExponent (totalExponent m₁ e₁ - totalExponent m₂ e₂) =
      max (m₁.log2 - m₂.log2 + (e₁ - e₂) - 53) (-1074) := by
    rw [targetExponent_binary64, totalExponent, totalExponent]
    omega
  let E := min (e₁ - e₂)
    (Format.binary64.targetExponent (totalExponent m₁ e₁ - totalExponent m₂ e₂))
  have hE : E = min (e₁ - e₂) (max (m₁.log2 - m₂.log2 + (e₁ - e₂) - 53) (-1074)) := by
    rw [← htarget]
  let k := (e₁ - e₂ - E).toNat
  have hk : (k : Int) = e₁ - e₂ - E := by omega
  have hloc : Locates (m₁ <<< k / m₂) (value m₁ e₁ / value m₂ e₂ / 2 ^ E)
      (accuracyOfFraction (m₁ <<< k % m₂) m₂) := by
    have hscaled : value m₁ e₁ / value m₂ e₂ / 2 ^ E = ((m₁ <<< k : Nat) : ℚ) / m₂ := by
      have hm₂ : (m₂ : ℚ) ≠ 0 := by exact_mod_cast Nat.pos_iff_ne_zero.1 h₂
      have hpow : (2 : ℚ) ^ e₁ = 2 ^ k * 2 ^ e₂ * 2 ^ E := by
        rw [← zpow_natCast, ← zpow_add₀ (by norm_num), ← zpow_add₀ (by norm_num)]
        congr 1
        omega
      rw [value, value, hpow, Nat.shiftLeft_eq]
      push_cast
      field_simp
    rw [hscaled]
    exact locates_div _ _ h₂
  -- The dividend was shifted far enough for the quotient to be long, or it is subnormal.
  have hfit : E ≤ Format.binary64.targetExponent (totalExponent (m₁ <<< k / m₂) E) := by
    rw [targetExponent_eq]
    by_cases hlong : m₂.log2 + 1 + 52 ≤ m₁.log2 + k
    · have hlog : 52 ≤ (m₁ <<< k / m₂).log2 :=
        log2_div_ge (n := m₁ <<< k) (by rw [Nat.shiftLeft_eq]; positivity) h₂
          (by rw [log2_shiftLeft h₁]; exact hlong)
      omega
    · omega
  have hround := roundWithAccuracy_eq (s₁ / s₂) hloc hfit hc hq
  exact hround

/-! ## Numerals -/

/-- A rational that rounds to a number of ordinary size is itself neither tiny nor huge. -/
theorem Near.bounds {q : ℚ} {m : Nat} {e : Int} (hq : Near q m e) (hc : Canonical m e)
    (hmax : e ≤ 971) : 2 ^ (-1075 : Int) ≤ q ∧ q < 2 ^ (1024 : Int) := by
  have he : (0 : ℚ) < 2 ^ e := by positivity
  have hgap := lowGap_le m e
  constructor
  · -- The least number is half a unit away from zero at the nearest.
    have hm : (1 : ℚ) ≤ m := by exact_mod_cast hc.pos
    calc (2 : ℚ) ^ (-1075 : Int) ≤ 2 ^ (e - 1) := by
          refine zpow_le_zpow_right₀ (by norm_num) ?_
          have := hc.le
          omega
      _ = 1 / 2 * 2 ^ e := by
        rw [zpow_sub_one₀ (by norm_num)]
        ring
      _ ≤ (m - lowGap m e) * 2 ^ e := mul_le_mul_of_nonneg_right (by linarith) he.le
      _ ≤ q := hq.low
  · have hm : (m : ℚ) + 1 ≤ 2 ^ 53 := by exact_mod_cast hc.lt
    calc q ≤ (m + 1 / 2) * 2 ^ e := hq.high
      _ < 2 ^ 53 * 2 ^ e := mul_lt_mul_of_pos_right (by linarith) he
      _ = 2 ^ (53 + e) := by
        rw [zpow_add₀ (by norm_num)]
        norm_num
      _ ≤ 2 ^ (1024 : Int) := zpow_le_zpow_right₀ (by norm_num) (by omega)

/-- Digits with a power of ten stay below a power of two only if the power of ten is a small one. -/
theorem exponent_lt_of_scientific_lt {digits : Nat} {exponent : Int} (hdigits : digits ≠ 0)
    (h : (digits : ℚ) * 10 ^ exponent < 2 ^ (1024 : Int)) : exponent < 1024 := by
  by_contra hexponent
  have hone : (1 : ℚ) ≤ digits := by exact_mod_cast Nat.pos_of_ne_zero hdigits
  have hten : (0 : ℚ) < 10 ^ exponent := by positivity
  have hle : (2 : ℚ) ^ (1024 : Int) ≤ digits * 10 ^ exponent := by
    calc (2 : ℚ) ^ (1024 : Int) ≤ 10 ^ (1024 : Int) :=
          zpow_le_zpow_left₀ (by norm_num) (by norm_num) (by norm_num)
      _ ≤ 10 ^ exponent := zpow_le_zpow_right₀ (by norm_num) (by omega)
      _ ≤ digits * 10 ^ exponent := le_mul_of_one_le_left hten.le hone
  linarith

/-- Digits with a negative power of ten lie below the power of two that has as many places as the
digits, less one for each power of ten. -/
theorem scientific_lt (digits k : Nat) :
    (digits : ℚ) * 10 ^ (-(k : Int)) < 2 ^ ((digits.log2 : Int) + 1 - k) := by
  have hten : (0 : ℚ) < 10 ^ (-(k : Int)) := by positivity
  have hbelow : (digits : ℚ) < 2 ^ ((digits.log2 + 1 : Nat) : Int) := by
    rw [zpow_natCast]
    exact_mod_cast Nat.lt_log2_self (n := digits)
  have hpow : (10 : ℚ) ^ (-(k : Int)) ≤ 2 ^ (-(k : Int)) := by
    rw [zpow_neg, zpow_neg, zpow_natCast, zpow_natCast]
    exact inv_anti₀ (by positivity) (pow_le_pow_left₀ (by norm_num) (by norm_num) k)
  calc (digits : ℚ) * 10 ^ (-(k : Int))
      < 2 ^ ((digits.log2 + 1 : Nat) : Int) * 10 ^ (-(k : Int)) :=
        mul_lt_mul_of_pos_right hbelow hten
    _ ≤ 2 ^ ((digits.log2 + 1 : Nat) : Int) * 2 ^ (-(k : Int)) :=
        mul_le_mul_of_nonneg_left hpow (by positivity)
    _ = 2 ^ ((digits.log2 : Int) + 1 - k) := (zpow_add₀ (by norm_num) _ _).symm

/-- Digits that are no tinier than the least number have a power of ten that is not too negative. -/
theorem exponent_gt_of_le_scientific {digits : Nat} {exponent : Int}
    (h : (2 : ℚ) ^ (-1075 : Int) ≤ digits * 10 ^ exponent) : -(1076 + digits.log2) < exponent := by
  by_contra hexponent
  obtain ⟨k, rfl⟩ : ∃ k : Nat, exponent = -k := ⟨exponent.natAbs, by omega⟩
  have hle : (2 : ℚ) ^ ((digits.log2 : Int) + 1 - k) ≤ 2 ^ (-1075 : Int) :=
    zpow_le_zpow_right₀ (by norm_num) (by omega)
  exact absurd (h.trans_lt (scientific_lt digits k)) (not_lt.2 hle)

/-- Digits with a power of ten are a product: the digits carry as many more places as a mantissa
has, so that nothing of the product is lost. -/
theorem scientific_eq_mul (digits power : Nat) :
    value (digits <<< Format.binary64.mantissaBits) (-Format.binary64.mantissaBits) *
      value (10 ^ power) 0 = digits * 10 ^ (power : Int) := by
  rw [value, value, Nat.shiftLeft_eq, zpow_neg, zpow_natCast, zpow_zero, mul_one, zpow_natCast]
  push_cast
  field_simp

/-- The product of digits and a power is long enough to be rounded without being extended. -/
theorem le_log2_scientific {digits : Nat} (hdigits : digits ≠ 0) (power : Nat) :
    52 ≤ (digits <<< Format.binary64.mantissaBits * 10 ^ power).log2 := by
  have hne : digits <<< Format.binary64.mantissaBits * 10 ^ power ≠ 0 := by
    rw [Nat.shiftLeft_eq]
    positivity
  rw [Nat.le_log2 hne]
  calc 2 ^ 52 ≤ 2 ^ 53 := by norm_num
    _ ≤ digits <<< Format.binary64.mantissaBits := by
      rw [Nat.shiftLeft_eq]
      exact Nat.le_mul_of_pos_left _ (Nat.pos_of_ne_zero hdigits)
    _ ≤ digits <<< Format.binary64.mantissaBits * 10 ^ power :=
      Nat.le_mul_of_pos_right _ (by positivity)

/-- Digits with a negative power of ten are a quotient. -/
theorem scientific_eq_div (digits power : Nat) :
    value digits 0 / value (10 ^ power) 0 = digits * 10 ^ (-(power : Int)) := by
  rw [value, value, zpow_zero, mul_one, mul_one, zpow_neg, zpow_natCast, div_eq_mul_inv]
  push_cast
  rfl

/-- **Numerals.** -/
theorem ofScientific_eq {digits : Nat} {exponent : Int} {m : Nat} {e : Int} (hc : Canonical m e)
    (hmax : e ≤ 971) (hq : Near (digits * 10 ^ exponent) m e) :
    ofScientific Format.binary64 digits exponent = .finite .positive m e hc.pos := by
  obtain ⟨hlow, hhigh⟩ := hq.bounds hc hmax
  have hdigits : digits ≠ 0 := by
    rintro rfl
    have htiny : (0 : ℚ) < 2 ^ (-1075 : Int) := by positivity
    rw [Nat.cast_zero, zero_mul] at hlow
    linarith
  -- Both shortcuts, for numerals that are infinite or zero whatever their digits, are ruled out.
  have hbits : (2 : Int) ^ Format.binary64.exponentBits = 2048 := by norm_num
  have hsmall := exponent_lt_of_scientific_lt hdigits hhigh
  have hlarge := exponent_gt_of_le_scientific hlow
  rw [UnpackedFloat.ofScientific, dif_neg hdigits, if_neg (by omega), if_neg (by omega)]
  by_cases hnonneg : 0 ≤ exponent
  · obtain ⟨power, rfl⟩ := Int.eq_ofNat_of_zero_le hnonneg
    rw [if_pos hnonneg]
    rw [← scientific_eq_mul] at hq
    exact mul_eq _ _ (le_log2_scientific hdigits power) hc hq
  · rw [if_neg hnonneg]
    have hpower : -((-exponent).toNat : Int) = exponent := by omega
    rw [← hpower, ← scientific_eq_div] at hq
    exact div_eq _ _ hc hq

end CanvasLink.Binary
