import Mathlib.Algebra.Order.Field.Power
import Mathlib.Data.Rat.Cast.Order
import Mathlib.Tactic.FieldSimp
import Mathlib.Tactic.Linarith
import Mathlib.Tactic.NormNum
import Mathlib.Tactic.Positivity
import Mathlib.Tactic.Ring

/-!
# CanvasLink — rounding to a binary floating-point number

A finite floating-point number is a mantissa and an exponent. All rationals nearer to it than to
its neighbours are rounded to it, and so are those half way if its mantissa is even.

* `Locates` — what an approximation by a whole mantissa says of a rational.
* `Canonical` — the one mantissa and exponent of a number.
* `Near` — the rationals that round to a number.
* **`roundWithAccuracy_eq`** — the headline.
-/

namespace CanvasLink.Binary

open Float.Model Float.Model.UnpackedFloat

/-! ## Whole numbers -/

/-- Where a rational lies, seen from a whole number at most one below it. -/
def Locates (mantissa : Nat) (v : ℚ) : Accuracy → Prop
  | .exact => v = mantissa
  | .inexact .lt => mantissa < v ∧ v < mantissa + 1 / 2
  | .inexact .eq => v = mantissa + 1 / 2
  | .inexact .gt => mantissa + 1 / 2 < v ∧ v < mantissa + 1

/-- The mantissa is the whole part. -/
theorem Locates.bounds {mantissa : Nat} {v : ℚ} {accuracy : Accuracy}
    (h : Locates mantissa v accuracy) : (mantissa : ℚ) ≤ v ∧ v < mantissa + 1 := by
  rcases accuracy with _ | (_ | _ | _)
  · have hv : v = mantissa := h
    constructor <;> linarith
  · obtain ⟨hlow, hhigh⟩ := h
    constructor <;> linarith
  · have hv : v = mantissa + 1 / 2 := h
    constructor <;> linarith
  · obtain ⟨hlow, hhigh⟩ := h
    constructor <;> linarith

/-- One place is dropped from the mantissa. The digit that is dropped becomes the round bit. -/
theorem Locates.shiftRightOne {em : ExtendedMantissa} {v : ℚ}
    (h : Locates em.mantissa v em.accuracy) :
    Locates em.shiftRightOne.mantissa (v / 2) em.shiftRightOne.accuracy := by
  obtain ⟨m, round, sticky⟩ := em
  -- The bit shifted out becomes the round bit, and the old round bit joins the sticky ones.
  rcases Nat.mod_two_eq_zero_or_one m with hm | hm
  · have hhalf : (m : ℚ) = 2 * (m / 2 : Nat) := by
      have : m = 2 * (m / 2) := by omega
      exact_mod_cast this
    cases round <;> cases sticky <;>
      simp only [ExtendedMantissa.shiftRightOne, ExtendedMantissa.accuracy, hm, Locates, bne_self_eq_false,
        Bool.or_false, Bool.or_true, Bool.or_self] at h ⊢
    · linarith
    · constructor <;> linarith
    · constructor <;> linarith
    · constructor <;> linarith
  · have hhalf : (m : ℚ) = 2 * (m / 2 : Nat) + 1 := by
      have : m = 2 * (m / 2) + 1 := by omega
      exact_mod_cast this
    have hbit : (1 != 0) = true := rfl
    cases round <;> cases sticky <;>
      simp only [ExtendedMantissa.shiftRightOne, ExtendedMantissa.accuracy, hm, hbit, Locates,
        Bool.or_false, Bool.or_true, Bool.or_self] at h ⊢
    · linarith
    · constructor <;> linarith
    · constructor <;> linarith
    · constructor <;> linarith

/-- A shift to the right halves the number, and the accuracy keeps what falls off. -/
theorem Locates.shiftRight {em : ExtendedMantissa} {v : ℚ} (h : Locates em.mantissa v em.accuracy)
    (n : Nat) : Locates (em >>> n).mantissa (v / 2 ^ n) (em >>> n).accuracy := by
  induction n with
  | zero =>
    rw [pow_zero, div_one]
    exact h
  | succ n ih =>
    have hstep := ih.shiftRightOne
    rw [div_div, ← pow_succ] at hstep
    exact hstep

theorem Locates.ofMantissaAndAccuracy {mantissa : Nat} {v : ℚ} {accuracy : Accuracy}
    (h : Locates mantissa v accuracy) :
    Locates (ExtendedMantissa.ofMantissaAndAccuracy mantissa accuracy).mantissa v
      (ExtendedMantissa.ofMantissaAndAccuracy mantissa accuracy).accuracy := by
  rcases accuracy with _ | (_ | _ | _) <;> exact h

/-- The rationals that round to a whole number. -/
def RoundsTo (v : ℚ) (n : Nat) : Prop :=
  (n - 1 / 2 ≤ v ∧ v ≤ n + 1 / 2) ∧ (n % 2 = 1 → n - 1 / 2 < v ∧ v < n + 1 / 2)

/-- What is known of a number by its accuracy is enough to round it. -/
theorem roundToNearestEven_eq {mantissa n : Nat} {v : ℚ} {accuracy : Accuracy}
    (h : Locates mantissa v accuracy) (hn : RoundsTo v n) :
    accuracy.roundToNearestEven mantissa = n := by
  obtain ⟨⟨hlow, hhigh⟩, hodd⟩ := hn
  -- Only whole numbers next to `v` come into question, so that comparisons are those of naturals.
  have hle {k : Nat} (hk : (n : ℚ) < k + 1) : n ≤ k := by
    have : n < k + 1 := by exact_mod_cast hk
    omega
  have hge {k : Nat} (hk : (k : ℚ) < n + 1) : k ≤ n := by
    have : k < n + 1 := by exact_mod_cast hk
    omega
  rcases accuracy with _ | (_ | _ | _)
  · have hv : v = mantissa := h
    have h₁ := hle (k := mantissa) (by linarith)
    have h₂ := hge (k := mantissa) (by linarith)
    exact Nat.le_antisymm h₂ h₁
  · obtain ⟨hleft, hright⟩ := h
    have h₁ := hle (k := mantissa) (by linarith)
    have h₂ := hge (k := mantissa) (by linarith)
    exact Nat.le_antisymm h₂ h₁
  · have hv : v = mantissa + 1 / 2 := h
    have h₁ := hle (k := mantissa + 1) (by push_cast; linarith)
    have h₂ := hge (k := mantissa) (by linarith)
    have heven : n % 2 = 0 := by
      rcases Nat.mod_two_eq_zero_or_one n with heven | hone
      · exact heven
      · obtain ⟨hleft, hright⟩ := hodd hone
        have h₃ := hge (k := mantissa + 1) (by push_cast; linarith)
        have h₄ := hle (k := mantissa) (by linarith)
        omega
    simp only [Accuracy.roundToNearestEven]
    omega
  · obtain ⟨hleft, hright⟩ := h
    have h₁ := hle (k := mantissa + 1) (by push_cast; linarith)
    have h₂ := hge (k := mantissa + 1) (by push_cast; linarith)
    exact Nat.le_antisymm h₂ h₁

/-! ## Mantissas and exponents -/

/-- The mantissa and exponent of a positive finite number: either all places of the mantissa are in
use, or the exponent is the least one. -/
structure Canonical (m : Nat) (e : Int) : Prop where
  pos : 0 < m
  lt : m < 2 ^ 53
  le : -1074 ≤ e
  full : 2 ^ 52 ≤ m ∨ e = -1074

/-- How far below a number, in units of its last place, rationals still round to it. The gap below
a power of two is half as wide, unless the exponent is the least one. -/
def lowGap (m : Nat) (e : Int) : ℚ :=
  if m = 2 ^ 52 ∧ -1074 < e then 1 / 4 else 1 / 2

/-- The rationals that round to a number. -/
structure Near (q : ℚ) (m : Nat) (e : Int) : Prop where
  low : (m - lowGap m e) * 2 ^ e ≤ q
  high : q ≤ (m + 1 / 2) * 2 ^ e
  odd : m % 2 = 1 → (m - lowGap m e) * 2 ^ e < q ∧ q < (m + 1 / 2) * 2 ^ e

theorem near_of_lt {q : ℚ} {m : Nat} {e : Int} (hlow : (m - lowGap m e) * 2 ^ e < q)
    (hhigh : q < (m + 1 / 2) * 2 ^ e) : Near q m e :=
  ⟨hlow.le, hhigh.le, fun _ => ⟨hlow, hhigh⟩⟩

/-- The mantissa has fifty-three bits, unless the exponent would be too small. -/
theorem targetExponent_binary64 (t : Int) : Format.binary64.targetExponent t = max (t - 53) (-1074) :=
  rfl

theorem targetExponent_eq (m : Nat) (e : Int) :
    Format.binary64.targetExponent (totalExponent m e) = max (m.log2 + e - 52) (-1074) := by
  rw [targetExponent_binary64, totalExponent]
  omega

/-- A canonical mantissa has fifty-three bits at most. -/
theorem Canonical.log2_le {m : Nat} {e : Int} (h : Canonical m e) : m.log2 ≤ 52 := by
  have := (Nat.log2_lt (Nat.pos_iff_ne_zero.1 h.pos)).2 h.lt
  omega

/-- It has fifty-three, unless the exponent is the smallest one. -/
theorem Canonical.log2_eq {m : Nat} {e : Int} (h : Canonical m e) (he : e ≠ -1074) :
    m.log2 = 52 := by
  have hfull := h.full.resolve_right he
  have hle := (Nat.le_log2 (Nat.pos_iff_ne_zero.1 h.pos)).2 hfull
  have := h.log2_le
  omega

/-- A canonical number has the exponent that rounding would give it. -/
theorem Canonical.targetExponent {m : Nat} {e : Int} (h : Canonical m e) :
    Format.binary64.targetExponent (totalExponent m e) = e := by
  rw [targetExponent_eq]
  have hle := h.log2_le
  have hmin := h.le
  by_cases he : e = -1074
  · omega
  · have := h.log2_eq he
    omega

/-- The exponent at which a rational is rounded: it lies below the top of the mantissa there, and in
its upper half unless the exponent is the least one. -/
theorem target_bounds {M : Nat} {E : Int} {q : ℚ} {accuracy : Accuracy}
    (hloc : Locates M (q / 2 ^ E) accuracy)
    (hfit : E ≤ Format.binary64.targetExponent (totalExponent M E)) :
    let t := Format.binary64.targetExponent (totalExponent M E)
    q < 2 ^ (t + 53) ∧ (t ≠ -1074 → 2 ^ (t + 52) ≤ q) := by
  intro t
  have ht : t = max (M.log2 + E - 52) (-1074) := targetExponent_eq M E
  obtain ⟨hlow, hhigh⟩ := hloc.bounds
  have hE : (0 : ℚ) < 2 ^ E := by positivity
  rw [le_div_iff₀ hE] at hlow
  rw [div_lt_iff₀ hE] at hhigh
  constructor
  · have hM : ((M : ℚ) + 1) ≤ 2 ^ (M.log2 + 1) := by
      exact_mod_cast Nat.lt_log2_self (n := M)
    calc q < (M + 1) * 2 ^ E := hhigh
      _ ≤ 2 ^ (M.log2 + 1) * 2 ^ E := by
        exact mul_le_mul_of_nonneg_right hM hE.le
      _ = 2 ^ ((M.log2 : Int) + 1 + E) := by
        rw [zpow_add₀ (by norm_num), ← Nat.cast_succ, zpow_natCast]
      _ ≤ 2 ^ (t + 53) := by
        refine zpow_le_zpow_right₀ (by norm_num) ?_
        omega
  · intro hne
    -- Zero has the least exponent there is, which `hne` excludes.
    have hM0 : M ≠ 0 := by
      rintro rfl
      have hlog : Nat.log2 0 = 0 := rfl
      rw [hlog] at ht
      change E ≤ t at hfit
      omega
    have hM : (2 : ℚ) ^ M.log2 ≤ M := by
      exact_mod_cast Nat.log2_self_le hM0
    calc (2 : ℚ) ^ (t + 52) = 2 ^ ((M.log2 : Int) + E) := by
          congr 1
          omega
      _ = 2 ^ M.log2 * 2 ^ E := by
        rw [zpow_add₀ (by norm_num), zpow_natCast]
      _ ≤ M * 2 ^ E := mul_le_mul_of_nonneg_right hM hE.le
      _ ≤ q := hlow

theorem lowGap_le (m : Nat) (e : Int) : 0 < lowGap m e ∧ lowGap m e ≤ 1 / 2 := by
  unfold lowGap
  split <;> norm_num

/-- No rational near a number reaches the exponent after the number's. -/
theorem Near.exponent_le {q : ℚ} {m : Nat} {e t : Int} (hq : Near q m e) (hc : Canonical m e)
    (hle : t ≠ -1074 → 2 ^ (t + 52) ≤ q) : t ≤ e := by
  by_contra hhigh
  have he : (0 : ℚ) < 2 ^ e := by positivity
  have hmin := hc.le
  have hbig : (2 : ℚ) ^ 53 * 2 ^ e ≤ q := by
    refine le_trans ?_ (hle (by omega))
    rw [← zpow_natCast, ← zpow_add₀ (by norm_num)]
    exact zpow_le_zpow_right₀ (by norm_num) (by push_cast; omega)
  have hm : (m : ℚ) + 1 ≤ 2 ^ 53 := by exact_mod_cast hc.lt
  have := le_of_mul_le_mul_right (hbig.trans hq.high) he
  linarith

/-- A rational near a number that falls below the number's exponent lies just below a power of two,
and so by no more than one. -/
theorem Near.of_exponent_lt {q : ℚ} {m : Nat} {e t : Int} (hq : Near q m e) (hc : Canonical m e)
    (ht : -1074 ≤ t) (hlt : q < 2 ^ (t + 53)) (hlow : t < e) :
    t = e - 1 ∧ m = 2 ^ 52 ∧ (2 ^ 53 - 1 / 2) * 2 ^ t ≤ q := by
  have he : (0 : ℚ) < 2 ^ e := by positivity
  have hbelow (n : Nat) (hn : t + 53 ≤ n + e) : q < 2 ^ n * 2 ^ e := by
    refine lt_of_lt_of_le hlt ?_
    rw [← zpow_natCast, ← zpow_add₀ (by norm_num)]
    exact zpow_le_zpow_right₀ (by norm_num) hn
  -- A number in the upper half of its mantissa is not below the top of the exponent before.
  have hfull : 2 ^ 52 ≤ m := hc.full.resolve_right (by omega)
  have hm : m = 2 ^ 52 := by
    have hgap := lowGap_le m e
    have hmul := lt_of_le_of_lt hq.low (hbelow 52 (by push_cast; omega))
    have hsmall := lt_of_mul_lt_mul_right hmul he.le
    have : (m : ℚ) < 2 ^ 52 + 1 := by linarith
    have : m < 2 ^ 52 + 1 := by exact_mod_cast this
    omega
  have hquarter : (2 ^ 52 - 1 / 4) * (2 : ℚ) ^ e ≤ q := by
    have hcast : (m : ℚ) = 2 ^ 52 := by
      rw [hm]
      norm_num
    have hq' := hq.low
    rwa [lowGap, if_pos ⟨hm, by omega⟩, hcast] at hq'
  have ht' : t = e - 1 := by
    by_contra hne
    have := lt_of_mul_lt_mul_right (lt_of_le_of_lt hquarter (hbelow 51 (by push_cast; omega))) he.le
    norm_num at this
  refine ⟨ht', hm, ?_⟩
  have hhalf : (2 : ℚ) ^ e = 2 * 2 ^ t := by
    rw [ht', zpow_sub_one₀ (by norm_num)]
    ring
  calc (2 ^ 53 - 1 / 2) * (2 : ℚ) ^ t = (2 ^ 52 - 1 / 4) * 2 ^ e := by
        rw [hhalf]
        ring
    _ ≤ q := hquarter

/-- A rational near a number is rounded at the number's exponent, or just below a power of two at
the one before, and then the mantissa that comes out is too long by one place. -/
theorem target_cases {q : ℚ} {m : Nat} {e t : Int} (hc : Canonical m e) (hq : Near q m e)
    (ht : -1074 ≤ t) (hlt : q < 2 ^ (t + 53)) (hle : t ≠ -1074 → 2 ^ (t + 52) ≤ q) :
    t = e ∨ t = e - 1 ∧ m = 2 ^ 52 ∧ (2 ^ 53 - 1 / 2) * 2 ^ t ≤ q := by
  rcases eq_or_lt_of_le (hq.exponent_le hc hle) with heq | hlow
  · exact .inl heq
  · exact .inr (hq.of_exponent_lt hc ht hlt hlow)

/-- To reach a larger exponent the mantissa is shifted to the right. -/
theorem shiftToExponent_eq (M : Nat) (E t : Int) (accuracy : Accuracy) (hle : E ≤ t) :
    shiftToExponent M E accuracy t =
      (ExtendedMantissa.ofMantissaAndAccuracy M accuracy >>> (t - E).toNat, t) := by
  have hsum : E + ((t - E).toNat : Int) = t := by omega
  rw [shiftToExponent, hsum]

/-- What rounding at the exponent `t` leads to, when the rounded mantissa is `R`. -/
theorem roundWithAccuracy_of_shift (sign : Sign) {M : Nat} {E t : Int} {accuracy : Accuracy} {q : ℚ}
    {R : Nat} (hloc : Locates M (q / 2 ^ E) accuracy)
    (ht : Format.binary64.targetExponent (totalExponent M E) = t) (hle : E ≤ t)
    (hR : RoundsTo (q / 2 ^ t) R) {m : Nat} {e : Int} (hm : 0 < m)
    (hsecond : (shiftToTargetExponent Format.binary64 R t .exact).1.mantissa = m ∧
      (shiftToTargetExponent Format.binary64 R t .exact).2 = e) :
    roundWithAccuracy Format.binary64 sign M E accuracy = .finite sign m e hm := by
  have hvalue : q / 2 ^ E / 2 ^ (t - E).toNat = q / 2 ^ t := by
    rw [div_div, ← zpow_natCast, ← zpow_add₀ (by norm_num)]
    congr 2
    omega
  have hshift := hloc.ofMantissaAndAccuracy.shiftRight (t - E).toNat
  rw [hvalue] at hshift
  -- Two shifts: the first rounds to `R`, the second takes back a carry out of the top.
  have hround : (ExtendedMantissa.ofMantissaAndAccuracy M accuracy >>> (t - E).toNat).roundedMantissa =
      R := roundToNearestEven_eq hshift hR
  have hfirst : shiftToTargetExponent Format.binary64 M E accuracy =
      (ExtendedMantissa.ofMantissaAndAccuracy M accuracy >>> (t - E).toNat, t) := by
    rw [shiftToTargetExponent, ht, shiftToExponent_eq M E t accuracy hle]
  obtain ⟨rfl, rfl⟩ := hsecond
  rw [roundWithAccuracy, hfirst]
  dsimp only
  rw [hround, dif_neg (Nat.pos_iff_ne_zero.1 hm)]

/-- In units of a number's last place, what is near the number rounds to its mantissa. -/
theorem Near.roundsTo {q : ℚ} {m : Nat} {e : Int} (hq : Near q m e) : RoundsTo (q / 2 ^ e) m := by
  have he : (0 : ℚ) < 2 ^ e := by positivity
  have hgap := lowGap_le m e
  -- The half unit below is at least as wide as the gap.
  have hwide : (m - 1 / 2) * 2 ^ e ≤ (m - lowGap m e) * 2 ^ e :=
    mul_le_mul_of_nonneg_right (by linarith) he.le
  refine ⟨⟨?_, ?_⟩, fun hodd => ⟨?_, ?_⟩⟩
  · rw [le_div_iff₀ he]
    exact hwide.trans hq.low
  · rw [div_le_iff₀ he]
    exact hq.high
  · rw [lt_div_iff₀ he]
    exact lt_of_le_of_lt hwide (hq.odd hodd).1
  · rw [div_lt_iff₀ he]
    exact (hq.odd hodd).2

/-- Just below the top of an exponent the mantissa is rounded up to one place too many. -/
theorem roundsTo_carry {q : ℚ} {t : Int} (hlt : q < 2 ^ (t + 53))
    (hcarry : (2 ^ 53 - 1 / 2) * 2 ^ t ≤ q) : RoundsTo (q / 2 ^ t) (2 ^ 53) := by
  have ht : (0 : ℚ) < 2 ^ t := by positivity
  have hsum : (2 : ℚ) ^ (t + 53) = 2 ^ 53 * 2 ^ t := by
    rw [zpow_add₀ (by norm_num), mul_comm]
    norm_num
  rw [hsum] at hlt
  refine ⟨⟨?_, ?_⟩, fun hodd => by norm_num at hodd⟩
  · rw [le_div_iff₀ ht]
    push_cast
    exact hcarry
  · rw [div_le_iff₀ ht]
    refine hlt.le.trans (mul_le_mul_of_nonneg_right ?_ ht.le)
    norm_num

/-- Rounding: a rational near a number becomes that number. -/
theorem roundWithAccuracy_eq (sign : Sign) {M : Nat} {E : Int} {accuracy : Accuracy} {q : ℚ}
    {m : Nat} {e : Int} (hloc : Locates M (q / 2 ^ E) accuracy)
    (hfit : E ≤ Format.binary64.targetExponent (totalExponent M E)) (hc : Canonical m e)
    (hq : Near q m e) :
    roundWithAccuracy Format.binary64 sign M E accuracy = .finite sign m e hc.pos := by
  obtain ⟨hlt, hle⟩ := target_bounds hloc hfit
  have hmin : -1074 ≤ Format.binary64.targetExponent (totalExponent M E) := by
    rw [targetExponent_eq]
    exact le_max_right _ _
  rcases target_cases hc hq hmin hlt hle with ht | ⟨ht, rfl, hcarry⟩
  · refine roundWithAccuracy_of_shift sign hloc ht (ht ▸ hfit) hq.roundsTo hc.pos ?_
    rw [shiftToTargetExponent, hc.targetExponent, shiftToExponent_eq m e e _ le_rfl, sub_self]
    exact ⟨rfl, rfl⟩
  · rw [ht] at hlt hcarry
    -- The place too many is taken off again.
    have htarget : Format.binary64.targetExponent (totalExponent (2 ^ 53) (e - 1)) = e := by
      have hmin' := hc.le
      rw [targetExponent_eq, Nat.log2_two_pow]
      push_cast
      omega
    have hone : (e - (e - 1)).toNat = 1 := by omega
    refine roundWithAccuracy_of_shift sign hloc ht (ht ▸ hfit) (roundsTo_carry hlt hcarry) hc.pos ?_
    rw [shiftToTargetExponent, htarget, shiftToExponent_eq _ _ _ _ (by omega), hone]
    exact ⟨rfl, rfl⟩

end CanvasLink.Binary
