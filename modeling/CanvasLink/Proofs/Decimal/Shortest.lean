import CanvasLink.Decimal.Shortest
import CanvasLink.Proofs.Binary.Numerals

/-!
# CanvasLink — the shortest numeral of a number lies near it

The search for the fewest digits works with whole numbers over a common scale. As rationals its
interval is the one of `Binary.Near`, and the grid of seventeen digits is finer than that interval,
so that the search always finds something.

* `contains_iff` — the numerals in the interval of a number are those near it.
* **`near_shortest`** — so is the one that is found.
-/

namespace CanvasLink.Decimal

open Binary

/-! ## Powers of either sign -/

/-- A power is a quotient of two with natural exponents, one of which is zero. -/
theorem zpow_eq_div {b : ℚ} (hb : 0 < b) (z : Int) : b ^ z = b ^ z.toNat / b ^ (-z).toNat := by
  rw [eq_div_iff (by positivity), ← zpow_natCast, ← zpow_natCast, ← zpow_add₀ hb.ne']
  congr 1
  omega

/-! ## The interval -/

namespace Interval

variable {m : Nat} {e : Int}

/-- The interval of a number, whose gap below is half as wide for a power of two. -/
def around (m : Nat) (e : Int) : Interval :=
  ofBinary m e (m = 2 ^ 52 ∧ -1074 < e)

theorem scale_pos (m : Nat) (e : Int) : (0 : ℚ) < (around m e).scale := by
  have hpos : 0 < (around m e).scale := Nat.two_pow_pos _
  exact_mod_cast hpos

/-- A whole number of quarters of the last place, over the scale. -/
theorem quarters_div_scale (m : Nat) (e : Int) (n : Nat) :
    ((n * Nat.pow 2 (e - 2).toNat : Nat) : ℚ) / (around m e).scale = n / 4 * 2 ^ e := by
  have hscale : (around m e).scale = 2 ^ (2 - e).toNat := rfl
  have hneg : 2 - e = -(e - 2) := by omega
  have hpow : (2 : ℚ) ^ (e - 2) = 2 ^ (e - 2).toNat / 2 ^ (2 - e).toNat := by
    rw [hneg]
    exact zpow_eq_div (by norm_num) _
  rw [hscale, Nat.pow_eq]
  push_cast
  rw [mul_div_assoc, ← hpow, zpow_sub₀ (by norm_num)]
  ring

/-- The middle of the interval is the number itself. -/
theorem middle_div_scale (m : Nat) (e : Int) :
    ((around m e).middle : ℚ) / (around m e).scale = value m e := by
  have h := quarters_div_scale m e (4 * m)
  rw [value]
  calc ((around m e).middle : ℚ) / (around m e).scale = ((4 * m : Nat) : ℚ) / 4 * 2 ^ e := h
    _ = m * 2 ^ e := by
      push_cast
      ring

/-- The upper end lies half a unit above the number. -/
theorem high_div_scale (m : Nat) (e : Int) :
    ((around m e).high : ℚ) / (around m e).scale = (m + 1 / 2) * 2 ^ e := by
  have h := quarters_div_scale m e (4 * m + 2)
  calc ((around m e).high : ℚ) / (around m e).scale = ((4 * m + 2 : Nat) : ℚ) / 4 * 2 ^ e := h
    _ = (m + 1 / 2) * 2 ^ e := by
      push_cast
      ring

/-- The lower end lies half the gap below the number. -/
theorem low_div_scale (hm : 0 < m) :
    ((around m e).low : ℚ) / (around m e).scale = (m - lowGap m e) * 2 ^ e := by
  unfold lowGap
  -- At a power of two the neighbour below is half as far away.
  by_cases hnarrow : m = 2 ^ 52 ∧ -1074 < e
  · have hlow : (around m e).low = (4 * m - 1) * Nat.pow 2 (e - 2).toNat := by
      simp only [around, ofBinary, decide_eq_true_eq, if_pos hnarrow]
    have hsub : ((4 * m - 1 : Nat) : ℚ) = 4 * m - 1 := by
      rw [Nat.cast_sub (by omega)]
      push_cast
      ring
    rw [if_pos hnarrow, hlow, quarters_div_scale, hsub]
    ring
  · have hlow : (around m e).low = (4 * m - 2) * Nat.pow 2 (e - 2).toNat := by
      simp only [around, ofBinary, decide_eq_true_eq, if_neg hnarrow]
    have hsub : ((4 * m - 2 : Nat) : ℚ) = 4 * m - 2 := by
      rw [Nat.cast_sub (by omega)]
      push_cast
      ring
    rw [if_neg hnarrow, hlow, quarters_div_scale, hsub]
    ring

/-! ## Grid points -/

/-- A bound times a unit compares to a point as the fraction compares to the decimal. -/
theorem point_div (digits : Nat) (x : Int) {scale : Nat} (hscale : (0 : ℚ) < scale) :
    ((digits * Nat.pow 10 x.toNat * scale : Nat) : ℚ) / (scale * Nat.pow 10 (-x).toNat : Nat) =
      digits * 10 ^ x := by
  rw [zpow_eq_div (by norm_num), Nat.pow_eq, Nat.pow_eq]
  push_cast
  field_simp

/-- A bound that is scaled like the grid is the bound. -/
theorem bound_div (bound : Nat) (x : Int) {scale : Nat} (hscale : (0 : ℚ) < scale) :
    ((bound * Nat.pow 10 (-x).toNat : Nat) : ℚ) / (scale * Nat.pow 10 (-x).toNat : Nat) =
      bound / scale := by
  rw [Nat.pow_eq]
  push_cast
  field_simp

theorem le_iff_div {a b k : Nat} (hk : (0 : ℚ) < k) : a ≤ b ↔ (a : ℚ) / k ≤ b / k := by
  rw [div_le_div_iff_of_pos_right hk, Nat.cast_le]

theorem lt_iff_div {a b k : Nat} (hk : (0 : ℚ) < k) : a < b ↔ (a : ℚ) / k < b / k := by
  rw [div_lt_div_iff_of_pos_right hk, Nat.cast_lt]

/-- A point of the grid lies in the interval exactly if it rounds to the number. -/
theorem contains_iff (hm : 0 < m) (digits : Nat) (x : Int) :
    (around m e).contains digits x = true ↔ Near (digits * 10 ^ x) m e := by
  have hscale := scale_pos m e
  have hunit : (0 : ℚ) < ((around m e).scale * Nat.pow 10 (-x).toNat : Nat) := by
    rw [Nat.pow_eq]
    push_cast
    positivity
  have hpoint := point_div digits x hscale
  have hlow := (bound_div (around m e).low x hscale).trans (low_div_scale hm)
  have hhigh := (bound_div (around m e).high x hscale).trans (high_div_scale m e)
  have hclosed : (around m e).closed = (m % 2 == 0) := rfl
  rw [contains, hclosed]
  -- The bounds themselves round to the value only if its significand is even.
  by_cases heven : m % 2 = 0
  · simp only [heven, beq_self_eq_true, if_true, Bool.and_eq_true, decide_eq_true_eq]
    rw [le_iff_div hunit, le_iff_div hunit, hlow, hhigh, hpoint]
    exact ⟨fun h => ⟨h.1, h.2, by omega⟩, fun h => ⟨h.low, h.high⟩⟩
  · have hodd : m % 2 = 1 := by omega
    simp only [hodd, Nat.reduceBEq, Bool.false_eq_true, if_false, Bool.and_eq_true,
      decide_eq_true_eq]
    rw [lt_iff_div hunit, lt_iff_div hunit, hlow, hhigh, hpoint]
    exact ⟨fun h => ⟨h.1.le, h.2.le, fun _ => h⟩, fun h => h.odd hodd⟩

/-! ## The neighbours on a grid -/

/-- What is found on a grid lies in the interval. -/
theorem contains_of_nearestAt? {i : Interval} {tie : Tie} {x : Int} {n : Scientific}
    (h : i.nearestAt? tie x = some n) : i.contains n.digits n.exponent = true := by
  unfold nearestAt? at h
  simp only at h
  -- Whichever of the two neighbours is taken, it was found inside.
  split at h
  · next hbelow habove =>
    split at h
    · cases h
      exact hbelow
    · cases h
      exact habove
    · cases h
      dsimp only
      split
      · exact hbelow
      · exact habove
  · next hbelow _ =>
    cases h
    exact hbelow
  · next _ habove =>
    cases h
    exact habove
  · cases h

/-- The number lies between its neighbours on the grid. -/
theorem floorAt_bounds (m : Nat) (e x : Int) :
    ((around m e).floorAt x : ℚ) * 10 ^ x ≤ value m e ∧
      value m e < (((around m e).floorAt x : ℚ) + 1) * 10 ^ x := by
  have hscale := scale_pos m e
  have hten : (0 : ℚ) < 10 ^ x := by positivity
  have hunit : 0 < (around m e).scale * Nat.pow 10 x.toNat :=
    Nat.mul_pos (by exact_mod_cast hscale) (Nat.pow_pos (by decide))
  have hunit' : (0 : ℚ) < ((around m e).scale * Nat.pow 10 x.toNat : Nat) := by exact_mod_cast hunit
  -- The quotient whose floor is taken is the value in units of `10 ^ x`.
  have hvalue : (((around m e).middle * Nat.pow 10 (-x).toNat : Nat) : ℚ) /
      ((around m e).scale * Nat.pow 10 x.toNat : Nat) = value m e / 10 ^ x := by
    rw [← middle_div_scale, zpow_eq_div (by norm_num), Nat.pow_eq, Nat.pow_eq]
    push_cast
    field_simp
  have hle := Nat.div_mul_le_self ((around m e).middle * Nat.pow 10 (-x).toNat)
    ((around m e).scale * Nat.pow 10 x.toNat)
  have hlt := Nat.lt_div_mul_add hunit (a := (around m e).middle * Nat.pow 10 (-x).toNat)
  rw [← Nat.succ_mul] at hlt
  constructor
  · rw [← le_div_iff₀ hten, ← hvalue, le_div_iff₀ hunit']
    exact_mod_cast hle
  · rw [← div_lt_iff₀ hten, ← hvalue, div_lt_iff₀ hunit']
    exact_mod_cast hlt

/-- A grid finer than the interval has a point in it. -/
theorem exists_nearestAt? (hm : 0 < m) (tie : Tie) {x : Int}
    (hfine : 10 ^ x < (1 / 2 + lowGap m e) * 2 ^ e) :
    ∃ n, (around m e).nearestAt? tie x = some n := by
  obtain ⟨hbelow, habove⟩ := floorAt_bounds m e x
  have he : (0 : ℚ) < 2 ^ e := by positivity
  have hgap := lowGap_le m e
  have hvalue : value m e = m * 2 ^ e := rfl
  cases h₁ : (around m e).contains ((around m e).floorAt x) x with
  | true =>
    simp only [nearestAt?, h₁]
    cases (around m e).contains ((around m e).floorAt x + 1) x with
    | false => exact ⟨_, rfl⟩
    | true =>
      cases (around m e).compareNeighbours ((around m e).floorAt x) x <;> exact ⟨_, rfl⟩
  | false =>
    cases h₂ : (around m e).contains ((around m e).floorAt x + 1) x with
    | true =>
      simp only [nearestAt?, h₁, h₂]
      exact ⟨_, rfl⟩
    | false =>
      -- Both neighbours are outside, so that the interval fits between them.
      exfalso
      have hlow : ((around m e).floorAt x : ℚ) * 10 ^ x ≤ (m - lowGap m e) * 2 ^ e := by
        by_contra hlt
        have hnear : Near (((around m e).floorAt x : ℚ) * 10 ^ x) m e :=
          near_of_lt (not_le.1 hlt) (by nlinarith)
        rw [(contains_iff hm _ _).2 hnear] at h₁
        cases h₁
      have hhigh : (m + 1 / 2) * 2 ^ e ≤ (((around m e).floorAt x : ℚ) + 1) * 10 ^ x := by
        by_contra hlt
        have hnear : Near ((((around m e).floorAt x + 1 : Nat) : ℚ) * 10 ^ x) m e := by
          push_cast
          exact near_of_lt (by nlinarith) (not_le.1 hlt)
        rw [(contains_iff hm _ _).2 hnear] at h₂
        cases h₂
      linarith

/-! ## The leading digit -/

/-- The leading digit is not above the number. -/
theorem zpow_leadingExponent_le {i : Interval} (hmiddle : 0 < i.middle) (hscale : 0 < i.scale) :
    (10 : ℚ) ^ i.leadingExponent ≤ i.middle / i.scale := by
  have hscale' : (0 : ℚ) < i.scale := by exact_mod_cast hscale
  have hmiddle' : (0 : ℚ) < i.middle := by exact_mod_cast hmiddle
  unfold leadingExponent
  simp only
  split
  · next hwhole =>
    -- The quotient is at least one, and has as many digits as the exponent says.
    have hlength := Nat.length_toDigits_pos (b := 10) (n := i.middle / i.scale)
    generalize hplaces : (Nat.toDigits 10 (i.middle / i.scale)).length = places at *
    obtain ⟨k, rfl⟩ : ∃ k, places = k + 1 := ⟨places - 1, by omega⟩
    have hle : 10 ^ k ≤ i.middle / i.scale := by
      rcases Nat.eq_zero_or_pos k with rfl | hk
      · exact hwhole
      · refine Nat.not_lt.1 fun hlt => ?_
        have := (Nat.length_toDigits_le_iff (by decide) hk).2 hlt
        omega
    rw [le_div_iff₀ hscale', Nat.cast_succ, add_sub_cancel_right, zpow_natCast]
    exact_mod_cast (Nat.le_div_iff_mul_le hscale).1 hle
  · generalize hplaces : (Nat.toDigits 10 (i.scale / i.middle)).length = places
    have hpos : 0 < places := hplaces ▸ Nat.length_toDigits_pos
    -- The quotient is below one: the digits of its inverse bound it from both sides.
    have hlt := (Nat.length_toDigits_le_iff (by decide) hpos).1 hplaces.le
    split
    · next hle =>
      obtain ⟨k, rfl⟩ : ∃ k, places = k + 1 := ⟨places - 1, by omega⟩
      rw [le_div_iff₀ hscale', Nat.cast_succ, add_sub_cancel_right, zpow_neg, zpow_natCast,
        inv_mul_le_iff₀ (by positivity), mul_comm]
      exact_mod_cast hle
    · rw [le_div_iff₀ hscale', zpow_neg, zpow_natCast, inv_mul_le_iff₀ (by positivity)]
      have hle : i.scale ≤ 10 ^ places * i.middle :=
        ((Nat.div_lt_iff_lt_mul hmiddle).1 hlt).le
      exact_mod_cast hle

/-! ## The search -/

/-- Whatever digits are chosen, they round to the number. -/
theorem near_of_shortest (hc : Canonical m e) (tie : Tie) :
    Near (((around m e).shortest tie).digits * 10 ^ ((around m e).shortest tie).exponent) m e := by
  have hpow : (0 : ℚ) < 2 ^ e := by positivity
  have hm : (m : ℚ) + 1 ≤ 2 ^ 53 := by exact_mod_cast hc.lt
  have hmiddle : 0 < (around m e).middle :=
    Nat.mul_pos (Nat.mul_pos (by decide) hc.pos) (Nat.two_pow_pos _)
  have hlead : (10 : ℚ) ^ (around m e).leadingExponent ≤ m * 2 ^ e := by
    have h := zpow_leadingExponent_le hmiddle (Nat.two_pow_pos (2 - e).toNat : 0 < (around m e).scale)
    rw [middle_div_scale] at h
    exact h
  -- Seventeen digits leave less than `2 ^ 53 / 10 ^ 16` of the last place between grid points.
  have hgrid : (10 : ℚ) ^ ((around m e).leadingExponent - (16 : Nat)) ≤ m * 2 ^ e / 10 ^ 16 := by
    rw [zpow_sub₀ (by norm_num), zpow_natCast]
    exact div_le_div_of_nonneg_right hlead (by positivity)
  have hfine : (10 : ℚ) ^ ((around m e).leadingExponent - (16 : Nat)) <
      (1 / 2 + lowGap m e) * 2 ^ e := by
    refine lt_of_le_of_lt hgrid ?_
    rw [mul_div_right_comm]
    refine mul_lt_mul_of_pos_right ?_ hpow
    unfold lowGap
    split
    · next hnarrow =>
      rw [hnarrow.1]
      norm_num
    · rw [div_lt_iff₀ (by norm_num)]
      linarith
  obtain ⟨n, hn⟩ := exists_nearestAt? hc.pos tie hfine
  have hsome : ((List.range maxDigits).findSome? fun (k : Nat) =>
      (around m e).nearestAt? tie ((around m e).leadingExponent - k)).isSome = true := by
    rw [List.findSome?_isSome_iff]
    exact ⟨16, List.mem_range.2 (by decide), by rw [hn]; rfl⟩
  obtain ⟨found, hfound⟩ := Option.isSome_iff_exists.1 hsome
  have hshortest : (around m e).shortest tie = found := by
    rw [shortest, hfound]
    rfl
  obtain ⟨k, -, hk⟩ := List.exists_of_findSome?_eq_some hfound
  rw [hshortest]
  exact (contains_iff hc.pos _ _).1 (contains_of_nearestAt? hk)

end Interval

/-- **The shortest numeral** of a finite number other than zero lies near it, its sign aside. -/
theorem near_shortest {x : Float} (h : x.isFinite = true)
    (hzero : x ≠ Float.ofModel (Float.Model.pack (.zero (signOf x)))) (tie : Tie) :
    ∃ m e, ∃ hc : Canonical m e, e ≤ 971 ∧
      x = Float.ofModel (Float.Model.pack (.finite (signOf x) m e hc.pos)) ∧
      Near ((shortest x tie).digits * 10 ^ (shortest x tie).exponent) m e := by
  obtain ⟨m, e, hc, hmax, hx, hbits⟩ := (finite_cases h).resolve_left hzero
  refine ⟨m, e, hc, hmax, hx, ?_⟩
  suffices hinterval : shortest x tie = (Interval.around m e).shortest tie by
    rw [hinterval]
    exact Interval.near_of_shortest hc tie
  have hfraction : fractionCount = 2 ^ 52 := rfl
  have hexponent : exponentCount = 2 ^ 11 := rfl
  simp only [shortest, hfraction, hexponent, beq_iff_eq]
  -- The two ways of storing a number: subnormal, and with its leading bit left out.
  have hlt := Nat.mod_lt x.toBits.toNat (Nat.two_pow_pos 52)
  split at hbits
  · next hb =>
    obtain ⟨rfl, rfl⟩ := hbits
    rw [if_pos hb, Interval.around]
    congr 2
    simp
  · next hb =>
    obtain ⟨rfl, rfl⟩ := hbits
    rw [if_neg hb, Interval.around]
    congr 2
    rw [Bool.eq_iff_iff]
    simp only [Bool.and_eq_true, beq_iff_eq, decide_eq_true_eq]
    omega

end CanvasLink.Decimal
