import CanvasLink.Proofs.Binary.Scientific

/-!
# CanvasLink — floating-point numbers as 64 bits

A floating-point number is kept as a sign bit, 11 bits of exponent and 52 bits of mantissa. Packing
a mantissa and an exponent and taking them apart again changes nothing.

* `unpack_pack` — what is packed is unpacked.
* **`finite_cases`** — every finite number is a packed zero or a packed mantissa and exponent.
-/

namespace CanvasLink.Binary

open Float.Model Float.Model.UnpackedFloat

/-! ## Components -/

/-- The bit that stands for a sign. -/
def signBit : Sign → Nat
  | .negative => 1
  | .positive => 0

/-- The three parts stand one behind the other. -/
theorem toNat_packComponents (sign : Sign) (exponent : BitVec 11) (mantissa : BitVec 52) :
    (packComponents Format.binary64 sign exponent mantissa).toNat =
      (signBit sign * 2 ^ 11 + exponent.toNat) * 2 ^ 52 + mantissa.toNat := by
  have hsign : sign.toBitVec.toNat = signBit sign := by cases sign <;> rfl
  rw [packComponents, BitVec.toNat_append, BitVec.toNat_append, hsign,
    ← Nat.shiftLeft_add_eq_or_of_lt mantissa.isLt, ← Nat.shiftLeft_add_eq_or_of_lt exponent.isLt,
    Nat.shiftLeft_eq, Nat.shiftLeft_eq]

theorem toNat_unpackExponent (b : BitVec Format.binary64.numBits) :
    (unpackExponent b).toNat = b.toNat / 2 ^ 52 % 2 ^ 11 := by
  simp [unpackExponent, Nat.shiftRight_eq_div_pow]

/-- The sign is the highest bit. -/
theorem toNat_unpackSign (b : BitVec Format.binary64.numBits) :
    (unpackSign b).toNat = b.toNat / 2 ^ 63 := by
  have hlt : b.toNat < 2 ^ 64 := b.isLt
  show b.toNat >>> 63 % 2 ^ 1 = b.toNat / 2 ^ 63
  rw [Nat.shiftRight_eq_div_pow]
  omega

/-- The sign is unpacked as its bit. -/
theorem signBit_unpackSign (b : BitVec Format.binary64.numBits) :
    signBit (Sign.ofBitVec (unpackSign b)) = b.toNat / 2 ^ 63 := by
  rw [← toNat_unpackSign, Sign.ofBitVec]
  split
  · next hzero => rw [hzero]; rfl
  · next hne =>
    have hlt := (unpackSign b).isLt
    have hne' : (unpackSign b).toNat ≠ 0 := fun h => hne (BitVec.eq_of_toNat_eq h)
    change 1 = _
    omega

/-- The sign that a bit stands for. -/
theorem ofBitVec_unpackSign_packComponents (sign : Sign) (exponent : BitVec 11)
    (mantissa : BitVec 52) :
    Sign.ofBitVec (unpackSign (packComponents Format.binary64 sign exponent mantissa)) = sign := by
  have hbit := signBit_unpackSign (packComponents Format.binary64 sign exponent mantissa)
  have hexponent := exponent.isLt
  have hmantissa := mantissa.isLt
  rw [toNat_packComponents] at hbit
  have hsame : signBit (Sign.ofBitVec
      (unpackSign (packComponents Format.binary64 sign exponent mantissa))) = signBit sign := by
    rw [hbit]
    omega
  revert hsame
  cases sign <;> cases Sign.ofBitVec _ <;> simp [signBit]

/-! ## Packing -/

/-- The exponents of canonical numbers fit into their bits, below the one for infinity. -/
theorem toNat_ofNat_exponent {e : Int} (hlow : -1074 ≤ e) (hhigh : e ≤ 971) :
    (e + Format.binary64.exponentBias + 52).toNat = (e + 1075).toNat ∧ (e + 1075).toNat < 2047 := by
  have hbias : (Format.binary64.exponentBias : Int) = 1023 := rfl
  rw [hbias]
  omega

/-- The components of a packed mantissa and exponent. A mantissa that uses all its places leaves the
first one out. -/
theorem pack_finite {m : Nat} {e : Int} (hc : Canonical m e) (hmax : e ≤ 971) (sign : Sign) :
    UnpackedFloat.pack Format.binary64 (.finite sign m e hc.pos) =
      packComponents Format.binary64 sign
        (BitVec.ofNat 11 (if 2 ^ 52 ≤ m then (e + 1075).toNat else 0)) (BitVec.ofNat 52 m) := by
  obtain ⟨hbias, hlt⟩ := toNat_ofNat_exponent hc.le hmax
  -- The exponent stays below the one kept for infinity.
  have hnotInf : ¬ 2 ^ Format.binary64.exponentBits ≤
      (e + Format.binary64.exponentBias + Format.binary64.mantissaBitsWithoutImplicit).toNat + 1 := by
    change ¬ 2 ^ 11 ≤ (e + Format.binary64.exponentBias + 52).toNat + 1
    rw [hbias]
    omega
  have hlog := hc.log2_le
  have hfull : m.log2 + 1 = Format.binary64.mantissaBits ↔ 2 ^ 52 ≤ m := by
    rw [← Nat.le_log2 (Nat.pos_iff_ne_zero.1 hc.pos)]
    change m.log2 + 1 = 53 ↔ _
    omega
  refine (if_neg hnotInf).trans ?_
  split
  · next h =>
    rw [if_pos (hfull.1 h), ← hbias]
    rfl
  · next h => rw [if_neg fun h' => h (hfull.2 h')]

/-- The bits of a canonical number. A mantissa without its leading bit is subnormal, and has the
exponent zero. -/
theorem toNat_pack {m : Nat} {e : Int} (hc : Canonical m e) (hmax : e ≤ 971) (sign : Sign) :
    (UnpackedFloat.pack Format.binary64 (.finite sign m e hc.pos)).toNat =
      (signBit sign * 2 ^ 11 + if 2 ^ 52 ≤ m then (e + 1075).toNat else 0) * 2 ^ 52 + m % 2 ^ 52 := by
  obtain ⟨-, hlt⟩ := toNat_ofNat_exponent hc.le hmax
  have hexponent : (if 2 ^ 52 ≤ m then (e + 1075).toNat else 0) < 2 ^ 11 := by
    split <;> omega
  rw [pack_finite hc hmax, toNat_packComponents, BitVec.toNat_ofNat, BitVec.toNat_ofNat,
    Nat.mod_eq_of_lt hexponent]

theorem finite_congr {sign : Sign} {m m' : Nat} {e e' : Int} (hm : m = m') (he : e = e')
    (h : 0 < m) (h' : 0 < m') :
    UnpackedFloat.finite sign m e h = UnpackedFloat.finite sign m' e' h' := by
  subst hm he
  rfl

theorem toNat_leading_append (mantissa : BitVec 52) :
    (1#1 ++ mantissa).toNat = 2 ^ 52 + mantissa.toNat := by
  rw [BitVec.toNat_append, ← Nat.shiftLeft_add_eq_or_of_lt mantissa.isLt]
  rfl

/-- What components stand for. -/
theorem unpack_of {b : BitVec Format.binary64.numBits} {sign : Sign} {exponent : BitVec 11}
    {mantissa : BitVec 52} (hsign : Sign.ofBitVec (unpackSign b) = sign)
    (hexponent : unpackExponent b = exponent) (hmantissa : unpackMantissa b = mantissa) :
    UnpackedFloat.unpack Format.binary64 b =
      if exponent = -1#11 then if mantissa = 0#52 then .infinity sign else .notANumber
      else if exponent = 0#11 then
        if h : mantissa = 0#52 then .zero sign
        else .finite sign mantissa.toNat ((exponent.toNat : Int) - 1075 + 1)
          (BitVec.toNat_pos_of_ne_zero h)
      else .finite sign (1#1 ++ mantissa).toNat ((exponent.toNat : Int) - 1075)
        (by rw [toNat_leading_append]; omega) := by
  subst hsign hexponent hmantissa
  rfl

/-- A canonical number unpacks as it was packed. -/
theorem unpack_pack {m : Nat} {e : Int} (hc : Canonical m e) (hmax : e ≤ 971) (sign : Sign) :
    (Float.Model.pack (.finite sign m e hc.pos)).unpack = .finite sign m e hc.pos := by
  obtain ⟨-, hlt⟩ := toNat_ofNat_exponent hc.le hmax
  have hmin := hc.le
  have hm := hc.lt
  have hpos := hc.pos
  have hones : (-1#11).toNat = 2047 := rfl
  have hzero : (0#11).toNat = 0 := rfl
  show UnpackedFloat.unpack Format.binary64
    (UnpackedFloat.pack Format.binary64 (.finite sign m e hc.pos)) = _
  rw [pack_finite hc hmax]
  by_cases hlong : 2 ^ 52 ≤ m
  · -- The leading place is not stored; the exponent, which is neither all ones nor zero, says so.
    have hexponent : (BitVec.ofNat 11 (e + 1075).toNat).toNat = (e + 1075).toNat := by
      rw [BitVec.toNat_ofNat]
      exact Nat.mod_eq_of_lt (by omega)
    rw [if_pos hlong, unpack_of (ofBitVec_unpackSign_packComponents _ _ _)
      unpackExponent_packComponents unpackMantissa_packComponents, if_neg, if_neg]
    · refine finite_congr ?_ ?_ _ _
      · rw [toNat_leading_append, BitVec.toNat_ofNat]
        omega
      · rw [hexponent]
        omega
    · intro h
      have := congrArg BitVec.toNat h
      omega
    · intro h
      have := congrArg BitVec.toNat h
      omega
  · -- There is no leading place, and the exponent is the least one, which is stored as zero.
    have hmantissa : (BitVec.ofNat 52 m).toNat = m := by
      rw [BitVec.toNat_ofNat]
      exact Nat.mod_eq_of_lt (by omega)
    have he : e = -1074 := hc.full.resolve_left hlong
    rw [if_neg hlong, unpack_of (ofBitVec_unpackSign_packComponents _ _ _)
      unpackExponent_packComponents unpackMantissa_packComponents, if_neg (by decide), if_pos rfl,
      dif_neg]
    · exact finite_congr hmantissa (by rw [he]; rfl) _ _
    · intro h
      have := congrArg BitVec.toNat h
      have h0 : (0#52).toNat = 0 := rfl
      omega

/-! ## Finite numbers -/

/-- A number is the one with its bits. -/
theorem toModel_eq_pack {x : Float} {u : UnpackedFloat}
    (h : (UnpackedFloat.pack Format.binary64 u).toNat = x.toBits.toNat) :
    x = Float.ofModel (Float.Model.pack u) := by
  obtain ⟨⟨bits, valid⟩⟩ := x
  have hbits : bits = UInt64.ofBitVec (UnpackedFloat.pack Format.binary64 u) := by
    refine UInt64.toNat_inj.1 ?_
    exact h.symm
  subst hbits
  rfl

/-- The sign of a number. -/
def signOf (x : Float) : Sign :=
  if x.toBits.toNat / 2 ^ 63 = 1 then .negative else .positive

/-- The sign of a number is its highest bit. -/
theorem signBit_signOf (x : Float) : signBit (signOf x) = x.toBits.toNat / 2 ^ 63 := by
  have hlt := x.toBits.toNat_lt
  unfold signOf
  split
  · next h => exact h.symm
  · change 0 = _
    omega

/-- The highest exponent is that of no finite number. -/
theorem exponent_ne_of_isFinite {x : Float} (h : x.isFinite = true) :
    x.toBits.toNat / 2 ^ 52 % 2 ^ 11 ≠ 2047 := by
  intro hall
  have hones : (unpackExponent x.toBits.toBitVec : BitVec Format.binary64.exponentBits) = -1#11 :=
    BitVec.eq_of_toNat_eq ((toNat_unpackExponent _).trans hall)
  have hfinite : (UnpackedFloat.unpack Format.binary64 x.toBits.toBitVec).isFinite = true := h
  rw [unpack_of rfl hones rfl, if_pos rfl] at hfinite
  split at hfinite <;> cases hfinite

theorem toNat_pack_zero (sign : Sign) :
    (UnpackedFloat.pack Format.binary64 (.zero sign)).toNat = signBit sign * 2 ^ 63 := by
  cases sign <;> rfl

/-- **Finite numbers** are zeros, or else packed. The mantissa and the exponent are read off the
bits. -/
theorem finite_cases {x : Float} (h : x.isFinite = true) :
    x = Float.ofModel (Float.Model.pack (.zero (signOf x))) ∨
      ∃ m e, ∃ hc : Canonical m e, e ≤ 971 ∧
        x = Float.ofModel (Float.Model.pack (.finite (signOf x) m e hc.pos)) ∧
        if x.toBits.toNat / 2 ^ 52 % 2 ^ 11 = 0 then m = x.toBits.toNat % 2 ^ 52 ∧ e = -1074
        else m = 2 ^ 52 + x.toBits.toNat % 2 ^ 52 ∧
          e = ((x.toBits.toNat / 2 ^ 52 % 2 ^ 11 : Nat) : Int) - 1075 := by
  have hsign := signBit_signOf x
  have hlt : x.toBits.toNat < 2 ^ 64 := x.toBits.toNat_lt
  have hexponent := exponent_ne_of_isFinite h
  -- An exponent field of zero means no leading bit: zero itself, or a subnormal number.
  by_cases hb : x.toBits.toNat / 2 ^ 52 % 2 ^ 11 = 0
  · by_cases hf : x.toBits.toNat % 2 ^ 52 = 0
    · left
      refine toModel_eq_pack ?_
      rw [toNat_pack_zero, hsign]
      omega
    · right
      have hc : Canonical (x.toBits.toNat % 2 ^ 52) (-1074) :=
        ⟨by omega, by omega, le_rfl, .inr rfl⟩
      refine ⟨_, _, hc, by omega, toModel_eq_pack ?_, ?_⟩
      · rw [toNat_pack hc (by omega), hsign, if_neg (by omega)]
        omega
      · rw [if_pos hb]
        exact ⟨rfl, rfl⟩
  · right
    have hc : Canonical (2 ^ 52 + x.toBits.toNat % 2 ^ 52)
        (((x.toBits.toNat / 2 ^ 52 % 2 ^ 11 : Nat) : Int) - 1075) :=
      ⟨by omega, by omega, by omega, .inl (by omega)⟩
    refine ⟨_, _, hc, by omega, toModel_eq_pack ?_, ?_⟩
    · rw [toNat_pack hc (by omega), hsign, if_pos (by omega)]
      omega
    · rw [if_neg hb]
      exact ⟨rfl, rfl⟩

/-! ## Tests -/

section

variable {m : Nat} {e : Int} (hc : Canonical m e) (hmax : e ≤ 971) (sign : Sign)
include hmax

/-- A canonical number is a number. -/
theorem isNaN_finite :
    (Float.ofModel (Float.Model.pack (.finite sign m e hc.pos))).isNaN = false := by
  show (Float.Model.pack (.finite sign m e hc.pos)).unpack.isNaN = false
  rw [unpack_pack hc hmax]
  rfl

/-- A canonical number is not infinite. -/
theorem isInf_finite :
    (Float.ofModel (Float.Model.pack (.finite sign m e hc.pos))).isInf = false := by
  show (Float.Model.pack (.finite sign m e hc.pos)).unpack.isInf = false
  rw [unpack_pack hc hmax]
  rfl

/-- A canonical number is not zero. -/
theorem finite_beq_zero :
    (Float.ofModel (Float.Model.pack (.finite sign m e hc.pos)) == 0) = false := by
  have hzero : (0 : Float).toModel.unpack = .zero .positive := rfl
  show (Float.Model.pack (.finite sign m e hc.pos)).unpack.beq (0 : Float).toModel.unpack = false
  rw [unpack_pack hc hmax, hzero]
  cases sign <;> rfl

end

/-! ## Negation -/

theorem neg_zero (sign : Sign) :
    -Float.ofModel (Float.Model.pack (.zero sign)) =
      Float.ofModel (Float.Model.pack (.zero (-sign))) := by
  cases sign <;> rfl

/-- The negative of a canonical number has the other sign. -/
theorem neg_finite {m : Nat} {e : Int} (hc : Canonical m e) (hmax : e ≤ 971) (sign : Sign) :
    -Float.ofModel (Float.Model.pack (.finite sign m e hc.pos)) =
      Float.ofModel (Float.Model.pack (.finite (-sign) m e hc.pos)) := by
  change Float.ofModel (Float.Model.pack
    (UnpackedFloat.neg (Float.Model.pack (.finite sign m e hc.pos)).unpack)) = _
  rw [unpack_pack hc hmax]
  rfl

end CanvasLink.Binary
