import DukBridge.Lib.Binary64
import Mathlib

/-!
# Integers of 53 bits

The conversion of an integer rounds its mantissa to 53 bits and packs the result into
64. Neither step loses anything of an integer that has no more bits to begin with.
-/
namespace Binary64

open Float.Model Float.Model.UnpackedFloat

/-! ### Rounding what needs no rounding -/

theorem log2_mul_two_pow {n : Nat} (nonzero : n ≠ 0) (k : Nat) : (n * 2 ^ k).log2 = n.log2 + k := by
  induction k with
  | zero => rw [Nat.pow_zero, Nat.mul_one, Nat.add_zero]
  | succ k ih =>
    have more : n * 2 ^ k ≠ 0 := Nat.mul_ne_zero nonzero (Nat.two_pow_pos k).ne'
    have double : n * 2 ^ (k + 1) = 2 * (n * 2 ^ k) := by
      rw [Nat.pow_succ, ← Nat.mul_assoc, Nat.mul_comm]
    rw [double, Nat.log2_two_mul more, ih, Nat.add_assoc]

/-- A mantissa of 53 bits whose exponent stands at its target is not touched. -/
theorem shift_exact {m : Nat} {e : Int} (bits : m.log2 = 52) (least : -1074 ≤ e) :
    shiftToTargetExponent Format.binary64 m e .exact = (⟨m, false, false⟩, e) := by
  have target : Format.binary64.targetExponent (totalExponent m e) = e := by
    simp only [Format.targetExponent, totalExponent, Format.mantissaBits, Format.minExponent, bits]
    omega
  have still : (e - e).toNat = 0 := by omega
  rw [shiftToTargetExponent, target, shiftToExponent, still]
  simp [HShiftRight.hShiftRight, Nat.repeat, ExtendedMantissa.ofMantissaAndAccuracy]

theorem roundWithAccuracy_exact (sign : Sign) {m : Nat} {e : Int} (bits : m.log2 = 52)
    (positive : 0 < m) (least : -1074 ≤ e) :
    roundWithAccuracy Format.binary64 sign m e .exact = .finite sign m e positive := by
  have rounded : (⟨m, false, false⟩ : ExtendedMantissa).roundedMantissa = m := rfl
  rw [roundWithAccuracy, shift_exact bits least]
  simp only [rounded, shift_exact bits least, Nat.pos_iff_ne_zero.mp positive, dite_false]

/-- A positive integer below `2 ^ 53` is scaled until it has 53 bits. -/
theorem round_small (sign : Sign) {n : Nat} (positive : 0 < n) (small : n < 2 ^ 53) :
    ∃ scaled, UnpackedFloat.round Format.binary64 sign n 0 =
      .finite sign (n * 2 ^ (52 - n.log2)) (n.log2 - 52 : Int) scaled := by
  have bits : n.log2 ≤ 52 := by
    have below := (Nat.log2_lt (Nat.pos_iff_ne_zero.mp positive)).mpr small
    omega
  have target : Format.binary64.targetExponent (totalExponent n 0) = (n.log2 - 52 : Int) := by
    simp only [Format.targetExponent, totalExponent, Format.mantissaBits, Format.minExponent]
    omega
  have amount : (0 - (n.log2 - 52 : Int)).toNat = 52 - n.log2 := by omega
  have scaledBits : (n * 2 ^ (52 - n.log2)).log2 = 52 := by
    rw [log2_mul_two_pow (Nat.pos_iff_ne_zero.mp positive)]
    omega
  have scaled : 0 < n * 2 ^ (52 - n.log2) := Nat.mul_pos positive (Nat.two_pow_pos _)
  refine ⟨scaled, ?_⟩
  rw [UnpackedFloat.round, target]
  simp only [decreaseExponent, amount, Nat.shiftLeft_eq]
  have exponent : (0 : Int) - (52 - n.log2 : Nat) = n.log2 - 52 := by omega
  rw [exponent]
  exact roundWithAccuracy_exact sign scaledBits scaled (by omega)

/-- `2 ^ 53` itself is a power of two with room to spare. -/
theorem round_top (sign : Sign) : UnpackedFloat.round Format.binary64 sign (2 ^ 53) 0 =
    .finite sign (2 ^ 52) 1 (Nat.two_pow_pos 52) := by
  cases sign <;> rfl

/-! ### Through the bits -/

theorem unpack_pack_zero (sign : Sign) :
    (Float.Model.pack (.zero sign)).unpack = .zero sign := by
  cases sign <;> rfl

/-- A normal number is packed with its mantissa below the exponent. -/
theorem pack_normal (sign : Sign) {m : Nat} {e : Int} (bits : m.log2 = 52) (positive : 0 < m)
    (most : e ≤ 971) :
    UnpackedFloat.pack Format.binary64 (.finite sign m e positive) =
      packComponents Format.binary64 sign (BitVec.ofNat 11 (e + 1075).toNat) (BitVec.ofNat 52 m) := by
  have fits : ¬ 2 ^ Format.binary64.exponentBits ≤ (e + 1075).toNat + 1 := by
    change ¬ 2048 ≤ (e + 1075).toNat + 1
    omega
  have implicit : m.log2 + 1 = Format.binary64.mantissaBits := by
    rw [bits]
    rfl
  have bias : e + (Format.binary64.exponentBias : Int) +
      (Format.binary64.mantissaBitsWithoutImplicit : Int) = e + 1075 := by
    simp [Format.exponentBias]
    omega
  simp only [UnpackedFloat.pack, bias, fits, implicit, if_true, if_false]

/-- Packing a normal number keeps all of it. -/
theorem unpack_pack_normal (sign : Sign) {m : Nat} {e : Int} (bits : m.log2 = 52) (positive : 0 < m)
    (least : -1074 ≤ e) (most : e ≤ 971) :
    (Float.Model.pack (.finite sign m e positive)).unpack = .finite sign m e positive := by
  have range := (Nat.log2_eq_iff (Nat.pos_iff_ne_zero.mp positive)).mp bits
  have biased : (e + 1075).toNat < 2 ^ 11 - 1 := by omega
  have low : (e + 1075).toNat ≠ 0 := by omega
  have exponent : (BitVec.ofNat 11 (e + 1075).toNat).toNat = (e + 1075).toNat := by
    rw [BitVec.toNat_ofNat, Nat.mod_eq_of_lt (by omega)]
  have finite : BitVec.ofNat 11 (e + 1075).toNat ≠ -1#11 := by
    intro infinite
    have top := congrArg BitVec.toNat infinite
    rw [exponent] at top
    have all : (-1#11).toNat = 2047 := by decide
    omega
  have normal : BitVec.ofNat 11 (e + 1075).toNat ≠ 0#11 := by
    intro subnormal
    have zero := congrArg BitVec.toNat subnormal
    rw [exponent] at zero
    exact low zero
  have mantissa : (1#1 ++ BitVec.ofNat 52 m).toNat = m := by
    rw [BitVec.toNat_append, ← Nat.shiftLeft_add_eq_or_of_lt (BitVec.isLt _)]
    simp only [BitVec.toNat_ofNat, Nat.shiftLeft_eq]
    omega
  have value : ((e + 1075).toNat : Int) - ((Format.binary64.exponentBias : Nat) +
      (Format.binary64.mantissaBitsWithoutImplicit : Nat) : Int) = e := by
    simp [Format.exponentBias]
    omega
  -- the three fields come back out of the bits one by one
  rw [Float.Model.unpack, Float.Model.pack]
  simp only [pack_normal sign bits positive most, UnpackedFloat.unpack,
    unpackMantissa_packComponents, unpackExponent_packComponents, unpackSign_packComponents,
    Sign.ofBitVec_toBitVec, finite, normal, if_false, mantissa, exponent, value]

/-! ### Both steps -/

/-- The conversion is exact, and so is what it packs. -/
theorem round_is {n : Nat} (sign : Sign) (positive : 0 < n) (bound : n ≤ 2 ^ 53) :
    UnpackedIs (UnpackedFloat.round Format.binary64 sign n 0) (sign.apply n) ∧
      (Float.Model.pack (UnpackedFloat.round Format.binary64 sign n 0)).unpack =
        UnpackedFloat.round Format.binary64 sign n 0 := by
  -- 2 ^ 53 itself has one bit too many, and the last of them is 0
  rcases Nat.lt_or_eq_of_le bound with small | rfl
  · have bits : n.log2 ≤ 52 := by
      have below := (Nat.log2_lt (Nat.pos_iff_ne_zero.mp positive)).mpr small
      omega
    obtain ⟨scaled, rounded⟩ := round_small sign positive small
    have scaledBits : (n * 2 ^ (52 - n.log2)).log2 = 52 := by
      rw [log2_mul_two_pow (Nat.pos_iff_ne_zero.mp positive)]
      omega
    rw [rounded]
    refine ⟨?_, unpack_pack_normal sign scaledBits scaled (by omega) (by omega)⟩
    have up : ((n.log2 : Int) - 52).toNat = 0 := by omega
    have down : (-((n.log2 : Int) - 52)).toNat = 52 - n.log2 := by omega
    simp only [UnpackedIs, up, down]
    cases sign with
    | positive => simp [Sign.apply]
    | negative => simp [Sign.apply]
  · rw [round_top]
    refine ⟨?_, unpack_pack_normal sign (by decide) (by decide) (by decide) (by decide)⟩
    cases sign <;> rfl

theorem ofInt_is {n : Int} (bound : n.natAbs ≤ 2 ^ 53) : Is (ofInt n) n := by
  have exact : UnpackedIs (UnpackedFloat.ofInt Format.binary64 n) n ∧
      (Float.Model.pack (UnpackedFloat.ofInt Format.binary64 n)).unpack =
        UnpackedFloat.ofInt Format.binary64 n := by
    rw [UnpackedFloat.ofInt, UnpackedFloat.normalize]
    rcases Int.lt_trichotomy n 0 with negative | rfl | positive
    · have less : compare n 0 = .lt := compare_lt_iff_lt.mpr negative
      rw [less]
      have rounds := round_is (n := (-n).toNat) .negative (by omega) (by omega)
      have value : Sign.negative.apply ((-n).toNat : Int) = n := by
        simp only [Sign.apply]
        omega
      rwa [value] at rounds
    · exact ⟨rfl, unpack_pack_zero .positive⟩
    · have more : compare n 0 = .gt := compare_gt_iff_gt.mpr positive
      rw [more]
      have rounds := round_is (n := n.toNat) .positive (by omega) (by omega)
      have value : Sign.positive.apply (n.toNat : Int) = n := by
        simp only [Sign.apply]
        omega
      rwa [value] at rounds
  obtain ⟨value, kept⟩ := exact
  have packed : (ofInt n).toModel.unpack = UnpackedFloat.ofInt Format.binary64 n := kept
  rw [Is, packed]
  exact value

/-! ### Back to an integer -/

theorem mantissa_repeat_shiftRightOne (k : Nat) (em : ExtendedMantissa) :
    (k.repeat ExtendedMantissa.shiftRightOne em).mantissa = em.mantissa / 2 ^ k := by
  induction k with
  | zero => simp [Nat.repeat]
  | succ k ih =>
    rw [Nat.repeat, ExtendedMantissa.shiftRightOne]
    dsimp only
    rw [ih, Nat.div_div_eq_div_mul, Nat.pow_succ]

theorem roundToInt_eq (sign : Sign) (m : Nat) (e : Int) :
    roundToInt sign m e = sign.apply (m * 2 ^ e.toNat / 2 ^ (-e).toNat : Nat) := by
  have up : (e - 0).toNat = e.toNat := by omega
  have down : (0 - (e - (e.toNat : Int))).toNat = (-e).toNat := by omega
  simp only [roundToInt, decreaseExponent, shiftToExponent, HShiftRight.hShiftRight, up, down,
    mantissa_repeat_shiftRightOne, ExtendedMantissa.ofMantissaAndAccuracy, Nat.shiftLeft_eq]

theorem apply_mul (sign : Sign) (m k : Nat) :
    sign.apply ((m * k : Nat) : Int) = sign.apply (m : Int) * k := by
  cases sign <;> simp [Sign.apply]

theorem natAbs_apply (sign : Sign) (m : Nat) : (sign.apply (m : Int)).natAbs = m := by
  cases sign <;> simp [Sign.apply]

/-- Truncation does nothing to an integer. -/
theorem UnpackedIs.toInt {u : UnpackedFloat} {n : Int} (is : UnpackedIs u n) (lo hi : Int) :
    u.toInt lo hi = n := by
  cases u with
  | zero sign => exact is.symm
  | finite sign m e pos =>
    have value : sign.apply m * ((2 ^ e.toNat : Nat) : Int) = n * ((2 ^ (-e).toNat : Nat) : Int) := by
      rw [Nat.cast_pow, Nat.cast_pow]
      exact is
    rw [← apply_mul] at value
    -- the mantissa is the magnitude of the integer, moved up by what the exponent moves it down
    have scaled : m * 2 ^ e.toNat = n.natAbs * 2 ^ (-e).toNat := by
      have same := congrArg Int.natAbs value
      rwa [natAbs_apply, Int.natAbs_mul, Int.natAbs_natCast] at same
    rw [UnpackedFloat.toInt, roundToInt_eq, scaled, Nat.mul_div_cancel _ (Nat.two_pow_pos _)]
    rw [scaled, apply_mul] at value
    exact Int.eq_of_mul_eq_mul_right (by simp) value
  | infinity sign => exact is.elim
  | notANumber => exact is.elim

theorem Is.toInt32 {d : Float} {n : Int} (is : Is d n) (least : Int32.minValue.toInt ≤ n)
    (most : n ≤ Int32.maxValue.toInt) : d.toModel.toInt32.toInt = n := by
  rw [Float.Model.toInt32, UnpackedFloat.toInt32, UnpackedIs.toInt is, Int32.ofIntClamp,
    dif_pos least, dif_pos most]
  exact Int32.toInt_ofIntLE

/-! ### The low bits of an integer's bits -/

theorem round_low_bits {n : Nat} (sign : Sign) (positive : 0 < n) (small : n < 2 ^ 53) :
    (UnpackedFloat.pack Format.binary64
      (UnpackedFloat.round Format.binary64 sign n 0)).toNat % 2 ^ 52 =
      n * 2 ^ (52 - n.log2) % 2 ^ 52 := by
  have bits : n.log2 ≤ 52 := by
    have below := (Nat.log2_lt (Nat.pos_iff_ne_zero.mp positive)).mpr small
    omega
  obtain ⟨scaled, rounded⟩ := round_small sign positive small
  have scaledBits : (n * 2 ^ (52 - n.log2)).log2 = 52 := by
    rw [log2_mul_two_pow (Nat.pos_iff_ne_zero.mp positive)]
    omega
  rw [rounded, pack_normal sign scaledBits scaled (by omega), packComponents]
  have mantissa := congrArg BitVec.toNat (BitVec.setWidth_append_eq_right
    (a := sign.toBitVec ++ BitVec.ofNat 11 ((n.log2 - 52 : Int) + 1075).toNat)
    (b := BitVec.ofNat 52 (n * 2 ^ (52 - n.log2))))
  rw [BitVec.toNat_setWidth, BitVec.toNat_ofNat] at mantissa
  exact mantissa

/-- An integer is shifted until its leading bit has left the low 52. -/
theorem toBits_ofInt_low {n : Int} (nonzero : n ≠ 0) (small : n.natAbs < 2 ^ 53) :
    (ofInt n).toBits.toNat % 2 ^ 52 = n.natAbs * 2 ^ (52 - n.natAbs.log2) % 2 ^ 52 := by
  change (UnpackedFloat.pack Format.binary64 (UnpackedFloat.ofInt Format.binary64 n)).toNat
    % 2 ^ 52 = _
  rw [UnpackedFloat.ofInt, UnpackedFloat.normalize]
  rcases Int.lt_trichotomy n 0 with negative | zero | positive
  · have less : compare n 0 = .lt := compare_lt_iff_lt.mpr negative
    have size : (-n).toNat = n.natAbs := by omega
    simp only [less, size]
    exact round_low_bits .negative (by omega) small
  · exact absurd zero nonzero
  · have more : compare n 0 = .gt := compare_gt_iff_gt.mpr positive
    have size : n.toNat = n.natAbs := by omega
    simp only [more, size]
    exact round_low_bits .positive (by omega) small

end Binary64
