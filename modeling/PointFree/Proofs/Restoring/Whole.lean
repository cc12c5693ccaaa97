import Mathlib
import PointFree.Decimal.Reading

/-!
Contract: whole numbers are read exactly.

A natural number with at most 53 binary digits is the mantissa of a double once zeros are added
behind it, so it is not rounded, and neither is its product with one. The double that its digits
denote is the number.
-/

namespace PointFree.Decimal

open Float.Model (Format UnpackedFloat totalExponent)
open Float.Model.UnpackedFloat (ExtendedMantissa)

/-! ### Fields -/

/-- The fields of a double, as its unpacked form has them. -/
def Dyadic.ofUnpacked? : UnpackedFloat → Option Dyadic
  | .zero sign => some ⟨sign == .negative, 0, -1074⟩
  | .finite sign mantissa exponent _ => some ⟨sign == .negative, mantissa, exponent⟩
  | _ => none

section Fields

variable (bits : BitVec 64)

theorem unpackExponent_toNat : (@UnpackedFloat.unpackExponent .binary64 bits).toNat =
    bits.toNat / Nat.pow 2 52 % Nat.pow 2 11 := by
  rw [UnpackedFloat.unpackExponent_def, BitVec.extractLsb'_toNat, Nat.shiftRight_eq_div_pow]
  rfl

theorem unpackMantissa_toNat : (@UnpackedFloat.unpackMantissa .binary64 bits).toNat =
    bits.toNat % Nat.pow 2 52 := by
  rw [UnpackedFloat.unpackMantissa_def, BitVec.extractLsb'_toNat]
  rfl

theorem unpackSign_beq :
    (UnpackedFloat.Sign.ofBitVec (@UnpackedFloat.unpackSign .binary64 bits) == .negative) =
      (bits.toNat / Nat.pow 2 63 == 1) := by
  have digit : (@UnpackedFloat.unpackSign .binary64 bits).toNat = bits.toNat / 2 ^ 63 := by
    have below : bits.toNat < 2 ^ 64 := bits.isLt
    rw [UnpackedFloat.unpackSign_def, BitVec.extractLsb'_toNat, Nat.shiftRight_eq_div_pow]
    change bits.toNat / 2 ^ 63 % 2 ^ 1 = _
    omega
  change _ = (bits.toNat / 2 ^ 63 == 1)
  rw [← digit]
  generalize @UnpackedFloat.unpackSign .binary64 bits = sign
  revert sign
  decide

theorem leading_toNat (fraction : BitVec 52) :
    (1#1 ++ fraction).toNat = fraction.toNat + Nat.pow 2 52 := by
  rw [BitVec.toNat_append, ← Nat.shiftLeft_add_eq_or_of_lt fraction.isLt]
  exact Nat.add_comm ..

end Fields

/-- The fields that are read off the bits are those of the unpacked form. -/
theorem Dyadic.ofFloat?_eq_ofUnpacked? (value : Float) :
    Dyadic.ofFloat? value = Dyadic.ofUnpacked? value.toModel.unpack := by
  have isBits : value.toBits.toNat = value.toModel.toBits.toBitVec.toNat := rfl
  rw [Dyadic.ofFloat?, isBits, ← unpackExponent_toNat, ← unpackMantissa_toNat, ← unpackSign_beq,
    Float.Model.unpack, UnpackedFloat.unpack]
  generalize UnpackedFloat.Sign.ofBitVec _ = sign
  generalize @UnpackedFloat.unpackExponent .binary64 _ = biased
  have isFull : biased = -1#11 ↔ biased.toNat = 2047 := BitVec.toNat_inj.symm
  have isNone : biased = 0#11 ↔ biased.toNat = 0 := BitVec.toNat_inj.symm
  dsimp only
  by_cases full : biased.toNat = 2047
  · rw [if_pos full, if_pos (isFull.2 full)]
    split <;> rfl
  · rw [if_neg full, if_neg (mt isFull.1 full)]
    by_cases none : biased.toNat = 0
    · rw [if_pos none, if_pos (isNone.2 none), none]
      split
      · next empty =>
          rw [empty]
          rfl
      · rfl
    · rw [if_neg none, if_neg (mt isNone.1 none)]
      simp only [ofUnpacked?, leading_toNat]
      rfl

/-! ### Rounding -/

theorem log2_mul_two_pow {number : Nat} (some : number ≠ 0) (shift : Nat) :
    (number * 2 ^ shift).log2 = number.log2 + shift := by
  induction shift with
  | zero => simp
  | succ shift inductionHypothesis =>
      have scaled : number * 2 ^ shift ≠ 0 := Nat.mul_ne_zero some (Nat.two_pow_pos shift).ne'
      rw [Nat.pow_succ, ← Nat.mul_assoc, Nat.mul_comm _ 2, Nat.log2_two_mul scaled,
        inductionHypothesis, Nat.add_assoc]

/-- The mantissa has 53 binary digits. -/
structure IsNormal (mantissa : Nat) : Prop where
  low : 2 ^ 52 ≤ mantissa
  high : mantissa < 2 ^ 53

namespace IsNormal

variable {mantissa : Nat} {exponent : Int}

theorem pos (normal : IsNormal mantissa) : 0 < mantissa :=
  (Nat.two_pow_pos 52).trans_le normal.low

theorem log2_eq (normal : IsNormal mantissa) (shift : Nat) :
    (mantissa * 2 ^ shift).log2 = 52 + shift := by
  rw [log2_mul_two_pow normal.pos.ne',
    (Nat.log2_eq_iff normal.pos.ne').2 ⟨normal.low, normal.high⟩]

/-- Zeros behind the mantissa do not change where it is rounded. -/
theorem targetExponent_eq (normal : IsNormal mantissa) (least : -1074 ≤ exponent) (shift : Nat) :
    Format.binary64.targetExponent (totalExponent (mantissa * 2 ^ shift) (exponent - shift)) =
      exponent := by
  simp only [Format.targetExponent, totalExponent, normal.log2_eq, Format.mantissaBits,
    Format.minExponent]
  omega

end IsNormal

/-- Zeros are shifted out without a trace. -/
theorem shiftRight_exact (mantissa shift : Nat) :
    (⟨mantissa * 2 ^ shift, false, false⟩ : ExtendedMantissa) >>> shift =
      ⟨mantissa, false, false⟩ := by
  induction shift generalizing mantissa with
  | zero => simp [HShiftRight.hShiftRight, Nat.repeat]
  | succ shift inductionHypothesis =>
      have doubled : mantissa * 2 ^ (shift + 1) = mantissa * 2 * 2 ^ shift := by
        rw [Nat.pow_succ', Nat.mul_assoc]
      rw [doubled]
      change ExtendedMantissa.shiftRightOne
        ((⟨mantissa * 2 * 2 ^ shift, false, false⟩ : ExtendedMantissa) >>> shift) = _
      rw [inductionHypothesis]
      simp [ExtendedMantissa.shiftRightOne]

namespace IsNormal

variable {mantissa : Nat} {exponent : Int}

theorem shiftToTargetExponent_eq (normal : IsNormal mantissa) (least : -1074 ≤ exponent)
    (shift : Nat) :
    UnpackedFloat.shiftToTargetExponent .binary64 (mantissa * 2 ^ shift) (exponent - shift) .exact =
      (⟨mantissa, false, false⟩, exponent) := by
  have amount : (exponent - (exponent - shift)).toNat = shift := by omega
  have place : exponent - shift + (shift : Int) = exponent := by omega
  simp only [UnpackedFloat.shiftToTargetExponent, normal.targetExponent_eq least,
    UnpackedFloat.shiftToExponent, amount, place, ExtendedMantissa.ofMantissaAndAccuracy,
    shiftRight_exact]

/-- A mantissa with zeros behind it is not rounded. -/
theorem roundWithAccuracy_eq (normal : IsNormal mantissa) (least : -1074 ≤ exponent)
    (sign : UnpackedFloat.Sign) (shift : Nat) :
    UnpackedFloat.roundWithAccuracy .binary64 sign (mantissa * 2 ^ shift) (exponent - shift)
      .exact = .finite sign mantissa exponent normal.pos := by
  have again := normal.shiftToTargetExponent_eq least 0
  rw [Nat.pow_zero, Nat.mul_one, Int.natCast_zero, Int.sub_zero] at again
  rw [UnpackedFloat.roundWithAccuracy, normal.shiftToTargetExponent_eq least]
  simp only [ExtendedMantissa.roundedMantissa, ExtendedMantissa.accuracy,
    UnpackedFloat.Accuracy.roundToNearestEven, again]
  rw [dif_neg normal.pos.ne']

/-! ### Bits -/

theorem biased_eq (least : -1074 ≤ exponent) (greatest : exponent ≤ 971) :
    (exponent + Format.binary64.exponentBias + Format.binary64.mantissaBitsWithoutImplicit).toNat =
      (exponent + 1075).toNat ∧ (exponent + 1075).toNat < 2047 ∧ 0 < (exponent + 1075).toNat := by
  refine ⟨?_, by omega, by omega⟩
  change (exponent + 1023 + 52).toNat = _
  omega

theorem pack_eq (normal : IsNormal mantissa) (least : -1074 ≤ exponent) (greatest : exponent ≤ 971)
    (sign : UnpackedFloat.Sign) :
    UnpackedFloat.pack .binary64 (.finite sign mantissa exponent normal.pos) =
      UnpackedFloat.packComponents .binary64 sign (BitVec.ofNat 11 (exponent + 1075).toNat)
        (BitVec.ofNat 52 mantissa) := by
  obtain ⟨biased, small, _⟩ := biased_eq least greatest
  have bits : mantissa.log2 + 1 = Format.binary64.mantissaBits := by
    have log2 := normal.log2_eq 0
    rw [Nat.pow_zero, Nat.mul_one] at log2
    rw [log2]
    rfl
  have finite : ¬2 ^ Format.binary64.exponentBits ≤ (exponent + 1075).toNat + 1 := by
    change ¬2048 ≤ _
    omega
  rw [UnpackedFloat.pack, biased, if_neg finite, if_pos bits]

theorem unpack_pack (normal : IsNormal mantissa) (least : -1074 ≤ exponent)
    (greatest : exponent ≤ 971) (sign : UnpackedFloat.Sign) :
    (Float.Model.pack (.finite sign mantissa exponent normal.pos)).unpack =
      .finite sign mantissa exponent normal.pos := by
  obtain ⟨_, small, some⟩ := biased_eq least greatest
  have biased : (BitVec.ofNat 11 (exponent + 1075).toNat).toNat = (exponent + 1075).toNat := by
    rw [BitVec.toNat_ofNat]
    omega
  have notAll : BitVec.ofNat 11 (exponent + 1075).toNat ≠ -1#11 := by
    intro all
    have values := congrArg BitVec.toNat all
    rw [biased, show (-1#11).toNat = 2047 from rfl] at values
    omega
  have notNone : BitVec.ofNat 11 (exponent + 1075).toNat ≠ 0#11 := by
    intro none
    have values := congrArg BitVec.toNat none
    rw [biased, show (0#11).toNat = 0 from rfl] at values
    omega
  have whole : (1#1 ++ BitVec.ofNat 52 mantissa).toNat = mantissa := by
    have leading : 2 ^ 52 + mantissa % 2 ^ 52 = mantissa := by
      have := normal.low
      have := normal.high
      omega
    rw [leading_toNat, BitVec.toNat_ofNat, Nat.add_comm]
    exact leading
  have place : ((exponent + 1075).toNat : Int) - (Format.binary64.exponentBias + 52) = exponent := by
    change ((exponent + 1075).toNat : Int) - (1023 + 52) = exponent
    omega
  change UnpackedFloat.unpack .binary64 (UnpackedFloat.pack .binary64 _) = _
  rw [normal.pack_eq least greatest, UnpackedFloat.unpack]
  simp only [UnpackedFloat.unpackExponent_packComponents,
    UnpackedFloat.unpackMantissa_packComponents, UnpackedFloat.unpackSign_packComponents,
    UnpackedFloat.Sign.ofBitVec_toBitVec]
  rw [if_neg notAll, if_neg notNone]
  simp only [whole, biased]
  congr 1

/-- The double is made of the mantissa and the exponent again. -/
theorem ofFloat?_eq (normal : IsNormal mantissa) (least : -1074 ≤ exponent)
    (greatest : exponent ≤ 971) (sign : UnpackedFloat.Sign) :
    Dyadic.ofFloat? (Float.ofModel
      (Float.Model.pack (.finite sign mantissa exponent normal.pos))) =
        some ⟨sign == .negative, mantissa, exponent⟩ := by
  rw [Dyadic.ofFloat?_eq_ofUnpacked?]
  exact congrArg Dyadic.ofUnpacked? (normal.unpack_pack least greatest sign)

end IsNormal

/-! ### Whole numbers -/

theorem isNormal_of_lt {number : Nat} (some : number ≠ 0) (small : number < 2 ^ 53) :
    IsNormal (number * 2 ^ (52 - number.log2)) ∧ number.log2 ≤ 52 := by
  have digits : number.log2 < 53 := (Nat.log2_lt some).2 small
  have low : 2 ^ number.log2 ≤ number := Nat.log2_self_le some
  have high : number < 2 ^ (number.log2 + 1) := Nat.lt_log2_self
  have total : 2 ^ number.log2 * 2 ^ (52 - number.log2) = 2 ^ 52 := by
    rw [← Nat.pow_add, Nat.add_sub_of_le (by omega)]
  refine ⟨⟨?_, ?_⟩, by omega⟩
  · rw [← total]
    exact Nat.mul_le_mul_right _ low
  · have scaled := Nat.mul_lt_mul_of_pos_right high (Nat.two_pow_pos (52 - number.log2))
    rw [Nat.pow_succ, Nat.mul_right_comm, total] at scaled
    exact scaled

/-- A whole number with zeros behind it is not rounded. -/
theorem round_eq {number : Nat} (some : number ≠ 0) (small : number < 2 ^ 53)
    (sign : UnpackedFloat.Sign) (places : Nat) :
    UnpackedFloat.round .binary64 sign (number * 2 ^ places) (-places) =
      .finite sign (number * 2 ^ (52 - number.log2)) ((number.log2 : Int) - 52)
        (isNormal_of_lt some small).1.pos := by
  obtain ⟨normal, digits⟩ := isNormal_of_lt some small
  have target : Format.binary64.targetExponent (totalExponent (number * 2 ^ places) (-places)) =
      (number.log2 : Int) - 52 := by
    simp only [Format.targetExponent, totalExponent, Format.mantissaBits, Format.minExponent,
      log2_mul_two_pow some]
    omega
  have amount : (-(places : Int) - ((number.log2 : Int) - 52)).toNat =
      52 - number.log2 - places := by omega
  -- What is missing of 53 digits is added in front of the place, what is too much is cut off.
  have scaled : number * 2 ^ places * 2 ^ (52 - number.log2 - places) =
      number * 2 ^ (52 - number.log2) * 2 ^ (places + number.log2 - 52) := by
    rw [Nat.mul_assoc, Nat.mul_assoc, ← Nat.pow_add, ← Nat.pow_add]
    congr 2
    omega
  have place : -(places : Int) - (52 - number.log2 - places : Nat) =
      (number.log2 : Int) - 52 - (places + number.log2 - 52 : Nat) := by omega
  simp only [UnpackedFloat.round, UnpackedFloat.decreaseExponent, target, amount, place,
    Nat.shiftLeft_eq, scaled]
  exact normal.roundWithAccuracy_eq (by omega) sign _

/-- A whole number is a double as it is. -/
theorem ofNat_eq {number : Nat} (some : number ≠ 0) (small : number < 2 ^ 53) :
    UnpackedFloat.ofNat .binary64 number =
      .finite .positive (number * 2 ^ (52 - number.log2)) ((number.log2 : Int) - 52)
        (isNormal_of_lt some small).1.pos := by
  rw [UnpackedFloat.ofNat, UnpackedFloat.ofInt, UnpackedFloat.normalize,
    Int.compare_eq_gt.2 (by omega), ← round_eq some small .positive 0]
  simp only [Int.toNat_natCast, Nat.pow_zero, Nat.mul_one, Int.natCast_zero, Int.neg_zero]

/-- Zeros behind the digits of a whole number are taken off again. -/
theorem Dyadic.magnitude?_whole {number : Nat} (some : number ≠ 0) (small : number < 2 ^ 53)
    (negative : Bool) :
    magnitude? ⟨negative, number * 2 ^ (52 - number.log2), (number.log2 : Int) - 52⟩ =
      .some number := by
  have digits : number.log2 ≤ 52 := (isNormal_of_lt some small).2
  by_cases full : number.log2 = 52
  · rw [full]
    exact congrArg Option.some ((Nat.mul_one _).trans (Nat.mul_one _))
  · have below : ¬(0 : Int) ≤ (number.log2 : Int) - 52 := by omega
    have shift : (-((number.log2 : Int) - 52)).toNat = 52 - number.log2 := by omega
    rw [magnitude?, if_neg below, shift]
    exact (if_pos (Nat.mul_mod_left _ _)).trans
      (congrArg Option.some (Nat.mul_div_left _ (Nat.two_pow_pos _)))

/-- The product with one is not rounded. -/
theorem IsNormal.mul_one {mantissa : Nat} {exponent : Int} (normal : IsNormal mantissa)
    (least : -1074 ≤ exponent) (greatest : exponent ≤ 971) :
    Float.ofModel (Float.Model.pack (.finite .positive mantissa exponent normal.pos)) *
        Float.exactlyRepresentablePowersOfTen[0] =
      Float.ofModel (Float.Model.pack (.finite .positive mantissa exponent normal.pos)) := by
  have unpacked : (Float.Model.pack (.finite .positive mantissa exponent normal.pos)).unpack =
      .finite .positive mantissa exponent normal.pos := normal.unpack_pack least greatest .positive
  have one : (Float.exactlyRepresentablePowersOfTen[0]).toModel.unpack =
      .finite .positive (2 ^ 52) (-52) (Nat.two_pow_pos 52) := rfl
  have product : UnpackedFloat.mul .binary64 (.finite .positive mantissa exponent normal.pos)
      (.finite .positive (2 ^ 52) (-52) (Nat.two_pow_pos 52)) =
        .finite .positive mantissa exponent normal.pos :=
    normal.roundWithAccuracy_eq least .positive 52
  change Float.ofModel (Float.Model.pack (UnpackedFloat.mul .binary64
    (Float.Model.pack _).unpack (Float.exactlyRepresentablePowersOfTen[0]).toModel.unpack)) = _
  rw [unpacked, one, product]

/-- The digits of a whole number denote it exactly. -/
theorem toInt?_nearest {number : Nat} (small : number < 2 ^ 53) :
    toInt? (nearest number 0) = some (number : Int) := by
  by_cases zero : number = 0
  · subst zero
    decide +kernel
  · obtain ⟨normal, digits⟩ := isNormal_of_lt zero small
    have length : decimalLength number ≤ 16 :=
      (Nat.length_toDigits_le_iff (by decide) (by decide)).2 (small.trans (by decide))
    have word : number.toUInt64.toNat = number := by
      rw [Nat.toUInt64, UInt64.toNat_ofNat']
      omega
    have converted : number.toUInt64.toFloat = Float.ofModel (Float.Model.pack
        (.finite .positive (number * 2 ^ (52 - number.log2)) ((number.log2 : Int) - 52)
          normal.pos)) := by
      change Float.ofModel (Float.Model.pack (UnpackedFloat.ofNat .binary64 number.toUInt64.toNat)) = _
      rw [word, ofNat_eq zero small]
    have value : nearest number 0 =
        number.toUInt64.toFloat * Float.exactlyRepresentablePowersOfTen[0] := by
      rw [nearest, if_neg zero, if_neg (by rw [placeLimit]; omega), if_neg (by rw [placeLimit]; omega)]
      exact dif_pos ⟨small, Nat.zero_le _⟩
    rw [value, converted, normal.mul_one (by omega) (by omega), toInt?,
      normal.ofFloat?_eq (by omega) (by omega) .positive, Option.bind_some, Dyadic.toInt?,
      Dyadic.magnitude?_whole zero small]
    rfl

end PointFree.Decimal
