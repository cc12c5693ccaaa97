import PointFree.Proofs.Restoring.Whole

/-!
Contract: doubles that denote integers.

An integer of at most 53 binary digits is denoted by one double, up to the sign of zero, so doubles
that denote it are equal. Such doubles are negated and subtracted as integers are: the difference is
rounded at the last of 53 digits, and the integers have none beyond it.
-/

namespace PointFree.Decimal

open Float.Model (Format UnpackedFloat totalExponent)
open Float.Model.UnpackedFloat (Sign decreaseExponent round)

variable {value value' : Float} {whole whole' : Int} {unpacked unpacked' : UnpackedFloat}

/-- The integer is zero, or the digits of its magnitude are the leading ones of the mantissa. -/
inductive Denotes : UnpackedFloat → Int → Prop where
  | zero (sign : Sign) : Denotes (.zero sign) 0
  | finite (sign : Sign) {number : Nat} (some : number ≠ 0) (small : number < 2 ^ 53) :
      Denotes (.finite sign (number * 2 ^ (52 - number.log2)) ((number.log2 : Int) - 52)
        (isNormal_of_lt some small).1.pos) (sign.apply number)

/-! ### Doubles that denote an integer -/

/-- A double that is not subnormal has a mantissa of 53 digits. -/
theorem isNormal_of_unpack {sign : Sign} {mantissa : Nat} {exponent : Int} {positive : 0 < mantissa}
    (isFinite : value.toModel.unpack = .finite sign mantissa exponent positive) :
    IsNormal mantissa ∨ mantissa < 2 ^ 52 ∧ exponent = -1074 := by
  rw [Float.Model.unpack, UnpackedFloat.unpack] at isFinite
  dsimp only at isFinite
  split at isFinite
  · split at isFinite <;> cases isFinite
  · split at isFinite
    · next none =>
        split at isFinite
        · cases isFinite
        · cases isFinite
          rw [none]
          exact .inr ⟨BitVec.isLt _, rfl⟩
    · cases isFinite
      rw [leading_toNat]
      have below := (@UnpackedFloat.unpackMantissa .binary64 value.toModel.toBits.toBitVec).isLt
      exact .inl ⟨Nat.le_add_left .., Nat.add_lt_add_right below _⟩

/-- The digits of a whole number that a normal mantissa stands for are its leading ones. -/
theorem IsNormal.eq_of_magnitude? {mantissa number : Nat} {exponent : Int} {negative : Bool}
    (normal : IsNormal mantissa) (small : number < 2 ^ 53)
    (magnitude : Dyadic.magnitude? ⟨negative, mantissa, exponent⟩ = some number) :
    number ≠ 0 ∧ mantissa = number * 2 ^ (52 - number.log2) ∧
      exponent = (number.log2 : Int) - 52 := by
  have log2 : mantissa.log2 = 52 := by simpa using normal.log2_eq 0
  unfold Dyadic.magnitude? at magnitude
  split at magnitude
  · next above =>
      obtain ⟨places, rfl⟩ := Int.eq_ofNat_of_zero_le above
      obtain rfl : mantissa * 2 ^ places = number := Option.some.inj magnitude
      have none : places = 0 := by
        by_contra some
        have scaled := (Nat.mul_le_mul normal.low (Nat.pow_le_pow_right (by decide : 0 < 2)
          (Nat.one_le_iff_ne_zero.2 some))).trans_lt small
        omega
      subst none
      simp [log2, normal.pos.ne']
  · next below =>
      have below : exponent < 0 := Int.not_le.1 below
      dsimp only at magnitude
      split at magnitude
      · next exact =>
          obtain rfl := Option.some.inj magnitude
          have whole := Nat.div_mul_cancel (Nat.dvd_of_mod_eq_zero exact)
          have some : mantissa / Nat.pow 2 (-exponent).toNat ≠ 0 := by
            intro none
            rw [none, Nat.zero_mul] at whole
            exact normal.pos.ne whole
          have digits := log2_mul_two_pow some (-exponent).toNat
          rw [show _ * 2 ^ _ = mantissa from whole, log2] at digits
          refine ⟨some, ?_, by omega⟩
          rw [show 52 - _ = (-exponent).toNat by omega]
          exact whole.symm
      · cases magnitude

theorem Dyadic.toInt?_sign (sign : Sign) (mantissa : Nat) (exponent : Int) :
    Dyadic.toInt? ⟨sign == .negative, mantissa, exponent⟩ =
      (magnitude? ⟨sign == .negative, mantissa, exponent⟩).map
        fun (number : Nat) => sign.apply number := by
  unfold Dyadic.toInt?
  cases magnitude? ⟨sign == .negative, mantissa, exponent⟩ with
  | none => rfl
  | some number => cases sign <;> rfl

theorem Dyadic.magnitude?_zero (negative : Bool) (exponent : Int) :
    magnitude? ⟨negative, 0, exponent⟩ = some 0 := by
  unfold magnitude?
  split
  · exact congrArg some (Nat.zero_mul _)
  · exact (if_pos (Nat.zero_mod _)).trans (congrArg some (Nat.zero_div _))

/-- No double below the normal ones is whole. -/
theorem Dyadic.magnitude?_subnormal {mantissa : Nat} (positive : 0 < mantissa)
    (small : mantissa < 2 ^ 52) (negative : Bool) :
    magnitude? ⟨negative, mantissa, -1074⟩ = none := by
  obtain ⟨places, isPlaces, several⟩ : ∃ places : Nat, (-1074 : Int) = -places ∧ 52 ≤ places :=
    ⟨1074, rfl, by decide⟩
  have amount : (-(-(places : Int))).toNat = places := by omega
  have below : mantissa < Nat.pow 2 places :=
    small.trans_le (Nat.pow_le_pow_right (by decide) several)
  have rest : mantissa % Nat.pow 2 places ≠ 0 := by
    rw [Nat.mod_eq_of_lt below]
    exact positive.ne'
  rw [isPlaces, magnitude?, if_neg (by dsimp only; omega)]
  dsimp only
  rw [amount, if_neg rest]

/-- A double denotes what it is converted to, if that has 53 digits at most. -/
theorem denotes_of_toInt? (isWhole : toInt? value = some whole) (small : whole.natAbs < 2 ^ 53) :
    Denotes value.toModel.unpack whole := by
  rw [toInt?, Dyadic.ofFloat?_eq_ofUnpacked?] at isWhole
  cases isUnpacked : value.toModel.unpack with
  | notANumber => simp [isUnpacked, Dyadic.ofUnpacked?] at isWhole
  | infinity sign => simp [isUnpacked, Dyadic.ofUnpacked?] at isWhole
  | zero sign =>
      rw [isUnpacked, Dyadic.ofUnpacked?, Option.bind_some, Dyadic.toInt?_sign] at isWhole
      rw [Dyadic.magnitude?_zero] at isWhole
      obtain rfl : sign.apply 0 = whole := Option.some.inj isWhole
      cases sign <;> exact .zero _
  | finite sign mantissa exponent positive =>
      rw [isUnpacked, Dyadic.ofUnpacked?, Option.bind_some, Dyadic.toInt?_sign,
        Option.map_eq_some_iff] at isWhole
      obtain ⟨number, magnitude, rfl⟩ := isWhole
      rcases isNormal_of_unpack isUnpacked with normal | ⟨below, rfl⟩
      · have low : number < 2 ^ 53 := by
          cases sign <;> simpa only [Sign.apply, Int.natAbs_neg, Int.natAbs_natCast] using small
        obtain ⟨some, rfl, rfl⟩ := normal.eq_of_magnitude? low magnitude
        exact .finite sign some low
      · rw [Dyadic.magnitude?_subnormal positive below] at magnitude
        cases magnitude

/-- Packing keeps the integer. -/
theorem Denotes.unpack_pack (denotes : Denotes unpacked whole) :
    (Float.Model.pack unpacked).unpack = unpacked := by
  cases denotes with
  | zero sign => exact UnpackedFloat.unpack_packedZero
  | finite sign some small =>
      obtain ⟨normal, digits⟩ := isNormal_of_lt some small
      exact normal.unpack_pack (by omega) (by omega) sign

theorem Denotes.toInt? (denotes : Denotes unpacked whole) :
    toInt? (Float.ofModel (Float.Model.pack unpacked)) = some whole := by
  rw [Decimal.toInt?, Dyadic.ofFloat?_eq_ofUnpacked?]
  change (Dyadic.ofUnpacked? (Float.Model.pack unpacked).unpack).bind _ = _
  rw [denotes.unpack_pack]
  cases denotes with
  | zero sign =>
      rw [Dyadic.ofUnpacked?, Option.bind_some, Dyadic.toInt?_sign, Dyadic.magnitude?_zero]
      cases sign <;> rfl
  | finite sign some small =>
      rw [Dyadic.ofUnpacked?, Option.bind_some, Dyadic.toInt?_sign,
        Dyadic.magnitude?_whole some small]
      rfl

theorem apply_eq_apply_iff {sign sign' : Sign} {number number' : Nat} (some : number ≠ 0) :
    sign.apply number = sign'.apply number' ↔ sign = sign' ∧ number = number' := by
  cases sign <;> cases sign' <;> simp [Sign.apply] <;> omega

theorem Denotes.beq (denotes : Denotes unpacked whole) (denotes' : Denotes unpacked' whole) :
    unpacked.beq unpacked' = true := by
  generalize isWhole : whole = whole' at denotes'
  cases denotes with
  | zero sign =>
      cases denotes' with
      | zero sign' => cases sign <;> cases sign' <;> rfl
      | @finite sign' number some => cases sign' <;> simp only [Sign.apply] at isWhole <;> omega
  | @finite sign number some small =>
      cases denotes' with
      | zero => cases sign <;> simp only [Sign.apply] at isWhole <;> omega
      | @finite sign' number' =>
          obtain ⟨rfl, rfl⟩ := (apply_eq_apply_iff some).1 isWhole
          simp [UnpackedFloat.beq_iff_ne_notANumber_and_eq]

/-- Doubles that denote one integer are equal. -/
theorem beq_of_toInt? (isWhole : toInt? value = some whole) (isWhole' : toInt? value' = some whole)
    (small : whole.natAbs < 2 ^ 53) : (value == value') = true :=
  (denotes_of_toInt? isWhole small).beq (denotes_of_toInt? isWhole' small)

/-! ### Negation and subtraction -/

theorem neg_apply (sign : Sign) (number : Int) : (-sign).apply number = -sign.apply number := by
  cases sign with
  | negative => exact (Int.neg_neg number).symm
  | positive => rfl

theorem Denotes.neg (denotes : Denotes unpacked whole) : Denotes unpacked.neg (-whole) := by
  cases denotes with
  | zero sign => exact .zero _
  | finite sign some small =>
      rw [← neg_apply]
      exact .finite _ some small

theorem toInt?_neg (isWhole : toInt? value = some whole) (small : whole.natAbs < 2 ^ 53) :
    toInt? (-value) = some (-whole) :=
  (denotes_of_toInt? isWhole small).neg.toInt?

/-- An integer with zeros behind it is rounded to the integer. -/
theorem denotes_normalize (small : whole.natAbs < 2 ^ 53) (places : Nat) :
    Denotes (UnpackedFloat.normalize .binary64 (whole * 2 ^ places) (-places) .positive) whole := by
  by_cases none : whole = 0
  · rw [none, Int.zero_mul]
    exact .zero .positive
  · have some : whole.natAbs ≠ 0 := Int.natAbs_ne_zero.2 none
    have digits : 0 < whole.natAbs * 2 ^ places :=
      Nat.mul_pos (Nat.pos_of_ne_zero some) (Nat.two_pow_pos places)
    have scaled : ((whole.natAbs * 2 ^ places : Nat) : Int) = whole.natAbs * 2 ^ places := by
      push_cast
      rfl
    unfold UnpackedFloat.normalize
    rcases whole.natAbs_eq with above | below
    · have mantissa : whole * 2 ^ places = (whole.natAbs * 2 ^ places : Nat) := by
        rw [scaled, ← above]
      rw [mantissa, Int.compare_eq_gt.2 (by omega)]
      dsimp only
      rw [Int.toNat_natCast, round_eq some small]
      have denotes := Denotes.finite .positive some small
      rwa [show Sign.positive.apply whole.natAbs = whole from above.symm] at denotes
    · have mantissa : whole * 2 ^ places = -(whole.natAbs * 2 ^ places : Nat) := by
        rw [scaled, ← Int.neg_mul, ← below]
      rw [mantissa, Int.compare_eq_lt.2 (by omega)]
      dsimp only
      rw [Int.neg_neg, Int.toNat_natCast, round_eq some small]
      have denotes := Denotes.finite .negative some small
      rwa [show Sign.negative.apply whole.natAbs = whole from below.symm] at denotes

/-- Two mantissas are brought to one place, and are multiples of the integers then. -/
theorem decreaseExponent_whole (sign : Sign) {number places : Nat} (digits : number.log2 ≤ 52)
    (behind : 52 - number.log2 ≤ places) :
    sign.apply (decreaseExponent (number * 2 ^ (52 - number.log2)) ((number.log2 : Int) - 52)
      (-places)).1 = sign.apply number * 2 ^ places := by
  have amount : ((number.log2 : Int) - 52 - -places).toNat = places - (52 - number.log2) := by omega
  rw [decreaseExponent, amount, Nat.shiftLeft_eq, Nat.mul_assoc, ← Nat.pow_add,
    Nat.add_sub_of_le behind]
  cases sign <;> simp [Sign.apply]

theorem Denotes.sub (denotes : Denotes unpacked whole) (denotes' : Denotes unpacked' whole')
    (small : (whole - whole').natAbs < 2 ^ 53) :
    Denotes (UnpackedFloat.sub .binary64 unpacked unpacked') (whole - whole') := by
  cases denotes with
  | zero sign =>
      cases denotes' with
      | zero sign' => cases sign <;> cases sign' <;> exact .zero _
      | finite sign' some' small' =>
          rw [Int.zero_sub, ← neg_apply]
          exact .finite _ some' small'
  | @finite sign number some digits =>
      cases denotes' with
      | zero sign' =>
          rw [Int.sub_zero]
          exact .finite sign some digits
      | @finite sign' number' some' digits' =>
          have least : min ((number.log2 : Int) - 52) ((number'.log2 : Int) - 52) =
              -(52 - min number.log2 number'.log2 : Nat) := by
            have := (isNormal_of_lt some digits).2
            have := (isNormal_of_lt some' digits').2
            omega
          unfold UnpackedFloat.sub
          dsimp only
          rw [least, decreaseExponent_whole sign (isNormal_of_lt some digits).2 (by omega),
            decreaseExponent_whole sign' (isNormal_of_lt some' digits').2 (by omega),
            ← Int.sub_mul]
          exact denotes_normalize small _

theorem toInt?_sub (isWhole : toInt? value = some whole) (isWhole' : toInt? value' = some whole')
    (small : whole.natAbs < 2 ^ 53) (small' : whole'.natAbs < 2 ^ 53)
    (near : (whole - whole').natAbs < 2 ^ 53) :
    toInt? (value - value') = some (whole - whole') :=
  ((denotes_of_toInt? isWhole small).sub (denotes_of_toInt? isWhole' small') near).toInt?

end PointFree.Decimal
