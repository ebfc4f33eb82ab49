/-
This file says which doubles carry no minus: neither negative numbers do nor a
zero with a minus. Sums, products and quotients of doubles without a minus carry
none, however they are rounded, and neither does what is left of one when no more
than one is taken off it. A double of this kind that is below one gives, rounded
to four places, one of the numbers of ten-thousandths from zero to one. Scores are
made in this way, so the doubles that can appear in a report as a score are known
one by one and a score never shows a minus. Signs are followed on unpacked
numbers, where each operation computes the sign of its result apart from the rest.
-/

import MigrationGuard.Proofs.Decimal.Doubles

namespace MigrationGuard.Decimal

open Float.Model Float.Model.UnpackedFloat

/-! ### Unpacked doubles without a minus -/

/-- The number carries no minus. What is not a number carries no sign. -/
def HasNoMinus : UnpackedFloat → Prop
  | .notANumber => True
  | .infinity sign => sign = .positive
  | .zero sign => sign = .positive
  | .finite sign .. => sign = .positive

theorem hasNoMinus_roundWithAccuracy (format : Format) (mantissa : ℕ) (scale : ℤ)
    (accuracy : Accuracy) :
    HasNoMinus (roundWithAccuracy format .positive mantissa scale accuracy) := by
  unfold roundWithAccuracy
  dsimp only
  generalize shiftToTargetExponent format _ _ .exact = shifted
  by_cases none : shifted.1.mantissa = 0
  · rw [dif_pos none]
    rfl
  · rw [dif_neg none]
    rfl

theorem hasNoMinus_normalize (format : Format) {mantissa : ℤ} (notNegative : 0 ≤ mantissa)
    (scale : ℤ) : HasNoMinus (UnpackedFloat.normalize format mantissa scale .positive) := by
  unfold UnpackedFloat.normalize
  split
  · rename_i below
    exact absurd (compare_lt_iff_lt.mp below) notNegative.not_gt
  · rfl
  · exact hasNoMinus_roundWithAccuracy _ _ _ _

section
variable {left right : UnpackedFloat} (leftNone : HasNoMinus left) (rightNone : HasNoMinus right)
include leftNone rightNone

theorem HasNoMinus.add (format : Format) : HasNoMinus (UnpackedFloat.add format left right) := by
  cases left with
  | notANumber => trivial
  | infinity sign =>
    obtain rfl := leftNone
    cases right with
    | infinity other =>
      obtain rfl := rightNone
      rfl
    | notANumber => trivial
    | _ => rfl
  | zero sign =>
    obtain rfl := leftNone
    cases right with
    | zero other =>
      obtain rfl := rightNone
      rfl
    | _ => exact rightNone
  | finite sign mantissa exponent =>
    obtain rfl := leftNone
    cases right with
    | finite other =>
      obtain rfl := rightNone
      refine hasNoMinus_normalize format ?_ _
      exact Int.add_nonneg (Int.natCast_nonneg _) (Int.natCast_nonneg _)
    | zero => rfl
    | _ => exact rightNone

theorem HasNoMinus.mul (format : Format) : HasNoMinus (UnpackedFloat.mul format left right) := by
  cases left <;> cases right
  case finite.finite =>
    obtain rfl := leftNone
    obtain rfl := rightNone
    exact hasNoMinus_roundWithAccuracy _ _ _ _
  all_goals first
    | trivial
    | (obtain rfl := leftNone
       obtain rfl := rightNone
       rfl)

theorem HasNoMinus.div (format : Format) : HasNoMinus (UnpackedFloat.div format left right) := by
  cases left <;> cases right
  case finite.finite =>
    obtain rfl := leftNone
    obtain rfl := rightNone
    exact hasNoMinus_roundWithAccuracy _ _ _ _
  all_goals first
    | trivial
    | (obtain rfl := leftNone
       obtain rfl := rightNone
       rfl)

end

/-! ### Doubles without a minus -/

/-- The double carries no minus, which rules out a zero with a minus as well. -/
def IsUnsigned (value : Float) : Prop :=
  HasNoMinus value.toModel.unpack

/-- Without a minus the bit of the sign is not set. -/
theorem HasNoMinus.toNat_pack_lt {value : UnpackedFloat} (none : HasNoMinus value) :
    (UnpackedFloat.pack Format.binary64 value).toNat < 2 ^ 63 := by
  cases value with
  | notANumber => decide
  | infinity =>
    obtain rfl := none
    decide
  | zero =>
    obtain rfl := none
    decide
  | finite sign mantissa exponent =>
    obtain rfl := none
    have least : (Sign.positive.toBitVec).toNat = 0 := rfl
    unfold UnpackedFloat.pack
    dsimp only
    split_ifs
    · decide
    all_goals
      rw [toNat_packComponents, least]
      omega

theorem hasNoMinus_unpack {bits : BitVec 64} (below : bits.toNat < 2 ^ 63) :
    HasNoMinus (UnpackedFloat.unpack Format.binary64 bits) := by
  have sign : Sign.ofBitVec (@unpackSign Format.binary64 bits) = .positive := by
    rw [signOf_unpackSign, Nat.div_eq_of_lt below]
    rfl
  unfold UnpackedFloat.unpack
  dsimp only
  rw [sign]
  by_cases top : @unpackExponent Format.binary64 bits = -1#11
  · rw [if_pos top]
    split
    · rfl
    · trivial
  · rw [if_neg top]
    by_cases low : @unpackExponent Format.binary64 bits = 0#11
    · rw [if_pos low]
      by_cases none : @unpackMantissa Format.binary64 bits = 0#52
      · rw [dif_pos none]
        rfl
      · rw [dif_neg none]
        rfl
    · rw [if_neg low]
      rfl

theorem isUnsigned_pack {value : UnpackedFloat} (none : HasNoMinus value) :
    IsUnsigned (.ofModel (.pack value)) :=
  hasNoMinus_unpack none.toNat_pack_lt

section
variable {left right : Float} (leftUnsigned : IsUnsigned left) (rightUnsigned : IsUnsigned right)
include leftUnsigned rightUnsigned

theorem IsUnsigned.add : IsUnsigned (left + right) :=
  isUnsigned_pack (HasNoMinus.add leftUnsigned rightUnsigned Format.binary64)

theorem IsUnsigned.mul : IsUnsigned (left * right) :=
  isUnsigned_pack (HasNoMinus.mul leftUnsigned rightUnsigned Format.binary64)

theorem IsUnsigned.div : IsUnsigned (left / right) :=
  isUnsigned_pack (HasNoMinus.div leftUnsigned rightUnsigned Format.binary64)

theorem IsUnsigned.smaller : IsUnsigned (Arithmetic.smaller left right) := by
  unfold Arithmetic.smaller
  split <;> assumption

end

theorem isUnsigned_toFloat (whole : UInt64) : IsUnsigned whole.toFloat :=
  isUnsigned_pack (hasNoMinus_normalize Format.binary64 (Int.natCast_nonneg _) 0)

theorem hasNoMinus_ofScientific (digits : ℕ) (scale : ℤ) :
    HasNoMinus (UnpackedFloat.ofScientific Format.binary64 digits scale) := by
  unfold UnpackedFloat.ofScientific
  by_cases none : digits = 0
  · rw [dif_pos none]
    rfl
  · rw [dif_neg none]
    refine iteInduction (fun _ => rfl) fun _ => iteInduction (fun _ => rfl) fun _ =>
      iteInduction (fun _ => ?_) fun _ => ?_
    · refine HasNoMinus.mul ?_ ?_ _ <;> rfl
    · refine HasNoMinus.div ?_ ?_ _ <;> rfl

theorem isUnsigned_powerOfTen {places : ℕ}
    (bound : places < Float.exactlyRepresentablePowersOfTen.size) :
    IsUnsigned Float.exactlyRepresentablePowersOfTen[places] := by
  obtain ⟨_, _, _, power, -⟩ := unpack_powerOfTen bound
  rw [IsUnsigned, power]
  rfl

/-- A decimal that is read without a sign carries no minus, also if it is read as zero. -/
theorem isUnsigned_ofScientific (digits : ℕ) (down : Bool) (places : ℕ) :
    IsUnsigned (Float.ofScientific digits down places) := by
  unfold Float.ofScientific
  by_cases quick : digits < 2 ^ 53 ∧ places ≤ 22
  · have power := isUnsigned_powerOfTen (Nat.lt_succ_of_le quick.2)
    rw [dif_pos quick]
    dsimp only
    split
    · exact (isUnsigned_toFloat _).div power
    · exact (isUnsigned_toFloat _).mul power
  · rw [dif_neg quick]
    exact isUnsigned_pack (hasNoMinus_ofScientific digits _)

theorem isUnsigned_count (whole : ℕ) : IsUnsigned (Arithmetic.count whole) :=
  isUnsigned_ofScientific whole false 0

theorem isUnsigned_decimal (digits places : ℕ) : IsUnsigned (Arithmetic.decimal digits places) :=
  isUnsigned_ofScientific digits true places

/-! ### Finite doubles -/

/-- What is unpacked of a double is a double, and packing it gives the double back. -/
theorem isDouble_unpack {value : Float} {sign : Sign} {significand : ℕ} {exponent : ℤ}
    {pos : 0 < significand}
    (unpacked : value.toModel.unpack = .finite sign significand exponent pos) :
    IsDouble significand exponent ∧ exponent ≤ 971 ∧
      value = .ofModel (.pack (.finite sign significand exponent pos)) := by
  have finite : value.isFinite := by
    show value.toModel.unpack.isFinite = true
    rw [unpacked]
    rfl
  obtain ⟨negative, read⟩ | ⟨negative, magnitude, read⟩ := (isFinite_iff value).mp finite
  · have zero : ∃ sign, value = .ofModel (.pack (.zero sign)) := by
      rw [← eq_of_readDouble_zero read]
      cases negative
      · exact ⟨.positive, by decide +kernel⟩
      · exact ⟨.negative, by decide +kernel⟩
    obtain ⟨sign, rfl⟩ := zero
    cases sign <;> cases unpacked
  · obtain ⟨double, small, -⟩ := isDouble_of_read read
    have same := unpacked.symm.trans (unpack_of_read read double.pos)
    obtain ⟨rfl, rfl, rfl⟩ := UnpackedFloat.finite.inj same
    exact ⟨double, small, (eq_of_readDouble_finite read double.pos).symm⟩

theorem lt_iff_unpacked (left right : Float) : left < right ↔
    UnpackedFloat.lt left.toModel.unpack right.toModel.unpack = true :=
  decide_eq_true_iff

/-- Positive doubles are ordered by their numbers, whatever their exponents are. -/
theorem lt_iff_of_unpack {left right : Float} {leftSignificand rightSignificand : ℕ}
    {leftExponent rightExponent : ℤ} {leftPos : 0 < leftSignificand}
    {rightPos : 0 < rightSignificand}
    (leftUnpacked :
      left.toModel.unpack = .finite .positive leftSignificand leftExponent leftPos)
    (rightUnpacked :
      right.toModel.unpack = .finite .positive rightSignificand rightExponent rightPos) :
    left < right ↔
      (leftSignificand : ℚ) * 2 ^ leftExponent < rightSignificand * 2 ^ rightExponent := by
  rw [lt_iff_unpacked, UnpackedFloat.lt, leftUnpacked, rightUnpacked, ← compare_lt_iff_lt,
    ← (isDouble_unpack leftUnpacked).1.compare_eq (isDouble_unpack rightUnpacked).1]
  exact beq_iff_eq.trans (Option.some.injEq _ _).to_iff

theorem unpack_one : (Float.ofNat 1).toModel.unpack =
    .finite .positive (2 ^ 52) (-52) (Nat.two_pow_pos 52) := by
  have one : Float.ofNat 1 =
      .ofModel (.pack (.finite .positive (2 ^ 52) (-52) (Nat.two_pow_pos 52))) := by
    decide +kernel
  rw [one]
  rfl

/-! ### What is no number -/

section
variable {value : Float} (none : value.isNaN)
include none

theorem unpack_of_isNaN : value.toModel.unpack = .notANumber := by
  change value.toModel.unpack.isNaN = true at none
  cases unpacked : value.toModel.unpack <;> rw [unpacked] at none <;> first | rfl | cases none

/-- What is no number stands in no order with anything, so a comparison with it fails. -/
theorem not_ordered_of_isNaN (other : Float) : ¬ value ≤ other ∧ ¬ other < value := by
  have unfolded : value ≤ other ↔ UnpackedFloat.le value.toModel.unpack
      other.toModel.unpack = true := decide_eq_true_iff
  rw [unfolded, lt_iff_unpacked, unpack_of_isNaN none]
  cases other.toModel.unpack <;> exact ⟨Bool.false_ne_true, Bool.false_ne_true⟩

end

/-! ### Differences from one -/

/-- What is taken off one leaves no minus unless it is more than one. -/
theorem isUnsigned_one_sub {value : Float} (notMore : ¬ Float.ofNat 1 < value) :
    IsUnsigned (Float.ofNat 1 - value) := by
  cases unpacked : value.toModel.unpack with
  | notANumber =>
    rw [sub_unpacked, unpack_one, unpacked]
    exact isUnsigned_pack trivial
  | infinity sign =>
    cases sign with
    | negative =>
      rw [sub_unpacked, unpack_one, unpacked]
      exact isUnsigned_pack rfl
    | positive =>
      rw [lt_iff_unpacked, unpacked, unpack_one] at notMore
      exact absurd rfl notMore
  | zero =>
    rw [sub_unpacked, unpack_one, unpacked]
    exact isUnsigned_pack rfl
  | finite sign significand exponent pos =>
    obtain ⟨mantissa, scale, difference, exact⟩ := exists_sub_eq unpack_one unpacked
    have one : ((Sign.positive.apply (2 ^ 52 : ℕ) : ℤ) : ℚ) * 2 ^ (-52 : ℤ) = 1 := by
      show (((2 ^ 52 : ℕ) : ℤ) : ℚ) * 2 ^ (-52 : ℤ) = 1
      norm_num
    have most : ((sign.apply significand : ℤ) : ℚ) * 2 ^ exponent ≤ 1 := by
      cases sign with
      | negative =>
        show ((-(significand : ℤ) : ℤ) : ℚ) * 2 ^ exponent ≤ 1
        rw [Int.cast_neg, Int.cast_natCast, neg_mul]
        exact (neg_nonpos.mpr (by positivity)).trans zero_le_one
      | positive =>
        rw [lt_iff_of_unpack unpack_one unpacked, not_lt] at notMore
        exact notMore.trans_eq one
    have notNegative : 0 ≤ (mantissa : ℚ) * 2 ^ scale := by
      rw [exact, one]
      exact sub_nonneg.mpr most
    rw [difference]
    refine isUnsigned_pack (hasNoMinus_normalize _ ?_ _)
    exact_mod_cast nonneg_of_mul_nonneg_left notNegative (by positivity)

/-! ### Numbers of ten-thousandths -/

section
variable {significand : ℕ} {exponent : ℤ} (double : IsDouble significand exponent)
  (low : (significand : ℚ) * 2 ^ exponent < 1 / 2)
include double low

theorem exponent_neg_of_lt_half : exponent < 0 := by
  have some : (1 : ℚ) ≤ significand := by exact_mod_cast double.pos
  by_contra notNegative
  have unit : (1 : ℚ) ≤ 2 ^ exponent := one_le_zpow₀ (by norm_num) (by omega)
  nlinarith

/-- A positive number below a half has no whole part, so nothing is left when it is cut. -/
theorem roundToInt_of_lt_half : roundToInt .positive significand exponent = 0 := by
  have fraction := exponent_neg_of_lt_half double low
  have stands : StandsFor (ExtendedMantissa.ofMantissaAndAccuracy significand .exact)
      (significand : ℚ) := rfl
  have part := (stands.shiftRight (-exponent).toNat).whole.1
  have scaled : (significand : ℚ) / 2 ^ (-exponent).toNat = significand * 2 ^ exponent := by
    rw [← zpow_natCast, Int.toNat_of_nonneg (by omega), zpow_neg, div_inv_eq_mul]
  rw [scaled] at part
  have none : (ExtendedMantissa.ofMantissaAndAccuracy significand .exact >>>
      (-exponent).toNat).mantissa = 0 := by
    have below : ((ExtendedMantissa.ofMantissaAndAccuracy significand .exact >>>
      (-exponent).toNat).mantissa : ℚ) < 1 := by linarith
    exact Nat.lt_one_iff.mp (by exact_mod_cast below)
  rw [roundToInt, decreaseExponent, Int.toNat_eq_zero.mpr (by omega), Nat.shiftLeft_zero]
  show ((ExtendedMantissa.ofMantissaAndAccuracy significand .exact >>>
    (0 - (exponent - (0 : ℕ))).toNat).mantissa : ℤ) = _
  rw [Nat.cast_zero, sub_zero, zero_sub, none]
  rfl

/-- A positive double below a half is rounded to zero, however small it is. -/
theorem nearestDouble_of_lt_half :
    nearestDouble (.ofModel (.pack (.finite .positive significand exponent double.pos))) =
      Float.ofNat 0 := by
  have fraction := exponent_neg_of_lt_half double low
  have unpacked := unpack_pack double (by omega) false
  obtain ⟨value, isValue⟩ : ∃ value, value =
    Float.ofModel (.pack (.finite .positive significand exponent double.pos)) := ⟨_, rfl⟩
  have read : value.toModel.unpack = .finite .positive significand exponent double.pos := by
    rw [isValue]
    exact unpacked
  have abs : value.abs = value := by
    rw [abs_unpacked, read, isValue]
    rfl
  have inside : value < 4503599627370496.0 := by
    obtain ⟨limitSignificand, limitExponent, full, isLimit, number⟩ :=
      holds_ofNat (show 0 < 2 ^ 52 by norm_num) (by norm_num)
    rw [wholeLimit_eq, isLimit, lt_iff_of_unpack read full.unpack_toFloat, number]
    exact low.trans (by norm_num)
  have whole : value.toUInt64 = 0 := by
    have unfolded : value.toUInt64 = UnpackedFloat.toUInt64 value.toModel.unpack := rfl
    rw [unfolded, read]
    show UInt64.ofNatClamp (roundToInt .positive significand exponent).toNat = 0
    rw [roundToInt_of_lt_half double low]
    rfl
  have zero : (0 : UInt64).toFloat = 0.0 :=
    (toFloat_toUInt64 (show 0 < 2 ^ 53 by norm_num)).trans ofNat_zero
  have rest : value - 0.0 = value := by
    rw [sub_unpacked, read, unpack_zero, isValue]
    rfl
  have half : value < 0.5 := by
    obtain ⟨halfSignificand, halfExponent, full, isHalf, number⟩ := holds_half
    rw [isHalf, lt_iff_of_unpack read full.unpack_toFloat, number]
    exact low
  have positive : (value.toBits >>> 63 == 1) = false := by
    have none : HasNoMinus (.finite .positive significand exponent double.pos) := rfl
    exact signBit_of_lt (isValue ▸ none.toNat_pack_lt)
  rw [← isValue, nearestDouble_of_part abs inside positive whole, zero, rest, if_pos half,
    ofNat_zero]

end

section
variable {value : Float} {significand : ℕ} {exponent : ℤ} {pos : 0 < significand}
  (unpacked : value.toModel.unpack = .finite .positive significand exponent pos)
include unpacked

/-- A positive double that is not very small uses all bits, so the rational lemmas apply to it. -/
theorem holds_of_unpack (least : (2 : ℚ) ^ (-200 : ℤ) ≤ significand * 2 ^ exponent) :
    Holds value (significand * 2 ^ exponent) := by
  obtain ⟨double, small, same⟩ := isDouble_unpack unpacked
  have low : (2 : ℚ) ^ (-200 : ℤ) < 2 ^ (exponent + 53) := by
    refine least.trans_lt ?_
    rw [zpow_add₀ (by norm_num), mul_comm]
    have short : (significand : ℚ) < 2 ^ 53 := by exact_mod_cast double.small
    exact mul_lt_mul_of_pos_left (by exact_mod_cast short) (by positivity)
  have place := (zpow_lt_zpow_iff_right₀ (by norm_num)).mp low
  exact ⟨significand, exponent,
    ⟨double.full.resolve_left (by omega), double.small, double.lowest, small⟩, same, rfl⟩

/-- A positive double below one is rounded to a number of ten-thousandths. -/
theorem nearestDouble_tenThousandths (below : (significand : ℚ) * 2 ^ exponent < 1) :
    ∃ whole ≤ 10000, nearestDouble (value * Float.ofNat 10000) = Float.ofNat whole := by
  have factorHolds := holds_ofNat (show 0 < 10000 by norm_num) (by norm_num)
  rcases le_or_gt ((2 : ℚ) ^ (-200 : ℤ)) (significand * 2 ^ exponent) with moderate | tiny
  · have holds := holds_of_unpack unpacked moderate
    obtain ⟨number, product, near⟩ := holds.mul factorHolds
      ⟨moderate.trans (le_mul_of_one_le_right holds.pos.le (by norm_num)), by
        have high : (1 : ℚ) * 10000 < 2 ^ (200 : ℤ) := by norm_num
        push_cast
        linarith⟩
    have above := near.above
    push_cast at above
    have most : number < 10000 + 1 / 2 := by linarith
    refine ⟨⌊number + 1 / 2⌋₊, ?_, product.nearestDouble_eq (most.trans (by norm_num))⟩
    have notMore : ⌊number + 1 / 2⌋₊ < 10001 := by
      refine (Nat.floor_lt (by have := product.pos; positivity)).mpr ?_
      push_cast
      linarith
    omega
  · -- The product may not use all bits, but it is far below a half.
    obtain ⟨double, small, -⟩ := isDouble_unpack unpacked
    obtain ⟨factor, factorExponent, factorFull, isFactor, factorNumber⟩ := factorHolds
    have some : (1 : ℚ) ≤ significand := by exact_mod_cast pos
    have least : (2 : ℚ) ^ (-1074 : ℤ) ≤ significand * 2 ^ exponent * (10000 : ℕ) := by
      calc (2 : ℚ) ^ (-1074 : ℤ) ≤ 2 ^ exponent :=
            zpow_le_zpow_right₀ (by norm_num) double.lowest
        _ ≤ significand * 2 ^ exponent := le_mul_of_one_le_left (by positivity) some
        _ ≤ significand * 2 ^ exponent * (10000 : ℕ) :=
            le_mul_of_one_le_right (by positivity) (by norm_num)
    obtain ⟨product, place, isDouble, rounds⟩ := exists_roundsTo_double least
    have long : 52 ≤ (significand * factor).log2 := by
      refine (Nat.le_log2 (Nat.mul_pos pos factorFull.isDouble.pos).ne').mpr ?_
      exact factorFull.long.trans (Nat.le_mul_of_pos_left _ pos)
    have same : value * Float.ofNat 10000 =
        .ofModel (.pack (.finite .positive product place isDouble.pos)) := by
      rw [← factorNumber] at rounds
      rw [mul_unpacked, unpacked, isFactor, factorFull.unpack_toFloat,
        mul_of_roundsTo isDouble pos factorFull.isDouble.pos rounds long]
      rfl
    refine ⟨0, by norm_num, ?_⟩
    rw [same]
    refine nearestDouble_of_lt_half isDouble ?_
    have unit : (0 : ℚ) < 2 ^ place := by positivity
    have atLeastOne : (1 : ℚ) ≤ product := by exact_mod_cast isDouble.pos
    have bound : (significand : ℚ) * 2 ^ exponent * 10000 < 1 / 4 :=
      (mul_lt_mul_of_pos_right tiny (by norm_num)).trans (by norm_num)
    have upper := rounds.above
    push_cast at upper
    calc (product : ℚ) * 2 ^ place ≤ 2 * (((product : ℚ) - 1 / 2) * 2 ^ place) := by
          rw [← mul_assoc]
          exact mul_le_mul_of_nonneg_right (by linarith) unit.le
      _ < 1 / 2 := by linarith

end

/-- A double without a minus that is below one, rounded to four places, is a number of
ten-thousandths. -/
theorem exists_tenThousandths {value : Float} (unsigned : IsUnsigned value)
    (below : value < Float.ofNat 1) :
    ∃ whole ≤ 10000, nearestDouble (value * Float.ofNat 10000) = Float.ofNat whole := by
  have order := below
  rw [lt_iff_unpacked, unpack_one] at order
  unfold IsUnsigned at unsigned
  cases unpacked : value.toModel.unpack with
  | notANumber =>
    rw [unpacked] at order
    cases order
  | infinity =>
    rw [unpacked] at order unsigned
    obtain rfl := unsigned
    cases order
  | zero =>
    rw [unpacked] at unsigned
    obtain rfl := unsigned
    obtain ⟨factor, factorExponent, factorFull, isFactor, -⟩ :=
      holds_ofNat (show 0 < 10000 by norm_num) (by norm_num)
    refine ⟨0, by norm_num, ?_⟩
    rw [mul_unpacked, unpacked, isFactor, factorFull.unpack_toFloat]
    show nearestDouble (.ofModel (.pack (.zero .positive))) = _
    rw [pack_zero, nearestDouble_zero]
  | finite =>
    rw [unpacked] at unsigned
    obtain rfl := unsigned
    refine nearestDouble_tenThousandths unpacked ?_
    rw [lt_iff_of_unpack unpacked unpack_one] at below
    exact below.trans_eq (by norm_num)

end MigrationGuard.Decimal
