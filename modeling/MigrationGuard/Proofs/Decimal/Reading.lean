/-
This file shows that a decimal is read as the double that it rounds to. A numeral
has digits and a power of ten. Small decimals are computed from two doubles that
are exact, the digits and a power of ten, with one product or quotient; all others
are computed from whole numbers of any length. Both ways round once, so both give
the double among whose reals the numeral lies. The proof first says that a product
and a quotient have enough bits before they are rounded and that what is cut off
still tells the side of the middle, and then follows the cases of the reading. The
main result joins it with the reading of fields: a numeral that rounds to a double
is read as just this double, with its sign.
-/

import Mathlib.Tactic.FieldSimp
import MigrationGuard.Decimal.Parse
import MigrationGuard.Proofs.Decimal.Fields

namespace MigrationGuard.Decimal

open Float.Model Float.Model.UnpackedFloat

/-! ### Products and quotients -/

section
variable {significand : ℕ} {exponent : ℤ} (double : IsDouble significand exponent)
  {leftSign rightSign : Sign} {left right : ℕ} {leftScale rightScale : ℤ} (leftPos : 0 < left)
  (rightPos : 0 < right)
include double

/-- A product with enough bits is rounded once, to the double that the exact product rounds to. -/
theorem mul_of_roundsTo
    (rounds : RoundsTo (left * 2 ^ leftScale * (right * 2 ^ rightScale)) significand exponent)
    (long : 52 ≤ (left * right).log2) :
    UnpackedFloat.mul Format.binary64 (.finite leftSign left leftScale leftPos)
        (.finite rightSign right rightScale rightPos) =
      .finite (leftSign * rightSign) significand exponent double.pos := by
  have stands : StandsFor (ExtendedMantissa.ofMantissaAndAccuracy (left * right) .exact)
      ((left * right : ℕ) : ℚ) := rfl
  refine rounds.roundWithAccuracy double stands ?_ ?_
  · rw [zpow_add₀ (by norm_num)]
    push_cast
    ring
  · rw [targetExponent_eq]
    omega

omit double in
/-- The rest of a division tells on which side of the middle a quotient lies. -/
theorem standsFor_quotient (numerator : ℕ) {denominator : ℕ} (pos : 0 < denominator) :
    StandsFor (ExtendedMantissa.ofMantissaAndAccuracy (numerator / denominator)
      (accuracyOfFraction (numerator % denominator) denominator))
      ((numerator : ℚ) / denominator) := by
  have positive : (0 : ℚ) < denominator := by exact_mod_cast pos
  have split : (numerator : ℚ) / denominator =
      (numerator / denominator : ℕ) + ((numerator % denominator : ℕ) : ℚ) / denominator := by
    have whole : (numerator : ℚ) = denominator * (numerator / denominator : ℕ) +
        (numerator % denominator : ℕ) := by
      exact_mod_cast (Nat.div_add_mod numerator denominator).symm
    field_simp
    linarith
  rw [split]
  unfold accuracyOfFraction
  have rest : ((numerator % denominator : ℕ) : ℚ) < denominator := by
    exact_mod_cast Nat.mod_lt numerator pos
  generalize numerator % denominator = part at rest ⊢
  split_ifs with none
  · rw [none, Nat.cast_zero, zero_div, add_zero]
    rfl
  have some : (0 : ℚ) < part := by exact_mod_cast Nat.pos_of_ne_zero none
  cases side : compare (2 * part) denominator with
  | lt =>
    have less : 2 * (part : ℚ) < denominator := by exact_mod_cast Nat.compare_eq_lt.mp side
    have half : (part : ℚ) / denominator < 1 / 2 := by
      rw [div_lt_iff₀ positive]
      linarith
    have above := div_pos some positive
    constructor <;> dsimp only [ExtendedMantissa.ofMantissaAndAccuracy] <;> linarith
  | eq =>
    have same : 2 * (part : ℚ) = denominator := by exact_mod_cast Nat.compare_eq_eq.mp side
    have half : (part : ℚ) / denominator = 1 / 2 := by
      rw [div_eq_iff positive.ne']
      linarith
    rw [half]
    rfl
  | gt =>
    have more : (denominator : ℚ) < 2 * part := by exact_mod_cast Nat.compare_eq_gt.mp side
    have half : 1 / 2 < (part : ℚ) / denominator := by
      rw [lt_div_iff₀ positive]
      linarith
    have whole : (part : ℚ) / denominator < 1 := (div_lt_one positive).mpr rest
    constructor <;> dsimp only [ExtendedMantissa.ofMantissaAndAccuracy] <;> linarith

omit double in
include leftPos rightPos in
/-- A quotient of whole numbers is computed with enough bits, so rounding does not need what was cut
off. -/
theorem divCore_enough (format : Format) :
    let core := divCore format left leftScale right rightScale
    core.2.1 ≤ format.targetExponent (totalExponent core.1 core.2.1) := by
  unfold divCore
  have place : format.targetExponent
      (totalExponent left leftScale - totalExponent right rightScale) =
        max (left.log2 + leftScale - (right.log2 + rightScale) - format.mantissaBits)
          format.minExponent := by
    rw [Format.targetExponent, totalExponent, totalExponent]
    omega
  have bits : format.mantissaBits = 1 + format.mantissaBitsWithoutImplicit := rfl
  dsimp only
  rw [targetExponent_total, place, bits]
  generalize format.mantissaBitsWithoutImplicit = bits
  generalize format.minExponent = least
  generalize chosen : min (leftScale - rightScale)
    (max (left.log2 + leftScale - (right.log2 + rightScale) - ((1 + bits : ℕ) : ℤ)) least) = scale
  by_cases low : scale ≤ least
  · omega
  have shift : 1 + bits + right.log2 ≤
      left.log2 + (leftScale - rightScale - scale).toNat := by omega
  generalize (leftScale - rightScale - scale).toNat = places at shift ⊢
  have long : 2 ^ bits ≤ left <<< places / right := by
    rw [Nat.le_div_iff_mul_le rightPos, Nat.shiftLeft_eq]
    calc 2 ^ bits * right ≤ 2 ^ bits * 2 ^ (right.log2 + 1) :=
          Nat.mul_le_mul_left _ Nat.lt_log2_self.le
      _ = 2 ^ (1 + bits + right.log2) := by rw [← pow_add]; congr 1; omega
      _ ≤ 2 ^ (left.log2 + places) := Nat.pow_le_pow_right (by decide) shift
      _ = 2 ^ left.log2 * 2 ^ places := pow_add _ _ _
      _ ≤ left * 2 ^ places := Nat.mul_le_mul_right _ (Nat.log2_self_le leftPos.ne')
  have full := (Nat.le_log2 ((Nat.two_pow_pos bits).trans_le long).ne').mpr long
  omega

omit double in
include rightPos in
/-- What is computed stands for the quotient: the rest of the division has not been forgotten. -/
theorem standsFor_divCore (format : Format) :
    let core := divCore format left leftScale right rightScale
    ∃ unit, StandsFor (ExtendedMantissa.ofMantissaAndAccuracy core.1 core.2.2) unit ∧
      unit * 2 ^ core.2.1 = left * 2 ^ leftScale / (right * 2 ^ rightScale) := by
  refine ⟨_, standsFor_quotient _ rightPos, ?_⟩
  unfold divCore
  dsimp only
  have below := min_le_left (leftScale - rightScale) (format.targetExponent
    (totalExponent left leftScale - totalExponent right rightScale))
  generalize min (leftScale - rightScale) (format.targetExponent
    (totalExponent left leftScale - totalExponent right rightScale)) = scale at below ⊢
  have shifted : ((left <<< (leftScale - rightScale - scale).toNat : ℕ) : ℚ) =
      left * 2 ^ (leftScale - rightScale - scale) := by
    rw [Nat.shiftLeft_eq, Nat.cast_mul, Nat.cast_pow, Nat.cast_ofNat, ← zpow_natCast,
      Int.toNat_of_nonneg (by omega)]
  have two : (2 : ℚ) ≠ 0 := by norm_num
  rw [shifted, zpow_sub₀ two, zpow_sub₀ two]
  field_simp

/-- A quotient is rounded once, to the double that the exact quotient rounds to. -/
theorem div_of_roundsTo
    (rounds : RoundsTo (left * 2 ^ leftScale / (right * 2 ^ rightScale)) significand exponent) :
    UnpackedFloat.div Format.binary64 (.finite leftSign left leftScale leftPos)
        (.finite rightSign right rightScale rightPos) =
      .finite (leftSign / rightSign) significand exponent double.pos := by
  obtain ⟨unit, stands, value⟩ :=
    @standsFor_divCore left right leftScale rightScale rightPos Format.binary64
  exact rounds.roundWithAccuracy double stands value
    (divCore_enough leftPos rightPos Format.binary64)

end

/-! ### Whole numbers and powers of ten -/

/-- A double rounds to itself, as it is no distance away from itself. -/
theorem roundsTo_self (significand : ℕ) (exponent : ℤ) :
    RoundsTo (significand * 2 ^ exponent) significand exponent := by
  have unit : (0 : ℚ) < 2 ^ exponent := by positivity
  refine ⟨?_, ?_, fun _ _ => ?_, ?_⟩
  · nlinarith
  · nlinarith
  · nlinarith
  · rintro (low | high)
    · nlinarith
    · nlinarith

/-- A small whole number is held by a double exactly. -/
theorem unpack_toFloat {whole : ℕ} (pos : 0 < whole) (small : whole < 2 ^ 53) :
    ∃ significand exponent, ∃ positive : 0 < significand,
      whole.toUInt64.toFloat.toModel.unpack = .finite .positive significand exponent positive ∧
        (significand : ℚ) * 2 ^ exponent = whole ∧ 2 ^ 52 ≤ significand := by
  have bits : whole.log2 ≤ 52 := by
    have := (Nat.log2_lt pos.ne').mpr small
    omega
  have least := Nat.log2_self_le pos.ne'
  have most : whole < 2 ^ (whole.log2 + 1) := Nat.lt_log2_self
  have long : 2 ^ 52 ≤ whole <<< (52 - whole.log2) := by
    rw [Nat.shiftLeft_eq]
    calc 2 ^ 52 = 2 ^ whole.log2 * 2 ^ (52 - whole.log2) := by rw [← pow_add]; congr 1; omega
      _ ≤ whole * 2 ^ (52 - whole.log2) := Nat.mul_le_mul_right _ least
  have short : whole <<< (52 - whole.log2) < 2 ^ 53 := by
    rw [Nat.shiftLeft_eq]
    calc whole * 2 ^ (52 - whole.log2) < 2 ^ (whole.log2 + 1) * 2 ^ (52 - whole.log2) :=
          Nat.mul_lt_mul_of_pos_right most (by positivity)
      _ = 2 ^ 53 := by rw [← pow_add]; congr 1; omega
  have double : IsDouble (whole <<< (52 - whole.log2)) (whole.log2 - 52) :=
    ⟨by omega, short, by omega, .inr long⟩
  have place : (whole.log2 : ℤ) - 52 = -((52 - whole.log2 : ℕ) : ℤ) := by omega
  have value : ((whole <<< (52 - whole.log2) : ℕ) : ℚ) * 2 ^ ((whole.log2 : ℤ) - 52) = whole := by
    rw [place, Nat.shiftLeft_eq, zpow_neg, zpow_natCast]
    push_cast
    field_simp
  refine ⟨whole <<< (52 - whole.log2), whole.log2 - 52, double.pos, ?_, value, long⟩
  have packed : whole.toUInt64.toFloat.toModel =
      .pack (.finite .positive (whole <<< (52 - whole.log2)) (whole.log2 - 52) double.pos) := by
    show Float.Model.pack (UnpackedFloat.ofNat Format.binary64 whole.toUInt64.toNat) = _
    have same : whole.toUInt64.toNat = whole := by
      rw [Nat.toUInt64, UInt64.toNat_ofNat']
      omega
    have order : compare (whole : ℤ) 0 = .gt := compare_gt_iff_gt.mpr (by omega)
    have start : Format.binary64.targetExponent (totalExponent whole 0) =
        -((52 - whole.log2 : ℕ) : ℤ) := by
      rw [targetExponent_eq]
      omega
    rw [same, UnpackedFloat.ofNat, UnpackedFloat.ofInt, UnpackedFloat.normalize, order]
    dsimp only
    rw [UnpackedFloat.round, Int.toNat_natCast, decreaseExponent, start, zero_sub, neg_neg,
      Int.toNat_natCast, zero_sub]
    have exact : StandsFor (ExtendedMantissa.ofMantissaAndAccuracy (whole <<< (52 - whole.log2))
      .exact) ((whole <<< (52 - whole.log2) : ℕ) : ℚ) := rfl
    refine congrArg Float.Model.pack ((roundsTo_self _ _).roundWithAccuracy double exact ?_ ?_)
    · rw [place]
    · rw [targetExponent_eq]
      have full := (Nat.le_log2 double.pos.ne').mpr long
      omega
  rw [packed]
  exact unpack_pack double (by omega) false

/-- The magnitude is a power of ten that uses all bits. This can be checked for each power that the
reading has in its table. -/
def Binary.isPowerOfTen (magnitude : Binary) (places : ℕ) : Bool :=
  magnitude.significand * 2 ^ magnitude.exponent.toNat ==
    10 ^ places * 2 ^ (-magnitude.exponent).toNat && 2 ^ 52 ≤ magnitude.significand

theorem read_powerOfTen : ∀ places : Fin 23,
    (match readDouble Float.exactlyRepresentablePowersOfTen[places] with
      | .finite false magnitude => magnitude.isPowerOfTen places
      | _ => false) = true := by
  decide +kernel

/-- The powers of ten that decimals are read with are exact, so one rounding remains. -/
theorem unpack_powerOfTen {places : ℕ}
    (bound : places < Float.exactlyRepresentablePowersOfTen.size) :
    ∃ significand exponent, ∃ positive : 0 < significand,
      Float.exactlyRepresentablePowersOfTen[places].toModel.unpack =
          .finite .positive significand exponent positive ∧
        (significand : ℚ) * 2 ^ exponent = 10 ^ places ∧ 2 ^ 52 ≤ significand := by
  have isPower : ∃ magnitude, readDouble Float.exactlyRepresentablePowersOfTen[places] =
      .finite false magnitude ∧ magnitude.isPowerOfTen places := by
    have known := read_powerOfTen ⟨places, bound⟩
    split at known
    · rename_i magnitude read
      exact ⟨magnitude, read, known⟩
    · exact absurd known Bool.false_ne_true
  obtain ⟨magnitude, read, known⟩ := isPower
  rw [Binary.isPowerOfTen, Bool.and_eq_true, beq_iff_eq, decide_eq_true_eq] at known
  obtain ⟨value, long⟩ := known
  have positive : 0 < magnitude.significand := by omega
  refine ⟨magnitude.significand, magnitude.exponent, positive, unpack_of_read read positive, ?_,
    long⟩
  have two : (2 : ℚ) ≠ 0 := by norm_num
  have split : magnitude.exponent =
      magnitude.exponent.toNat - ((-magnitude.exponent).toNat : ℤ) := by omega
  have value : (magnitude.significand : ℚ) * 2 ^ magnitude.exponent.toNat =
      10 ^ places * 2 ^ (-magnitude.exponent).toNat := by exact_mod_cast value
  rw [split, zpow_sub₀ two, zpow_natCast, zpow_natCast, ← mul_div_assoc, value,
    mul_div_assoc, div_self (by positivity), mul_one]

/-! ### Decimals -/

section
variable {digits : ℕ} (present : 0 < digits) {significand : ℕ} {exponent : ℤ}
  (double : IsDouble significand exponent) {places : ℕ}
include present double

omit present in
theorem ofModel_pack {unpacked : UnpackedFloat}
    (same : unpacked = .finite .positive significand exponent double.pos) :
    Float.ofModel (.pack unpacked) =
      .ofModel (.pack (.finite .positive significand exponent double.pos)) := by
  rw [same]

/-- A whole number is read as the double that it rounds to. -/
theorem ofScientific_whole (rounds : RoundsTo digits significand exponent) :
    Float.ofScientific digits false 0 =
      .ofModel (.pack (.finite .positive significand exponent double.pos)) := by
  unfold Float.ofScientific
  by_cases quick : digits < 2 ^ 53 ∧ 0 ≤ 22
  · rw [dif_pos quick, if_neg Bool.false_ne_true]
    obtain ⟨left, leftScale, leftPos, leftRead, leftValue, leftLong⟩ :=
      unpack_toFloat present quick.1
    obtain ⟨right, rightScale, rightPos, rightRead, rightValue, rightLong⟩ :=
      @unpack_powerOfTen 0 (by decide)
    refine ofModel_pack double ((congrArg₂ (UnpackedFloat.mul _) leftRead rightRead).trans
      (mul_of_roundsTo double leftPos rightPos ?_ ?_))
    · rwa [leftValue, rightValue, pow_zero, mul_one]
    · refine (Nat.le_log2 (by positivity)).mpr ?_
      nlinarith
  · rw [dif_neg quick, if_neg Bool.false_ne_true]
    refine ofModel_pack double ?_
    unfold UnpackedFloat.ofScientific
    rw [dif_neg present.ne', if_neg (by norm_num), if_neg (by norm_num), if_pos (by norm_num)]
    refine mul_of_roundsTo double _ _ ?_ ?_
    · have scaled : ((digits <<< Format.binary64.mantissaBits : ℕ) : ℚ) *
          2 ^ (-(Format.binary64.mantissaBits : ℤ)) = digits := by
        rw [Nat.shiftLeft_eq, zpow_neg, zpow_natCast]
        push_cast
        field_simp
      rw [scaled]
      simpa using rounds
    · refine (Nat.le_log2 (by simp [Nat.shiftLeft_eq, present.ne'])).mpr ?_
      rw [Nat.shiftLeft_eq]
      show 2 ^ 52 ≤ digits * 2 ^ 53 * 1
      omega

/-- A decimal with places behind the point is read as the double that it rounds to, if it is not
absurdly small. -/
theorem ofScientific_places (some : 0 < places) (bound : places ≤ 2 ^ 11 + digits.log2)
    (rounds : RoundsTo (digits / 10 ^ places) significand exponent) :
    Float.ofScientific digits true places =
      .ofModel (.pack (.finite .positive significand exponent double.pos)) := by
  unfold Float.ofScientific
  by_cases quick : digits < 2 ^ 53 ∧ places ≤ 22
  · rw [dif_pos quick, if_pos rfl]
    obtain ⟨left, leftScale, leftPos, leftRead, leftValue, leftLong⟩ :=
      unpack_toFloat present quick.1
    obtain ⟨right, rightScale, rightPos, rightRead, rightValue, rightLong⟩ :=
      @unpack_powerOfTen places (Nat.lt_succ_of_le quick.2)
    refine ofModel_pack double ((congrArg₂ (UnpackedFloat.div _) leftRead rightRead).trans
      (div_of_roundsTo double leftPos rightPos ?_))
    rwa [leftValue, rightValue]
  · rw [dif_neg quick, if_pos rfl]
    refine ofModel_pack double ?_
    unfold UnpackedFloat.ofScientific
    have minus : Int.negOfNat places = -(places : ℤ) := Int.negOfNat_eq
    have bits : Format.binary64.exponentBits = 11 := rfl
    rw [dif_neg present.ne', minus, bits, if_neg (by omega), if_neg (by omega), if_neg (by omega)]
    refine div_of_roundsTo double _ _ ?_
    simpa using rounds

end

/-! ### Numerals -/

/-- A power of ten bounds a number from above if it has more zeros than the number has digits. -/
theorem digitCount_le_iff {value count : ℕ} : digitCount value ≤ count ↔ value < 10 ^ count := by
  unfold digitCount
  obtain rfl | pos := Nat.eq_zero_or_pos value
  · simp
  rw [if_neg pos.ne']
  obtain rfl | some := Nat.eq_zero_or_pos count
  · have digits := @Nat.length_toDigits_pos 10 value
    omega
  · exact Nat.length_toDigits_le_iff (by decide) some

theorem digitCount_le_log2 (value : ℕ) : digitCount value ≤ value.log2 + 1 := by
  rw [digitCount_le_iff]
  exact Nat.lt_log2_self.trans_le (Nat.pow_le_pow_left (by decide) _)

/-- Ten is above the third power of two, which turns bounds in bits into bounds in digits. -/
theorem two_zpow_le_ten_zpow (places : ℕ) : (2 : ℚ) ^ (3 * places : ℤ) ≤ 10 ^ (places : ℤ) := by
  rw [zpow_mul, zpow_natCast, zpow_natCast]
  exact pow_le_pow_left₀ (by norm_num) (by norm_num) places

section
variable {digits : ℕ} {places : ℤ} {significand : ℕ} {exponent : ℤ}
  (double : IsDouble significand exponent)
  (rounds : RoundsTo (digits * 10 ^ places) significand exponent)
include double rounds

/-- What rounds to a double is not zero, as doubles with a significand are not. -/
theorem RoundsTo.digits_pos : 0 < digits := by
  refine Nat.pos_of_ne_zero fun none => ?_
  have unit : (0 : ℚ) < 2 ^ exponent := by positivity
  have least : (1 : ℚ) ≤ significand := by exact_mod_cast double.pos
  have above := rounds.above
  rw [none, Nat.cast_zero, zero_mul] at above
  nlinarith

/-- The first digit of what rounds to a double is near the point, so the reading takes neither of
its short ways out. -/
theorem RoundsTo.position_bounds (small : exponent ≤ 971) :
    -400 ≤ (digitCount digits : ℤ) + places ∧ (digitCount digits : ℤ) + places ≤ 400 := by
  have unit : (0 : ℚ) < 10 ^ places := by positivity
  constructor
  · have least : (1 : ℚ) ≤ significand := by exact_mod_cast double.pos
    have fewer : (digits : ℚ) < 10 ^ digitCount digits := by
      exact_mod_cast digitCount_le_iff.mp le_rfl
    have more : (10 : ℚ) ^ (-400 : ℤ) < 10 ^ ((digitCount digits : ℤ) + places) := by
      calc (10 : ℚ) ^ (-400 : ℤ) ≤ 2 ^ (-1200 : ℤ) := by
            rw [zpow_neg, zpow_neg]
            exact inv_anti₀ (by positivity) (two_zpow_le_ten_zpow 400)
        _ ≤ 2 ^ (-1 + -1074 : ℤ) := zpow_le_zpow_right₀ (by norm_num) (by norm_num)
        _ = 1 / 2 * 2 ^ (-1074 : ℤ) := by
            rw [zpow_add₀ (by norm_num), zpow_neg_one, one_div]
        _ ≤ ((significand : ℚ) - 1 / 2) * 2 ^ exponent :=
            mul_le_mul (by linarith) (zpow_le_zpow_right₀ (by norm_num) double.lowest)
              (by positivity) (by linarith)
        _ ≤ digits * 10 ^ places := rounds.above
        _ < 10 ^ digitCount digits * 10 ^ places := mul_lt_mul_of_pos_right fewer unit
        _ = 10 ^ ((digitCount digits : ℤ) + places) := by
            rw [zpow_add₀ (by norm_num), zpow_natCast]
    exact ((zpow_lt_zpow_iff_right₀ (by norm_num)).mp more).le
  · have present := RoundsTo.digits_pos double rounds
    obtain ⟨count, known⟩ : ∃ count, digitCount digits = count + 1 := by
      refine Nat.exists_eq_add_one.mpr (Nat.pos_of_ne_zero fun none => ?_)
      have := digitCount_le_iff.mp none.le
      omega
    have least : (10 : ℚ) ^ count ≤ digits := by
      have := mt digitCount_le_iff.mpr (show ¬digitCount digits ≤ count by omega)
      exact_mod_cast Nat.le_of_not_lt this
    have less : (10 : ℚ) ^ ((count : ℤ) + places) < 10 ^ (400 : ℤ) := by
      calc (10 : ℚ) ^ ((count : ℤ) + places) = 10 ^ count * 10 ^ places := by
            rw [zpow_add₀ (by norm_num), zpow_natCast]
        _ ≤ digits * 10 ^ places := mul_le_mul_of_nonneg_right least unit.le
        _ < 2 ^ (exponent + 53) := RoundsTo.lt_two_zpow double rounds
        _ ≤ 2 ^ (1200 : ℤ) := zpow_le_zpow_right₀ (by norm_num) (by omega)
        _ ≤ 10 ^ (400 : ℤ) := two_zpow_le_ten_zpow 400
    have := (zpow_lt_zpow_iff_right₀ (by norm_num)).mp less
    omega

/-- A numeral is read as the double that it rounds to, by whichever of the ways it is computed. -/
theorem toFloat_of_roundsTo (small : exponent ≤ 971) :
    toFloat digits places =
      .ofModel (.pack (.finite .positive significand exponent double.pos)) := by
  have present := RoundsTo.digits_pos double rounds
  have position := RoundsTo.position_bounds double rounds small
  have count := digitCount_le_log2 digits
  unfold toFloat
  dsimp only
  rw [if_neg present.ne', if_neg (by omega), if_neg (by omega)]
  by_cases whole : 0 ≤ places
  · rw [if_pos whole]
    refine ofScientific_whole ?_ double ?_
    · rw [Nat.pow_eq]
      positivity
    · rw [Nat.pow_eq]
      have place : places = (places.toNat : ℤ) := by omega
      rw [place, zpow_natCast] at rounds
      exact_mod_cast rounds
  · rw [if_neg whole]
    refine ofScientific_places present double (by omega) (by omega) ?_
    have place : places = -((-places).toNat : ℤ) := by omega
    rw [place, zpow_neg, zpow_natCast, ← div_eq_mul_inv] at rounds
    exact rounds

end

/-- A numeral that rounds to a finite double is read as this double, with its sign. -/
theorem Numeral.toFloat_of_read {numeral : Numeral} {value : Float} {negative : Bool}
    {magnitude : Binary} (read : readDouble value = .finite negative magnitude)
    (rounds : RoundsTo (numeral.digits * 10 ^ numeral.exponent) magnitude.significand
      magnitude.exponent) :
    numeral.toFloat negative = value := by
  obtain ⟨double, small, -⟩ := isDouble_of_read read
  have positive := toFloat_of_roundsTo double rounds small
  rw [← eq_of_readDouble_finite read double.pos]
  unfold Numeral.toFloat
  dsimp only
  rw [positive]
  cases negative with
  | false => rfl
  | true =>
    rw [if_pos rfl]
    have negated := congrArg (fun unpacked => Float.ofModel (.pack (UnpackedFloat.neg unpacked)))
      (unpack_pack double small false)
    exact negated

end MigrationGuard.Decimal
