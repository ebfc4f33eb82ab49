/-
This file reads positive doubles as the rational numbers that they hold. A
product, a quotient, a sum or a difference holds what the exact result rounds to,
which is within half a unit of the last place; where the exact result is itself
held by a double, the computed one is exact. Comparisons of doubles are those of
the numbers, and rounding to a whole double takes the nearest whole number, halves
upwards. So a computation with doubles can be followed in rational numbers, step
by step, with a bound for each rounding. This is how the percentage of a
comparison, which is computed with doubles and rounded at the end, is shown to be
what exact arithmetic gives.
-/

import Mathlib.Data.Int.Log
import Mathlib.Data.Rat.Floor
import MigrationGuard.Decimal.Arithmetic
import MigrationGuard.Proofs.Decimal.Reading

namespace MigrationGuard.Decimal

open Float.Model Float.Model.UnpackedFloat

/-! ### Rounding in the middle of the range -/

/-- The double is a positive one that uses all bits, so its last place is in a fixed proportion to
its size. -/
structure IsFull (significand : ℕ) (exponent : ℤ) : Prop where
  /-- All bits are used. -/
  long : 2 ^ 52 ≤ significand
  /-- The significand has no more bits. -/
  short : significand < 2 ^ 53
  /-- The exponent is not too low. -/
  lowest : -1074 ≤ exponent
  /-- The exponent is not too high. -/
  highest : exponent ≤ 971

theorem IsFull.isDouble {significand : ℕ} {exponent : ℤ} (full : IsFull significand exponent) :
    IsDouble significand exponent :=
  ⟨by have := full.long; omega, full.short, full.lowest, .inr full.long⟩

/-- The number is so far from zero and from infinity that it rounds to a full double. Percentages
and what they are computed from are, unless they are zero. -/
structure IsModerate (number : ℚ) : Prop where
  /-- The number is not too small. -/
  above : (2 : ℚ) ^ (-200 : ℤ) ≤ number
  /-- The number is not too large. -/
  below : number < (2 : ℚ) ^ (200 : ℤ)

theorem isModerate_of_bounds {number : ℚ} (above : 1 / 2 ^ 60 ≤ number)
    (below : number ≤ 2 ^ 60) : IsModerate number where
  above := by
    refine le_trans ?_ above
    rw [zpow_neg, ← one_div]
    exact one_div_le_one_div_of_le (by norm_num) (by norm_num)
  below := lt_of_le_of_lt below (by norm_num)

/-- Some whole number is nearest, in the middle between two of them the even one. -/
theorem exists_nearest {number : ℚ} (notNegative : 0 ≤ number) :
    ∃ whole : ℕ, (whole : ℚ) - 1 / 2 ≤ number ∧ number ≤ whole + 1 / 2 ∧
      (number = whole - 1 / 2 ∨ number = whole + 1 / 2 → whole % 2 = 0) := by
  have below := Nat.floor_le notNegative
  have above := Nat.lt_floor_add_one number
  generalize ⌊number⌋₊ = part at below above
  rcases lt_trichotomy number (part + 1 / 2) with less | middle | more
  · refine ⟨part, by linarith, less.le, ?_⟩
    rintro (low | high)
    · linarith
    · linarith
  · rcases Nat.mod_two_eq_zero_or_one part with even | odd
    · exact ⟨part, by linarith, middle.le, fun _ => even⟩
    · refine ⟨part + 1, ?_, ?_, fun _ => by omega⟩ <;> push_cast <;> linarith
  · refine ⟨part + 1, ?_, ?_, ?_⟩
    · push_cast
      linarith
    · push_cast
      linarith
    · push_cast
      rintro (low | high) <;> linarith

/-- A number from the least double on rounds to a positive double, as there is a last place in whose
units it can be counted. -/
theorem exists_roundsTo_double {number : ℚ} (above : (2 : ℚ) ^ (-1074 : ℤ) ≤ number) :
    ∃ significand exponent, IsDouble significand exponent ∧
      RoundsTo number significand exponent := by
  have positive : 0 < number := lt_of_lt_of_le (by positivity) above
  have least : (2 : ℚ) ^ Int.log 2 number ≤ number := by
    exact_mod_cast Int.zpow_log_le_self one_lt_two positive
  have most : number < (2 : ℚ) ^ (Int.log 2 number + 1) := by
    exact_mod_cast Int.lt_zpow_succ_log_self one_lt_two number
  obtain ⟨exponent, place⟩ : ∃ exponent, exponent = max (Int.log 2 number - 52) (-1074) := ⟨_, rfl⟩
  have unit : (0 : ℚ) < 2 ^ exponent := by positivity
  obtain ⟨scaled, rfl⟩ : ∃ scaled, number = scaled * 2 ^ exponent :=
    ⟨number / 2 ^ exponent, by field_simp⟩
  have top : scaled < (2 : ℚ) ^ 53 := by
    have split : (2 : ℚ) ^ (exponent + 53) = 2 ^ 53 * 2 ^ exponent := by
      rw [zpow_add₀ (by norm_num), mul_comm]
      norm_num
    have high := most.trans_le (zpow_le_zpow_right₀ (by norm_num)
      (show Int.log 2 (scaled * 2 ^ exponent) + 1 ≤ exponent + 53 by omega))
    rw [split] at high
    exact lt_of_mul_lt_mul_right high unit.le
  have bottom : exponent = -1074 ∧ 1 ≤ scaled ∨ (2 : ℚ) ^ 52 ≤ scaled := by
    rcases le_or_gt (-1074) (Int.log 2 (scaled * 2 ^ exponent) - 52) with normal | low
    · have known : Int.log 2 (scaled * 2 ^ exponent) = exponent + 52 := by omega
      rw [known, zpow_add₀ (by norm_num), mul_comm] at least
      exact .inr (by exact_mod_cast le_of_mul_le_mul_right least unit)
    · obtain rfl : exponent = -1074 := by omega
      refine .inl ⟨rfl, le_of_mul_le_mul_right ?_ unit⟩
      rwa [one_mul]
  have notNegative : 0 ≤ scaled := by
    rcases bottom with ⟨-, low⟩ | low <;> linarith
  obtain ⟨whole, above, below, tie⟩ := exists_nearest notNegative
  have present : 0 < whole := by
    have : (0 : ℚ) < whole := by rcases bottom with ⟨-, low⟩ | low <;> linarith
    exact_mod_cast this
  have full : exponent = -1074 ∨ 2 ^ 52 ≤ whole := by
    refine bottom.imp And.left fun low => ?_
    have : (2 : ℚ) ^ 52 < whole + 1 := by linarith
    exact Nat.lt_succ_iff.mp (by exact_mod_cast this)
  have notLonger : whole ≤ 2 ^ 53 := by
    have : (whole : ℚ) < 2 ^ 53 + 1 := by linarith
    exact Nat.lt_succ_iff.mp (by exact_mod_cast this)
  rcases notLonger.lt_or_eq with short | carry
  · refine ⟨whole, exponent, ⟨present, short, by omega, full⟩,
      ⟨mul_le_mul_of_nonneg_right above unit.le, mul_le_mul_of_nonneg_right below unit.le, ?_, ?_⟩⟩
    · intro least higher
      have low : (2 : ℚ) ^ 52 ≤ scaled := bottom.resolve_left fun low => higher low.1
      refine mul_le_mul_of_nonneg_right ?_ unit.le
      rw [least]
      push_cast
      linarith
    · rintro (atLow | atHigh)
      · exact tie (.inl (mul_right_cancel₀ unit.ne' atLow))
      · exact tie (.inr (mul_right_cancel₀ unit.ne' atHigh))
  · -- The number is rounded up to a power of two, which is the least significand one place higher.
    have double : (2 : ℚ) ^ (exponent + 1) = 2 * 2 ^ exponent := by
      rw [zpow_add_one₀ (by norm_num), mul_comm]
    rw [carry] at above
    push_cast at above
    refine ⟨2 ^ 52, exponent + 1, ⟨by norm_num, by norm_num, by omega, .inr le_rfl⟩,
      ⟨?_, ?_, fun _ _ => ?_, fun _ => by norm_num⟩⟩
    all_goals
      rw [double]
      push_cast
      nlinarith

theorem exists_roundsTo {number : ℚ} (moderate : IsModerate number) :
    ∃ significand exponent, IsFull significand exponent ∧
      RoundsTo number significand exponent := by
  obtain ⟨significand, exponent, double, rounds⟩ := exists_roundsTo_double
    ((zpow_le_zpow_right₀ (by norm_num) (by norm_num)).trans moderate.above)
  have low : (2 : ℚ) ^ (-200 : ℤ) < 2 ^ (exponent + 53) :=
    moderate.above.trans_lt (rounds.lt_two_zpow double)
  have long : 2 ^ 52 ≤ significand := by
    have := (zpow_lt_zpow_iff_right₀ (by norm_num)).mp low
    exact double.full.resolve_left (by omega)
  have high : (2 : ℚ) ^ exponent < 2 ^ (200 : ℤ) := by
    have some : (1 : ℚ) ≤ (significand : ℚ) - 1 / 2 := by
      have : (2 : ℚ) ^ 52 ≤ significand := by exact_mod_cast long
      linarith
    calc (2 : ℚ) ^ exponent ≤ ((significand : ℚ) - 1 / 2) * 2 ^ exponent :=
          le_mul_of_one_le_left (by positivity) some
      _ ≤ number := rounds.above
      _ < 2 ^ (200 : ℤ) := moderate.below
  have := (zpow_lt_zpow_iff_right₀ (by norm_num)).mp high
  exact ⟨significand, exponent, ⟨long, double.small, double.lowest, by omega⟩, rounds⟩

/-- The result is within half a unit of the last place of the number. Stated by products, such
bounds add up along a computation. -/
structure IsNear (number result : ℚ) : Prop where
  /-- The result is not much larger. -/
  above : (2 ^ 53 - 1) * result ≤ 2 ^ 53 * number
  /-- The result is not much smaller. -/
  below : 2 ^ 53 * number ≤ (2 ^ 53 + 1) * result

theorem RoundsTo.isNear {number : ℚ} {significand : ℕ} {exponent : ℤ}
    (rounds : RoundsTo number significand exponent) (full : IsFull significand exponent) :
    IsNear number (significand * 2 ^ exponent) := by
  have unit : (0 : ℚ) < 2 ^ exponent := by positivity
  have long : (2 : ℚ) ^ 52 * 2 ^ exponent ≤ significand * 2 ^ exponent :=
    mul_le_mul_of_nonneg_right (by exact_mod_cast full.long) unit.le
  have above := rounds.above
  have below := rounds.below
  constructor <;> linarith

/-! ### Doubles and the numbers that they hold -/

/-- The positive double with a significand and an exponent that use all bits. -/
def IsFull.toFloat {significand : ℕ} {exponent : ℤ} (full : IsFull significand exponent) : Float :=
  .ofModel (.pack (.finite .positive significand exponent full.isDouble.pos))

theorem IsFull.unpack_toFloat {significand : ℕ} {exponent : ℤ}
    (full : IsFull significand exponent) :
    full.toFloat.toModel.unpack = .finite .positive significand exponent full.isDouble.pos :=
  unpack_pack full.isDouble full.highest false

/-- The double is positive and holds the number exactly. Nothing is rounded here. -/
def Holds (value : Float) (number : ℚ) : Prop :=
  ∃ significand exponent, ∃ full : IsFull significand exponent,
    value = full.toFloat ∧ (significand : ℚ) * 2 ^ exponent = number

theorem Holds.pos {value : Float} {number : ℚ} (holds : Holds value number) : 0 < number := by
  obtain ⟨significand, exponent, full, -, rfl⟩ := holds
  have positive : (0 : ℚ) < significand := by exact_mod_cast full.isDouble.pos
  positivity

/-! ### Operations on unpacked doubles -/

theorem add_unpacked (left right : Float) : left + right = .ofModel (.pack
    (UnpackedFloat.add Format.binary64 left.toModel.unpack right.toModel.unpack)) :=
  rfl

theorem sub_unpacked (left right : Float) : left - right = .ofModel (.pack
    (UnpackedFloat.sub Format.binary64 left.toModel.unpack right.toModel.unpack)) :=
  rfl

theorem mul_unpacked (left right : Float) : left * right = .ofModel (.pack
    (UnpackedFloat.mul Format.binary64 left.toModel.unpack right.toModel.unpack)) :=
  rfl

theorem div_unpacked (left right : Float) : left / right = .ofModel (.pack
    (UnpackedFloat.div Format.binary64 left.toModel.unpack right.toModel.unpack)) :=
  rfl

theorem abs_unpacked (value : Float) :
    value.abs = .ofModel (.pack (UnpackedFloat.abs value.toModel.unpack)) :=
  rfl

theorem toFloat_unpacked (whole : UInt64) :
    whole.toFloat = .ofModel (.pack (UnpackedFloat.ofNat Format.binary64 whole.toNat)) :=
  rfl

theorem pack_zero : Float.ofModel (.pack (.zero .positive)) = 0.0 := by
  decide +kernel

theorem ofNat_zero : Float.ofNat 0 = 0.0 := by
  decide +kernel

/-! ### Products and quotients -/

section
variable {left right result : Float} {leftNumber rightNumber number : ℚ}
  (leftHolds : Holds left leftNumber) (rightHolds : Holds right rightNumber)
include leftHolds rightHolds

theorem Holds.div_of_roundsTo {significand : ℕ} {exponent : ℤ} (full : IsFull significand exponent)
    (rounds : RoundsTo (leftNumber / rightNumber) significand exponent) :
    left / right = full.toFloat := by
  obtain ⟨leftSignificand, leftExponent, leftFull, rfl, rfl⟩ := leftHolds
  obtain ⟨rightSignificand, rightExponent, rightFull, rfl, rfl⟩ := rightHolds
  rw [div_unpacked, leftFull.unpack_toFloat, rightFull.unpack_toFloat,
    Decimal.div_of_roundsTo full.isDouble leftFull.isDouble.pos rightFull.isDouble.pos rounds]
  rfl

/-- A quotient that a double holds is exact: it is rounded to itself. -/
theorem Holds.div_eq (exact : Holds result (leftNumber / rightNumber)) : left / right = result := by
  obtain ⟨significand, exponent, full, rfl, value⟩ := exact
  exact leftHolds.div_of_roundsTo rightHolds full (value ▸ roundsTo_self significand exponent)

/-- Quotients of equal numbers are equal, also where the numbers have been put in other terms. -/
theorem Holds.div_congr {otherLeft otherRight : Float} {otherLeftNumber otherRightNumber : ℚ}
    (otherLeftHolds : Holds otherLeft otherLeftNumber)
    (otherRightHolds : Holds otherRight otherRightNumber)
    (same : leftNumber / rightNumber = otherLeftNumber / otherRightNumber)
    (moderate : IsModerate (leftNumber / rightNumber)) :
    left / right = otherLeft / otherRight := by
  obtain ⟨significand, exponent, full, rounds⟩ := exists_roundsTo moderate
  rw [leftHolds.div_of_roundsTo rightHolds full rounds,
    otherLeftHolds.div_of_roundsTo otherRightHolds full (same ▸ rounds)]

theorem Holds.div (moderate : IsModerate (leftNumber / rightNumber)) :
    ∃ number, Holds (left / right) number ∧ IsNear (leftNumber / rightNumber) number := by
  obtain ⟨significand, exponent, full, rounds⟩ := exists_roundsTo moderate
  exact ⟨_, ⟨_, _, full, leftHolds.div_of_roundsTo rightHolds full rounds, rfl⟩,
    rounds.isNear full⟩

theorem Holds.mul_of_roundsTo {significand : ℕ} {exponent : ℤ} (full : IsFull significand exponent)
    (rounds : RoundsTo (leftNumber * rightNumber) significand exponent) :
    left * right = full.toFloat := by
  obtain ⟨leftSignificand, leftExponent, leftFull, rfl, rfl⟩ := leftHolds
  obtain ⟨rightSignificand, rightExponent, rightFull, rfl, rfl⟩ := rightHolds
  have long : 52 ≤ (leftSignificand * rightSignificand).log2 := by
    have rightPos := rightFull.isDouble.pos
    refine (Nat.le_log2 (Nat.mul_pos leftFull.isDouble.pos rightPos).ne').mpr ?_
    exact leftFull.long.trans (Nat.le_mul_of_pos_right _ rightPos)
  rw [mul_unpacked, leftFull.unpack_toFloat, rightFull.unpack_toFloat,
    Decimal.mul_of_roundsTo full.isDouble leftFull.isDouble.pos rightFull.isDouble.pos rounds long]
  rfl

/-- A product that a double holds is exact: it is rounded to itself. -/
theorem Holds.mul_eq (exact : Holds result (leftNumber * rightNumber)) : left * right = result := by
  obtain ⟨significand, exponent, full, rfl, value⟩ := exact
  exact leftHolds.mul_of_roundsTo rightHolds full (value ▸ roundsTo_self significand exponent)

theorem Holds.mul (moderate : IsModerate (leftNumber * rightNumber)) :
    ∃ number, Holds (left * right) number ∧ IsNear (leftNumber * rightNumber) number := by
  obtain ⟨significand, exponent, full, rounds⟩ := exists_roundsTo moderate
  exact ⟨_, ⟨_, _, full, leftHolds.mul_of_roundsTo rightHolds full rounds, rfl⟩,
    rounds.isNear full⟩

end

/-! ### Order -/

theorem IsDouble.lt_of_exponent_lt {left right : ℕ} {low high : ℤ} (leftDouble : IsDouble left low)
    (rightDouble : IsDouble right high) (less : low < high) :
    (left : ℚ) * 2 ^ low < right * 2 ^ high := by
  have unit : (0 : ℚ) < 2 ^ low := by positivity
  have next : (2 : ℚ) * 2 ^ low ≤ 2 ^ high := by
    rw [← zpow_one_add₀ (by norm_num)]
    exact zpow_le_zpow_right₀ (by norm_num) (by omega)
  have short : (left : ℚ) < 2 ^ 53 := by exact_mod_cast leftDouble.small
  have long : (2 : ℚ) ^ 52 ≤ right := by
    have lowest := leftDouble.lowest
    exact_mod_cast rightDouble.full.resolve_left (by omega)
  calc (left : ℚ) * 2 ^ low < 2 ^ 53 * 2 ^ low := mul_lt_mul_of_pos_right short unit
    _ = 2 ^ 52 * (2 * 2 ^ low) := by ring
    _ ≤ right * 2 ^ high := mul_le_mul long next (by positivity) (by positivity)

/-- The order of positive doubles is that of the numbers: the exponent decides, and then the
significand. -/
theorem IsDouble.compare_eq {left right : ℕ} {leftExponent rightExponent : ℤ}
    (leftDouble : IsDouble left leftExponent) (rightDouble : IsDouble right rightExponent) :
    (compare leftExponent rightExponent).then (compare left right) =
      compare ((left : ℚ) * 2 ^ leftExponent) (right * 2 ^ rightExponent) := by
  rcases lt_trichotomy leftExponent rightExponent with less | rfl | more
  · rw [compare_lt_iff_lt.mpr less,
      compare_lt_iff_lt.mpr (leftDouble.lt_of_exponent_lt rightDouble less)]
    rfl
  · have unit : (0 : ℚ) < 2 ^ leftExponent := by positivity
    rw [compare_eq_iff_eq.mpr rfl]
    show compare left right = _
    rcases lt_trichotomy left right with less | rfl | more
    · have lessNumber : (left : ℚ) < right := by exact_mod_cast less
      rw [compare_lt_iff_lt.mpr less,
        compare_lt_iff_lt.mpr (mul_lt_mul_of_pos_right lessNumber unit)]
    · rw [compare_eq_iff_eq.mpr rfl, compare_eq_iff_eq.mpr rfl]
    · have moreNumber : (right : ℚ) < left := by exact_mod_cast more
      rw [compare_gt_iff_gt.mpr more,
        compare_gt_iff_gt.mpr (mul_lt_mul_of_pos_right moreNumber unit)]
  · rw [compare_gt_iff_gt.mpr more,
      compare_gt_iff_gt.mpr (rightDouble.lt_of_exponent_lt leftDouble more)]
    rfl

section
variable {left right : Float} {leftNumber rightNumber : ℚ} (leftHolds : Holds left leftNumber)
  (rightHolds : Holds right rightNumber)
include leftHolds rightHolds

theorem Holds.compare_eq : UnpackedFloat.compare left.toModel.unpack right.toModel.unpack =
    some (compare leftNumber rightNumber) := by
  obtain ⟨leftSignificand, leftExponent, leftFull, rfl, rfl⟩ := leftHolds
  obtain ⟨rightSignificand, rightExponent, rightFull, rfl, rfl⟩ := rightHolds
  rw [leftFull.unpack_toFloat, rightFull.unpack_toFloat,
    ← leftFull.isDouble.compare_eq rightFull.isDouble]
  rfl

theorem Holds.lt_iff : left < right ↔ leftNumber < rightNumber := by
  have unfolded : left < right ↔
      UnpackedFloat.lt left.toModel.unpack right.toModel.unpack = true := decide_eq_true_iff
  rw [unfolded, UnpackedFloat.lt, leftHolds.compare_eq rightHolds, beq_iff_eq, Option.some.injEq,
    compare_lt_iff_lt]

theorem Holds.le_iff : left ≤ right ↔ leftNumber ≤ rightNumber := by
  have unfolded : left ≤ right ↔
      UnpackedFloat.le left.toModel.unpack right.toModel.unpack = true := decide_eq_true_iff
  rw [unfolded, UnpackedFloat.le, leftHolds.compare_eq rightHolds, Option.any_some, ← not_lt,
    ← compare_gt_iff_gt]
  cases compare leftNumber rightNumber <;> simp

end

/-! ### Sums and differences -/

theorem log2_shiftLeft {mantissa : ℕ} (pos : 0 < mantissa) (places : ℕ) :
    (mantissa <<< places).log2 = mantissa.log2 + places := by
  have shifted : mantissa <<< places ≠ 0 := by
    rw [Nat.shiftLeft_eq]
    positivity
  rw [Nat.log2_eq_iff shifted, Nat.shiftLeft_eq, pow_add, add_right_comm, pow_add]
  have unit : 0 < 2 ^ places := by positivity
  exact ⟨Nat.mul_le_mul_right _ (Nat.log2_self_le pos.ne'),
    Nat.mul_lt_mul_of_pos_right Nat.lt_log2_self unit⟩

/-- A mantissa that is seen at a lower exponent keeps its value. -/
theorem shiftLeft_mul_zpow (mantissa : ℕ) {exponent lower : ℤ} (low : lower ≤ exponent) :
    ((mantissa <<< (exponent - lower).toNat : ℕ) : ℚ) * 2 ^ lower = mantissa * 2 ^ exponent := by
  have split : exponent = ((exponent - lower).toNat : ℤ) + lower := by omega
  rw [Nat.shiftLeft_eq, Nat.cast_mul, Nat.cast_pow, Nat.cast_ofNat, mul_assoc, ← zpow_natCast,
    ← zpow_add₀ (by norm_num), ← split]

/-- A mantissa with a sign that is seen at a lower exponent keeps its value. -/
theorem apply_shiftLeft_mul_zpow (sign : Sign) (mantissa : ℕ) {exponent lower : ℤ}
    (low : lower ≤ exponent) :
    ((sign.apply (mantissa <<< (exponent - lower).toNat : ℕ) : ℤ) : ℚ) * 2 ^ lower =
      (sign.apply mantissa : ℤ) * 2 ^ exponent := by
  have value := shiftLeft_mul_zpow mantissa low
  cases sign with
  | positive => exact_mod_cast value
  | negative =>
    show ((-((mantissa <<< (exponent - lower).toNat : ℕ) : ℤ) : ℤ) : ℚ) * 2 ^ lower =
      ((-(mantissa : ℤ) : ℤ) : ℚ) * 2 ^ exponent
    rw [Int.cast_neg, Int.cast_neg, neg_mul, neg_mul, Int.cast_natCast, Int.cast_natCast, value]

/-- Before a mantissa is rounded it is seen at an exponent that leaves enough bits, which does not
change the number. -/
theorem round_eq (format : Format) (sign : Sign) {mantissa : ℕ} (pos : 0 < mantissa) (scale : ℤ) :
    ∃ (long : ℕ) (lower : ℤ), UnpackedFloat.round format sign mantissa scale =
        roundWithAccuracy format sign long lower .exact ∧
      (long : ℚ) * 2 ^ lower = mantissa * 2 ^ scale ∧
      lower ≤ format.targetExponent (totalExponent long lower) := by
  refine ⟨mantissa <<< (scale - format.targetExponent (totalExponent mantissa scale)).toNat,
    scale - (scale - format.targetExponent (totalExponent mantissa scale)).toNat, rfl, ?_, ?_⟩
  · rcases le_total (format.targetExponent (totalExponent mantissa scale)) scale with low | high
    · rw [Int.toNat_of_nonneg (by omega), sub_sub_cancel, shiftLeft_mul_zpow mantissa low]
    · rw [Int.toNat_eq_zero.mpr (by omega), Nat.shiftLeft_zero, Nat.cast_zero, sub_zero]
  · rw [targetExponent_total, targetExponent_total, log2_shiftLeft pos]
    omega

section
variable {significand : ℕ} {exponent : ℤ} (double : IsDouble significand exponent)

include double in
/-- A number of any length is rounded to the double that it rounds to. -/
theorem round_of_roundsTo {mantissa : ℕ} (pos : 0 < mantissa) {scale : ℤ}
    (rounds : RoundsTo (mantissa * 2 ^ scale) significand exponent) :
    UnpackedFloat.round Format.binary64 .positive mantissa scale =
      .finite .positive significand exponent double.pos := by
  obtain ⟨long, lower, same, value, enough⟩ := round_eq Format.binary64 .positive pos scale
  have stands : StandsFor (ExtendedMantissa.ofMantissaAndAccuracy long .exact) (long : ℚ) := rfl
  rw [same]
  exact rounds.roundWithAccuracy double stands value enough

/-- The sum or difference of two mantissas is rounded once, at the end. -/
theorem normalize_of_roundsTo {mantissa : ℤ} (pos : 0 < mantissa) {scale : ℤ}
    (rounds : RoundsTo (mantissa * 2 ^ scale) significand exponent) :
    UnpackedFloat.normalize Format.binary64 mantissa scale .positive =
      .finite .positive significand exponent double.pos := by
  obtain ⟨whole, rfl⟩ : ∃ whole : ℕ, mantissa = whole := ⟨mantissa.toNat, by omega⟩
  rw [UnpackedFloat.normalize, compare_gt_iff_gt.mpr pos]
  exact round_of_roundsTo double (by exact_mod_cast pos) (by exact_mod_cast rounds)

end

section
variable {left right : Float} {leftSign rightSign : Sign} {leftSignificand rightSignificand : ℕ}
  {leftExponent rightExponent : ℤ} {leftPos : 0 < leftSignificand}
  {rightPos : 0 < rightSignificand}
  (leftUnpacked : left.toModel.unpack = .finite leftSign leftSignificand leftExponent leftPos)
  (rightUnpacked : right.toModel.unpack =
    .finite rightSign rightSignificand rightExponent rightPos)
include leftUnpacked rightUnpacked

/-- The sum of finite doubles is the exact one, rounded once, whatever their signs are. -/
theorem exists_add_eq : ∃ mantissa scale : ℤ,
    left + right =
      .ofModel (.pack (UnpackedFloat.normalize Format.binary64 mantissa scale .positive)) ∧
    (mantissa : ℚ) * 2 ^ scale = (leftSign.apply leftSignificand : ℤ) * 2 ^ leftExponent +
      (rightSign.apply rightSignificand : ℤ) * 2 ^ rightExponent := by
  let lower := min leftExponent rightExponent
  refine ⟨leftSign.apply (leftSignificand <<< (leftExponent - lower).toNat : ℕ) +
    rightSign.apply (rightSignificand <<< (rightExponent - lower).toNat : ℕ), lower, ?_, ?_⟩
  · rw [add_unpacked, leftUnpacked, rightUnpacked]
    rfl
  · rw [Int.cast_add, add_mul, apply_shiftLeft_mul_zpow leftSign _ (min_le_left _ _),
      apply_shiftLeft_mul_zpow rightSign _ (min_le_right _ _)]

/-- The difference of finite doubles is the exact one, rounded once, whatever their signs are. -/
theorem exists_sub_eq : ∃ mantissa scale : ℤ,
    left - right =
      .ofModel (.pack (UnpackedFloat.normalize Format.binary64 mantissa scale .positive)) ∧
    (mantissa : ℚ) * 2 ^ scale = (leftSign.apply leftSignificand : ℤ) * 2 ^ leftExponent -
      (rightSign.apply rightSignificand : ℤ) * 2 ^ rightExponent := by
  let lower := min leftExponent rightExponent
  refine ⟨leftSign.apply (leftSignificand <<< (leftExponent - lower).toNat : ℕ) -
    rightSign.apply (rightSignificand <<< (rightExponent - lower).toNat : ℕ), lower, ?_, ?_⟩
  · rw [sub_unpacked, leftUnpacked, rightUnpacked]
    rfl
  · rw [Int.cast_sub, sub_mul, apply_shiftLeft_mul_zpow leftSign _ (min_le_left _ _),
      apply_shiftLeft_mul_zpow rightSign _ (min_le_right _ _)]

end

/-- A number that a double holds is rounded to it, in whatever units it is counted. -/
theorem Holds.eq_of_normalize {value : Float} {number : ℚ} (holds : Holds value number)
    {mantissa scale : ℤ} (exact : (mantissa : ℚ) * 2 ^ scale = number) :
    .ofModel (.pack (UnpackedFloat.normalize Format.binary64 mantissa scale .positive)) =
      value := by
  have positive : 0 < (mantissa : ℚ) * 2 ^ scale := exact ▸ holds.pos
  have pos : 0 < mantissa := by exact_mod_cast pos_of_mul_pos_left positive (by positivity)
  obtain ⟨significand, exponent, full, rfl, same⟩ := holds
  rw [normalize_of_roundsTo full.isDouble pos ?_]
  · rfl
  · rw [exact, ← same]
    exact roundsTo_self significand exponent

section
variable {left right result : Float} {leftNumber rightNumber : ℚ}
  (leftHolds : Holds left leftNumber) (rightHolds : Holds right rightNumber)
include leftHolds rightHolds

/-- A sum that a double holds is exact: it is rounded to itself. -/
theorem Holds.add_eq (exact : Holds result (leftNumber + rightNumber)) : left + right = result := by
  obtain ⟨leftSignificand, leftExponent, leftFull, rfl, rfl⟩ := leftHolds
  obtain ⟨rightSignificand, rightExponent, rightFull, rfl, rfl⟩ := rightHolds
  obtain ⟨mantissa, scale, sum, value⟩ :=
    exists_add_eq leftFull.unpack_toFloat rightFull.unpack_toFloat
  exact sum.trans (exact.eq_of_normalize value)

/-- A difference that a double holds is exact: it is rounded to itself. -/
theorem Holds.sub_eq (exact : Holds result (leftNumber - rightNumber)) : left - right = result := by
  obtain ⟨leftSignificand, leftExponent, leftFull, rfl, rfl⟩ := leftHolds
  obtain ⟨rightSignificand, rightExponent, rightFull, rfl, rfl⟩ := rightHolds
  obtain ⟨mantissa, scale, difference, value⟩ :=
    exists_sub_eq leftFull.unpack_toFloat rightFull.unpack_toFloat
  exact difference.trans (exact.eq_of_normalize value)

/-- Equal numbers have the difference zero, without a minus. -/
theorem Holds.sub_eq_zero (same : leftNumber = rightNumber) : left - right = 0.0 := by
  obtain ⟨leftSignificand, leftExponent, leftFull, rfl, rfl⟩ := leftHolds
  obtain ⟨rightSignificand, rightExponent, rightFull, rfl, rfl⟩ := rightHolds
  obtain ⟨mantissa, scale, difference, value⟩ :=
    exists_sub_eq leftFull.unpack_toFloat rightFull.unpack_toFloat
  have none : (mantissa : ℚ) * 2 ^ scale = 0 := value.trans (sub_eq_zero.mpr same)
  obtain rfl : mantissa = 0 := by
    exact_mod_cast (mul_eq_zero.mp none).resolve_right (by positivity)
  exact difference.trans pack_zero

end

/-! ### Whole numbers -/

/-- A short mantissa is the significand of a full double after a shift. -/
theorem exists_isFull {mantissa : ℕ} (pos : 0 < mantissa) (short : mantissa < 2 ^ 53)
    (scale : ℤ) (low : -200 ≤ scale) (high : scale ≤ 200) :
    ∃ significand exponent, IsFull significand exponent ∧
      (significand : ℚ) * 2 ^ exponent = mantissa * 2 ^ scale := by
  have bits : mantissa.log2 ≤ 52 := by
    have := (Nat.log2_lt pos.ne').mpr short
    omega
  have place : (mantissa <<< (52 - mantissa.log2)).log2 = 52 := by
    rw [log2_shiftLeft pos]
    omega
  have shifted : mantissa <<< (52 - mantissa.log2) ≠ 0 := (Nat.shiftLeft_pos_iff.mpr pos).ne'
  obtain ⟨long, notLonger⟩ := (Nat.log2_eq_iff shifted).mp place
  refine ⟨mantissa <<< (52 - mantissa.log2), scale - (52 - mantissa.log2 : ℕ),
    ⟨long, notLonger, by omega, by omega⟩, ?_⟩
  have value := shiftLeft_mul_zpow mantissa
    (show scale - (52 - mantissa.log2 : ℕ) ≤ scale by omega)
  rwa [sub_sub_cancel, Int.toNat_natCast] at value

section
variable {whole : ℕ} (pos : 0 < whole) (short : whole < 2 ^ 53)
include pos short

theorem holds_ofNat : Holds (Float.ofNat whole) whole := by
  obtain ⟨significand, exponent, full, value⟩ := exists_isFull pos short 0 (by norm_num)
    (by norm_num)
  rw [zpow_zero, mul_one] at value
  exact ⟨significand, exponent, full,
    ofScientific_whole pos full.isDouble (value ▸ roundsTo_self significand exponent), value⟩

theorem holds_half_ofNat : Holds (Float.ofNat whole / Float.ofNat 2) (whole / 2) := by
  obtain ⟨significand, exponent, full, value⟩ := exists_isFull pos short (-1) (by norm_num)
    (by norm_num)
  rw [zpow_neg_one, ← div_eq_mul_inv] at value
  have exact : Holds full.toFloat (whole / 2) := ⟨significand, exponent, full, rfl, value⟩
  rwa [(holds_ofNat pos short).div_eq (holds_ofNat Nat.two_pos (by norm_num))
    (by exact_mod_cast exact)]

theorem holds_toFloat : Holds whole.toUInt64.toFloat whole := by
  obtain ⟨significand, exponent, full, value⟩ := exists_isFull pos short 0 (by norm_num)
    (by norm_num)
  rw [zpow_zero, mul_one] at value
  have same : whole.toUInt64.toNat = whole := by
    rw [Nat.toUInt64, UInt64.toNat_ofNat']
    omega
  refine ⟨significand, exponent, full, ?_, value⟩
  rw [toFloat_unpacked, same, UnpackedFloat.ofNat, UnpackedFloat.ofInt,
    normalize_of_roundsTo full.isDouble (by omega) ?_]
  · rfl
  · rw [zpow_zero, mul_one, Int.cast_natCast, ← value]
    exact roundsTo_self significand exponent

end

/-- A double is determined by the number that it holds, as only zero has two signs. -/
theorem Holds.unique {left right : Float} {number : ℚ} (leftHolds : Holds left number)
    (rightHolds : Holds right number) : left = right := by
  obtain ⟨leftSignificand, leftExponent, leftFull, rfl, rfl⟩ := leftHolds
  obtain ⟨rightSignificand, rightExponent, rightFull, rfl, same⟩ := rightHolds
  rcases lt_trichotomy leftExponent rightExponent with less | rfl | more
  · exact absurd (leftFull.isDouble.lt_of_exponent_lt rightFull.isDouble less) same.le.not_gt
  · have equal : (rightSignificand : ℚ) = leftSignificand :=
      mul_right_cancel₀ (by positivity) same
    obtain rfl : rightSignificand = leftSignificand := by exact_mod_cast equal
    rfl
  · exact absurd (rightFull.isDouble.lt_of_exponent_lt leftFull.isDouble more) same.ge.not_gt

theorem toFloat_toUInt64 {whole : ℕ} (short : whole < 2 ^ 53) :
    whole.toUInt64.toFloat = Float.ofNat whole := by
  obtain rfl | pos := Nat.eq_zero_or_pos whole
  · rw [toFloat_unpacked, ofNat_zero]
    exact pack_zero
  · exact (holds_toFloat pos short).unique (holds_ofNat pos short)

/-! ### Zero and the nearest whole number -/

theorem unpack_zero : (0.0 : Float).toModel.unpack = .zero .positive := by
  rw [← pack_zero]
  rfl

theorem zero_le_zero : (0.0 : Float) ≤ 0.0 := by
  have unfolded : (0.0 : Float) ≤ 0.0 ↔ UnpackedFloat.le (0.0 : Float).toModel.unpack
      (0.0 : Float).toModel.unpack = true := decide_eq_true_iff
  rw [unfolded, unpack_zero]
  rfl

/-- From here on every double is whole, and rounding has nothing to do. -/
theorem wholeLimit_eq : (4503599627370496.0 : Float) = Float.ofNat (2 ^ 52) := by
  decide +kernel

/-- The highest bit says whether a double is negative, so a small pattern of bits is that of a
double which is not. -/
theorem signBit_of_lt {value : Float} (low : value.toBits.toNat < 2 ^ 63) :
    (value.toBits >>> 63 == 1) = false := by
  refine beq_false_of_ne fun set => ?_
  have shifted := congrArg UInt64.toNat set
  rw [UInt64.toNat_shiftRight, Nat.shiftRight_eq_div_pow] at shifted
  simp at shifted
  omega

/-- What stands behind the point decides which way a positive double is rounded. -/
theorem nearestDouble_of_part {value : Float} {part : UInt64} (abs : value.abs = value)
    (inside : value < 4503599627370496.0) (positive : (value.toBits >>> 63 == 1) = false)
    (whole : value.toUInt64 = part) : nearestDouble value =
      if value - part.toFloat < 0.5 then part.toFloat else part.toFloat + 1.0 := by
  unfold nearestDouble
  dsimp only
  rw [abs, if_pos inside, positive, if_neg Bool.false_ne_true, whole]

theorem nearestDouble_zero : nearestDouble 0.0 = Float.ofNat 0 := by
  decide +kernel

theorem holds_half : Holds 0.5 (1 / 2) := by
  have full : IsFull (2 ^ 52) (-53) := ⟨le_rfl, by norm_num, by norm_num, by norm_num⟩
  refine ⟨2 ^ 52, -53, full, ?_, by norm_num [zpow_neg]⟩
  show (0.5 : Float) = .ofModel (.pack (.finite .positive (2 ^ 52) (-53) (by decide)))
  decide +kernel

section
variable {value : Float} {number : ℚ} (holds : Holds value number)
include holds

theorem Holds.abs_eq : value.abs = value := by
  obtain ⟨significand, exponent, full, rfl, -⟩ := holds
  rw [abs_unpacked, full.unpack_toFloat]
  rfl

theorem Holds.sub_zero_eq : value - 0.0 = value := by
  obtain ⟨significand, exponent, full, rfl, -⟩ := holds
  rw [sub_unpacked, full.unpack_toFloat, unpack_zero]
  rfl

theorem Holds.zero_mul : 0.0 * value = 0.0 := by
  obtain ⟨significand, exponent, full, rfl, -⟩ := holds
  rw [mul_unpacked, full.unpack_toFloat, unpack_zero]
  exact pack_zero

theorem Holds.zero_div : 0.0 / value = 0.0 := by
  obtain ⟨significand, exponent, full, rfl, -⟩ := holds
  rw [div_unpacked, full.unpack_toFloat, unpack_zero]
  exact pack_zero

theorem Holds.zero_lt : 0.0 < value := by
  obtain ⟨significand, exponent, full, rfl, -⟩ := holds
  have unfolded : 0.0 < full.toFloat ↔ UnpackedFloat.lt (0.0 : Float).toModel.unpack
      full.toFloat.toModel.unpack = true := decide_eq_true_iff
  rw [unfolded, full.unpack_toFloat, unpack_zero]
  rfl

theorem Holds.zero_le : 0.0 ≤ value := by
  obtain ⟨significand, exponent, full, rfl, -⟩ := holds
  have unfolded : 0.0 ≤ full.toFloat ↔ UnpackedFloat.le (0.0 : Float).toModel.unpack
      full.toFloat.toModel.unpack = true := decide_eq_true_iff
  rw [unfolded, full.unpack_toFloat, unpack_zero]
  rfl

theorem Holds.not_le_zero : ¬ value ≤ 0.0 := by
  obtain ⟨significand, exponent, full, rfl, -⟩ := holds
  have unfolded : full.toFloat ≤ 0.0 ↔ UnpackedFloat.le full.toFloat.toModel.unpack
      (0.0 : Float).toModel.unpack = true := decide_eq_true_iff
  rw [unfolded, full.unpack_toFloat, unpack_zero]
  exact Bool.false_ne_true

theorem Holds.not_negative : (value.toBits >>> 63 == 1) = false := by
  obtain ⟨significand, exponent, full, rfl, -⟩ := holds
  have bits : full.toFloat.toBits.toNat = _ := toNat_pack full.isDouble full.highest false
  rw [if_pos full.long, Bool.toNat_false] at bits
  have long := full.long
  have short := full.short
  have lowest := full.lowest
  have highest := full.highest
  exact signBit_of_lt (by omega)

/-- The conversion takes the whole part of a number below the power of two from which on every
double is whole. -/
theorem Holds.toUInt64_eq (below : number < 2 ^ 52) : value.toUInt64 = ⌊number⌋₊.toUInt64 := by
  have positive := holds.pos
  obtain ⟨significand, exponent, full, rfl, rfl⟩ := holds
  have unit : (0 : ℚ) < 2 ^ exponent := by positivity
  have long : (2 : ℚ) ^ 52 ≤ significand := by exact_mod_cast full.long
  have fraction : exponent < 0 := by
    by_contra notNegative
    have : (1 : ℚ) ≤ 2 ^ exponent := one_le_zpow₀ (by norm_num) (by omega)
    nlinarith
  have stands : StandsFor (ExtendedMantissa.ofMantissaAndAccuracy significand .exact)
      (significand : ℚ) := rfl
  have part := (stands.shiftRight (-exponent).toNat).whole
  have scaled : (significand : ℚ) / 2 ^ (-exponent).toNat = significand * 2 ^ exponent := by
    rw [← zpow_natCast, Int.toNat_of_nonneg (by omega), zpow_neg, div_inv_eq_mul]
  rw [scaled] at part
  have whole : roundToInt .positive significand exponent =
      ⌊(significand : ℚ) * 2 ^ exponent⌋₊ := by
    have floor := (Nat.floor_eq_iff positive.le).mpr part
    rw [floor, roundToInt, decreaseExponent, Int.toNat_eq_zero.mpr (by omega), Nat.shiftLeft_zero]
    show ((ExtendedMantissa.ofMantissaAndAccuracy significand .exact >>>
      (0 - (exponent - (0 : ℕ))).toNat).mantissa : ℤ) = _
    rw [Nat.cast_zero, sub_zero, zero_sub]
  have small : ⌊(significand : ℚ) * 2 ^ exponent⌋₊ < 2 ^ 52 :=
    (Nat.floor_lt positive.le).mpr (by exact_mod_cast below)
  have read : full.toFloat.toUInt64 =
      UnpackedFloat.toUInt64 full.toFloat.toModel.unpack := rfl
  rw [read, full.unpack_toFloat]
  show UInt64.ofNatClamp (roundToInt .positive significand exponent).toNat = _
  rw [whole, Int.toNat_natCast]
  have fits : ⌊(significand : ℚ) * 2 ^ exponent⌋₊ < UInt64.size :=
    small.trans (by rw [UInt64.size]; norm_num)
  rw [UInt64.ofNatClamp, dif_pos fits, Nat.toUInt64, UInt64.ofNatLT_eq_ofNat]

/-- A double holds what stands behind the point of another one, so taking off the whole part is
exact. -/
theorem Holds.exists_fraction (below : number < 2 ^ 52) (some : 0 < ⌊number⌋₊)
    (more : (⌊number⌋₊ : ℚ) < number) : ∃ rest, Holds rest (number - ⌊number⌋₊) := by
  have positive := holds.pos
  have least : (1 : ℚ) ≤ number := Nat.floor_pos.mp some
  obtain ⟨significand, exponent, full, rfl, rfl⟩ := holds
  generalize ⌊(significand : ℚ) * 2 ^ exponent⌋₊ = part at some more ⊢
  have unit : (0 : ℚ) < 2 ^ exponent := by positivity
  have low : -53 < exponent := by
    have short : (significand : ℚ) < 2 ^ 53 := by exact_mod_cast full.short
    have bits : (2 : ℚ) ^ (-53 : ℤ) < 2 ^ exponent := by
      rw [zpow_neg, inv_lt_iff_one_lt_mul₀ (by positivity), mul_comm]
      exact least.trans_lt (mul_lt_mul_of_pos_right (by exact_mod_cast short) unit)
    exact (zpow_lt_zpow_iff_right₀ (by norm_num)).mp bits
  have fraction : exponent < 0 := by
    by_contra notNegative
    have : (1 : ℚ) ≤ 2 ^ exponent := one_le_zpow₀ (by norm_num) (by omega)
    have long : (2 : ℚ) ^ 52 ≤ significand := by exact_mod_cast full.long
    nlinarith
  have wholeValue : ((part * 2 ^ (-exponent).toNat : ℕ) : ℚ) * 2 ^ exponent = part := by
    rw [Nat.cast_mul, Nat.cast_pow, Nat.cast_ofNat, ← zpow_natCast, mul_assoc,
      ← zpow_add₀ (by norm_num), Int.toNat_of_nonneg (by omega), neg_add_cancel, zpow_zero, mul_one]
  -- The whole part is taken off the significand, and what is left has no more bits.
  have less : part * 2 ^ (-exponent).toNat < significand := by
    rw [← wholeValue] at more
    exact_mod_cast lt_of_mul_lt_mul_right more unit.le
  obtain ⟨restSignificand, restExponent, restFull, value⟩ :=
    exists_isFull (Nat.sub_pos_of_lt less) ((Nat.sub_le _ _).trans_lt full.short) exponent
      (by omega) (by omega)
  refine ⟨restFull.toFloat, restSignificand, restExponent, restFull, rfl, ?_⟩
  rw [value, Nat.cast_sub less.le, sub_mul, wholeValue]

/-- The part of a number behind the point is less than a half just if the computed one is. -/
theorem Holds.sub_floor_lt_half_iff (below : number < 2 ^ 52) :
    value - Float.ofNat ⌊number⌋₊ < 0.5 ↔ number - ⌊number⌋₊ < 1 / 2 := by
  have small : ⌊number⌋₊ < 2 ^ 53 := by
    have := (Nat.floor_lt holds.pos.le).mpr (show number < (2 ^ 52 : ℕ) by exact_mod_cast below)
    omega
  obtain none | some := Nat.eq_zero_or_pos ⌊number⌋₊
  · rw [none, ofNat_zero, holds.sub_zero_eq, holds.lt_iff holds_half, Nat.cast_zero, sub_zero]
  have wholeHolds := holds_ofNat some small
  rcases (Nat.floor_le holds.pos.le).eq_or_lt with same | more
  · rw [holds.sub_eq_zero wholeHolds same.symm, same, sub_self]
    exact iff_of_true holds_half.zero_lt (by norm_num)
  · obtain ⟨rest, restHolds⟩ := holds.exists_fraction below some more
    rw [holds.sub_eq wholeHolds restHolds, restHolds.lt_iff holds_half]

/-- A double below the power of two from which on every double is whole is rounded to the nearest
whole number, halves upwards. -/
theorem Holds.nearestDouble_eq (below : number < 2 ^ 52) :
    nearestDouble value = Float.ofNat ⌊number + 1 / 2⌋₊ := by
  have whole := Nat.floor_le holds.pos.le
  have next := Nat.lt_floor_add_one number
  have half := holds.sub_floor_lt_half_iff below
  have small : ⌊number⌋₊ < 2 ^ 52 :=
    (Nat.floor_lt holds.pos.le).mpr (by exact_mod_cast below)
  have inside : value < 4503599627370496.0 := by
    rw [wholeLimit_eq, holds.lt_iff (holds_ofNat (by norm_num) (by norm_num))]
    exact_mod_cast below
  rw [nearestDouble_of_part holds.abs_eq inside holds.not_negative (holds.toUInt64_eq below),
    toFloat_toUInt64 (by omega)]
  by_cases low : number - ⌊number⌋₊ < 1 / 2
  · rw [if_pos (half.mpr low)]
    refine congrArg Float.ofNat ((Nat.floor_eq_iff (by linarith)).mpr ⟨?_, ?_⟩).symm <;> linarith
  · have up : ⌊number + 1 / 2⌋₊ = ⌊number⌋₊ + 1 := by
      refine (Nat.floor_eq_iff (by linarith)).mpr ⟨?_, ?_⟩ <;> push_cast <;> linarith
    have one : (1.0 : Float) = Float.ofNat 1 := by decide +kernel
    rw [if_neg (mt half.mp low), up, one]
    obtain none | some := Nat.eq_zero_or_pos ⌊number⌋₊
    · rw [none]
      decide +kernel
    · refine (holds_ofNat some (by omega)).add_eq (holds_ofNat Nat.one_pos (by norm_num)) ?_
      exact_mod_cast holds_ofNat (Nat.succ_pos _) (by omega)

end

end MigrationGuard.Decimal
