/-
This file tells when computing with singles leaves their range. A result is finite
just if what is rounded lies below the least number that becomes an infinity. Sums
of squares are not negative, so nothing is taken away again, and a sum that is
finite has finite squares only. A square root of such a sum is not too small, so
quotients by it are finite where the dividend is. These are the steps in which a
vector is brought to the length one: squares, their sum, a root of it with a small
amount added, and a quotient for each component. Each lemma about an operation is
stated for unpacked numbers first, where signs and magnitudes can be told, and
then for singles. At the end the file says which doubles can be narrowed to a
single that is finite.
-/

import MigrationGuard.Decimal.Narrowing
import MigrationGuard.Proofs.Decimal.SingleFields

namespace MigrationGuard.Decimal

open Float.Model Float.Model.UnpackedFloat

/-! ### Signs and magnitudes -/

/-- The number has a sign, which is this one. What is not a number has none. -/
def HasSign (sign : Sign) : UnpackedFloat → Prop
  | .notANumber => False
  | .infinity other => other = sign
  | .zero other => other = sign
  | .finite other .. => other = sign

/-- How far a finite number is from zero. Infinities and what is no number do not matter here. -/
def magnitude : UnpackedFloat → ℚ
  | .finite _ significand exponent _ => significand * 2 ^ exponent
  | _ => 0

theorem HasSign.hasSign_settled {sign : Sign} {value : UnpackedFloat} (same : HasSign sign value) :
    HasSign sign (settled value) := by
  cases value with
  | finite _ _ exponent =>
    by_cases fits : exponent ≤ 104
    · rw [settled_of_le fits]
      exact same
    · rw [settled_of_not_le fits]
      exact same
  | _ => exact same

theorem HasSign.isNaN {sign : Sign} {value : UnpackedFloat} (same : HasSign sign value) :
    value.isNaN = false := by
  cases value with
  | notANumber => exact same.elim
  | _ => rfl

theorem isNaN_of_isFinite {value : UnpackedFloat} (finite : value.isFinite) :
    value.isNaN = false := by
  cases value with
  | notANumber => exact nomatch finite
  | _ => rfl

namespace RoundedFrom

variable {number : ℚ} {sign : Sign} {value : UnpackedFloat}
  (rounded : RoundedFrom number sign value)
include rounded

theorem isRounded : IsRounded value := by
  cases rounded with
  | zero => trivial
  | finite single => exact single

theorem hasSign : HasSign sign value := by
  cases rounded <;> exact rfl

/-- The result is finite just if the number is below the limit, so overflow can be told from the
exact result. -/
theorem isFinite_settled_iff : (settled value).isFinite ↔ number < singleLimit := by
  cases rounded with
  | zero low => exact iff_of_true rfl (lt_singleLimit low (by norm_num))
  | @finite _ exponent single fits =>
    rw [← fits]
    by_cases small : exponent ≤ 104
    · rw [settled_of_le small]
      exact iff_of_true rfl small
    · rw [settled_of_not_le small]
      exact iff_of_false Bool.false_ne_true small

/-- A finite result reaches the powers of two that the number reaches. -/
theorem reaches_settled {power : ℤ} (least : -149 ≤ power) (reached : 2 ^ power ≤ number)
    (finite : (settled value).isFinite) : 2 ^ power ≤ magnitude (settled value) := by
  cases rounded with
  | zero low =>
    have less := (zpow_lt_zpow_iff_right₀ (by norm_num)).mp (reached.trans_lt low)
    omega
  | @finite _ exponent single fits reaches =>
    by_cases small : exponent ≤ 104
    · rw [settled_of_le small]
      exact reaches power least reached
    · rw [settled_of_not_le small] at finite
      exact absurd finite Bool.false_ne_true

end RoundedFrom

/-! ### Sums -/

/-- A sum of mantissas that is not zero is rounded with its sign. -/
theorem normalize_single {mantissa : ℤ} (present : mantissa ≠ 0) (scale : ℤ) :
    ∃ sign, RoundedFrom ((|mantissa| : ℚ) * 2 ^ scale) sign
        (UnpackedFloat.normalize Format.binary32 mantissa scale .positive) ∧
      (0 < mantissa → sign = .positive) := by
  rcases present.lt_or_gt with below | above
  · obtain ⟨whole, rfl⟩ : ∃ whole : ℕ, mantissa = -whole := ⟨(-mantissa).toNat, by omega⟩
    rw [UnpackedFloat.normalize, compare_lt_iff_lt.mpr below, neg_neg, Int.cast_neg, abs_neg,
      Int.cast_natCast, Nat.abs_cast]
    exact ⟨.negative, .round .negative (by omega) scale, fun above => by omega⟩
  · obtain ⟨whole, rfl⟩ : ∃ whole : ℕ, mantissa = whole := ⟨mantissa.toNat, by omega⟩
    rw [UnpackedFloat.normalize, compare_gt_iff_gt.mpr above, Int.cast_natCast, Nat.abs_cast]
    exact ⟨.positive, .round .positive (by omega) scale, fun _ => rfl⟩

theorem abs_apply (sign : Sign) (whole : ℕ) : |sign.apply whole| = whole := by
  cases sign
  · exact (abs_neg _).trans (Nat.abs_cast whole)
  · exact Nat.abs_cast whole

section
variable {leftSign rightSign : Sign} {left right : ℕ} {leftScale rightScale : ℤ}
  (leftPos : 0 < left) (rightPos : 0 < right)

/-- Two numbers are added at a common exponent, where the sum of the mantissas is exact. -/
theorem add_aligned : ∃ mantissa scale, UnpackedFloat.add Format.binary32
      (.finite leftSign left leftScale leftPos) (.finite rightSign right rightScale rightPos) =
        UnpackedFloat.normalize Format.binary32 mantissa scale .positive ∧
    (|mantissa| : ℚ) * 2 ^ scale ≤ left * 2 ^ leftScale + right * 2 ^ rightScale ∧
    (leftSign = .positive → rightSign = .positive → 0 < mantissa) := by
  have leftShifted := shiftLeft_mul_zpow left (min_le_left leftScale rightScale)
  have rightShifted := shiftLeft_mul_zpow right (min_le_right leftScale rightScale)
  have leftLong : 0 < left <<< (leftScale - min leftScale rightScale).toNat :=
    Nat.shiftLeft_pos_iff.mpr leftPos
  refine ⟨_, min leftScale rightScale, rfl, ?_, ?_⟩
  · rw [← leftShifted, ← rightShifted, ← add_mul]
    refine mul_le_mul_of_nonneg_right ?_ (by positivity)
    have triangle := abs_add_le
      (leftSign.apply (left <<< (leftScale - min leftScale rightScale).toNat : ℕ))
      (rightSign.apply (right <<< (rightScale - min leftScale rightScale).toNat : ℕ))
    rw [abs_apply, abs_apply] at triangle
    have numbers := (Int.cast_le (R := ℚ)).mpr triangle
    push_cast at numbers ⊢
    exact numbers
  · rintro rfl rfl
    exact Int.add_pos_of_pos_of_nonneg (Int.natCast_pos.mpr leftLong) (Int.natCast_nonneg _)

/-- A sum is zero, or it is rounded from a number that is no further from zero than both together.
It is positive if both are. -/
theorem add_finite :
    let sum := UnpackedFloat.add Format.binary32 (.finite leftSign left leftScale leftPos)
      (.finite rightSign right rightScale rightPos)
    sum = .zero .positive ∨ ∃ number sign, RoundedFrom number sign sum ∧
      number ≤ left * 2 ^ leftScale + right * 2 ^ rightScale ∧
      (leftSign = .positive → rightSign = .positive → sign = .positive) := by
  intro sum
  obtain ⟨mantissa, scale, same, most, positive⟩ :=
    @add_aligned leftSign rightSign _ _ leftScale rightScale leftPos rightPos
  rw [show sum = _ from same]
  by_cases none : mantissa = 0
  · rw [none]
    exact .inl rfl
  · obtain ⟨sign, rounded, above⟩ := normalize_single none scale
    exact .inr ⟨_, sign, rounded, most, fun leftSame rightSame =>
      above (positive leftSame rightSame)⟩

end

section
variable {left right : UnpackedFloat}

theorem isRounded_add (leftSettled : IsSettled left) (rightSettled : IsSettled right) :
    IsRounded (UnpackedFloat.add Format.binary32 left right) := by
  cases left with
  | notANumber => trivial
  | infinity sign =>
    cases right with
    | infinity other =>
      show IsRounded (if sign == other then .infinity sign else .notANumber)
      split_ifs <;> trivial
    | _ => trivial
  | zero sign =>
    cases right with
    | zero other =>
      show IsRounded (if sign == other then .zero sign else .zero .positive)
      split_ifs <;> trivial
    | finite => exact rightSettled.isRounded
    | _ => trivial
  | finite sign _ exponent pos =>
    cases right with
    | finite other _ otherExponent otherPos =>
      obtain none | ⟨_, _, rounded, -⟩ :=
        @add_finite sign other _ _ exponent otherExponent pos otherPos
      · rw [none]
        trivial
      · exact rounded.isRounded
    | zero => exact leftSettled.isRounded
    | _ => trivial

/-- A sum of numbers that are not negative is not negative. If it is finite, they are. -/
theorem add_notNegative (leftSign : HasSign .positive left) (rightSign : HasSign .positive right) :
    HasSign .positive (settled (UnpackedFloat.add Format.binary32 left right)) ∧
      ((settled (UnpackedFloat.add Format.binary32 left right)).isFinite →
        left.isFinite ∧ right.isFinite) := by
  cases left with
  | notANumber => exact leftSign.elim
  | infinity =>
    obtain rfl := leftSign
    cases right with
    | notANumber => exact rightSign.elim
    | infinity =>
      obtain rfl := rightSign
      exact ⟨rfl, nofun⟩
    | _ => exact ⟨rfl, nofun⟩
  | zero =>
    obtain rfl := leftSign
    cases right with
    | notANumber => exact rightSign.elim
    | infinity => exact ⟨rightSign, nofun⟩
    | zero =>
      obtain rfl := rightSign
      exact ⟨rfl, fun _ => ⟨rfl, rfl⟩⟩
    | finite => exact ⟨rightSign.hasSign_settled, fun _ => ⟨rfl, rfl⟩⟩
  | finite _ _ exponent pos =>
    cases right with
    | notANumber => exact rightSign.elim
    | infinity => exact ⟨rightSign, nofun⟩
    | zero => exact ⟨leftSign.hasSign_settled, fun _ => ⟨rfl, rfl⟩⟩
    | finite _ _ otherExponent otherPos =>
      obtain rfl := leftSign
      obtain rfl := rightSign
      refine ⟨?_, fun _ => ⟨rfl, rfl⟩⟩
      obtain none | ⟨_, _, rounded, -, positive⟩ :=
        @add_finite .positive .positive _ _ exponent otherExponent pos otherPos
      · rw [none]
        rfl
      · obtain rfl := positive rfl rfl
        exact rounded.hasSign.hasSign_settled

/-- A sum of finite numbers is finite if their magnitudes do not reach the limit together. -/
theorem isFinite_add (leftSettled : IsSettled left) (rightSettled : IsSettled right)
    (leftFinite : left.isFinite) (rightFinite : right.isFinite)
    (small : magnitude left + magnitude right < singleLimit) :
    (settled (UnpackedFloat.add Format.binary32 left right)).isFinite := by
  cases left with
  | notANumber => exact nomatch leftFinite
  | infinity => exact nomatch leftFinite
  | zero sign =>
    cases right with
    | notANumber => exact nomatch rightFinite
    | infinity => exact nomatch rightFinite
    | zero other =>
      show (settled (if sign == other then .zero sign else .zero .positive)).isFinite
      split_ifs <;> exact rfl
    | finite => exact congrArg UnpackedFloat.isFinite rightSettled.settled_eq
  | finite sign _ exponent pos =>
    cases right with
    | notANumber => exact nomatch rightFinite
    | infinity => exact nomatch rightFinite
    | zero => exact congrArg UnpackedFloat.isFinite leftSettled.settled_eq
    | finite other _ otherExponent otherPos =>
      obtain none | ⟨_, _, rounded, most, -⟩ :=
        @add_finite sign other _ _ exponent otherExponent pos otherPos
      · rw [none]
        rfl
      · exact rounded.isFinite_settled_iff.mpr (most.trans_lt small)

end

/-! ### Squares -/

/-- A square is rounded once and has no minus, whatever the sign was. -/
theorem square_finite (sign : Sign) {significand : ℕ} {exponent : ℤ}
    (single : IsSingle significand exponent) :
    RoundedFrom ((significand * 2 ^ exponent) ^ 2) .positive (UnpackedFloat.mul Format.binary32
      (.finite sign significand exponent single.pos)
      (.finite sign significand exponent single.pos)) := by
  have stands : StandsFor
      (ExtendedMantissa.ofMantissaAndAccuracy (significand * significand) .exact)
      ((significand * significand : ℕ) : ℚ) := rfl
  have positive : sign * sign = .positive := by cases sign <;> rfl
  have value : ((significand : ℚ) * 2 ^ exponent) ^ 2 =
      ((significand * significand : ℕ) : ℚ) * 2 ^ (exponent + exponent) := by
    rw [zpow_add₀ (by norm_num)]
    push_cast
    ring
  rw [value, ← positive]
  refine .roundWithAccuracy (sign * sign) stands ?_
  rw [targetExponent_single]
  -- At the lowest exponent the square lies below all singles, otherwise it has bits enough.
  rcases single.full with low | full
  · omega
  · have long : 46 ≤ (significand * significand).log2 := by
      refine (Nat.le_log2 (Nat.mul_pos single.pos single.pos).ne').mpr ?_
      calc 2 ^ 46 = 2 ^ 23 * 2 ^ 23 := by norm_num
        _ ≤ significand * significand := Nat.mul_le_mul full full
    omega

section
variable {value : UnpackedFloat} (single : IsSettled value)
include single

theorem isRounded_square : IsRounded (UnpackedFloat.mul Format.binary32 value value) := by
  cases value with
  | finite sign => exact (square_finite sign single.1).isRounded
  | _ => trivial

/-- A square is not negative. If it is finite, it is that of a number below the root of the
limit. -/
theorem square_notNegative (isNumber : value.isNaN = false) :
    HasSign .positive (settled (UnpackedFloat.mul Format.binary32 value value)) ∧
      ((settled (UnpackedFloat.mul Format.binary32 value value)).isFinite →
        value.isFinite ∧ magnitude value ^ 2 < singleLimit) := by
  cases value with
  | notANumber => exact nomatch isNumber
  | infinity sign => cases sign <;> exact ⟨rfl, nofun⟩
  | zero sign =>
    have none : (0 : ℚ) ^ 2 < singleLimit := by norm_num [singleLimit]
    cases sign <;> exact ⟨rfl, fun _ => ⟨rfl, none⟩⟩
  | finite sign =>
    have rounded := square_finite sign single.1
    exact ⟨rounded.hasSign.hasSign_settled, fun finite => ⟨rfl, rounded.isFinite_settled_iff.mp finite⟩⟩

end

/-! ### Square roots -/

/-- A cut stands for some number, whatever its accuracy is. -/
theorem exists_standsFor (mantissa : ℕ) (accuracy : Accuracy) :
    ∃ unit, StandsFor (ExtendedMantissa.ofMantissaAndAccuracy mantissa accuracy) unit := by
  cases accuracy with
  | exact => exact ⟨mantissa, rfl⟩
  | inexact order =>
    cases order with
    | lt =>
      refine ⟨mantissa + 1 / 4, ?_, ?_⟩ <;> dsimp only [ExtendedMantissa.ofMantissaAndAccuracy] <;>
        linarith
    | eq => exact ⟨mantissa + 1 / 2, rfl⟩
    | gt =>
      refine ⟨mantissa + 3 / 4, ?_, ?_⟩ <;> dsimp only [ExtendedMantissa.ofMantissaAndAccuracy] <;>
        linarith

section
variable {significand : ℕ} {exponent : ℤ}

/-- A square root is computed with enough bits, so rounding does not need what was cut off. -/
theorem sqrtCore_enough (pos : 0 < significand) :
    let core := sqrtCore Format.binary32 significand exponent
    core.2.1 ≤ Format.binary32.targetExponent (totalExponent core.1 core.2.1) := by
  unfold sqrtCore
  have place : Format.binary32.targetExponent
      ((totalExponent significand exponent + 1).ediv 2) =
        max ((significand.log2 + exponent + 2).ediv 2 - 24) (-149) := by
    have total : totalExponent significand exponent + 1 = significand.log2 + exponent + 2 := by
      rw [totalExponent]
      ring
    rw [total]
    rfl
  dsimp only
  rw [targetExponent_single, place]
  generalize chosen : min (exponent.ediv 2)
    (max ((significand.log2 + exponent + 2).ediv 2 - 24) (-149)) = scale
  by_cases low : scale ≤ -149
  · omega
  have halves : (significand.log2 + exponent + 2).ediv 2 = (significand.log2 + exponent + 2) / 2 :=
    rfl
  have half : exponent.ediv 2 = exponent / 2 := rfl
  have shift : 46 ≤ significand.log2 + (exponent - 2 * scale).toNat := by omega
  generalize (exponent - 2 * scale).toNat = places at shift ⊢
  have long : 2 ^ 46 ≤ significand <<< places := by
    rw [← log2_shiftLeft pos] at shift
    exact (Nat.le_log2 (Nat.shiftLeft_pos_iff.mpr pos).ne').mp shift
  have root : 2 ^ 23 ≤ (significand <<< places).sqrt :=
    Nat.le_sqrt.mpr (le_trans (by norm_num) long)
  have bits := (Nat.le_log2 (by omega)).mpr root
  omega

/-- The root of a number that is not too small is not too small, as roots bring numbers nearer to
one. -/
theorem le_sqrtCore (pos : 0 < significand)
    (reached : (2 : ℚ) ^ (-24 : ℤ) ≤ significand * 2 ^ exponent) :
    let core := sqrtCore Format.binary32 significand exponent
    (2 : ℚ) ^ (-12 : ℤ) ≤ core.1 * 2 ^ core.2.1 := by
  unfold sqrtCore
  dsimp only
  have half : exponent.ediv 2 = exponent / 2 := rfl
  have below := min_le_left (exponent.ediv 2) (Format.binary32.targetExponent
    ((totalExponent significand exponent + 1).ediv 2))
  generalize min (exponent.ediv 2) (Format.binary32.targetExponent
    ((totalExponent significand exponent + 1).ediv 2)) = scale at below ⊢
  have value := shiftLeft_mul_zpow significand (show 2 * scale ≤ exponent by omega)
  have shifted : 0 < significand <<< (exponent - 2 * scale).toNat := Nat.shiftLeft_pos_iff.mpr pos
  generalize significand <<< (exponent - 2 * scale).toNat = square at value shifted ⊢
  have unit : (0 : ℚ) < 2 ^ scale := by positivity
  -- Above this scale a root of one is enough, because no root of what is present is zero.
  rcases le_total scale (-12) with low | high
  · obtain ⟨places, rfl⟩ : ∃ places : ℕ, scale = -12 - places := ⟨(-12 - scale).toNat, by omega⟩
    have long : 2 ^ places * 2 ^ places ≤ square := by
      have least : ((2 ^ places * 2 ^ places : ℕ) : ℚ) * 2 ^ (2 * (-12 - (places : ℤ))) =
          2 ^ (-24 : ℤ) := by
        push_cast
        rw [← zpow_natCast, ← zpow_add₀ (by norm_num), ← zpow_add₀ (by norm_num)]
        congr 1
        ring
      rw [← value, ← least] at reached
      exact_mod_cast le_of_mul_le_mul_right reached (by positivity)
    have root : 2 ^ places ≤ square.sqrt := Nat.le_sqrt.mpr long
    calc (2 : ℚ) ^ (-12 : ℤ) = ((2 ^ places : ℕ) : ℚ) * 2 ^ (-12 - (places : ℤ)) := by
          push_cast
          rw [← zpow_natCast, ← zpow_add₀ (by norm_num), add_sub_cancel]
      _ ≤ square.sqrt * 2 ^ (-12 - (places : ℤ)) :=
          mul_le_mul_of_nonneg_right (by exact_mod_cast root) unit.le
  · have some : (1 : ℚ) ≤ square.sqrt := by exact_mod_cast Nat.sqrt_pos.mpr shifted
    exact (zpow_le_zpow_right₀ (by norm_num) high).trans (le_mul_of_one_le_left unit.le some)

/-- A square root is rounded from a number that is not too small. -/
theorem sqrt_finite (pos : 0 < significand) :
    ∃ number, RoundedFrom number .positive
        (UnpackedFloat.sqrt Format.binary32 (.finite .positive significand exponent pos)) ∧
      ((2 : ℚ) ^ (-24 : ℤ) ≤ significand * 2 ^ exponent → (2 : ℚ) ^ (-12 : ℤ) ≤ number) := by
  have least := @le_sqrtCore significand exponent pos
  have enough := @sqrtCore_enough significand exponent pos
  obtain ⟨unit, stands⟩ := exists_standsFor (sqrtCore Format.binary32 significand exponent).1
    (sqrtCore Format.binary32 significand exponent).2.2
  refine ⟨_, .roundWithAccuracy .positive stands enough, fun reached => ?_⟩
  exact (least reached).trans (mul_le_mul_of_nonneg_right stands.ofMantissa.1 (by positivity))

end

section
variable {value : UnpackedFloat}

theorem isRounded_sqrt : IsRounded (UnpackedFloat.sqrt Format.binary32 value) := by
  cases value with
  | infinity sign => cases sign <;> trivial
  | finite sign _ exponent pos =>
    cases sign with
    | negative => trivial
    | positive =>
      obtain ⟨_, rounded, -⟩ := @sqrt_finite _ exponent pos
      exact rounded.isRounded
  | _ => trivial

/-- A square root of what is not negative is not negative, and finite only if that is. It is not
too small if that is not. -/
theorem sqrt_notNegative (sign : HasSign .positive value) :
    HasSign .positive (settled (UnpackedFloat.sqrt Format.binary32 value)) ∧
      ((settled (UnpackedFloat.sqrt Format.binary32 value)).isFinite → value.isFinite ∧
        (2 ^ (-24 : ℤ) ≤ magnitude value →
          2 ^ (-12 : ℤ) ≤ magnitude (settled (UnpackedFloat.sqrt Format.binary32 value)))) := by
  cases value with
  | notANumber => exact sign.elim
  | infinity =>
    obtain rfl := sign
    exact ⟨rfl, nofun⟩
  | zero =>
    have none : ¬(2 : ℚ) ^ (-24 : ℤ) ≤ 0 := by norm_num
    exact ⟨sign, fun _ => ⟨rfl, fun reached => absurd reached none⟩⟩
  | finite _ _ exponent pos =>
    obtain rfl := sign
    obtain ⟨number, rounded, least⟩ := @sqrt_finite _ exponent pos
    exact ⟨rounded.hasSign.hasSign_settled, fun finite => ⟨rfl, fun reached =>
      rounded.reaches_settled (by norm_num) (least reached) finite⟩⟩

end

/-! ### Quotients -/

/-- A quotient is rounded once, with the sign of both. -/
theorem div_finite (leftSign rightSign : Sign) {left right : ℕ} {leftScale rightScale : ℤ}
    (leftPos : 0 < left) (rightPos : 0 < right) :
    RoundedFrom (left * 2 ^ leftScale / (right * 2 ^ rightScale)) (leftSign / rightSign)
      (UnpackedFloat.div Format.binary32 (.finite leftSign left leftScale leftPos)
        (.finite rightSign right rightScale rightPos)) := by
  obtain ⟨unit, stands, value⟩ :=
    @standsFor_divCore left right leftScale rightScale rightPos Format.binary32
  rw [← value]
  exact .roundWithAccuracy _ stands (divCore_enough leftPos rightPos Format.binary32)

section
variable {left right : UnpackedFloat}

theorem isRounded_div : IsRounded (UnpackedFloat.div Format.binary32 left right) := by
  cases left with
  | finite sign _ _ pos =>
    cases right with
    | finite other _ _ otherPos => exact (div_finite sign other pos otherPos).isRounded
    | _ => trivial
  | _ => cases right <;> trivial

/-- A quotient that stays below the limit is finite just if the dividend is. -/
theorem isFinite_div_iff (isNumber : left.isNaN = false) (sign : HasSign .positive right)
    (present : right.isFinite → 0 < magnitude right)
    (small : left.isFinite → right.isFinite → magnitude left / magnitude right < singleLimit) :
    (settled (UnpackedFloat.div Format.binary32 left right)).isFinite = left.isFinite := by
  cases right with
  | notANumber => exact sign.elim
  | zero => exact absurd (present rfl) (lt_irrefl 0)
  | infinity =>
    cases left with
    | notANumber => exact nomatch isNumber
    | _ => rfl
  | finite other _ _ otherPos =>
    cases left with
    | notANumber => exact nomatch isNumber
    | infinity => rfl
    | zero => rfl
    | finite sign _ _ pos =>
      exact (div_finite sign other pos otherPos).isFinite_settled_iff.mpr (small rfl rfl)

end

/-! ### Singles -/

section
variable {left right value : Float32}

theorem unpack_add (left right : Float32) : (left + right).toModel.unpack =
    settled (UnpackedFloat.add Format.binary32 left.toModel.unpack right.toModel.unpack) :=
  unpack_pack_single (isRounded_add (isSettled_unpack left) (isSettled_unpack right))

theorem unpack_square (value : Float32) : (value * value).toModel.unpack =
    settled (UnpackedFloat.mul Format.binary32 value.toModel.unpack value.toModel.unpack) :=
  unpack_pack_single (isRounded_square (isSettled_unpack value))

theorem unpack_sqrt (value : Float32) : value.sqrt.toModel.unpack =
    settled (UnpackedFloat.sqrt Format.binary32 value.toModel.unpack) :=
  unpack_pack_single isRounded_sqrt

theorem unpack_div (left right : Float32) : (left / right).toModel.unpack =
    settled (UnpackedFloat.div Format.binary32 left.toModel.unpack right.toModel.unpack) :=
  unpack_pack_single isRounded_div

/-- The single is not negative. Neither zero with a minus nor what is no number counts. -/
def IsNotNegative (value : Float32) : Prop :=
  HasSign .positive value.toModel.unpack

/-- A sum of singles that are not negative is not negative. If it is finite, they are. -/
theorem IsNotNegative.add (leftSign : IsNotNegative left) (rightSign : IsNotNegative right) :
    IsNotNegative (left + right) ∧ ((left + right).isFinite → left.isFinite ∧ right.isFinite) := by
  have sum := add_notNegative leftSign rightSign
  rw [← unpack_add] at sum
  exact sum

/-- A square is not negative. If it is finite, it is that of a single below the root of the
limit. -/
theorem isNotNegative_square (isNumber : value.isNaN = false) :
    IsNotNegative (value * value) ∧ ((value * value).isFinite →
      value.isFinite ∧ magnitude value.toModel.unpack ^ 2 < singleLimit) := by
  have square := square_notNegative (isSettled_unpack value) isNumber
  rw [← unpack_square] at square
  exact square

/-- A square root of what is not negative is not negative, and finite only if that is. It is not
too small if that is not. -/
theorem IsNotNegative.sqrt (sign : IsNotNegative value) :
    IsNotNegative value.sqrt ∧ (value.sqrt.isFinite → value.isFinite ∧
      (2 ^ (-24 : ℤ) ≤ magnitude value.toModel.unpack →
        2 ^ (-12 : ℤ) ≤ magnitude value.sqrt.toModel.unpack)) := by
  have root := sqrt_notNegative sign
  rw [← unpack_sqrt] at root
  exact root

end

/-! ### Bounds -/

/-- The largest single is at a distance from the limit, which leaves room for adding one. -/
theorem magnitude_le (value : Float32) :
    magnitude value.toModel.unpack ≤ (2 ^ 24 - 1) * 2 ^ (104 : ℤ) := by
  have single := isSettled_unpack value
  generalize value.toModel.unpack = unpacked at single ⊢
  cases unpacked with
  | finite _ significand exponent =>
    obtain ⟨⟨-, small, -, -⟩, high⟩ := single
    have most : (significand : ℚ) ≤ 2 ^ 24 - 1 := by
      have small : (significand : ℚ) + 1 ≤ 2 ^ 24 := by exact_mod_cast small
      linarith
    exact mul_le_mul most (zpow_le_zpow_right₀ (by norm_num) high) (by positivity) (by norm_num)
  | _ =>
    show (0 : ℚ) ≤ _
    norm_num

/-- Adding one, or less, does not leave the range: the sum is rounded back to the largest single at
most. -/
theorem isFinite_add_small {left right : Float32} (leftFinite : left.isFinite)
    (rightFinite : right.isFinite) (small : magnitude right.toModel.unpack ≤ 1) :
    (left + right).isFinite := by
  change (left + right).toModel.unpack.isFinite
  rw [unpack_add]
  refine isFinite_add (isSettled_unpack left) (isSettled_unpack right) leftFinite rightFinite ?_
  have most := magnitude_le left
  rw [singleLimit]
  norm_num at most ⊢
  linarith

/-- A number below the root of the limit is still below the limit when it is divided by what is not
too small. -/
theorem div_lt_singleLimit {number root : ℚ} (square : number ^ 2 < singleLimit)
    (least : 2 ^ (-12 : ℤ) ≤ root) : number / root < singleLimit := by
  have positive : 0 < root := lt_of_lt_of_le (by positivity) least
  have below : number < 2 ^ 64 := by
    refine lt_of_pow_lt_pow_left₀ 2 (by norm_num) (square.trans ?_)
    norm_num [singleLimit]
  rw [div_lt_iff₀ positive]
  calc number < 2 ^ 64 := below
    _ ≤ singleLimit * 2 ^ (-12 : ℤ) := by norm_num [singleLimit]
    _ ≤ singleLimit * root := mul_le_mul_of_nonneg_left least (by norm_num [singleLimit])

/-! ### Narrowing -/

/-- The double is below the least number that becomes an infinity when it is narrowed. -/
def FitsSingle (value : Float) : Prop :=
  magnitude value.toModel.unpack < singleLimit

instance (value : Float) : Decidable (FitsSingle value) :=
  inferInstanceAs (Decidable (_ < _))

theorem isRounded_roundedToSingle (value : UnpackedFloat) : IsRounded (roundedToSingle value) := by
  cases value with
  | finite sign _ exponent pos => exact (RoundedFrom.round sign pos exponent).isRounded
  | _ => trivial

theorem unpack_narrowed (value : Float) :
    (narrowed value).toModel.unpack = settled (roundedToSingle value.toModel.unpack) :=
  unpack_pack_single (isRounded_roundedToSingle value.toModel.unpack)

theorem roundedToSingle_cases {value : UnpackedFloat} (finite : value.isFinite) :
    (settled (roundedToSingle value)).isNaN = false ∧
      ((settled (roundedToSingle value)).isFinite ↔ magnitude value < singleLimit) := by
  cases value with
  | notANumber => exact nomatch finite
  | infinity => exact nomatch finite
  | zero =>
    have none : 0 < singleLimit := by norm_num [singleLimit]
    exact ⟨rfl, iff_of_true rfl none⟩
  | finite sign _ exponent pos =>
    have rounded := RoundedFrom.round sign pos exponent
    exact ⟨rounded.hasSign.hasSign_settled.isNaN, rounded.isFinite_settled_iff⟩

/-- A finite double is narrowed to a number, which is finite just if the double fits. -/
theorem narrowed_cases {value : Float} (finite : value.isFinite) :
    (narrowed value).isNaN = false ∧ (narrowed value).isFinite = decide (FitsSingle value) := by
  have narrow := roundedToSingle_cases finite
  rw [← unpack_narrowed] at narrow
  exact ⟨narrow.1, Bool.eq_iff_iff.mpr (narrow.2.trans decide_eq_true_iff.symm)⟩

end MigrationGuard.Decimal
