/-
This file says where a number ends up that is rounded to a single. The significand
is cut to twenty-four bits and rounded, which may carry it to the next power of
two. So a number becomes an infinity just if it is not below the middle between
the largest single and the power of two behind it, and it does not fall below a
power of two that it reached. More is not needed to tell which computations with
vectors stay finite: that a similarity is a number and not the quotient of two
infinities depends on the range alone, not on which single a result is rounded to.
So the file does not say which of its neighbours a number is rounded to.
-/

import MigrationGuard.Proofs.Decimal.Doubles

namespace MigrationGuard.Decimal

open Float.Model Float.Model.UnpackedFloat

/-! ### Singles -/

/-- The significand and the exponent of a positive single, if the exponent is not too high. -/
structure IsSingle (significand : ℕ) (exponent : ℤ) : Prop where
  /-- The significand is not zero. -/
  pos : 0 < significand
  /-- The significand has at most twenty-four bits. -/
  small : significand < 2 ^ 24
  /-- The exponent is not below the lowest one. -/
  lowest : -149 ≤ exponent
  /-- Above the lowest exponent all bits are used. -/
  full : exponent = -149 ∨ 2 ^ 23 ≤ significand

/-- The least number that is rounded to an infinity: the middle between the largest single and the
power of two behind it. -/
def singleLimit : ℚ :=
  (2 ^ 24 - 1 / 2) * 2 ^ (104 : ℤ)

/-- A positive number is rounded to this. Only the range is described: when it becomes zero, when
its exponent is too high, and which powers of two it reaches. -/
inductive RoundedFrom (number : ℚ) (sign : Sign) : UnpackedFloat → Prop where
  /-- It is too small. -/
  | zero (low : number < 2 ^ (-149 : ℤ)) : RoundedFrom number sign (.zero sign)
  /-- It is rounded to a significand and an exponent. The exponent is too high just if the number
  reaches the limit, and a power of two that the number reaches is still reached. -/
  | finite {significand : ℕ} {exponent : ℤ} (single : IsSingle significand exponent)
    (fits : exponent ≤ 104 ↔ number < singleLimit)
    (reaches : ∀ power : ℤ, -149 ≤ power → (2 : ℚ) ^ power ≤ number →
      (2 : ℚ) ^ power ≤ significand * 2 ^ exponent) :
    RoundedFrom number sign (.finite sign significand exponent single.pos)

theorem lt_singleLimit {number : ℚ} {power : ℤ} (below : number < 2 ^ power) (low : power ≤ 127) :
    number < singleLimit := by
  have most : (2 : ℚ) ^ power ≤ 2 ^ (127 : ℤ) := zpow_le_zpow_right₀ (by norm_num) low
  have less : (2 : ℚ) ^ (127 : ℤ) ≤ singleLimit := by
    rw [singleLimit]
    norm_num
  linarith

theorem singleLimit_le {number : ℚ} {power : ℤ} (reached : 2 ^ power ≤ number)
    (high : 128 ≤ power) : singleLimit ≤ number := by
  have least : (2 : ℚ) ^ (128 : ℤ) ≤ 2 ^ power := zpow_le_zpow_right₀ (by norm_num) high
  have more : singleLimit ≤ (2 : ℚ) ^ (128 : ℤ) := by
    rw [singleLimit]
    norm_num
  linarith

/-! ### Rounding a significand -/

/-- Rounding gives the mantissa or the next whole number, whatever was cut off. -/
theorem roundedMantissa_near (cut : ExtendedMantissa) :
    cut.mantissa ≤ cut.roundedMantissa ∧ cut.roundedMantissa ≤ cut.mantissa + 1 := by
  rcases cut with ⟨mantissa, round, sticky⟩
  cases round <;> cases sticky <;>
    simp only [ExtendedMantissa.roundedMantissa, ExtendedMantissa.accuracy,
      Accuracy.roundToNearestEven] <;> omega

/-- An even number is reached from a half below it on, as a tie goes to the even neighbour. -/
theorem StandsFor.rounded_lt_iff {cut : ExtendedMantissa} {number : ℚ}
    (stands : StandsFor cut number) {whole : ℕ} (even : whole % 2 = 0) :
    cut.roundedMantissa < whole ↔ number < whole - 1 / 2 := by
  have near := roundedMantissa_near cut
  obtain ⟨atLeast, less⟩ := stands.whole
  rcases lt_trichotomy (cut.mantissa + 1) whole with low | next | high
  · have lowNumber : (cut.mantissa : ℚ) + 1 + 1 ≤ whole := by exact_mod_cast low
    exact iff_of_true (by omega) (by linarith)
  · rcases cut with ⟨mantissa, round, sticky⟩
    dsimp only at next
    subst next
    push_cast
    cases round <;> cases sticky <;> simp only [StandsFor] at stands <;>
      simp only [ExtendedMantissa.roundedMantissa, ExtendedMantissa.accuracy,
        Accuracy.roundToNearestEven]
    · exact iff_of_true (by omega) (by linarith)
    · exact iff_of_true (by omega) (by linarith)
    · exact iff_of_false (by omega) (by linarith)
    · exact iff_of_false (by omega) (by linarith)
  · have highNumber : (whole : ℚ) ≤ cut.mantissa := by exact_mod_cast Nat.lt_succ_iff.mp high
    exact iff_of_false (by omega) (by linarith)

/-- Whole numbers that are reached are still reached after rounding, as rounding does not pass over
a whole number. -/
theorem StandsFor.le_rounded {cut : ExtendedMantissa} {number : ℚ} (stands : StandsFor cut number)
    {whole : ℕ} (reached : (whole : ℚ) ≤ number) : whole ≤ cut.roundedMantissa := by
  have less : (whole : ℚ) < cut.mantissa + 1 := reached.trans_lt stands.whole.2
  have atMost : whole < cut.mantissa + 1 := by exact_mod_cast less
  have near := roundedMantissa_near cut
  omega

/-! ### Rounding to a single -/

theorem targetExponent_single (mantissa : ℕ) (exponent : ℤ) :
    Format.binary32.targetExponent (totalExponent mantissa exponent) =
      max (mantissa.log2 + exponent - 23) (-149) :=
  targetExponent_total Format.binary32 mantissa exponent

/-- A significand that is short enough is left as it is, so rounding once is enough. -/
theorem shiftToTargetExponent_short {significand : ℕ} {exponent : ℤ} (short : significand < 2 ^ 24)
    (lowest : -149 ≤ exponent) :
    shiftToTargetExponent Format.binary32 significand exponent .exact =
      (⟨significand, false, false⟩, exponent) := by
  have bits : significand.log2 ≤ 23 := by
    by_cases none : significand = 0
    · rw [none, Nat.log2_zero]
      omega
    · exact Nat.lt_succ_iff.mp ((Nat.log2_lt none).mpr short)
  have still : (Format.binary32.targetExponent (totalExponent significand exponent) -
      exponent).toNat = 0 := by
    rw [targetExponent_single]
    omega
  unfold shiftToTargetExponent shiftToExponent
  dsimp only
  rw [still, Nat.cast_zero, add_zero]
  rfl

/-- A significand that became too long is halved, and the exponent grows in turn. -/
theorem shiftToTargetExponent_carried {exponent : ℤ} (lowest : -149 ≤ exponent) :
    shiftToTargetExponent Format.binary32 (2 ^ 24) exponent .exact =
      (⟨2 ^ 23, false, false⟩, exponent + 1) := by
  have place : Format.binary32.targetExponent (totalExponent (2 ^ 24) exponent) = exponent + 1 := by
    rw [targetExponent_single, Nat.log2_two_pow]
    omega
  rw [shiftToTargetExponent_eq _ _ _ (by omega), place, add_sub_cancel_left]
  rfl

/-- A number is seen in units of the last place of a single. -/
structure IsScaled (number unit : ℚ) (exponent : ℤ) : Prop where
  /-- The units make up the number. -/
  value : unit * 2 ^ exponent = number
  /-- There are not too many. -/
  short : unit < 2 ^ 24
  /-- The exponent is not below the lowest one. -/
  lowest : -149 ≤ exponent
  /-- Above the lowest exponent there are enough. -/
  full : exponent = -149 ∨ 2 ^ 23 ≤ unit

/-- Before a number is rounded it is seen in units of the last place of a single. -/
theorem StandsFor.isScaled {mantissa : ℕ} {scale : ℤ} {accuracy : Accuracy} {unit : ℚ}
    (stands : StandsFor (ExtendedMantissa.ofMantissaAndAccuracy mantissa accuracy) unit)
    (enough : scale ≤ Format.binary32.targetExponent (totalExponent mantissa scale)) :
    ∃ cut exponent shifted,
      UnpackedFloat.shiftToTargetExponent Format.binary32 mantissa scale accuracy =
        (cut, exponent) ∧ StandsFor cut shifted ∧ IsScaled (unit * 2 ^ scale) shifted exponent := by
  obtain ⟨cut, shifted, shift, standsShifted, value⟩ := stands.shiftToTargetExponent enough
  have place := targetExponent_single mantissa scale
  generalize Format.binary32.targetExponent (totalExponent mantissa scale) = exponent
    at enough shift value place
  have positive : (0 : ℚ) < 2 ^ exponent := by positivity
  refine ⟨cut, exponent, shifted, shift, standsShifted, value, ?_, by omega, ?_⟩
  · have upper := stands.lt_two_zpow scale
    have most : (2 : ℚ) ^ (mantissa.log2 + scale + 1) ≤ 2 ^ (24 : ℤ) * 2 ^ exponent := by
      rw [← zpow_add₀ (by norm_num)]
      exact zpow_le_zpow_right₀ (by norm_num) (by omega)
    rw [← value] at upper
    exact lt_of_mul_lt_mul_right (upper.trans_le most) positive.le
  · by_cases low : exponent = -149
    · exact .inl low
    have present : mantissa ≠ 0 := by
      rintro rfl
      rw [Nat.log2_zero] at place
      omega
    have lower := stands.two_zpow_le present scale
    have least : (2 : ℚ) ^ (mantissa.log2 + scale) = 2 ^ (23 : ℤ) * 2 ^ exponent := by
      rw [← zpow_add₀ (by norm_num)]
      congr 1
      omega
    rw [← value, least] at lower
    exact .inr (le_of_mul_le_mul_right lower positive)

namespace IsScaled

variable {number unit : ℚ} {exponent : ℤ} (scaled : IsScaled number unit exponent)
include scaled

theorem number_lt : number < 2 ^ (exponent + 24) := by
  have positive : (0 : ℚ) < 2 ^ exponent := by positivity
  rw [← scaled.value, zpow_add₀ (by norm_num), mul_comm]
  exact mul_lt_mul_of_pos_left (by exact_mod_cast scaled.short) positive

theorem le_number (higher : exponent ≠ -149) : 2 ^ (exponent + 23) ≤ number := by
  have positive : (0 : ℚ) < 2 ^ exponent := by positivity
  rw [← scaled.value, zpow_add₀ (by norm_num), mul_comm]
  refine mul_le_mul_of_nonneg_right ?_ positive.le
  exact_mod_cast scaled.full.resolve_left higher

/-- A power of two that is at least the unit is reached by as many units. -/
theorem reaches_iff {places : ℕ} :
    2 ^ (exponent + places) ≤ number ↔ ((2 ^ places : ℕ) : ℚ) ≤ unit := by
  have positive : (0 : ℚ) < 2 ^ exponent := by positivity
  rw [← scaled.value, zpow_add₀ (by norm_num), mul_comm, mul_le_mul_iff_left₀ positive]
  norm_num

variable {cut : ExtendedMantissa} (stands : StandsFor cut unit)
include stands

/-- Where no unit is left, the number is too small for the least single. -/
theorem of_rounded_zero (none : cut.roundedMantissa = 0) : number < 2 ^ (-149 : ℤ) := by
  have less : unit < 1 := by
    refine not_le.mp fun reached => ?_
    have := stands.le_rounded (show ((1 : ℕ) : ℚ) ≤ unit by exact_mod_cast reached)
    omega
  have low : exponent = -149 := scaled.full.resolve_right (by linarith)
  have positive : (0 : ℚ) < 2 ^ exponent := by positivity
  rw [← low, ← scaled.value]
  exact mul_lt_of_lt_one_left positive less

/-- Where the units are rounded to a significand, this is the single. -/
theorem of_rounded_lt (sign : Sign) (pos : 0 < cut.roundedMantissa)
    (small : cut.roundedMantissa < 2 ^ 24) :
    RoundedFrom number sign (.finite sign cut.roundedMantissa exponent pos) := by
  have positive : (0 : ℚ) < 2 ^ exponent := by positivity
  have single : IsSingle cut.roundedMantissa exponent :=
    ⟨pos, small, scaled.lowest, scaled.full.imp_right fun full =>
      stands.le_rounded (by exact_mod_cast full)⟩
  refine .finite single ⟨fun fits => ?_, fun below => ?_⟩ fun power least reached => ?_
  · have less := (stands.rounded_lt_iff (show 2 ^ 24 % 2 = 0 by norm_num)).mp small
    push_cast at less
    have most : (2 : ℚ) ^ exponent ≤ 2 ^ (104 : ℤ) := zpow_le_zpow_right₀ (by norm_num) fits
    calc number = unit * 2 ^ exponent := scaled.value.symm
      _ < (2 ^ 24 - 1 / 2) * 2 ^ exponent := mul_lt_mul_of_pos_right less positive
      _ ≤ singleLimit := mul_le_mul_of_nonneg_left most (by norm_num)
  · refine not_lt.mp fun high => not_le.mpr below ?_
    exact singleLimit_le (scaled.le_number (by omega)) (by omega)
  · have below := (zpow_lt_zpow_iff_right₀ (by norm_num)).mp (reached.trans_lt scaled.number_lt)
    rcases le_total exponent power with high | low
    · obtain ⟨places, rfl⟩ := Int.le.dest high
      have units := stands.le_rounded (scaled.reaches_iff.mp reached)
      rw [zpow_add₀ (by norm_num), mul_comm, zpow_natCast]
      exact mul_le_mul_of_nonneg_right (by exact_mod_cast units) positive.le
    · have some : (1 : ℚ) ≤ cut.roundedMantissa := by exact_mod_cast pos
      exact (zpow_le_zpow_right₀ (by norm_num) low).trans (le_mul_of_one_le_left positive.le some)

/-- Where the units are rounded to the next power of two, it is the single. -/
theorem of_rounded_eq (sign : Sign) (carry : cut.roundedMantissa = 2 ^ 24) :
    RoundedFrom number sign (.finite sign (2 ^ 23) (exponent + 1) (Nat.two_pow_pos 23)) := by
  have lowest := scaled.lowest
  have positive : (0 : ℚ) < 2 ^ exponent := by positivity
  have single : IsSingle (2 ^ 23) (exponent + 1) :=
    ⟨Nat.two_pow_pos 23, by norm_num, by omega, .inr le_rfl⟩
  refine .finite single ⟨fun fits => ?_, fun below => ?_⟩ fun power least reached => ?_
  · exact lt_singleLimit scaled.number_lt (by omega)
  · refine not_lt.mp fun high => not_le.mpr below ?_
    have more : ((2 ^ 24 : ℕ) : ℚ) - 1 / 2 ≤ unit :=
      not_lt.mp fun less => by
        have := (stands.rounded_lt_iff (show 2 ^ 24 % 2 = 0 by norm_num)).mpr less
        omega
    push_cast at more
    have most : (2 : ℚ) ^ (104 : ℤ) ≤ 2 ^ exponent :=
      zpow_le_zpow_right₀ (by norm_num) (by omega)
    calc singleLimit ≤ (2 ^ 24 - 1 / 2) * 2 ^ exponent :=
          mul_le_mul_of_nonneg_left most (by norm_num)
      _ ≤ unit * 2 ^ exponent := mul_le_mul_of_nonneg_right more positive.le
      _ = number := scaled.value
  · have below := (zpow_lt_zpow_iff_right₀ (by norm_num)).mp (reached.trans_lt scaled.number_lt)
    calc (2 : ℚ) ^ power ≤ 2 ^ (exponent + 1 + 23) :=
          zpow_le_zpow_right₀ (by norm_num) (by omega)
      _ = ((2 ^ 23 : ℕ) : ℚ) * 2 ^ (exponent + 1) := by
          rw [zpow_add₀ (by norm_num), mul_comm]
          norm_num

end IsScaled

/-- A positive number is rounded to a single, if its cut has enough bits. -/
theorem RoundedFrom.roundWithAccuracy (sign : Sign) {mantissa : ℕ} {scale : ℤ}
    {accuracy : Accuracy} {unit : ℚ}
    (stands : StandsFor (ExtendedMantissa.ofMantissaAndAccuracy mantissa accuracy) unit)
    (enough : scale ≤ Format.binary32.targetExponent (totalExponent mantissa scale)) :
    RoundedFrom (unit * 2 ^ scale) sign
      (UnpackedFloat.roundWithAccuracy Format.binary32 sign mantissa scale accuracy) := by
  obtain ⟨cut, exponent, shifted, shift, standsShifted, scaled⟩ := stands.isScaled enough
  have atMost : cut.roundedMantissa ≤ 2 ^ 24 := by
    have less : (cut.mantissa : ℚ) < 2 ^ 24 := standsShifted.whole.1.trans_lt scaled.short
    have less : cut.mantissa < 2 ^ 24 := by exact_mod_cast less
    have near := roundedMantissa_near cut
    omega
  unfold UnpackedFloat.roundWithAccuracy
  rw [shift]
  dsimp only
  rcases atMost.lt_or_eq with small | carry
  · rw [shiftToTargetExponent_short small scaled.lowest]
    dsimp only
    by_cases none : cut.roundedMantissa = 0
    · rw [dif_pos none]
      exact .zero (scaled.of_rounded_zero standsShifted none)
    · rw [dif_neg none]
      exact scaled.of_rounded_lt standsShifted sign (Nat.pos_of_ne_zero none) small
  · rw [carry, shiftToTargetExponent_carried scaled.lowest]
    exact scaled.of_rounded_eq standsShifted sign carry

/-- A positive number of any length is rounded to a single. -/
theorem RoundedFrom.round (sign : Sign) {mantissa : ℕ} (pos : 0 < mantissa) (scale : ℤ) :
    RoundedFrom (mantissa * 2 ^ scale) sign
      (UnpackedFloat.round Format.binary32 sign mantissa scale) := by
  obtain ⟨long, lower, same, value, enough⟩ := round_eq Format.binary32 sign pos scale
  have stands : StandsFor (ExtendedMantissa.ofMantissaAndAccuracy long .exact) (long : ℚ) := rfl
  rw [same, ← value]
  exact .roundWithAccuracy sign stands enough

end MigrationGuard.Decimal
