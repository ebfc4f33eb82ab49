/-
This file follows the difference of two finite doubles through its rounding. A
difference that is at least one and a half times as large as a given double stays
above it, also where it is rounded to infinity: the exact difference is rounded
once, and rounding moves it by less than the part that it has to spare. Above the
largest exponent the significand is packed as an infinity, which is above every
finite double too, so that case needs no bound from above. So the doubles whose
differences from a given one do not stay above a limit are few, which is what the
warnings about a gate need: they are given unless the difference from the built-in
setting is tiny.
-/

import MigrationGuard.Proofs.Decimal.Signs

namespace MigrationGuard.Decimal

open Float.Model Float.Model.UnpackedFloat

/-! ### Differences that are far from zero -/

/-- A significand whose exponent is too high is packed as infinity, whatever its bits are. -/
theorem pack_of_high {significand : ℕ} {exponent : ℤ} (pos : 0 < significand)
    (high : 971 < exponent) :
    Float.ofModel (.pack (.finite .positive significand exponent pos)) =
      .ofModel (.pack (.infinity .positive)) := by
  have overflow : UnpackedFloat.pack Format.binary64 (.finite .positive significand exponent pos) =
      UnpackedFloat.pack Format.binary64 (.infinity .positive) := by
    unfold UnpackedFloat.pack
    dsimp only
    rw [if_pos]
    show 2 ^ 11 ≤ (exponent + (1023 : ℕ) + (52 : ℕ)).toNat + 1
    omega
  exact float_eq_of_toBits (congrArg UInt64.ofBitVec overflow)

section
variable {small : Float} {limit : ℚ} (holds : Holds small limit)
include holds

theorem Holds.lt_infinity : small < .ofModel (.pack (.infinity .positive)) := by
  obtain ⟨significand, exponent, full, rfl, -⟩ := holds
  rw [lt_iff_unpacked, full.unpack_toFloat]
  rfl

/-- A larger number is a larger double, also where it is packed as infinity. So no bound from above
is needed. -/
theorem Holds.lt_pack {significand : ℕ} {exponent : ℤ} (double : IsDouble significand exponent)
    (more : limit < significand * 2 ^ exponent) :
    small < .ofModel (.pack (.finite .positive significand exponent double.pos)) := by
  rcases le_or_gt exponent 971 with moderate | high
  · obtain ⟨smallSignificand, smallExponent, full, rfl, rfl⟩ := holds
    exact (lt_iff_of_unpack full.unpack_toFloat (unpack_pack double moderate false)).mpr more
  · rw [pack_of_high double.pos high]
    exact holds.lt_infinity

/-- A number that is one and a half times as large is rounded to a larger double, as rounding takes
less than half of it. -/
theorem Holds.lt_of_roundsTo {number : ℚ} {significand : ℕ} {exponent : ℤ}
    (double : IsDouble significand exponent) (rounds : RoundsTo number significand exponent)
    (far : 3 / 2 * limit ≤ number) : limit < significand * 2 ^ exponent := by
  obtain ⟨smallSignificand, smallExponent, full, rfl, rfl⟩ := holds
  have place : (0 : ℚ) < 2 ^ exponent := by positivity
  have below := rounds.below
  rcases double.full with lowest | long
  · have least : (2 : ℚ) ^ 52 * 2 ^ exponent ≤ smallSignificand * 2 ^ smallExponent :=
      mul_le_mul (by exact_mod_cast full.long)
        (zpow_le_zpow_right₀ (by norm_num) (lowest.trans_le full.lowest)) place.le (by positivity)
    linarith
  · have most : (2 : ℚ) ^ 52 * 2 ^ exponent ≤ significand * 2 ^ exponent :=
      mul_le_mul_of_nonneg_right (by exact_mod_cast long) place.le
    linarith

theorem Holds.lt_pack_normalize {mantissa scale : ℤ}
    (far : 3 / 2 * limit ≤ (mantissa : ℚ) * 2 ^ scale) :
    small <
      .ofModel (.pack (UnpackedFloat.normalize Format.binary64 mantissa scale .positive)) := by
  have positive : 0 < (mantissa : ℚ) * 2 ^ scale := lt_of_lt_of_le (by linarith [holds.pos]) far
  have pos : 0 < mantissa := by exact_mod_cast pos_of_mul_pos_left positive (by positivity)
  have least : (2 : ℚ) ^ (-1074 : ℤ) ≤ mantissa * 2 ^ scale := by
    obtain ⟨smallSignificand, smallExponent, full, rfl, rfl⟩ := holds
    have one : (1 : ℚ) ≤ smallSignificand := by exact_mod_cast full.isDouble.pos
    have place : (2 : ℚ) ^ (-1074 : ℤ) ≤ 2 ^ smallExponent :=
      zpow_le_zpow_right₀ (by norm_num) full.lowest
    have some := le_mul_of_one_le_left (show (0 : ℚ) ≤ 2 ^ smallExponent by positivity) one
    linarith
  obtain ⟨significand, exponent, double, rounds⟩ := exists_roundsTo_double least
  rw [normalize_of_roundsTo double pos rounds]
  exact holds.lt_pack double (holds.lt_of_roundsTo double rounds far)

/-- A difference that is far enough from zero is computed as more than a given double, although it
is rounded. -/
theorem Holds.lt_sub {left right : Float} {leftSign rightSign : Sign}
    {leftSignificand rightSignificand : ℕ} {leftExponent rightExponent : ℤ}
    {leftPos : 0 < leftSignificand} {rightPos : 0 < rightSignificand}
    (leftUnpacked : left.toModel.unpack = .finite leftSign leftSignificand leftExponent leftPos)
    (rightUnpacked : right.toModel.unpack =
      .finite rightSign rightSignificand rightExponent rightPos)
    (far : 3 / 2 * limit ≤ (leftSign.apply leftSignificand : ℤ) * (2 : ℚ) ^ leftExponent -
      (rightSign.apply rightSignificand : ℤ) * 2 ^ rightExponent) : small < left - right := by
  obtain ⟨mantissa, scale, difference, value⟩ := exists_sub_eq leftUnpacked rightUnpacked
  rw [← value] at far
  exact difference ▸ holds.lt_pack_normalize far

end

/-! ### Doubles in an interval -/

/-- Between neighbouring powers of two all doubles have one exponent, so they are as many as their
significands. -/
theorem IsDouble.exponent_eq {significand : ℕ} {exponent place : ℤ}
    (double : IsDouble significand exponent) (least : -1074 ≤ place)
    (above : (2 : ℚ) ^ (place + 52) ≤ significand * 2 ^ exponent)
    (below : (significand : ℚ) * 2 ^ exponent < 2 ^ (place + 53)) : exponent = place := by
  have unit : (0 : ℚ) < 2 ^ exponent := by positivity
  refine le_antisymm ?_ ?_
  · by_contra higher
    have long : (2 : ℚ) ^ 52 ≤ significand := by
      exact_mod_cast double.full.resolve_left (by omega)
    have less : (2 : ℚ) ^ (exponent + 52) < 2 ^ (place + 53) := by
      refine lt_of_le_of_lt ?_ below
      rw [zpow_add₀ (by norm_num), mul_comm]
      exact mul_le_mul_of_nonneg_right (by exact_mod_cast long) unit.le
    have := (zpow_lt_zpow_iff_right₀ (by norm_num)).mp less
    omega
  · have short : (significand : ℚ) < 2 ^ 53 := by exact_mod_cast double.small
    have less : (2 : ℚ) ^ (place + 52) < 2 ^ (exponent + 53) := by
      refine above.trans_lt ?_
      rw [zpow_add₀ (by norm_num), mul_comm]
      exact mul_lt_mul_of_pos_left (by exact_mod_cast short) unit
    have := (zpow_lt_zpow_iff_right₀ (by norm_num)).mp less
    omega

end MigrationGuard.Decimal
