/-
This file shows that doubles are rounded correctly when a decimal is read. A cut
of a number keeps its whole part and two bits, which tell on which side of the
middle the rest lies; shifting keeps this information, however far it goes. A
number rounds to a double if it lies among the reals around it: at most half a
unit of the last place away, less below the least significand of an exponent, and
at the ends only if the significand is even. So a number that lies there is
rounded to just this double, also where the first rounding carries into the next
power of two and has to be shifted once more. The statement does not say how the
number came about, so it serves decimals, products, quotients and sums alike.
-/

import Mathlib.Algebra.Order.Field.Power
import Mathlib.Data.Nat.Log
import Mathlib.Tactic.Linarith
import Mathlib.Tactic.Positivity
import Mathlib.Tactic.Ring

namespace MigrationGuard.Decimal

open Float.Model Float.Model.UnpackedFloat

/-! ### Cuts of a number -/

/-- The cut stands for a number, which is counted in units of the last place of the cut. -/
def StandsFor (cut : ExtendedMantissa) (number : ℚ) : Prop :=
  match cut.roundBit, cut.stickyBit with
  | false, false => number = cut.mantissa
  | false, true => cut.mantissa < number ∧ number < cut.mantissa + 1 / 2
  | true, false => number = cut.mantissa + 1 / 2
  | true, true => cut.mantissa + 1 / 2 < number ∧ number < cut.mantissa + 1

/-- The mantissa of a cut is the whole part of the number, which is less than one unit away. -/
theorem StandsFor.whole {cut : ExtendedMantissa} {number : ℚ} (stands : StandsFor cut number) :
    (cut.mantissa : ℚ) ≤ number ∧ number < cut.mantissa + 1 := by
  rcases cut with ⟨mantissa, round, sticky⟩
  cases round <;> cases sticky <;> simp only [StandsFor] at stands ⊢ <;>
    constructor <;> linarith

/-- Shifting a cut halves the number that it stands for. What falls out is remembered by the two
bits. -/
theorem StandsFor.shiftRightOne {cut : ExtendedMantissa} {number : ℚ}
    (stands : StandsFor cut number) : StandsFor cut.shiftRightOne (number / 2) := by
  rcases cut with ⟨mantissa, round, sticky⟩
  have split : (mantissa : ℚ) = 2 * (mantissa / 2 : ℕ) + (mantissa % 2 : ℕ) := by
    exact_mod_cast (Nat.div_add_mod mantissa 2).symm
  obtain even | odd := Nat.mod_two_eq_zero_or_one mantissa
  · have bit : (mantissa % 2 != 0) = false := by rw [even]; rfl
    rw [even, Nat.cast_zero, add_zero] at split
    cases round <;> cases sticky <;>
      simp only [StandsFor, ExtendedMantissa.shiftRightOne, bit, Bool.or_false, Bool.or_true]
        at stands ⊢ <;>
      (try constructor) <;> linarith
  · have bit : (mantissa % 2 != 0) = true := by rw [odd]; rfl
    rw [odd, Nat.cast_one] at split
    cases round <;> cases sticky <;>
      simp only [StandsFor, ExtendedMantissa.shiftRightOne, bit, Bool.or_false, Bool.or_true]
        at stands ⊢ <;>
      (try constructor) <;> linarith

theorem StandsFor.shiftRight {cut : ExtendedMantissa} {number : ℚ} (stands : StandsFor cut number)
    (places : ℕ) : StandsFor (cut >>> places) (number / 2 ^ places) := by
  show StandsFor (Nat.repeat ExtendedMantissa.shiftRightOne places cut) _
  induction places with
  | zero => simpa [Nat.repeat] using stands
  | succ places inductionHypothesis =>
    have halved := inductionHypothesis.shiftRightOne
    rwa [div_div, ← pow_succ] at halved

/-- A number is rounded to the whole number within half a unit of it, and in the middle to the even
one. -/
theorem StandsFor.rounded {cut : ExtendedMantissa} {number : ℚ} (stands : StandsFor cut number)
    {whole : ℕ} (above : (whole : ℚ) - 1 / 2 ≤ number) (below : number ≤ whole + 1 / 2)
    (tie : number = whole - 1 / 2 ∨ number = whole + 1 / 2 → whole % 2 = 0) :
    cut.roundedMantissa = whole := by
  rcases cut with ⟨mantissa, round, sticky⟩
  have near : mantissa ≤ whole ∧ whole ≤ mantissa + 1 := by
    have part := stands.whole
    dsimp only at part
    constructor
    · have : (mantissa : ℚ) < whole + 1 := by linarith
      exact Nat.lt_succ_iff.mp (by exact_mod_cast this)
    · have : (whole : ℚ) < mantissa + 2 := by linarith
      have : whole < mantissa + 2 := by exact_mod_cast this
      omega
  obtain same | next : whole = mantissa ∨ whole = mantissa + 1 := by omega
  · subst same
    cases round <;> cases sticky <;> simp only [StandsFor] at stands <;>
      simp only [ExtendedMantissa.roundedMantissa, ExtendedMantissa.accuracy,
        Accuracy.roundToNearestEven]
    · rw [tie (.inr stands), add_zero]
    · linarith
  · subst next
    push_cast at above below tie
    cases round <;> cases sticky <;> simp only [StandsFor] at stands <;>
      simp only [ExtendedMantissa.roundedMantissa, ExtendedMantissa.accuracy,
        Accuracy.roundToNearestEven]
    · linarith
    · linarith
    · have even := tie (.inl (by linarith))
      omega

section
variable {mantissa : ℕ} {accuracy : Accuracy} {number : ℚ}
  (stands : StandsFor (ExtendedMantissa.ofMantissaAndAccuracy mantissa accuracy) number)
include stands

theorem StandsFor.ofMantissa :
    (mantissa : ℚ) ≤ number ∧ number < mantissa + 1 := by
  have same : (ExtendedMantissa.ofMantissaAndAccuracy mantissa accuracy).mantissa = mantissa := by
    cases accuracy with
    | exact => rfl
    | inexact order => cases order <;> rfl
  have part := stands.whole
  rwa [same] at part

/-- A number has no more bits than its mantissa, as what was cut off is less than a unit. -/
theorem StandsFor.lt_two_zpow (scale : ℤ) :
    number * 2 ^ scale < 2 ^ (mantissa.log2 + scale + 1) := by
  have bits : (mantissa : ℚ) + 1 ≤ 2 ^ (mantissa.log2 + 1) := by
    exact_mod_cast Nat.lt_log2_self
  have positive : (0 : ℚ) < 2 ^ scale := by positivity
  calc number * 2 ^ scale < 2 ^ (mantissa.log2 + 1) * 2 ^ scale := by
        have below := stands.ofMantissa.2
        exact mul_lt_mul_of_pos_right (by linarith) positive
    _ = 2 ^ (mantissa.log2 + scale + 1) := by
        rw [← zpow_natCast, ← zpow_add₀ (by norm_num)]
        congr 1
        push_cast
        ring

theorem StandsFor.two_zpow_le (present : mantissa ≠ 0) (scale : ℤ) :
    (2 : ℚ) ^ (mantissa.log2 + scale) ≤ number * 2 ^ scale := by
  have bits : (2 : ℚ) ^ mantissa.log2 ≤ mantissa := by
    exact_mod_cast Nat.log2_self_le present
  have positive : (0 : ℚ) < 2 ^ scale := by positivity
  rw [zpow_add₀ (by norm_num), zpow_natCast]
  exact mul_le_mul_of_nonneg_right (bits.trans stands.ofMantissa.1) positive.le

end

/-! ### Rounding to a double -/

/-- The significand and the exponent of a positive double. It has fewer bits only at the lowest
exponent. -/
structure IsDouble (significand : ℕ) (exponent : ℤ) : Prop where
  /-- The significand is not zero. -/
  pos : 0 < significand
  /-- The significand has at most fifty-three bits. -/
  small : significand < 2 ^ 53
  /-- The exponent is not below the lowest one. -/
  lowest : -1074 ≤ exponent
  /-- Above the lowest exponent all bits are used. -/
  full : exponent = -1074 ∨ 2 ^ 52 ≤ significand

/-- The number rounds to the double: it is at most half a unit away, or a quarter of one below the
least significand, and the ends belong to an even significand. -/
structure RoundsTo (number : ℚ) (significand : ℕ) (exponent : ℤ) : Prop where
  /-- The number is not too small. -/
  above : ((significand : ℚ) - 1 / 2) * 2 ^ exponent ≤ number
  /-- The number is not too large. -/
  below : number ≤ ((significand : ℚ) + 1 / 2) * 2 ^ exponent
  /-- The next double below is nearer where the significand is the least one. -/
  narrow : significand = 2 ^ 52 → exponent ≠ -1074 →
    ((significand : ℚ) - 1 / 4) * 2 ^ exponent ≤ number
  /-- The middle belongs to the even significand. -/
  tie : number = ((significand : ℚ) - 1 / 2) * 2 ^ exponent ∨
    number = ((significand : ℚ) + 1 / 2) * 2 ^ exponent → significand % 2 = 0

/-- The target exponent leaves as many bits as the format has, unless it is the lowest one. -/
theorem targetExponent_total (format : Format) (mantissa : ℕ) (exponent : ℤ) :
    format.targetExponent (totalExponent mantissa exponent) =
      max (mantissa.log2 + exponent - format.mantissaBitsWithoutImplicit) format.minExponent := by
  have bits : format.mantissaBits = 1 + format.mantissaBitsWithoutImplicit := rfl
  rw [Format.targetExponent, totalExponent, bits]
  omega

/-- The shift to the target exponent, which is not below the given one. -/
theorem shiftToTargetExponent_eq {format : Format} (mantissa : ℕ) (exponent : ℤ)
    (accuracy : Accuracy)
    (enough : exponent ≤ format.targetExponent (totalExponent mantissa exponent)) :
    let target := format.targetExponent (totalExponent mantissa exponent)
    shiftToTargetExponent format mantissa exponent accuracy =
      (ExtendedMantissa.ofMantissaAndAccuracy mantissa accuracy >>> (target - exponent).toNat,
        target) := by
  intro target
  have sum : exponent + ((target - exponent).toNat : ℤ) = target := by omega
  unfold shiftToTargetExponent shiftToExponent
  exact congrArg (Prod.mk _) sum

/-- A cut that is shifted to the target exponent stands for the same number. -/
theorem StandsFor.shiftToTargetExponent {format : Format} {mantissa : ℕ} {scale : ℤ}
    {accuracy : Accuracy} {unit : ℚ}
    (stands : StandsFor (ExtendedMantissa.ofMantissaAndAccuracy mantissa accuracy) unit)
    (enough : scale ≤ format.targetExponent (totalExponent mantissa scale)) :
    let target := format.targetExponent (totalExponent mantissa scale)
    ∃ cut shifted, UnpackedFloat.shiftToTargetExponent format mantissa scale accuracy =
      (cut, target) ∧ StandsFor cut shifted ∧ shifted * 2 ^ target = unit * 2 ^ scale := by
  intro target
  refine ⟨_, _, shiftToTargetExponent_eq mantissa scale accuracy enough,
    stands.shiftRight (target - scale).toNat, ?_⟩
  rw [← zpow_natCast, Int.toNat_of_nonneg (by omega), div_mul_eq_mul_div, mul_div_assoc,
    ← zpow_sub₀ (by norm_num), sub_sub_cancel]

theorem targetExponent_eq (mantissa : ℕ) (exponent : ℤ) :
    Format.binary64.targetExponent (totalExponent mantissa exponent) =
      max (mantissa.log2 + exponent - 52) (-1074) :=
  targetExponent_total Format.binary64 mantissa exponent

section
variable {significand : ℕ} {exponent : ℤ} {number : ℚ} (double : IsDouble significand exponent)
  (rounds : RoundsTo number significand exponent)
include double rounds

theorem RoundsTo.lt_two_zpow : number < 2 ^ (exponent + 53) := by
  have small : (significand : ℚ) + 1 ≤ 2 ^ 53 := by exact_mod_cast double.small
  have unit : (0 : ℚ) < 2 ^ exponent := by positivity
  calc number ≤ ((significand : ℚ) + 1 / 2) * 2 ^ exponent := rounds.below
    _ < 2 ^ 53 * 2 ^ exponent := by nlinarith
    _ = 2 ^ (exponent + 53) := by rw [zpow_add₀ (by norm_num), mul_comm]; norm_num

/-- A number below all significands of its exponent that still rounds to it is just below the least
one. -/
theorem RoundsTo.of_lt (low : number < 2 ^ (exponent + 52)) (higher : -1074 < exponent) :
    significand = 2 ^ 52 ∧ ((2 : ℚ) ^ 52 - 1 / 4) * 2 ^ exponent ≤ number := by
  have unit : (0 : ℚ) < 2 ^ exponent := by positivity
  have full : 2 ^ 52 ≤ significand := double.full.resolve_left (by omega)
  have split : (2 : ℚ) ^ (exponent + 52) = 2 ^ 52 * 2 ^ exponent := by
    rw [zpow_add₀ (by norm_num), mul_comm]
    norm_num
  have least : significand = 2 ^ 52 := by
    have above := rounds.above
    have : ((significand : ℚ) - 1 / 2) * 2 ^ exponent < 2 ^ 52 * 2 ^ exponent := by linarith
    have : (significand : ℚ) - 1 / 2 < 2 ^ 52 := lt_of_mul_lt_mul_right this unit.le
    have : (significand : ℚ) < 2 ^ 52 + 1 := by linarith
    have : significand < 2 ^ 52 + 1 := by exact_mod_cast this
    omega
  refine ⟨least, ?_⟩
  have narrow := rounds.narrow least (by omega)
  rw [least] at narrow
  exact_mod_cast narrow

omit double in
/-- Seen at the exponent of the double, the number rounds to the significand. -/
theorem RoundsTo.rounded_same {cut : ExtendedMantissa} {unit : ℚ} (stands : StandsFor cut unit)
    (value : unit * 2 ^ exponent = number) : cut.roundedMantissa = significand := by
  have positive : (0 : ℚ) < 2 ^ exponent := by positivity
  rw [← value] at rounds
  refine stands.rounded (le_of_mul_le_mul_right rounds.above positive)
    (le_of_mul_le_mul_right rounds.below positive) fun tie => rounds.tie ?_
  rcases tie with low | high
  · exact .inl (by rw [low])
  · exact .inr (by rw [high])

/-- Seen at the exponent below, a number just below the least significand rounds up to it. -/
theorem RoundsTo.rounded_below {cut : ExtendedMantissa} {unit : ℚ} (stands : StandsFor cut unit)
    (value : unit * 2 ^ (exponent - 1) = number) (low : number < 2 ^ (exponent + 52))
    (higher : -1074 < exponent) : cut.roundedMantissa = 2 ^ 53 := by
  have positive : (0 : ℚ) < 2 ^ (exponent - 1) := by positivity
  have double : (2 : ℚ) ^ exponent = 2 * 2 ^ (exponent - 1) := by
    rw [mul_comm, ← zpow_add_one₀ (by norm_num), sub_add_cancel]
  have top : (2 : ℚ) ^ (exponent + 52) = 2 ^ 53 * 2 ^ (exponent - 1) := by
    rw [show exponent + 52 = (exponent - 1) + 53 by ring, zpow_add₀ (by norm_num), mul_comm]
    norm_num
  have near := (RoundsTo.of_lt ‹_› rounds low higher).2
  rw [← value, double] at near
  rw [← value, top] at low
  have above : (2 : ℚ) ^ 53 - 1 / 2 ≤ unit := by
    refine le_of_mul_le_mul_right ?_ positive
    calc ((2 : ℚ) ^ 53 - 1 / 2) * 2 ^ (exponent - 1)
        = (2 ^ 52 - 1 / 4) * (2 * 2 ^ (exponent - 1)) := by ring
      _ ≤ unit * 2 ^ (exponent - 1) := near
  have below : unit < 2 ^ 53 := lt_of_mul_lt_mul_right low positive.le
  refine stands.rounded ?_ ?_ fun _ => by norm_num
  · exact_mod_cast above
  · push_cast
    linarith

/-- The first rounding gives the double, or the least significand of its exponent seen at the
exponent below. -/
theorem RoundsTo.rounded_first {mantissa : ℕ} {scale : ℤ} {accuracy : Accuracy} {unit : ℚ}
    (stands : StandsFor (ExtendedMantissa.ofMantissaAndAccuracy mantissa accuracy) unit)
    (value : unit * 2 ^ scale = number)
    (enough : scale ≤ Format.binary64.targetExponent (totalExponent mantissa scale)) :
    let first := shiftToTargetExponent Format.binary64 mantissa scale accuracy
    (first.2 = exponent ∧ first.1.roundedMantissa = significand) ∨
      (first.2 = exponent - 1 ∧ -1074 < exponent ∧ first.1.roundedMantissa = 2 ^ 53 ∧
        significand = 2 ^ 52) := by
  intro first
  obtain ⟨cut, shifted, shift, standsFirst, valueFirst⟩ := stands.shiftToTargetExponent enough
  rw [value] at valueFirst
  set target := Format.binary64.targetExponent (totalExponent mantissa scale) with known
  have higher : target = max (mantissa.log2 + scale - 52) (-1074) :=
    targetExponent_eq mantissa scale
  have upper := stands.lt_two_zpow scale
  rw [value] at upper
  have least : target ≤ exponent := by
    have lowest := double.lowest
    by_cases empty : mantissa = 0
    · rw [empty, Nat.log2_zero] at higher
      omega
    · have lower := stands.two_zpow_le empty scale
      rw [value] at lower
      have bits := (zpow_lt_zpow_iff_right₀ (by norm_num)).mp
        (lower.trans_lt (RoundsTo.lt_two_zpow double rounds))
      omega
  rw [show first = (cut, target) from shift]
  obtain same | before : target = exponent ∨ target < exponent := by omega
  · exact .inl ⟨same, rounds.rounded_same standsFirst (same ▸ valueFirst)⟩
  · have low : number < 2 ^ (exponent + 52) :=
      upper.trans_le (zpow_le_zpow_right₀ (by norm_num) (by omega))
    have next : target = exponent - 1 := by
      have near := (RoundsTo.of_lt double rounds low (by omega)).2
      have positive : (0 : ℚ) < 2 ^ exponent := by positivity
      have half : (2 : ℚ) ^ (exponent + 51) ≤ (2 ^ 52 - 1 / 4) * 2 ^ exponent := by
        rw [zpow_add₀ (by norm_num), mul_comm]
        exact mul_le_mul_of_nonneg_right (by norm_num) positive.le
      have bits := (zpow_lt_zpow_iff_right₀ (by norm_num)).mp ((half.trans near).trans_lt upper)
      omega
    refine .inr ⟨next, by omega, ?_, (RoundsTo.of_lt double rounds low (by omega)).1⟩
    exact RoundsTo.rounded_below double rounds standsFirst (next ▸ valueFirst) low (by omega)

omit rounds in
/-- A double needs no further shift: its bits fit as they are. -/
theorem IsDouble.shiftToTargetExponent :
    UnpackedFloat.shiftToTargetExponent Format.binary64 significand exponent .exact =
      (⟨significand, false, false⟩, exponent) := by
  have bits : significand.log2 ≤ 52 := by
    have := (Nat.log2_lt double.pos.ne').mpr double.small
    omega
  have place : Format.binary64.targetExponent (totalExponent significand exponent) = exponent := by
    rw [targetExponent_eq]
    have lowest := double.lowest
    rcases double.full with low | full
    · omega
    · have := (Nat.le_log2 double.pos.ne').mpr full
      omega
  rw [shiftToTargetExponent_eq _ _ _ place.ge, place, sub_self]
  rfl

omit double rounds in
/-- A significand that became too long is halved, which loses nothing as it is even. -/
theorem shiftToTargetExponent_carry (higher : -1074 < exponent) :
    UnpackedFloat.shiftToTargetExponent Format.binary64 (2 ^ 53) (exponent - 1) .exact =
      (⟨2 ^ 52, false, false⟩, exponent) := by
  have place : Format.binary64.targetExponent (totalExponent (2 ^ 53) (exponent - 1)) =
      exponent := by
    rw [targetExponent_eq, Nat.log2_two_pow]
    omega
  rw [shiftToTargetExponent_eq _ _ _ (by omega), place, sub_sub_cancel]
  rfl

/-- Rounding a number gives the double that it rounds to. -/
theorem RoundsTo.roundWithAccuracy {sign : Sign} {mantissa : ℕ} {scale : ℤ} {accuracy : Accuracy}
    {unit : ℚ} (stands : StandsFor (ExtendedMantissa.ofMantissaAndAccuracy mantissa accuracy) unit)
    (value : unit * 2 ^ scale = number)
    (enough : scale ≤ Format.binary64.targetExponent (totalExponent mantissa scale)) :
    UnpackedFloat.roundWithAccuracy Format.binary64 sign mantissa scale accuracy =
      .finite sign significand exponent double.pos := by
  have rounded := RoundsTo.rounded_first double rounds stands value enough
  dsimp only at rounded
  unfold UnpackedFloat.roundWithAccuracy
  generalize UnpackedFloat.shiftToTargetExponent Format.binary64 mantissa scale accuracy = first
    at rounded ⊢
  obtain ⟨extended, place⟩ := first
  dsimp only at rounded ⊢
  obtain ⟨rfl, whole⟩ | ⟨rfl, higher, carry, least⟩ := rounded
  · rw [whole, double.shiftToTargetExponent]
    exact dif_neg double.pos.ne'
  · subst least
    rw [carry, shiftToTargetExponent_carry higher]
    exact dif_neg double.pos.ne'

end

end MigrationGuard.Decimal
