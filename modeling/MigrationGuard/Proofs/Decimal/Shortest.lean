/-
This file shows that the shortest decimal of a double rounds to this double. The
decimals with a given number of places are a grid, and the search goes to finer
and finer grids until a point of one of them lies among the reals that round to
the double. What is found there is accepted by the very test that rounding makes,
so it rounds to the double; what needs a proof is that something is found. On the
twentieth grid behind the first digit the points lie closer together than a
quarter of the distance between two doubles, so one of them is near enough.
Nothing is said here about how short the decimal is, which the text of a double
does not depend on for being read back.
-/

import Mathlib.Tactic.FieldSimp
import MigrationGuard.Proofs.Decimal.Reading

namespace MigrationGuard.Decimal

/-! ### Fractions -/

/-- The number that a fraction stands for, which does not depend on how it is reduced. -/
def Fraction.value (fraction : Fraction) : ℚ :=
  fraction.numerator / fraction.denominator

/-- The denominator is not zero, so that the fraction stands for a number. -/
def Fraction.Proper (fraction : Fraction) : Prop :=
  0 < fraction.denominator

theorem Fraction.proper_ofBinary (significand : ℕ) (exponent : ℤ) :
    (Fraction.ofBinary significand exponent).Proper := by
  unfold Fraction.ofBinary
  split_ifs
  · exact Nat.one_pos
  · exact Nat.pow_pos (by decide)

theorem Fraction.value_ofBinary (significand : ℕ) (exponent : ℤ) :
    (Fraction.ofBinary significand exponent).value = significand * 2 ^ exponent := by
  unfold Fraction.ofBinary Fraction.value
  split_ifs with whole
  · obtain ⟨places, rfl⟩ := Int.eq_ofNat_of_zero_le whole
    simp
  · obtain ⟨places, same⟩ := Int.eq_ofNat_of_zero_le (show 0 ≤ -exponent by omega)
    obtain rfl : exponent = -(places : ℤ) := by omega
    simp [div_eq_mul_inv]

variable {fraction : Fraction}

theorem Fraction.Proper.shift (proper : fraction.Proper) (places : ℤ) :
    (fraction.shift places).Proper := by
  unfold Fraction.shift
  split_ifs
  · exact Nat.mul_pos proper (Nat.pow_pos (by decide))
  · exact proper

theorem Fraction.value_shift (fraction : Fraction) (places : ℤ) :
    (fraction.shift places).value = fraction.value / 10 ^ places := by
  unfold Fraction.shift Fraction.value
  split_ifs with whole
  · obtain ⟨count, rfl⟩ := Int.eq_ofNat_of_zero_le whole
    simp [div_div]
  · obtain ⟨count, same⟩ := Int.eq_ofNat_of_zero_le (show 0 ≤ -places by omega)
    obtain rfl : places = -(count : ℤ) := by omega
    simp [div_mul_eq_mul_div]

/-- Fractions are compared as the numbers that they stand for, with equality if it counts. -/
theorem Fraction.before_iff {inclusive : Bool} {left right : Fraction} (leftProper : left.Proper)
    (rightProper : right.Proper) : left.before inclusive right ↔
      left.value < right.value ∨ inclusive ∧ left.value = right.value := by
  have leftPos : (0 : ℚ) < left.denominator := by exact_mod_cast leftProper
  have rightPos : (0 : ℚ) < right.denominator := by exact_mod_cast rightProper
  unfold Fraction.before Fraction.value
  dsimp only
  rw [Bool.or_eq_true, Bool.and_eq_true, decide_eq_true_eq, beq_iff_eq,
    div_lt_div_iff₀ leftPos rightPos, div_eq_div_iff leftPos.ne' rightPos.ne']
  exact_mod_cast Iff.rfl

theorem Fraction.value_whole (digits : ℕ) : (Fraction.mk digits 1).value = digits := by
  simp [Fraction.value]

/-! ### Rounding -/

/-- A magnitude as the fields of a double hold it, with the flag for the shorter distance below. -/
structure Binary.IsMagnitude (magnitude : Binary) : Prop where
  /-- The fields make up a double. -/
  double : IsDouble magnitude.significand magnitude.exponent
  /-- The exponent is not above the highest one. -/
  finite : magnitude.exponent ≤ 971
  /-- The next double below is nearer where the significand is the least one. -/
  narrow : magnitude.narrowBelow ↔ magnitude.significand = 2 ^ 52 ∧ magnitude.exponent ≠ -1074

theorem isMagnitude_of_read {value : Float} {negative : Bool} {magnitude : Binary}
    (read : readDouble value = .finite negative magnitude) : magnitude.IsMagnitude :=
  have ⟨double, finite, narrow⟩ := isDouble_of_read read
  ⟨double, finite, narrow⟩

/-- The lower end of the reals that round to a binary number, in quarter steps. -/
def Binary.lowQuarters (magnitude : Binary) : ℕ :=
  4 * magnitude.significand - (if magnitude.narrowBelow then 1 else 2)

variable {magnitude : Binary}

theorem Binary.rounds_iff {places : ℤ} {digits : ℕ} : magnitude.rounds places digits ↔
    ((magnitude.lowQuarters : ℚ) * 2 ^ (magnitude.exponent - 2) < digits * 10 ^ places ∨
        magnitude.significand % 2 = 0 ∧
          (magnitude.lowQuarters : ℚ) * 2 ^ (magnitude.exponent - 2) = digits * 10 ^ places) ∧
      (digits * 10 ^ places < (4 * magnitude.significand + 2 : ℚ) * 2 ^ (magnitude.exponent - 2) ∨
        magnitude.significand % 2 = 0 ∧
          digits * 10 ^ places =
            (4 * magnitude.significand + 2 : ℚ) * 2 ^ (magnitude.exponent - 2)) := by
  have unit : (0 : ℚ) < 10 ^ places := by positivity
  have proper : ∀ count : ℕ,
      ((Fraction.ofBinary count (magnitude.exponent - 2)).shift places).Proper :=
    fun count => (Fraction.proper_ofBinary _ _).shift places
  have whole : (Fraction.mk digits 1).Proper := Nat.one_pos
  unfold Binary.rounds
  dsimp only
  rw [Bool.and_eq_true, Fraction.before_iff (proper _) whole, Fraction.before_iff whole (proper _),
    Fraction.value_whole, Fraction.value_shift, Fraction.value_shift, Fraction.value_ofBinary,
    Fraction.value_ofBinary, div_lt_iff₀ unit, lt_div_iff₀ unit, div_eq_iff unit.ne',
    eq_div_iff unit.ne', beq_iff_eq]
  push_cast
  rfl

section
variable (isMagnitude : magnitude.IsMagnitude)
include isMagnitude

theorem Binary.IsMagnitude.lowQuarters_eq : (magnitude.lowQuarters : ℚ) =
    4 * magnitude.significand - (if magnitude.narrowBelow then 1 else 2) := by
  have least := isMagnitude.double.pos
  unfold Binary.lowQuarters
  rw [Nat.cast_sub (by split_ifs <;> omega)]
  push_cast
  rfl

/-- What the search accepts rounds to the double, as its test is that of rounding. -/
theorem Binary.IsMagnitude.roundsTo_of_rounds {places : ℤ} {digits : ℕ}
    (accepted : magnitude.rounds places digits) :
    RoundsTo (digits * 10 ^ places) magnitude.significand magnitude.exponent := by
  have quarter : (2 : ℚ) ^ magnitude.exponent = 4 * 2 ^ (magnitude.exponent - 2) := by
    rw [zpow_sub₀ (by norm_num)]
    field_simp
    norm_num
  have unit : (0 : ℚ) < 2 ^ (magnitude.exponent - 2) := by positivity
  obtain ⟨above, below⟩ := Binary.rounds_iff.mp accepted
  rw [isMagnitude.lowQuarters_eq] at above
  have low : ((4 * magnitude.significand : ℚ) - if magnitude.narrowBelow then 1 else 2) *
      2 ^ (magnitude.exponent - 2) ≤ digits * 10 ^ places := by
    rcases above with less | ⟨-, same⟩
    · exact less.le
    · exact same.le
  have high : digits * 10 ^ places ≤
      (4 * magnitude.significand + 2 : ℚ) * 2 ^ (magnitude.exponent - 2) := by
    rcases below with less | ⟨-, same⟩
    · exact less.le
    · exact same.le
  refine ⟨?_, ?_, fun least notLowest => ?_, ?_⟩
  · rw [quarter]
    split_ifs at low <;> nlinarith
  · rw [quarter]
    linarith
  · rw [if_pos (isMagnitude.narrow.mpr ⟨least, notLowest⟩)] at low
    rw [quarter]
    linarith
  · rw [quarter]
    rintro (atLow | atHigh)
    · rcases above with less | ⟨even, -⟩
      · split_ifs at less <;> nlinarith
      · exact even
    · rcases below with less | ⟨even, -⟩
      · nlinarith
      · exact even

/-- What lies less than a quarter step below the double is accepted. -/
theorem Binary.IsMagnitude.rounds_of_near {places : ℤ} {digits : ℕ}
    (atMost : (digits * 10 ^ places : ℚ) ≤ magnitude.significand * 2 ^ magnitude.exponent)
    (near : magnitude.significand * 2 ^ magnitude.exponent <
      (digits * 10 ^ places + 2 ^ (magnitude.exponent - 2) : ℚ)) :
    magnitude.rounds places digits := by
  have quarter : (2 : ℚ) ^ magnitude.exponent = 4 * 2 ^ (magnitude.exponent - 2) := by
    rw [zpow_sub₀ (by norm_num)]
    field_simp
    norm_num
  have unit : (0 : ℚ) < 2 ^ (magnitude.exponent - 2) := by positivity
  rw [quarter] at atMost near
  refine Binary.rounds_iff.mpr ⟨.inl ?_, .inl ?_⟩
  · rw [isMagnitude.lowQuarters_eq]
    split_ifs <;> nlinarith
  · linarith

end

/-! ### The search -/

/-- What the search finds is accepted by its own test, wherever on the grid it was found. -/
theorem Binary.rounds_of_onGrid {places : ℤ} {found : Scientific}
    (success : magnitude.onGrid? places = some found) :
    magnitude.rounds found.exponent found.digits := by
  unfold Binary.onGrid? at success
  dsimp only at success
  split_ifs at success with low high
  · obtain rfl := Option.some.inj success
    rw [Bool.and_eq_true, Bool.and_eq_true] at low
    exact low.1.2
  · obtain rfl := Option.some.inj success
    exact high

theorem Binary.rounds_of_search {position : ℤ} {found : Scientific} :
    ∀ {steps : ℕ} {count : ℤ}, magnitude.search position steps count = some found →
      magnitude.rounds found.exponent found.digits
  | 0, _, success => nomatch success
  | steps + 1, count, success => by
    unfold Binary.search at success
    split at success
    · rename_i decimal onGrid
      obtain rfl := Option.some.inj success
      exact Binary.rounds_of_onGrid onGrid
    · exact Binary.rounds_of_search success

/-- The search ends with a grid that has a point which is accepted. -/
theorem Binary.search_succeeds {position : ℤ} :
    ∀ (steps : ℕ) (count : ℤ), (magnitude.onGrid? (position - (count + steps))).isSome →
      (magnitude.search position (steps + 1) count).isSome
  | 0, count, last => by
    unfold Binary.search
    rw [Nat.cast_zero, add_zero] at last
    obtain ⟨decimal, onGrid⟩ := Option.isSome_iff_exists.mp last
    rw [onGrid]
    rfl
  | steps + 1, count, last => by
    unfold Binary.search
    split
    · rfl
    · refine Binary.search_succeeds steps (count + 1) ?_
      rwa [add_assoc, add_comm 1, ← Nat.cast_succ]

theorem Fraction.Proper.floor (proper : fraction.Proper) :
    ((fraction.numerator / fraction.denominator : ℕ) : ℚ) ≤ fraction.value ∧
      fraction.value < (fraction.numerator / fraction.denominator : ℕ) + 1 := by
  have positive : (0 : ℚ) < fraction.denominator := by exact_mod_cast proper
  unfold Fraction.value
  constructor
  · rw [le_div_iff₀ positive]
    exact_mod_cast Nat.div_mul_le_self fraction.numerator fraction.denominator
  · rw [div_lt_iff₀ positive]
    exact_mod_cast Nat.lt_mul_of_div_lt (Nat.lt_succ_self _) proper

/-- Multiplying by ten once more than there are zeros behind the point reaches one. -/
theorem leadingZeros_enough : ∀ (steps : ℕ) (fraction : Fraction),
    fraction.denominator ≤ fraction.numerator * 10 ^ steps →
      fraction.denominator ≤ fraction.numerator * 10 ^ (leadingZeros steps fraction + 1)
  | 0, fraction, enough => by
    unfold leadingZeros
    omega
  | steps + 1, fraction, enough => by
    unfold leadingZeros
    split_ifs with once
    · rwa [zero_add, pow_one]
    · have next := leadingZeros_enough steps ⟨fraction.numerator * 10, fraction.denominator⟩
        (by dsimp only; rwa [mul_assoc, ← pow_succ'])
      dsimp only at next
      rwa [mul_assoc, ← pow_succ'] at next

/-- The first digit of a fraction does not stand before its position. -/
theorem Fraction.Proper.ten_zpow_position_le (proper : fraction.Proper)
    (least : fraction.denominator ≤ fraction.numerator * 10 ^ 400) :
    (10 : ℚ) ^ (fraction.position - 1) ≤ fraction.value := by
  have positive : (0 : ℚ) < fraction.denominator := by exact_mod_cast proper
  unfold Fraction.position
  dsimp only
  split_ifs with none
  · have enough : (fraction.denominator : ℚ) ≤
        fraction.numerator * 10 ^ (leadingZeros 400 fraction + 1) := by
      exact_mod_cast leadingZeros_enough 400 fraction least
    have place : -(leadingZeros 400 fraction : ℤ) - 1 =
        -((leadingZeros 400 fraction + 1 : ℕ) : ℤ) := by omega
    rw [place, zpow_neg, zpow_natCast, Fraction.value, le_div_iff₀ positive,
      inv_mul_le_iff₀ (by positivity), mul_comm]
    exact enough
  · refine le_trans ?_ proper.floor.1
    obtain ⟨count, known⟩ :
        ∃ count, digitCount (fraction.numerator / fraction.denominator) = count + 1 := by
      refine Nat.exists_eq_add_one.mpr (Nat.pos_of_ne_zero fun empty => ?_)
      exact none (Nat.lt_one_iff.mp (digitCount_le_iff.mp empty.le))
    have reached := mt digitCount_le_iff.mpr
      (show ¬digitCount (fraction.numerator / fraction.denominator) ≤ count by omega)
    rw [known, Nat.cast_succ, add_sub_cancel_right, zpow_natCast]
    exact_mod_cast Nat.le_of_not_lt reached

section
variable (isMagnitude : magnitude.IsMagnitude)
include isMagnitude

theorem Binary.IsMagnitude.two_zpow_le :
    (2 : ℚ) ^ (-1074 : ℤ) ≤ magnitude.significand * 2 ^ magnitude.exponent := by
  have least : (1 : ℚ) ≤ magnitude.significand := by exact_mod_cast isMagnitude.double.pos
  calc (2 : ℚ) ^ (-1074 : ℤ) ≤ 2 ^ magnitude.exponent :=
        zpow_le_zpow_right₀ (by norm_num) isMagnitude.double.lowest
    _ ≤ magnitude.significand * 2 ^ magnitude.exponent :=
        le_mul_of_one_le_left (by positivity) least

theorem Binary.IsMagnitude.denominator_le :
    (Fraction.ofBinary magnitude.significand magnitude.exponent).denominator ≤
      (Fraction.ofBinary magnitude.significand magnitude.exponent).numerator * 10 ^ 400 := by
  have proper := Fraction.proper_ofBinary magnitude.significand magnitude.exponent
  have value := Fraction.value_ofBinary magnitude.significand magnitude.exponent
  generalize Fraction.ofBinary magnitude.significand magnitude.exponent = fraction at proper value ⊢
  have positive : (0 : ℚ) < fraction.denominator := by exact_mod_cast proper
  have least : (10 : ℚ) ^ (-400 : ℤ) ≤ fraction.value := by
    rw [value]
    refine le_trans ?_ isMagnitude.two_zpow_le
    calc (10 : ℚ) ^ (-400 : ℤ) ≤ 2 ^ (-1200 : ℤ) := by
          rw [zpow_neg, zpow_neg]
          exact inv_anti₀ (by positivity) (two_zpow_le_ten_zpow 400)
      _ ≤ 2 ^ (-1074 : ℤ) := zpow_le_zpow_right₀ (by norm_num) (by norm_num)
  have hundreds : (10 : ℚ) ^ (-400 : ℤ) = (10 ^ 400)⁻¹ := zpow_neg_coe_of_pos 10 (by norm_num)
  rw [hundreds, Fraction.value, le_div_iff₀ positive, inv_mul_le_iff₀ (by positivity),
    mul_comm] at least
  exact_mod_cast least

/-- The twentieth grid has a point that is accepted, as its points lie close enough together. So the
search never runs out of grids. -/
theorem Binary.IsMagnitude.onGrid_succeeds :
    (magnitude.onGrid?
      ((Fraction.ofBinary magnitude.significand magnitude.exponent).position - 20)).isSome := by
  have proper := Fraction.proper_ofBinary magnitude.significand magnitude.exponent
  have reached := proper.ten_zpow_position_le isMagnitude.denominator_le
  rw [Fraction.value_ofBinary] at reached
  generalize (Fraction.ofBinary magnitude.significand magnitude.exponent).position = position
    at reached
  have spacing : (10 : ℚ) ^ (position - 1) = 10 ^ 19 * 10 ^ (position - 20) := by
    rw [show position - 1 = 19 + (position - 20) by ring, zpow_add₀ (by norm_num)]
    norm_num
  have gap : (0 : ℚ) < 10 ^ (position - 20) := by positivity
  have unit : (0 : ℚ) < 2 ^ (magnitude.exponent - 2) := by positivity
  have fine : (10 : ℚ) ^ (position - 20) < 2 ^ (magnitude.exponent - 2) := by
    have small : (magnitude.significand : ℚ) < 2 ^ 53 := by exact_mod_cast isMagnitude.double.small
    have quarter : (2 : ℚ) ^ magnitude.exponent = 4 * 2 ^ (magnitude.exponent - 2) := by
      rw [zpow_sub₀ (by norm_num)]
      field_simp
      norm_num
    rw [spacing, quarter] at reached
    nlinarith
  set scaled := (Fraction.ofBinary magnitude.significand magnitude.exponent).shift (position - 20)
    with known
  obtain ⟨atLeast, below⟩ := (proper.shift (position - 20)).floor
  rw [← known] at atLeast below
  have value : scaled.value * 10 ^ (position - 20) =
      magnitude.significand * 2 ^ magnitude.exponent := by
    rw [known, Fraction.value_shift, Fraction.value_ofBinary, div_mul_cancel₀ _ gap.ne']
  have lowFits : (scaled.numerator / scaled.denominator != 0 &&
      magnitude.rounds (position - 20) (scaled.numerator / scaled.denominator)) = true := by
    rw [Bool.and_eq_true, bne_iff_ne]
    constructor
    · intro none
      rw [none, Nat.cast_zero, zero_add] at below
      rw [← value, spacing] at reached
      nlinarith
    · refine isMagnitude.rounds_of_near ?_ ?_
      · rw [← value]
        exact mul_le_mul_of_nonneg_right atLeast gap.le
      · rw [← value]
        nlinarith
  unfold Binary.onGrid?
  dsimp only
  rw [← known, lowFits, Bool.true_and]
  split_ifs with nearer high
  · rfl
  · rfl
  · simp [high] at nearer

end

/-! ### The shortest decimal -/

theorem stripZeros_value : ∀ (steps : ℕ) (decimal : Scientific),
    ((stripZeros steps decimal).digits : ℚ) * 10 ^ (stripZeros steps decimal).exponent =
      decimal.digits * 10 ^ decimal.exponent
  | 0, _ => rfl
  | steps + 1, decimal => by
    unfold stripZeros
    split_ifs with trailing
    · have split : (decimal.digits : ℚ) = (decimal.digits / 10 : ℕ) * 10 := by
        exact_mod_cast (Nat.div_mul_cancel (Nat.dvd_of_mod_eq_zero trailing.2)).symm
      rw [stripZeros_value steps, split, zpow_add₀ (by norm_num), zpow_one]
      ring
    · rfl

/-- The shortest decimal of a double rounds to the double, for every finite double that is not zero.
-/
theorem Binary.IsMagnitude.shortest_roundsTo (isMagnitude : magnitude.IsMagnitude) :
    RoundsTo (magnitude.shortest.digits * 10 ^ magnitude.shortest.exponent) magnitude.significand
      magnitude.exponent := by
  have last := isMagnitude.onGrid_succeeds
  obtain ⟨decimal, found⟩ := Option.isSome_iff_exists.mp (Binary.search_succeeds 19 1 last)
  have same : magnitude.shortest = stripZeros 400 decimal := by
    unfold Binary.shortest
    dsimp only
    rw [found]
  rw [same, stripZeros_value]
  exact isMagnitude.roundsTo_of_rounds (Binary.rounds_of_search found)

end MigrationGuard.Decimal
