/-
This file puts singles into one order. A floating point number that is one has a
rank: its sign, then the exponent and the mantissa, away from zero for positive
numbers and towards it for negative ones. Comparisons of singles are those of the
ranks, which stand in a linear order, so sorting by similarity can be reasoned
about as sorting by rank. Both zeros have one rank, so singles of one rank need
not be the same, and results that compare equal keep the order in which they were
found. What is no number is compared with nothing. It gets a rank only because
every value needs one, and the lemmas ask that it does not occur.
-/

import Mathlib.Data.Prod.Lex
import Mathlib.Order.Compare

namespace MigrationGuard.Decimal

open Float.Model

/-! ### Ranks -/

/-- What floating point numbers are ordered by: the sign, the exponent and the mantissa. -/
abbrev Rank := ℤ ×ₗ ℤ ×ₗ ℤ

/-- The rank of a floating point number. What is not a number has the rank of zero. -/
def rankUnpacked : UnpackedFloat → Rank
  | .infinity .negative => toLex (-2, toLex (0, 0))
  | .finite .negative mantissa exponent _ => toLex (-1, toLex (-exponent, -mantissa))
  | .zero _ => toLex (0, toLex (0, 0))
  | .notANumber => toLex (0, toLex (0, 0))
  | .finite .positive mantissa exponent _ => toLex (1, toLex (exponent, mantissa))
  | .infinity .positive => toLex (2, toLex (0, 0))

theorem compare_toLex {First Second : Type} [LinearOrder First] [LinearOrder Second]
    (first otherFirst : First) (second otherSecond : Second) :
    compare (toLex (first, second)) (toLex (otherFirst, otherSecond)) =
      (compare first otherFirst).then (compare second otherSecond) := by
  rw [Prod.Lex.compare_def]
  rfl

theorem compare_neg (left right : ℤ) : compare (-left) (-right) = (compare left right).swap := by
  rw [← cmp_eq_compare, ← cmp_eq_compare, cmp_swap]
  exact StrictAnti.cmp_map_eq (fun _ _ less => Int.neg_lt_neg less) left right

theorem compare_natCast (left right : ℕ) : compare (left : ℤ) right = compare left right := by
  rw [← cmp_eq_compare, ← cmp_eq_compare]
  exact StrictMono.cmp_map_eq (fun _ _ less => Int.ofNat_lt.mpr less) left right

/-- Above zero the larger exponent counts, and then the larger mantissa. -/
theorem compare_above (exponent otherExponent : ℤ) (mantissa otherMantissa : ℕ) :
    compare (toLex ((1 : ℤ), toLex (exponent, (mantissa : ℤ))))
        (toLex (1, toLex (otherExponent, (otherMantissa : ℤ)))) =
      (compare exponent otherExponent).then (compare mantissa otherMantissa) := by
  rw [compare_toLex, compare_toLex, compare_natCast]
  rfl

/-- Below zero it is the other way round: the larger exponent is further down. -/
theorem compare_below (exponent otherExponent : ℤ) (mantissa otherMantissa : ℕ) :
    compare (toLex ((-1 : ℤ), toLex (-exponent, -(mantissa : ℤ))))
        (toLex (-1, toLex (-otherExponent, -(otherMantissa : ℤ)))) =
      ((compare exponent otherExponent).then (compare mantissa otherMantissa)).swap := by
  rw [compare_toLex, compare_toLex, compare_neg, compare_neg, compare_neg, compare_natCast,
    Ordering.swap_then]
  rfl

/-- Numbers are compared by their ranks, in all combinations of signs, zeros and infinities. -/
theorem compare_eq_rank {left right : UnpackedFloat} (isNumber : left.isNaN = false)
    (isNumberToo : right.isNaN = false) :
    UnpackedFloat.compare left right = some (compare (rankUnpacked left) (rankUnpacked right)) := by
  cases left with
  | notANumber => exact nomatch isNumber
  | infinity sign =>
    cases right with
    | notANumber => exact nomatch isNumberToo
    | infinity other => cases sign <;> cases other <;> rfl
    | zero => cases sign <;> rfl
    | finite other => cases sign <;> cases other <;> rfl
  | zero =>
    cases right with
    | notANumber => exact nomatch isNumberToo
    | infinity other => cases other <;> rfl
    | zero => rfl
    | finite other => cases other <;> rfl
  | finite sign mantissa exponent =>
    cases right with
    | notANumber => exact nomatch isNumberToo
    | infinity other => cases sign <;> cases other <;> rfl
    | zero => cases sign <;> rfl
    | finite other otherMantissa otherExponent =>
      cases sign <;> cases other
      case positive.positive => exact congrArg some (compare_above _ _ _ _).symm
      case negative.negative => exact congrArg some (compare_below _ _ _ _).symm
      all_goals rfl

/-! ### Singles -/

/-- The rank of a single, which tells its place among all of them. -/
def rank (value : Float32) : Rank :=
  rankUnpacked value.toModel.unpack

section
variable {left right : Float32} (isNumber : left.isNaN = false) (isNumberToo : right.isNaN = false)
include isNumber isNumberToo

theorem lt_iff_rank_lt : left < right ↔ rank left < rank right := by
  have unfolded : left < right ↔
      UnpackedFloat.lt left.toModel.unpack right.toModel.unpack = true := decide_eq_true_iff
  rw [unfolded, UnpackedFloat.lt, compare_eq_rank isNumber isNumberToo, beq_iff_eq,
    Option.some.injEq, compare_lt_iff_lt]
  rfl

theorem le_iff_rank_le : left ≤ right ↔ rank left ≤ rank right := by
  have unfolded : left ≤ right ↔
      UnpackedFloat.le left.toModel.unpack right.toModel.unpack = true := decide_eq_true_iff
  rw [unfolded, UnpackedFloat.le, compare_eq_rank isNumber isNumberToo, Option.any_some,
    Ordering.isLE_iff_ne_gt, compare_gt_iff_gt, not_lt]
  rfl

theorem beq_iff_rank_eq : left == right ↔ rank left = rank right := by
  have unfolded : left == right ↔
      (UnpackedFloat.compare left.toModel.unpack right.toModel.unpack == some .eq) = true :=
    Iff.rfl
  rw [unfolded, compare_eq_rank isNumber isNumberToo, beq_iff_eq, Option.some.injEq,
    compare_eq_iff_eq]
  rfl

end

/-- What is compared is a number on both sides, so a comparison that succeeds rules out the rest. -/
theorem isNaN_of_le {left right : Float32} (atMost : left ≤ right) :
    left.isNaN = false ∧ right.isNaN = false := by
  have unfolded : UnpackedFloat.le left.toModel.unpack right.toModel.unpack = true :=
    of_decide_eq_true atMost
  change left.toModel.unpack.isNaN = false ∧ right.toModel.unpack.isNaN = false
  generalize left.toModel.unpack = one at unfolded ⊢
  generalize right.toModel.unpack = other at unfolded ⊢
  cases one <;> cases other <;> first | exact ⟨rfl, rfl⟩ | exact nomatch unfolded

end MigrationGuard.Decimal
