/-
This file says from which counts of tests a verdict follows. The percentage is
rounded before it is compared with a threshold, so a migration counts as safe from
97.95 percent on and as blocked below 84.95 percent only. Percentages of doubles
lead to the same verdicts as exact ones. That is not for granted, as a quotient of
doubles may fall on the wrong side of the middle between two tenths; for numbers
of tests below a bound the distance of a share from such a middle is larger than
all rounding errors together, and on the middle itself the error goes the right
way. The run at the end stands in the upper gap, where rounding makes a migration
safe that keeps less than 98 percent.
-/

import MigrationGuard.Proofs.Behavior.Comparison
import MigrationGuard.Proofs.Decimal.Doubles
import MigrationGuard.Risk.Assessment

namespace MigrationGuard

/-! ### Verdicts -/

/-- The verdict follows from the number of critical drifts and from how many of the shared tests
pass, by bounds that are compared as whole numbers. -/
structure ConfidenceReport.Follows {α : Type} (report : ConfidenceReport α)
    (critical passing total : Nat) : Prop where
  /-- A migration is safe from 97.95 percent on if no drift is critical. -/
  safe : report.verdict = .safe ↔ critical = 0 ∧ 1959 * total ≤ 2000 * passing
  /-- A migration is blocked below 84.95 percent or by more than two critical drifts. -/
  blocked : report.verdict = .blocked ↔ 2 < critical ∨ 2000 * passing < 1699 * total

theorem follows_of_thresholds {α : Type} [Arithmetic α] {validation : ValidationResult α}
    {passing total : Nat}
    (low : Arithmetic.less validation.preservationPct (Arithmetic.count 85) ↔
      2000 * passing < 1699 * total)
    (high : Arithmetic.atMost (Arithmetic.count 98) validation.preservationPct ↔
      1959 * total ≤ 2000 * passing)
    (coverage : Option α) (risk : Option (RiskAssessment α)) :
    (confidenceReport validation coverage risk).Follows validation.criticalDriftCount passing
      total := by
  have judged : (confidenceReport validation coverage risk).verdict =
    .ofPreservation validation.preservationPct validation.criticalDriftCount := rfl
  have isBlocked : (Arithmetic.less validation.preservationPct (Arithmetic.count 85) ||
      decide (2 < validation.criticalDriftCount)) = true ↔
        2 < validation.criticalDriftCount ∨ 2000 * passing < 1699 * total := by
    rw [Bool.or_eq_true, low, decide_eq_true_eq, or_comm]
  have isSafe : (Arithmetic.atMost (Arithmetic.count 98) validation.preservationPct &&
      validation.criticalDriftCount == 0) = true ↔
        validation.criticalDriftCount = 0 ∧ 1959 * total ≤ 2000 * passing := by
    rw [Bool.and_eq_true, high, beq_iff_eq, and_comm]
  rw [Verdict.ofPreservation] at judged
  by_cases blocked : 2 < validation.criticalDriftCount ∨ 2000 * passing < 1699 * total
  · rw [if_pos (isBlocked.mpr blocked)] at judged
    constructor <;> rw [judged]
    · refine iff_of_false nofun fun safe => ?_
      omega
    · exact iff_of_true rfl blocked
  · rw [if_neg (mt isBlocked.mp blocked)] at judged
    by_cases safe : validation.criticalDriftCount = 0 ∧ 1959 * total ≤ 2000 * passing
    · rw [if_pos (isSafe.mpr safe)] at judged
      constructor <;> rw [judged]
      · exact iff_of_true rfl safe
      · exact iff_of_false nofun blocked
    · rw [if_neg (mt isSafe.mp safe)] at judged
      constructor <;> rw [judged]
      · exact iff_of_false nofun safe
      · exact iff_of_false nofun blocked

/-! ### Percentages of rational numbers -/

/-- A rounded percentage reaches a whole number from half a tenth below it on. This is where the
thresholds move. -/
theorem le_tenth_iff (whole : ℤ) (share : ℚ) :
    (whole : ℚ) ≤ (⌊10 * share + 1 / 2⌋ : ℚ) / 10 ↔ (whole - 1 / 20 : ℚ) ≤ share := by
  have scaled : (whole : ℚ) ≤ (⌊10 * share + 1 / 2⌋ : ℚ) / 10 ↔
      10 * whole ≤ ⌊10 * share + 1 / 2⌋ := by
    rw [le_div_iff₀ (by norm_num), mul_comm]
    norm_cast
  rw [scaled, Int.le_floor]
  push_cast
  constructor <;> intro bound <;> linarith

theorem le_preservationPercentage_rat (passing : Nat) {total : Nat} (some : 0 < total)
    (bothEmpty : Bool) (whole : ℤ) : (whole : ℚ) ≤ preservationPercentage passing total bothEmpty ↔
      (20 * whole - 1) * total ≤ 2000 * (passing : ℤ) := by
  have positive : (0 : ℚ) < total := by exact_mod_cast some
  have cast : (20 * whole - 1) * total ≤ 2000 * (passing : ℤ) ↔
      ((20 * whole - 1) * total : ℚ) ≤ 2000 * passing := by
    exact_mod_cast Iff.rfl
  rw [preservationPercentage_rat some, le_tenth_iff, le_div_iff₀ positive, cast]
  constructor <;> intro bound <;> linarith

/-! ### Percentages of doubles -/

/-- The share of tests in thousandths before it is rounded, as doubles compute it. -/
def thousandths (passing total : Nat) : Float :=
  Float.ofNat passing / Float.ofNat total * Float.ofNat 100 * Float.ofNat 10

/-- The double is the number of tenths that it holds, divided by ten, so it can be compared tenth by
tenth. -/
theorem preservationPercentage_float {passing total : Nat} (some : 0 < total) (bothEmpty : Bool) :
    (preservationPercentage passing total bothEmpty : Float) =
      nearestDouble (thousandths passing total) / Float.ofNat 10 := by
  rw [preservationPercentage, if_neg some.ne']
  rfl

section
open Decimal

variable {passing total : Nat} (pos : 0 < passing) (most : passing ≤ total) (few : total ≤ 2 ^ 39)
include pos most few

/-- The computed thousandths are near to the exact ones, as only a division and a multiplication
were rounded. -/
theorem exists_holds_thousandths : ∃ number, Holds (thousandths passing total) number ∧
    (1 - 1 / 2 ^ 51) * (1000 * (passing / total)) ≤ number ∧
    number ≤ (1 + 1 / 2 ^ 51) * (1000 * (passing / total) : ℚ) := by
  have positive : (0 : ℚ) < total := by exact_mod_cast pos.trans_le most
  have least : (1 : ℚ) ≤ passing := by exact_mod_cast pos
  have atMost : (passing : ℚ) ≤ total := by exact_mod_cast most
  have bound : (total : ℚ) ≤ 2 ^ 39 := by exact_mod_cast few
  have shareBelow : (passing / total : ℚ) ≤ 1 := div_le_one_of_le₀ atMost positive.le
  have shareAbove : (1 / 2 ^ 39 : ℚ) ≤ passing / total :=
    div_le_div₀ (by positivity) least positive bound
  obtain ⟨share, shareHolds, shareNear⟩ := (holds_ofNat pos (by omega)).div
    (holds_ofNat (pos.trans_le most) (by omega))
    (isModerate_of_bounds (by linarith) (by linarith))
  generalize (passing / total : ℚ) = exact at *
  have nearBelow := shareNear.below
  have nearAbove := shareNear.above
  obtain ⟨percent, percentHolds, percentNear⟩ := shareHolds.mul
    (holds_ofNat (show 0 < 100 by norm_num) (by norm_num))
    (isModerate_of_bounds (by push_cast; linarith) (by push_cast; linarith))
  have percentBelow := percentNear.below
  have percentAbove := percentNear.above
  push_cast at percentBelow percentAbove
  obtain ⟨number, holds, near⟩ := percentHolds.mul
    (holds_ofNat (show 0 < 10 by norm_num) (by norm_num))
    (isModerate_of_bounds (by push_cast; linarith) (by push_cast; linarith))
  have below := near.below
  have above := near.above
  push_cast at below above
  exact ⟨number, holds, by linarith, by linarith⟩

/-- In the middle between two tenths the exact share decides, and on it the computed thousandths are
not below the middle. -/
theorem half_le_thousandths_iff {half : Nat} (isMiddle : half = 1699 ∨ half = 1959) {number : ℚ}
    (holds : Holds (thousandths passing total) number)
    (above : (1 - 1 / 2 ^ 51) * (1000 * (passing / total)) ≤ number)
    (below : number ≤ (1 + 1 / 2 ^ 51) * (1000 * (passing / total) : ℚ)) :
    (half / 2 : ℚ) ≤ number ↔ half * total ≤ 2000 * passing := by
  have positive : (0 : ℚ) < total := by exact_mod_cast pos.trans_le most
  have bound : (total : ℚ) ≤ 2 ^ 39 := by exact_mod_cast few
  rcases lt_trichotomy (half * total) (2000 * passing) with more | tie | less
  · refine iff_of_true ?_ more.le
    have step : (half : ℚ) * total + 1 ≤ 2000 * passing := by exact_mod_cast more
    have share : (half / 2 + 1 / 2 ^ 40) / 1000 ≤ (passing / total : ℚ) := by
      rw [le_div_iff₀ positive]
      linarith
    rcases isMiddle with rfl | rfl <;> push_cast at share ⊢ <;> linarith
  · -- In a tie the error would decide, but equal shares are computed alike, whatever their counts.
    refine iff_of_true ?_ tie.le
    have short : half < 2 ^ 53 := by omega
    have some : 0 < half := by omega
    have share : (passing / total : ℚ) = half / (2000 : Nat) := by
      rw [div_eq_div_iff positive.ne' (by norm_num), mul_comm (passing : ℚ)]
      exact_mod_cast tie.symm
    have moderate : IsModerate (half / (2000 : Nat) : ℚ) := by
      rcases isMiddle with rfl | rfl <;> refine isModerate_of_bounds ?_ ?_ <;> norm_num
    have same : thousandths passing total = thousandths half 2000 := by
      rw [thousandths, thousandths, (holds_ofNat pos (by omega)).div_congr
        (holds_ofNat (pos.trans_le most) (by omega)) (holds_ofNat some short)
        (holds_ofNat (by norm_num) (by norm_num)) share (share ▸ moderate)]
    have reached : Float.ofNat half / Float.ofNat 2 ≤ thousandths half 2000 := by
      rcases isMiddle with rfl | rfl <;> decide +kernel
    rw [same] at holds
    exact ((holds_half_ofNat some short).le_iff holds).mp reached
  · refine iff_of_false (fun reached => ?_) (Nat.not_le.mpr less)
    have step : (2000 : ℚ) * passing + 1 ≤ half * total := by exact_mod_cast less
    have share : (passing / total : ℚ) ≤ (half / 2 - 1 / 2 ^ 40) / 1000 := by
      rw [div_le_iff₀ positive]
      linarith
    rcases isMiddle with rfl | rfl <;> push_cast at share reached <;> linarith

end

section
open Decimal

/-- Tenths are compared with a whole number as they are counted, since no rounding takes them across
it. -/
theorem tenths_iff {tenths whole : Nat} (few : tenths ≤ 2000) (some : 0 < whole)
    (small : whole ≤ 100) :
    (Float.ofNat tenths / Float.ofNat 10 < Float.ofNat whole ↔ tenths < 10 * whole) ∧
      (Float.ofNat whole ≤ Float.ofNat tenths / Float.ofNat 10 ↔ 10 * whole ≤ tenths) := by
  have wholeHolds := holds_ofNat some (show whole < 2 ^ 53 by omega)
  have tenHolds := holds_ofNat (show 0 < 10 by norm_num) (by norm_num)
  obtain rfl | pos := Nat.eq_zero_or_pos tenths
  · rw [ofNat_zero, tenHolds.zero_div]
    exact ⟨iff_of_true wholeHolds.zero_lt (by omega),
      iff_of_false wholeHolds.not_le_zero (by omega)⟩
  have least : (1 : ℚ) ≤ tenths := by exact_mod_cast pos
  have most : (tenths : ℚ) ≤ 2000 := by exact_mod_cast few
  have bound : (whole : ℚ) ≤ 100 := by exact_mod_cast small
  have tenthsHolds := holds_ofNat pos (show tenths < 2 ^ 53 by omega)
  obtain ⟨quotient, holds, near⟩ := tenthsHolds.div tenHolds
    (isModerate_of_bounds (by push_cast; linarith) (by push_cast; linarith))
  have below := near.below
  have above := near.above
  push_cast at below above
  rw [holds.lt_iff wholeHolds, wholeHolds.le_iff holds, ← not_le, ← Nat.not_le, not_iff_not,
    and_self]
  rcases lt_trichotomy tenths (10 * whole) with less | same | more
  · have step : (tenths : ℚ) + 1 ≤ 10 * whole := by exact_mod_cast less
    exact iff_of_false (by linarith) (by omega)
  · have exact : (tenths : ℚ) / (10 : Nat) = whole := by
      rw [same]
      push_cast
      exact mul_div_cancel_left₀ _ (by norm_num)
    rw [tenthsHolds.div_eq tenHolds (exact ▸ wholeHolds)] at holds
    exact iff_of_true ((wholeHolds.le_iff holds).mp ((wholeHolds.le_iff wholeHolds).mpr le_rfl))
      same.ge
  · have step : (10 : ℚ) * whole + 1 ≤ tenths := by exact_mod_cast more
    exact iff_of_true (by linarith) more.le

/-- Where no test passes there are no tenths, which the bounds on errors do not cover. -/
theorem nearestDouble_thousandths_zero {total : Nat} (some : 0 < total) (few : total < 2 ^ 53) :
    nearestDouble (thousandths 0 total) = Float.ofNat 0 := by
  have hundred := holds_ofNat (show 0 < 100 by norm_num) (by norm_num)
  have ten := holds_ofNat (show 0 < 10 by norm_num) (by norm_num)
  rw [thousandths, ofNat_zero, (holds_ofNat some few).zero_div, hundred.zero_mul, ten.zero_mul,
    nearestDouble_zero, ofNat_zero]

/-- The percentage is a number of tenths. It reaches a middle between two of them with the exact
share. -/
theorem exists_tenths {passing total : Nat} (some : 0 < total) (most : passing ≤ total)
    (few : total ≤ 2 ^ 39) (bothEmpty : Bool) :
    ∃ tenths ≤ 2000, (preservationPercentage passing total bothEmpty : Float) =
        Float.ofNat tenths / Float.ofNat 10 ∧
      ∀ half, half = 1699 ∨ half = 1959 →
        (half + 1 ≤ 2 * tenths ↔ half * total ≤ 2000 * passing) := by
  rw [preservationPercentage_float some]
  obtain rfl | pos := Nat.eq_zero_or_pos passing
  · refine ⟨0, by omega, by rw [nearestDouble_thousandths_zero some (by omega)], ?_⟩
    rintro half (rfl | rfl) <;> omega
  obtain ⟨number, holds, above, below⟩ := exists_holds_thousandths pos most few
  have share : (passing / total : ℚ) ≤ 1 := by
    refine div_le_one_of_le₀ ?_ (Nat.cast_nonneg total)
    exact_mod_cast most
  have notNegative := holds.pos.le
  refine ⟨⌊number + 1 / 2⌋₊, ?_, by rw [holds.nearestDouble_eq (by linarith)], ?_⟩
  · refine Nat.floor_le_of_le ?_
    push_cast
    linarith
  · -- Tenths from a threshold on are thousandths from half a unit below it on.
    intro half isMiddle
    rw [← half_le_thousandths_iff pos most few isMiddle holds above below]
    have even : half + 1 ≤ 2 * ⌊number + 1 / 2⌋₊ ↔ (half + 1) / 2 ≤ ⌊number + 1 / 2⌋₊ := by omega
    rw [even, Nat.le_floor_iff (by linarith)]
    rcases isMiddle with rfl | rfl <;> norm_num <;> constructor <;> intro bound <;> linarith

end

/-! ### Thresholds -/

/-- A verdict follows from the counts of tests, be the percentage a rational number or, for no more
than so many tests, a double. So the doubles that a program reports never change a verdict. -/
theorem follows_classifyDrift (baseline migrated : TestRun)
    (shared : (sharedTests baseline migrated).Nonempty) :
    (∀ (coverage : Option ℚ) (risk : Option (RiskAssessment ℚ)),
      let validation : ValidationResult ℚ := classifyDrift baseline migrated
      (confidenceReport validation coverage risk).Follows validation.criticalDriftCount
        (passingTests baseline migrated).card (sharedTests baseline migrated).card) ∧
    ((sharedTests baseline migrated).card ≤ 2 ^ 39 →
      ∀ (coverage : Option Float) (risk : Option (RiskAssessment Float)),
        let validation : ValidationResult Float := classifyDrift baseline migrated
        (confidenceReport validation coverage risk).Follows validation.criticalDriftCount
          (passingTests baseline migrated).card (sharedTests baseline migrated).card) := by
  constructor
  · intro coverage risk validation
    have reaches := le_preservationPercentage_rat (passingTests baseline migrated).card
      shared.card_pos (baseline.results.isEmpty && migrated.results.isEmpty)
    rw [← preservationPct_classifyDrift] at reaches
    have low := reaches 85
    have high := reaches 98
    norm_num at low high
    refine follows_of_thresholds (decide_eq_true_iff.trans ?_) (decide_eq_true_iff.trans ?_)
      coverage risk
    · refine lt_iff_not_ge.trans ((not_congr low).trans ?_)
      rw [← Nat.not_le]
      exact_mod_cast Iff.rfl
    · exact high.trans (by exact_mod_cast Iff.rfl)
  · intro few coverage risk validation
    have most : (passingTests baseline migrated).card ≤ (sharedTests baseline migrated).card :=
      Finset.card_filter_le _ _
    obtain ⟨tenths, bound, percentage, middle⟩ := exists_tenths shared.card_pos most few
      (baseline.results.isEmpty && migrated.results.isEmpty)
    rw [← preservationPct_classifyDrift] at percentage
    have low := middle 1699 (.inl rfl)
    have high := middle 1959 (.inr rfl)
    refine follows_of_thresholds (decide_eq_true_iff.trans ?_) (decide_eq_true_iff.trans ?_)
      coverage risk
    · rw [percentage]
      refine (tenths_iff bound (show 0 < 85 by norm_num) (by norm_num)).1.trans ?_
      omega
    · rw [percentage]
      refine (tenths_iff bound (show 0 < 98 by norm_num) (by norm_num)).2.trans ?_
      omega

/-! ### A run between a threshold and its percentage -/

/-- A run of numbered tests that print nothing, the first of which fail. -/
def TestRun.numbered (total failed : Nat) : TestRun :=
  .ofResults .baseline ((List.range total).map fun index =>
    ⟨toString index, failed ≤ index, "", 0.0⟩)

/-- Of forty-nine tests the first one fails in both runs, so no drift is critical. -/
theorem classifyDrift_numbered :
    (sharedTests (.numbered 49 1) (.numbered 49 1)).card = 49 ∧
      (passingTests (.numbered 49 1) (.numbered 49 1)).card = 48 ∧
      (classifyDrift (.numbered 49 1) (.numbered 49 1) : ValidationResult Float).criticalDriftCount =
        0 ∧
      (confidenceReport (classifyDrift (.numbered 49 1) (.numbered 49 1) : ValidationResult Float)
        none none).verdict = .safe := by
  decide +kernel

theorem follows_numbered :
    (sharedTests (.numbered 49 1) (.numbered 49 1)).Nonempty ∧
      (sharedTests (.numbered 49 1) (.numbered 49 1)).card ≤ 2 ^ 39 ∧
      (confidenceReport (classifyDrift (.numbered 49 1) (.numbered 49 1) : ValidationResult Float)
        none none).Follows 0 48 49 := by
  obtain ⟨total, passing, critical, -⟩ := classifyDrift_numbered
  have shared : (sharedTests (.numbered 49 1) (.numbered 49 1)).Nonempty :=
    Finset.card_pos.mp (by omega)
  have few : (sharedTests (.numbered 49 1) (.numbered 49 1)).card ≤ 2 ^ 39 := by omega
  have follows := (follows_classifyDrift _ _ shared).2 few none none
  dsimp only at follows
  rw [total, passing, critical] at follows
  exact ⟨shared, few, follows⟩

/-- A verdict need not keep to whole percentages: with forty-eight of forty-nine tests, less than 98
percent, it is safe, as the percentage that is compared is the rounded one. -/
theorem thresholds_not_kept :
    ¬ ∀ baseline migrated : TestRun, (sharedTests baseline migrated).Nonempty →
      let validation : ValidationResult Float := classifyDrift baseline migrated
      let verdict := (confidenceReport validation none none).verdict
      let passing := (passingTests baseline migrated).card
      let total := (sharedTests baseline migrated).card
      (verdict = .safe → validation.criticalDriftCount = 0 ∧ 98 * total ≤ 100 * passing) ∧
        (100 * passing < 85 * total → verdict = .blocked) := by
  intro kept
  obtain ⟨total, passing, -, safe⟩ := classifyDrift_numbered
  have shared : (sharedTests (.numbered 49 1) (.numbered 49 1)).Nonempty :=
    Finset.card_pos.mp (by omega)
  have reached := ((kept (.numbered 49 1) (.numbered 49 1) shared).1 safe).2
  omega

end MigrationGuard
