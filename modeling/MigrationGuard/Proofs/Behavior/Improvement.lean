/-
This file shows that a run which does better is judged no worse. Where one result
that fails is replaced by one of the same test that passes, the tests stay the
same, those that passed before still do, and no test newly fails. So there are no
more critical drifts, the percentage does not fall and the verdict gets no worse,
for exact percentages and for those of doubles. A repaired test may well add a
drift that is not critical, if it now prints something else; such drifts have no
part in the verdict. The argument goes over the weaker notion that a run does as
well as another one, and the rounding of percentages is met by counting in tenths,
which stay in their order.
-/

import MigrationGuard.Proofs.Behavior.Thresholds

namespace MigrationGuard

/-! ### Better runs -/

namespace TestRun

/-- One failing result of a run is replaced by a passing one of the same test. What the passing one
prints and how long it takes does not matter, and neither does whether the result is the first of
its test. -/
def ImprovesOn (better run : TestRun) : Prop :=
  ∃ front failing passing back, run.results = front ++ failing :: back ∧
    better.results = front ++ passing :: back ∧ passing.testId = failing.testId ∧
    failing.passed = false ∧ passing.passed = true

/-- A run knows the same tests as another one and passes those that the other one passes. That is
all that the judgement depends on. -/
structure DoesAsWell (better run : TestRun) : Prop where
  /-- The tests are the same. -/
  tests : better.tests = run.tests
  /-- What passed still passes. -/
  passes : ∀ test, (run.result? test).any TestResult.passed →
    (better.result? test).any TestResult.passed

theorem ImprovesOn.doesAsWell {better run : TestRun} (improves : better.ImprovesOn run) :
    better.DoesAsWell run := by
  obtain ⟨front, failing, passing, back, before, after, same, fails, passes⟩ := improves
  constructor
  · rw [TestRun.tests, TestRun.tests, before, after, List.map_append, List.map_append,
      List.map_cons, List.map_cons, same]
  · intro test passed
    rw [result?, before, List.find?_append, List.find?_cons] at passed
    rw [result?, after, List.find?_append, List.find?_cons, same]
    -- A result in front of the replaced one decides, otherwise the replaced one or those behind.
    cases found : front.find? fun result => result.testId == test with
    | some result =>
      rw [found] at passed
      exact passed
    | none =>
      rw [found, Option.none_or] at passed
      rw [Option.none_or]
      split at passed
      · rw [Option.any_some, fails] at passed
        exact absurd passed Bool.false_ne_true
      · exact passed

/-- A test that is known on both sides passes or fails, and not both. -/
theorem any_not_passed_iff {run : TestRun} {test : String} :
    ((run.result? test).any fun result => !result.passed) ↔
      test ∈ run.tests ∧ ¬ (run.result? test).any TestResult.passed := by
  rw [mem_tests_iff]
  cases run.result? test <;> simp

end TestRun

/-! ### Counts -/

/-- Critical drifts are the tests that passed and are known to fail, so fewer failing tests make no
more of them. -/
theorem criticalDriftCount_classifyDrift {α : Type} [Arithmetic α] (baseline migrated : TestRun) :
    (classifyDrift baseline migrated : ValidationResult α).criticalDriftCount =
      (firstResults baseline.results).countP fun before =>
        before.passed && (migrated.result? before.testId).any fun after => !after.passed := by
  have critical (pair : TestResult × TestResult) :
      ((driftBetween? pair.1 pair.2).map fun drift => drift.severity == .critical).getD false =
        (pair.1.passed && !pair.2.passed) := by
    unfold driftBetween?
    dsimp only
    by_cases failed : (pair.1.passed && !pair.2.passed) = true
    · rw [if_pos failed, failed]
      rfl
    · rw [if_neg failed, Bool.eq_false_of_not_eq_true failed]
      split <;> rfl
  unfold classifyDrift joinedResults
  dsimp only
  rw [List.countP_filterMap, List.countP_congr fun pair _ => by rw [critical],
    List.countP_filterMap]
  refine List.countP_congr fun before _ => ?_
  cases migrated.result? before.testId <;> simp

section
variable {baseline migrated better : TestRun} (asWell : better.DoesAsWell migrated)
include asWell

theorem criticalDriftCount_le {α : Type} [Arithmetic α] :
    (classifyDrift baseline better : ValidationResult α).criticalDriftCount ≤
      (classifyDrift baseline migrated : ValidationResult α).criticalDriftCount := by
  rw [criticalDriftCount_classifyDrift, criticalDriftCount_classifyDrift]
  refine List.countP_mono_left fun before _ counted => ?_
  rw [Bool.and_eq_true, TestRun.any_not_passed_iff] at counted ⊢
  obtain ⟨passed, known, fails⟩ := counted
  exact ⟨passed, asWell.tests ▸ known, mt (asWell.passes before.testId) fails⟩

theorem sharedTests_eq : sharedTests baseline better = sharedTests baseline migrated := by
  rw [sharedTests, sharedTests, asWell.tests]

theorem card_passingTests_le :
    (passingTests baseline migrated).card ≤ (passingTests baseline better).card := by
  refine Finset.card_le_card fun test passing => ?_
  rw [passingTests, Finset.mem_filter] at passing ⊢
  rw [sharedTests_eq asWell]
  exact ⟨passing.1, asWell.passes test passing.2⟩

end

/-! ### Percentages -/

theorem preservationPercentage_rat_le {passing more : Nat} (order : passing ≤ more) (total : Nat)
    (bothEmpty : Bool) : preservationPercentage (α := ℚ) passing total bothEmpty ≤
      preservationPercentage more total bothEmpty := by
  obtain rfl | some := Nat.eq_zero_or_pos total
  · rfl
  rw [preservationPercentage_rat some, preservationPercentage_rat some]
  gcongr

section
open Decimal

/-- With more tests that pass there are no fewer tenths, also where the percentages are computed
with doubles. -/
theorem exists_tenths_le {passing more total : Nat} (order : passing ≤ more) (some : 0 < total)
    (most : more ≤ total) (few : total ≤ 2 ^ 39) (bothEmpty : Bool) :
    ∃ tenths moreTenths, tenths ≤ moreTenths ∧ moreTenths ≤ 2000 ∧
      (preservationPercentage passing total bothEmpty : Float) =
        Float.ofNat tenths / Float.ofNat 10 ∧
      (preservationPercentage more total bothEmpty : Float) =
        Float.ofNat moreTenths / Float.ofNat 10 := by
  rcases order.eq_or_lt with rfl | less
  · obtain ⟨tenths, bound, percentage, -⟩ := exists_tenths some most few bothEmpty
    exact ⟨tenths, tenths, le_rfl, bound, percentage, percentage⟩
  obtain rfl | pos := Nat.eq_zero_or_pos passing
  · obtain ⟨tenths, bound, percentage, -⟩ := exists_tenths some most few bothEmpty
    refine ⟨0, tenths, Nat.zero_le _, bound, ?_, percentage⟩
    rw [preservationPercentage_float some, nearestDouble_thousandths_zero some (by omega)]
  obtain ⟨number, holds, -, below⟩ := exists_holds_thousandths pos (order.trans most) few
  obtain ⟨moreNumber, moreHolds, above, moreBelow⟩ :=
    exists_holds_thousandths (pos.trans less) most few
  have positive : (0 : ℚ) < total := by exact_mod_cast some
  have share : (more / total : ℚ) ≤ 1 := by
    rw [div_le_one positive]
    exact_mod_cast most
  -- One more test outweighs the errors of both computations.
  have step : (passing / total : ℚ) + 1 / 2 ^ 39 ≤ more / total := by
    have unit : (1 / 2 ^ 39 : ℚ) ≤ 1 / total := by
      refine one_div_le_one_div_of_le positive ?_
      exact_mod_cast few
    have next : (passing + 1 : ℚ) / total ≤ more / total := by
      gcongr
      exact_mod_cast less
    rw [add_div] at next
    linarith
  have ordered : number ≤ moreNumber := by linarith
  refine ⟨⌊number + 1 / 2⌋₊, ⌊moreNumber + 1 / 2⌋₊, Nat.floor_mono (by linarith), ?_, ?_, ?_⟩
  · refine Nat.floor_le_of_le ?_
    push_cast
    linarith
  · rw [preservationPercentage_float some, holds.nearestDouble_eq (by linarith)]
  · rw [preservationPercentage_float some, moreHolds.nearestDouble_eq (by linarith)]

/-- More tenths make up a larger double, as dividing by ten keeps the order. -/
theorem tenths_le {tenths more : Nat} (order : tenths ≤ more) (few : more ≤ 2000) :
    Float.ofNat tenths / Float.ofNat 10 ≤ Float.ofNat more / Float.ofNat 10 := by
  have tenHolds := holds_ofNat (show 0 < 10 by norm_num) (by norm_num)
  have quotient {whole : Nat} (pos : 0 < whole) (bound : whole ≤ 2000) :
      ∃ number, Holds (Float.ofNat whole / Float.ofNat 10) number ∧
        IsNear (whole / (10 : Nat)) number := by
    have least : (1 : ℚ) ≤ whole := by exact_mod_cast pos
    have most : (whole : ℚ) ≤ 2000 := by exact_mod_cast bound
    exact (holds_ofNat pos (by omega)).div tenHolds
      (isModerate_of_bounds (by push_cast; linarith) (by push_cast; linarith))
  rcases order.eq_or_lt with rfl | less
  · obtain rfl | pos := Nat.eq_zero_or_pos tenths
    · rw [ofNat_zero, tenHolds.zero_div]
      exact zero_le_zero
    · obtain ⟨number, holds, -⟩ := quotient pos few
      exact (holds.le_iff holds).mpr le_rfl
  obtain ⟨moreNumber, moreHolds, moreNear⟩ := quotient (Nat.zero_lt_of_lt less) few
  obtain rfl | pos := Nat.eq_zero_or_pos tenths
  · rw [ofNat_zero, tenHolds.zero_div]
    exact moreHolds.zero_le
  obtain ⟨number, holds, near⟩ := quotient pos (by omega)
  have above := near.above
  have below := moreNear.below
  have step : (tenths : ℚ) + 1 ≤ more := by exact_mod_cast less
  have most : (more : ℚ) ≤ 2000 := by exact_mod_cast few
  push_cast at above below
  exact (holds.le_iff moreHolds).mpr (by linarith)

end

/-! ### Verdicts -/

/-- One comparison of runs is no worse than another one, in each of the three things that are
reported. -/
structure ValidationResult.NoWorseThan {α : Type} [Arithmetic α]
    (better result : ValidationResult α) : Prop where
  /-- There are no more critical drifts. -/
  critical : better.criticalDriftCount ≤ result.criticalDriftCount
  /-- No less behaviour is preserved. -/
  percentage : Arithmetic.atMost result.preservationPct better.preservationPct
  /-- The verdict is not worse, whatever else is known of the migrations. -/
  verdict : ∀ (coverage other : Option α) (risk otherRisk : Option (RiskAssessment α)),
    (confidenceReport better coverage risk).verdict.priority ≤
      (confidenceReport result other otherRisk).verdict.priority

/-- A verdict gets no worse where fewer drifts are critical and no threshold is missed that was
reached. -/
theorem Verdict.priority_ofPreservation_le {α : Type} [Arithmetic α] {low high : α}
    {fewer drifts : Nat} (order : fewer ≤ drifts)
    (blocks : Arithmetic.less high (Arithmetic.count 85) →
      Arithmetic.less low (Arithmetic.count 85))
    (clears : Arithmetic.atMost (Arithmetic.count 98) low →
      Arithmetic.atMost (Arithmetic.count 98) high) :
    (ofPreservation high fewer).priority ≤ (ofPreservation low drifts).priority := by
  have worst (verdict : Verdict) : verdict.priority ≤ Verdict.blocked.priority := by
    cases verdict <;> decide
  unfold ofPreservation
  by_cases blocked : Arithmetic.less low (Arithmetic.count 85) || decide (2 < drifts)
  · rw [if_pos blocked]
    exact worst _
  have notBlocked :
      ¬ (Arithmetic.less high (Arithmetic.count 85) || decide (2 < fewer)) = true := by
    rw [Bool.or_eq_true, decide_eq_true_eq, not_or] at blocked ⊢
    exact ⟨mt blocks blocked.1, by omega⟩
  rw [if_neg blocked, if_neg notBlocked]
  by_cases safe : Arithmetic.atMost (Arithmetic.count 98) low && drifts == 0
  · have stillSafe : (Arithmetic.atMost (Arithmetic.count 98) high && fewer == 0) = true := by
      rw [Bool.and_eq_true, beq_iff_eq] at safe ⊢
      exact ⟨clears safe.1, by omega⟩
    rw [if_pos safe, if_pos stillSafe]
  · rw [if_neg safe]
    split <;> decide

section
variable {baseline migrated better : TestRun} (asWell : better.DoesAsWell migrated)
include asWell

theorem TestRun.DoesAsWell.isEmpty_eq : better.results.isEmpty = migrated.results.isEmpty := by
  have empty (run : TestRun) : run.results.isEmpty ↔ run.tests = ∅ := by
    rw [TestRun.tests, List.toFinset_eq_empty_iff, List.map_eq_nil_iff, List.isEmpty_iff]
  rw [Bool.eq_iff_iff, empty, empty, asWell.tests]

/-- Where the same tests are shared, only the number of passing ones decides. -/
theorem preservationPct_of_doesAsWell {α : Type} [Arithmetic α] :
    (classifyDrift baseline better : ValidationResult α).preservationPct =
      preservationPercentage (passingTests baseline better).card
        (sharedTests baseline migrated).card
        (baseline.results.isEmpty && migrated.results.isEmpty) := by
  rw [preservationPct_classifyDrift, sharedTests_eq asWell, asWell.isEmpty_eq]

/-- Thresholds are met in the order of the percentages, so the verdict follows once the percentages
are in order. -/
theorem noWorseThan_of_percentage {α : Type} [Arithmetic α]
    (percentage : Arithmetic.atMost
      (classifyDrift baseline migrated : ValidationResult α).preservationPct
      (classifyDrift baseline better : ValidationResult α).preservationPct)
    (blocks : Arithmetic.less (classifyDrift baseline better : ValidationResult α).preservationPct
        (Arithmetic.count 85) →
      Arithmetic.less (classifyDrift baseline migrated : ValidationResult α).preservationPct
        (Arithmetic.count 85))
    (clears : Arithmetic.atMost (Arithmetic.count 98)
        (classifyDrift baseline migrated : ValidationResult α).preservationPct →
      Arithmetic.atMost (Arithmetic.count 98)
        (classifyDrift baseline better : ValidationResult α).preservationPct) :
    (classifyDrift baseline better : ValidationResult α).NoWorseThan
      (classifyDrift baseline migrated) where
  critical := criticalDriftCount_le asWell
  percentage
  verdict _ _ _ _ := Verdict.priority_ofPreservation_le (criticalDriftCount_le asWell) blocks clears

theorem noWorseThan_rat : (classifyDrift baseline better : ValidationResult ℚ).NoWorseThan
    (classifyDrift baseline migrated) := by
  have order : (classifyDrift baseline migrated : ValidationResult ℚ).preservationPct ≤
      (classifyDrift baseline better : ValidationResult ℚ).preservationPct := by
    rw [preservationPct_of_doesAsWell asWell, preservationPct_classifyDrift]
    exact preservationPercentage_rat_le (card_passingTests_le asWell) _ _
  refine noWorseThan_of_percentage asWell (decide_eq_true order) (fun below => ?_) fun reached => ?_
  · exact decide_eq_true (order.trans_lt (of_decide_eq_true below))
  · exact decide_eq_true ((of_decide_eq_true reached).trans order)

theorem noWorseThan_float (few : (sharedTests baseline migrated).card ≤ 2 ^ 39) :
    (classifyDrift baseline better : ValidationResult Float).NoWorseThan
      (classifyDrift baseline migrated) := by
  have percentage := preservationPct_classifyDrift (α := Float) baseline migrated
  have betterPercentage :
      (classifyDrift baseline better : ValidationResult Float).preservationPct = _ :=
    preservationPct_of_doesAsWell asWell
  obtain none | some := Nat.eq_zero_or_pos (sharedTests baseline migrated).card
  · -- Without a shared test both percentages are the same, nothing or everything.
    have same : (classifyDrift baseline better : ValidationResult Float).preservationPct =
        (classifyDrift baseline migrated : ValidationResult Float).preservationPct := by
      rw [percentage, betterPercentage, none, preservationPercentage, preservationPercentage,
        if_pos rfl, if_pos rfl]
    refine noWorseThan_of_percentage asWell ?_ (fun below => same ▸ below)
      fun reached => same ▸ reached
    rw [same, percentage, none, preservationPercentage, if_pos rfl]
    split
    · have hundred := Decimal.holds_ofNat (show 0 < 100 by norm_num) (by norm_num)
      exact decide_eq_true ((hundred.le_iff hundred).mpr le_rfl)
    · show decide (Float.ofNat 0 ≤ Float.ofNat 0) = true
      rw [Decimal.ofNat_zero]
      exact decide_eq_true Decimal.zero_le_zero
  · have most : (passingTests baseline better).card ≤ (sharedTests baseline migrated).card := by
      rw [← sharedTests_eq asWell]
      exact Finset.card_filter_le _ _
    have passMore : (passingTests baseline migrated).card ≤ (passingTests baseline better).card :=
      card_passingTests_le asWell
    obtain ⟨tenths, more, order, bound, low, high⟩ := exists_tenths_le passMore some most few
      (baseline.results.isEmpty && migrated.results.isEmpty)
    rw [← percentage] at low
    rw [← betterPercentage] at high
    have blocks (tenths : Nat) (few : tenths ≤ 2000) :=
      (tenths_iff few (show 0 < 85 by norm_num) (by norm_num)).1
    have clears (tenths : Nat) (few : tenths ≤ 2000) :=
      (tenths_iff few (show 0 < 98 by norm_num) (by norm_num)).2
    refine noWorseThan_of_percentage asWell (decide_eq_true ?_) (fun below => decide_eq_true ?_)
      fun reached => decide_eq_true ?_
    · rw [low, high]
      exact tenths_le order bound
    · have fewer := of_decide_eq_true below
      rw [high] at fewer
      rw [low]
      exact (blocks tenths (order.trans bound)).mpr
        (order.trans_lt ((blocks more bound).mp fewer))
    · have enough := of_decide_eq_true reached
      rw [low] at enough
      rw [high]
      exact (clears more bound).mpr (((clears tenths (order.trans bound)).mp enough).trans order)

end

/-- A run in which a failing result is replaced by a passing one of the same test is judged no worse
than before, against whatever run came before the migration. That holds of exact percentages and,
for no more than so many tests, of doubles. -/
theorem classifyDrift_noWorse {migrated better : TestRun} (improves : better.ImprovesOn migrated)
    (baseline : TestRun) :
    (classifyDrift baseline better : ValidationResult ℚ).NoWorseThan
        (classifyDrift baseline migrated) ∧
      ((sharedTests baseline migrated).card ≤ 2 ^ 39 →
        (classifyDrift baseline better : ValidationResult Float).NoWorseThan
          (classifyDrift baseline migrated)) :=
  ⟨noWorseThan_rat improves.doesAsWell, noWorseThan_float improves.doesAsWell⟩

/-- A run of two tests of which the second may be repaired, with an output of its own choice. -/
def TestRun.repaired (passed : Bool) (output : String) : TestRun :=
  .ofResults .migrated [⟨"export", true, "", 0.0⟩, ⟨"import", passed, output, 1.5⟩]

/-- The run of another two tests before the migration, one of which is repeated. -/
def TestRun.beforeRepair : TestRun :=
  .ofResults .baseline [⟨"import", true, "3 rows", 0.5⟩, ⟨"print", false, "", 0.0⟩,
    ⟨"import", false, "", 0.5⟩]

theorem repaired_noWorse :
    (TestRun.repaired true "4 rows").ImprovesOn (.repaired false "no such table") ∧
      (sharedTests .beforeRepair (.repaired false "no such table")).card ≤ 2 ^ 39 ∧
      (classifyDrift .beforeRepair (.repaired true "4 rows") : ValidationResult ℚ).NoWorseThan
        (classifyDrift .beforeRepair (.repaired false "no such table")) ∧
      (classifyDrift .beforeRepair (.repaired true "4 rows") : ValidationResult Float).NoWorseThan
        (classifyDrift .beforeRepair (.repaired false "no such table")) := by
  have improves :
      (TestRun.repaired true "4 rows").ImprovesOn (.repaired false "no such table") :=
    ⟨[⟨"export", true, "", 0.0⟩], _, _, [], rfl, rfl, rfl, rfl, rfl⟩
  have few : (sharedTests .beforeRepair (.repaired false "no such table")).card ≤ 2 ^ 39 :=
    ((Finset.card_le_card Finset.inter_subset_left).trans (List.toFinset_card_le _)).trans
      (by decide)
  have judged := classifyDrift_noWorse improves .beforeRepair
  exact ⟨improves, few, judged.1, judged.2 few⟩

end MigrationGuard
