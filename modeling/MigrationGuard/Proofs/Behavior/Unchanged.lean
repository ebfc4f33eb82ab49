/-
This file compares runs that behaved the same. Where the first results of every
test were observed alike on both sides, nothing is found, and the percentage is
the share of the tests whose first result passed. That is the case of two runs
with the same text under their fingerprints, if no test repeats, and of a run and
itself. Without the condition on repeated tests the first case fails, since a
fingerprint does not tell which of two results of a test came first. A run beside
itself need not preserve everything: a test that fails on both sides has not
changed, but it does not pass either.
-/

import MigrationGuard.Proofs.Behavior.Comparison
import MigrationGuard.Proofs.Behavior.Fingerprint

namespace MigrationGuard

/-! ### Observed tests -/

namespace TestRun

/-- What the first result of a test shows, if the run knows the test. -/
def observed? (run : TestRun) (test : String) : Option Observation :=
  (run.result? test).map TestResult.observation

/-- The tests whose first result passed, which is what a percentage counts. -/
def passing (run : TestRun) : Finset String :=
  run.tests.filter fun test => (run.result? test).any TestResult.passed

/-- No two results of the run are of one test, so every result counts. -/
def Distinct (run : TestRun) : Prop :=
  (run.results.map TestResult.testId).Nodup

instance (run : TestRun) : Decidable run.Distinct :=
  inferInstanceAs (Decidable (run.results.map TestResult.testId).Nodup)

theorem mem_tests_iff_observed {run : TestRun} {test : String} :
    test ∈ run.tests ↔ (run.observed? test).isSome := by
  rw [mem_tests_iff, observed?, Option.isSome_map, Option.isSome_iff_exists]

theorem any_passed_eq (run : TestRun) (test : String) :
    (run.result? test).any TestResult.passed =
      (run.observed? test).any fun observation => observation.2.2 := by
  rw [observed?]
  cases run.result? test <;> rfl

/-- Where no test repeats, every observation is that of a first result. -/
theorem Distinct.observed?_eq_some_iff {run : TestRun} (distinct : run.Distinct) {test : String}
    {observation : Observation} :
    run.observed? test = some observation ↔
      observation ∈ run.results.map TestResult.observation ∧ observation.1 = test := by
  rw [observed?, Option.map_eq_some_iff, List.mem_map]
  constructor
  · rintro ⟨result, found, rfl⟩
    exact ⟨⟨result, List.mem_of_find?_eq_some found, rfl⟩, testId_of_result? found⟩
  · rintro ⟨⟨result, member, rfl⟩, rfl⟩
    have found := Keyed.find_of_mem distinct member
    simp only [← beq_eq_decide] at found
    exact ⟨result, found, rfl⟩

theorem Distinct.of_sameObservations {baseline migrated : TestRun} (distinct : baseline.Distinct)
    (same : SameObservations baseline.results migrated.results) : migrated.Distinct := by
  have names := (sameObservations_iff_perm.mp same).map Prod.fst
  rw [List.map_map, List.map_map] at names
  exact names.nodup_iff.mp distinct

/-- Where no test repeats, the same observations are first observations of the same tests. -/
theorem Distinct.observed?_congr {baseline migrated : TestRun} (distinct : baseline.Distinct)
    (same : SameObservations baseline.results migrated.results) :
    baseline.observed? = migrated.observed? := by
  funext test
  ext observation
  rw [distinct.observed?_eq_some_iff, (distinct.of_sameObservations same).observed?_eq_some_iff,
    (sameObservations_iff_perm.mp same).mem_iff]

theorem tests_congr {baseline migrated : TestRun}
    (alike : baseline.observed? = migrated.observed?) : baseline.tests = migrated.tests := by
  ext test
  rw [mem_tests_iff_observed, mem_tests_iff_observed, alike]

/-- Where no test repeats, every result counts for its test, so there are as many tests as results.
-/
theorem Distinct.card_tests {run : TestRun} (distinct : run.Distinct) :
    run.tests.card = run.results.length := by
  rw [tests, List.toFinset_card_of_nodup distinct, List.length_map]

theorem Distinct.card_passing {run : TestRun} (distinct : run.Distinct) :
    run.passing.card = run.results.countP TestResult.passed := by
  have passed : run.passing =
      ((run.results.filter TestResult.passed).map TestResult.testId).toFinset := by
    ext test
    rw [passing, Finset.mem_filter, any_passed_eq, Option.any_eq_true, List.mem_toFinset,
      mem_tests_iff_observed]
    simp only [distinct.observed?_eq_some_iff, List.mem_map, List.mem_filter]
    constructor
    · rintro ⟨-, _, ⟨⟨result, member, rfl⟩, rfl⟩, passed⟩
      exact ⟨result, ⟨member, passed⟩, rfl⟩
    · rintro ⟨result, ⟨member, passed⟩, rfl⟩
      have found := distinct.observed?_eq_some_iff.mpr
        ⟨List.mem_map_of_mem (f := TestResult.observation) member, rfl⟩
      exact ⟨Option.isSome_iff_exists.mpr ⟨_, found⟩, _, ⟨⟨result, member, rfl⟩, rfl⟩, passed⟩
  rw [passed, List.toFinset_card_of_nodup (distinct.sublist (List.filter_sublist.map _)),
    List.length_map, List.countP_eq_length_filter]

end TestRun

/-! ### Comparison of what was observed alike -/

/-- The comparison found neither a drift nor a test that is missing on a side. Its percentage is
another matter. -/
structure ValidationResult.FindsNothing {α : Type} (result : ValidationResult α) : Prop where
  /-- No behaviour changed. -/
  drifts : result.drifts = []
  /-- No critical drift is counted. -/
  critical : result.criticalDriftCount = 0
  /-- No other drift is counted. -/
  nonCritical : result.nonCriticalDriftCount = 0
  /-- The run after the migration lacks no test. -/
  fromMigrated : result.missingFromMigrated = []
  /-- The run before it lacks none either. -/
  fromBaseline : result.missingFromBaseline = []

/-- The percentage of what passed, rounded to one place. Of nothing, everything passed. -/
def passPercentage {α : Type} [Arithmetic α] (passed total : Nat) : α :=
  if total = 0 then Arithmetic.count 100
  else Arithmetic.roundTo 1 (Arithmetic.count passed / Arithmetic.count total *
    Arithmetic.count 100)

theorem DriftItem.Reports.observation_ne {before after : TestResult} {item : DriftItem}
    (reported : item.Reports before after) : before.observation ≠ after.observation := by
  intro same
  obtain ⟨-, sameOutput, samePassed⟩ :
      before.testId = after.testId ∧ before.output = after.output ∧
        before.passed = after.passed := by
    simpa [TestResult.observation] using same
  cases reported with
  | failed passedBefore failsAfter => exact failsAfter (samePassed ▸ passedBefore)
  | changed _ _ _ differs => exact differs (congrArg Text.trimmed sameOutput)

theorem missingTests_eq_nil {known other : TestRun} (same : known.tests = other.tests) :
    missingTests known other = [] := by
  refine List.eq_nil_iff_forall_not_mem.mpr fun test listed => ?_
  obtain ⟨knows, lacks⟩ := ((lacks_missingTests known other).member test).mp listed
  exact lacks (same ▸ knows)

section
variable {baseline migrated : TestRun} (alike : baseline.observed? = migrated.observed?)
include alike

theorem drifts_eq_nil : (joinedResults baseline migrated).filterMap
    (fun pair => driftBetween? pair.1 pair.2) = [] := by
  refine List.eq_nil_iff_forall_not_mem.mpr fun item member => ?_
  obtain ⟨before, after, found, foundAfter, reported⟩ :=
    (mem_drifts_iff baseline migrated).mp member
  have same := congrFun alike item.testId
  rw [TestRun.observed?, TestRun.observed?, found, foundAfter] at same
  exact reported.observation_ne (Option.some.inj same)

theorem findsNothing_classifyDrift {α : Type} [Arithmetic α] :
    (classifyDrift baseline migrated : ValidationResult α).FindsNothing := by
  have none := drifts_eq_nil alike
  refine ⟨none, ?critical, ?nonCritical, missingTests_eq_nil (TestRun.tests_congr alike),
    missingTests_eq_nil (TestRun.tests_congr alike).symm⟩
  case critical =>
    unfold classifyDrift
    simp only [none, List.countP_nil]
  case nonCritical =>
    unfold classifyDrift
    simp only [none, List.length_nil, Nat.zero_sub]

theorem preservationPct_of_alike {α : Type} [Arithmetic α] :
    (classifyDrift baseline migrated : ValidationResult α).preservationPct =
      passPercentage migrated.passing.card migrated.tests.card := by
  have shared : sharedTests baseline migrated = migrated.tests := by
    rw [sharedTests, TestRun.tests_congr alike, Finset.inter_self]
  rw [preservationPct_classifyDrift, passingTests, shared, preservationPercentage, passPercentage]
  split_ifs with empty both
  · rfl
  · -- Both runs are empty if they have no test.
    have noResults : ∀ run : TestRun, run.tests = ∅ → run.results = [] := by
      intro run noTests
      rw [TestRun.tests, List.toFinset_eq_empty_iff, List.map_eq_nil_iff] at noTests
      exact noTests
    have noTests := Finset.card_eq_zero.mp empty
    rw [noResults migrated noTests, noResults baseline ((TestRun.tests_congr alike).trans noTests)]
      at both
    exact absurd rfl both
  · rfl

end

/-- Two runs whose tests do not repeat and whose fingerprints are of one text are found unchanged,
and so is every run beside itself. The percentage is that of the results that pass, each test by its
first result, in every arithmetic. -/
theorem classifyDrift_unchanged (α : Type) [Arithmetic α] :
    (∀ baseline migrated : TestRun, baseline.Distinct → migrated.Distinct →
      snapshotPayload baseline.results = snapshotPayload migrated.results →
        (classifyDrift baseline migrated : ValidationResult α).FindsNothing ∧
          (classifyDrift baseline migrated : ValidationResult α).preservationPct =
            passPercentage (migrated.results.countP TestResult.passed) migrated.results.length) ∧
    (∀ run : TestRun, (classifyDrift run run : ValidationResult α).FindsNothing ∧
      (classifyDrift run run : ValidationResult α).preservationPct =
        passPercentage run.passing.card run.tests.card) := by
  constructor
  · intro baseline migrated distinct distinctAfter payload
    have alike := distinct.observed?_congr (snapshotPayload_eq_iff.mp payload)
    refine ⟨findsNothing_classifyDrift alike, ?_⟩
    rw [preservationPct_of_alike alike, distinctAfter.card_passing, distinctAfter.card_tests]
  · intro run
    exact ⟨findsNothing_classifyDrift rfl, preservationPct_of_alike rfl⟩

/-- A run of two tests of which one fails, in an order that may be changed. -/
def halfPassing (role : RunRole) (order : List TestResult → List TestResult) : TestRun :=
  TestRun.ofResults role (order [⟨"a", true, "1", 1.5⟩, ⟨"b", false, "2", 0.0⟩])

/-- A run of one test that fails first and passes then. -/
def repeating : TestRun :=
  TestRun.ofResults .baseline [⟨"a", false, "1", 1.5⟩, ⟨"a", true, "1", 1.5⟩]

theorem classifyDrift_unchanged_half :
    (classifyDrift (halfPassing .baseline id) (halfPassing .migrated List.reverse) :
        ValidationResult ℚ).preservationPct = 50 ∧
      (classifyDrift repeating repeating : ValidationResult ℚ).preservationPct = 0 := by
  have payload : snapshotPayload (halfPassing .baseline id).results =
      snapshotPayload (halfPassing .migrated List.reverse).results :=
    snapshotPayload_eq_iff.mpr
      (sameObservations_iff_perm.mpr ((List.reverse_perm _).symm.map TestResult.observation))
  have unchanged := (classifyDrift_unchanged ℚ).1 _ _ (by decide) (by decide) payload
  have self := (classifyDrift_unchanged ℚ).2 repeating
  exact ⟨unchanged.2.trans (by decide +kernel), self.2.trans (by decide +kernel)⟩

end MigrationGuard
