/-
This file says what the comparison of two runs reports, whatever names repeat in
them. Each test stands for the first result of its name on either side. The shared
tests give the drifts and the percentage, the others are listed as missing, and
the two parts make up all tests of a run. The report is described without the
definitions that make it: tests are finite sets, a drift is told by how two
results differ, orders are told by which test a run meets first, and the
percentage is a share of set sizes that is rounded once. The main theorem shows
that the comparison gives such a report for any two runs in every arithmetic, and
what its percentage is over the rational numbers.
-/

import Mathlib.Data.Finset.Card
import Mathlib.Data.List.TakeWhile
import Mathlib.Data.Rat.Floor
import Mathlib.Tactic.FieldSimp
import Mathlib.Tactic.Linarith
import MigrationGuard.Behavior.Drift
import MigrationGuard.Proofs.Keyed

namespace MigrationGuard

/-! ### Tests of a run -/

namespace TestRun

/-- The tests that a run has results of, each once however often its name repeats. -/
def tests (run : TestRun) : Finset String :=
  (run.results.map TestResult.testId).toFinset

/-- The first result of one test stands before all results of another. Lists of tests are ordered by
this. -/
def MeetsBefore (run : TestRun) (first second : String) : Prop :=
  Keyed.Precedes TestResult.testId run.results first second

theorem testId_of_result? {run : TestRun} {test : String} {result : TestResult}
    (found : run.result? test = some result) : result.testId = test := by
  have named := List.find?_some found
  exact eq_of_beq named

theorem mem_tests_iff {run : TestRun} {test : String} :
    test ∈ run.tests ↔ ∃ result, run.result? test = some result := by
  rw [tests, List.mem_toFinset, List.mem_map, result?]
  constructor
  · rintro ⟨result, member, rfl⟩
    exact Option.isSome_iff_exists.mp (List.find?_isSome.mpr ⟨result, member, beq_self_eq_true _⟩)
  · rintro ⟨result, found⟩
    exact ⟨result, List.mem_of_find?_eq_some found, testId_of_result? found⟩

theorem result?_eq_none_iff {run : TestRun} {test : String} :
    run.result? test = none ↔ test ∉ run.tests := by
  rw [mem_tests_iff, Option.eq_none_iff_forall_ne_some, not_exists]

end TestRun

/-! ### First results -/

theorem mem_firstResults_iff {results : List TestResult} {result : TestResult} :
    result ∈ firstResults results ↔
      results.find? (fun other => other.testId == result.testId) = some result := by
  induction results with
  | nil => simp [firstResults]
  | cons first rest inductionHypothesis =>
    rw [firstResults, List.mem_cons, List.mem_filter, inductionHypothesis, List.find?_cons]
    by_cases same : first.testId = result.testId
    · simp [same, eq_comm]
    · have other : result ≠ first := fun equal => same (equal ▸ rfl)
      rw [beq_false_of_ne same]
      simp [other, Ne.symm same]

theorem nodup_firstResults (results : List TestResult) :
    ((firstResults results).map TestResult.testId).Nodup := by
  induction results with
  | nil => exact List.nodup_nil
  | cons first rest inductionHypothesis =>
    refine List.nodup_cons.mpr ⟨?_, ?_⟩
    · simp
    · exact inductionHypothesis.sublist (List.filter_sublist.map _)

theorem pairwise_firstResults (results : List TestResult) :
    ((firstResults results).map TestResult.testId).Pairwise
      (Keyed.Precedes TestResult.testId results) := by
  induction results with
  | nil => exact List.Pairwise.nil
  | cons first rest inductionHypothesis =>
    rw [firstResults, List.map_cons, List.pairwise_cons]
    have others : ∀ test ∈ ((firstResults rest).filter
        fun other => other.testId != first.testId).map TestResult.testId,
        first.testId ≠ test := by
      intro test member
      obtain ⟨other, among, rfl⟩ := List.mem_map.mp member
      exact Ne.symm (bne_iff_ne.mp (List.mem_filter.mp among).2)
    refine ⟨fun test member => ⟨[], first, rest, rfl, rfl, ?_⟩, ?_⟩
    · intro earlier among
      rw [List.mem_singleton.mp among]
      exact others test member
    · refine (inductionHypothesis.sublist (List.filter_sublist.map _)).imp_of_mem ?_
      rintro left right - rightMember ⟨before, result, after, split, isLeft, none⟩
      refine ⟨first :: before, result, after, by rw [split, List.cons_append], isLeft, ?_⟩
      intro earlier among
      rcases List.mem_cons.mp among with rfl | among
      · exact others right rightMember
      · exact none earlier among

namespace TestRun

theorem mem_firstResults {run : TestRun} {result : TestResult} :
    result ∈ firstResults run.results ↔ run.result? result.testId = some result :=
  mem_firstResults_iff

theorem mem_tests_firstResults {run : TestRun} {test : String} :
    test ∈ (firstResults run.results).map TestResult.testId ↔ test ∈ run.tests := by
  rw [mem_tests_iff, List.mem_map]
  constructor
  · rintro ⟨result, member, rfl⟩
    exact ⟨result, mem_firstResults.mp member⟩
  · rintro ⟨result, found⟩
    have named := testId_of_result? found
    exact ⟨result, mem_firstResults.mpr (named.symm ▸ found), named⟩

end TestRun

/-! ### Shared tests -/

/-- The tests that both runs know, which are the only ones that can be compared. -/
def sharedTests (baseline migrated : TestRun) : Finset String :=
  baseline.tests ∩ migrated.tests

/-- The shared tests that pass after the migration, whatever they did before it. -/
def passingTests (baseline migrated : TestRun) : Finset String :=
  (sharedTests baseline migrated).filter fun test =>
    (migrated.result? test).any TestResult.passed

/-- What is made of some items keeps their names and their order, so lists of drifts inherit them
from the results. -/
theorem map_filterMap_sublist {Item Row Name : Type} {make : Item → Option Row}
    {nameOf : Item → Name} {name : Row → Name}
    (keeps : ∀ item row, make item = some row → name row = nameOf item) (items : List Item) :
    ((items.filterMap make).map name).Sublist (items.map nameOf) := by
  induction items with
  | nil => exact List.Sublist.slnil
  | cons item items inductionHypothesis =>
    rcases made : make item with _ | row
    · rw [List.filterMap_cons_none made]
      exact inductionHypothesis.cons _
    · rw [List.filterMap_cons_some made, List.map_cons, List.map_cons, keeps item row made]
      exact inductionHypothesis.cons_cons _

section
variable (baseline migrated : TestRun)

theorem mem_joinedResults_iff {before after : TestResult} :
    (before, after) ∈ joinedResults baseline migrated ↔
      baseline.result? before.testId = some before ∧
        migrated.result? before.testId = some after := by
  simp only [joinedResults, List.mem_filterMap, Option.map_eq_some_iff, Prod.mk.injEq,
    TestRun.mem_firstResults]
  constructor
  · rintro ⟨_, found, _, foundAfter, rfl, rfl⟩
    exact ⟨found, foundAfter⟩
  · rintro ⟨found, foundAfter⟩
    exact ⟨before, found, after, foundAfter, rfl, rfl⟩

theorem joinedResults_sublist :
    ((joinedResults baseline migrated).map fun pair => pair.1.testId).Sublist
      ((firstResults baseline.results).map TestResult.testId) := by
  refine map_filterMap_sublist ?_ _
  intro before pair made
  obtain ⟨after, -, rfl⟩ := Option.map_eq_some_iff.mp made
  rfl

theorem nodup_joinedResults :
    ((joinedResults baseline migrated).map fun pair => pair.1.testId).Nodup :=
  (nodup_firstResults _).sublist (joinedResults_sublist baseline migrated)

theorem toFinset_joinedResults :
    ((joinedResults baseline migrated).map fun pair => pair.1.testId).toFinset =
      sharedTests baseline migrated := by
  ext test
  simp only [List.mem_toFinset, List.mem_map, Prod.exists, mem_joinedResults_iff, sharedTests,
    Finset.mem_inter, TestRun.mem_tests_iff]
  constructor
  · rintro ⟨before, after, ⟨found, foundAfter⟩, rfl⟩
    exact ⟨⟨before, found⟩, ⟨after, foundAfter⟩⟩
  · rintro ⟨⟨before, found⟩, ⟨after, foundAfter⟩⟩
    obtain rfl := TestRun.testId_of_result? found
    exact ⟨before, after, ⟨found, foundAfter⟩, rfl⟩

theorem length_joinedResults :
    (joinedResults baseline migrated).length = (sharedTests baseline migrated).card := by
  rw [← toFinset_joinedResults, List.toFinset_card_of_nodup (nodup_joinedResults _ _),
    List.length_map]

theorem countP_joinedResults :
    ((joinedResults baseline migrated).countP fun pair => pair.2.passed) =
      (passingTests baseline migrated).card := by
  have distinct : (((joinedResults baseline migrated).filter fun pair => pair.2.passed).map
      fun pair => pair.1.testId).Nodup :=
    (nodup_joinedResults _ _).sublist (List.filter_sublist.map _)
  have same : (((joinedResults baseline migrated).filter fun pair => pair.2.passed).map
      fun pair => pair.1.testId).toFinset = passingTests baseline migrated := by
    ext test
    rw [passingTests, Finset.mem_filter, ← toFinset_joinedResults]
    simp only [List.mem_toFinset, List.mem_map, List.mem_filter, Prod.exists,
      mem_joinedResults_iff]
    constructor
    · rintro ⟨before, after, ⟨⟨found, foundAfter⟩, passed⟩, rfl⟩
      exact ⟨⟨before, after, ⟨found, foundAfter⟩, rfl⟩, by rw [foundAfter]; exact passed⟩
    · rintro ⟨⟨before, after, ⟨found, foundAfter⟩, rfl⟩, passed⟩
      rw [foundAfter] at passed
      exact ⟨before, after, ⟨⟨found, foundAfter⟩, passed⟩, rfl⟩
  rw [← same, List.toFinset_card_of_nodup distinct, List.length_map, List.countP_eq_length_filter]

end

/-! ### Drifts -/

theorem Text.trimmed_eq_empty_iff (text : String) :
    Text.trimmed text = "" ↔ Text.allBlank text := by
  have empty : Text.trimmed text = "" ↔ Text.trim text.toList = [] := by
    rw [Text.trimmed, String.ofList_eq_empty_iff]
  rw [empty, Text.allBlank, List.all_eq_true, Text.trim, Text.trimEnd, Text.trimStart,
    List.reverse_eq_nil_iff, List.dropWhile_eq_nil_iff]
  simp only [List.mem_reverse]
  constructor
  · intro blank
    have dropped : text.toList.dropWhile Text.isBlank = [] := by
      by_contra rest
      have first := List.head_dropWhile_not Text.isBlank rest
      rw [blank _ (List.head_mem rest)] at first
      exact Bool.noConfusion first
    exact List.dropWhile_eq_nil_iff.mp dropped
  · intro blank character member
    exact blank character ((List.dropWhile_sublist _).mem member)

theorem Text.allBlank_append (front back : String) :
    Text.allBlank (front ++ back) = (Text.allBlank front && Text.allBlank back) := by
  rw [Text.allBlank, String.toList_append, List.all_append]
  rfl

/-- The report on a test whose result was one and is another: it fails now, or it passes as before
and what it prints has changed. A test that printed nothing before has no output to change. -/
inductive DriftItem.Reports (before after : TestResult) : DriftItem → Prop
  /-- The test passed and fails now. -/
  | failed (passedBefore : before.passed) (failsAfter : ¬ after.passed) :
    Reports before after
      { testId := before.testId
        severity := .critical
        description := "Test passed on legacy code but FAILED after migration. " ++
          "Migration likely changed behavior. Error: " ++ Text.truncate after.output 200
        beforeOutput := Text.truncate before.output 300
        afterOutput := Text.truncate after.output 300 }
  /-- The test passes on both sides and prints something else. -/
  | changed (passedBefore : before.passed) (passesAfter : after.passed)
      (printed : Text.trimmed before.output ≠ "")
      (differs : Text.trimmed before.output ≠ Text.trimmed after.output) :
    Reports before after
      { testId := before.testId
        severity := .nonCritical
        description := "Test passed both before and after, but output changed. " ++
          "May indicate cosmetic change or subtle logic shift."
        beforeOutput := Text.truncate before.output 300
        afterOutput := Text.truncate after.output 300 }

/-- A report says something: its description is never blank, so memory does not refuse it. -/
theorem DriftItem.Reports.described {before after : TestResult} {item : DriftItem}
    (reported : item.Reports before after) : Text.allBlank item.description = false := by
  cases reported with
  | failed =>
    rw [Text.allBlank_append, Text.allBlank_append,
      (by decide : Text.allBlank "Test passed on legacy code but FAILED after migration. " = false)]
    rfl
  | changed =>
    rw [Text.allBlank_append,
      (by decide : Text.allBlank "Test passed both before and after, but output changed. " = false)]
    rfl

theorem driftBetween?_eq_some_iff {before after : TestResult} {item : DriftItem} :
    driftBetween? before after = some item ↔ item.Reports before after := by
  unfold driftBetween?
  constructor
  · intro found
    split_ifs at found with failed changed
    · obtain rfl := Option.some.inj found
      rw [Bool.and_eq_true, Bool.not_eq_true'] at failed
      exact .failed failed.1 (by rw [failed.2]; exact Bool.false_ne_true)
    · obtain rfl := Option.some.inj found
      rw [Bool.and_eq_true, Bool.and_eq_true, Bool.and_eq_true, Bool.not_eq_true', bne_iff_ne]
        at changed
      obtain ⟨⟨⟨passedBefore, passesAfter⟩, printed⟩, differs⟩ := changed
      refine .changed passedBefore passesAfter ?_ differs
      rw [Ne, Text.trimmed_eq_empty_iff, printed]
      exact Bool.false_ne_true
  · intro reported
    cases reported with
    | failed passedBefore failsAfter =>
      rw [if_pos (by simp [passedBefore, failsAfter])]
      rfl
    | changed passedBefore passesAfter printed differs =>
      rw [Ne, Text.trimmed_eq_empty_iff] at printed
      rw [if_neg (by simp [passesAfter]),
        if_pos (by simp [passedBefore, passesAfter, printed, differs])]
      rfl

theorem DriftItem.Reports.testId {before after : TestResult} {item : DriftItem}
    (reported : item.Reports before after) : item.testId = before.testId := by
  cases reported with
  | failed => rfl
  | changed => rfl

section
variable (baseline migrated : TestRun)

theorem mem_drifts_iff {item : DriftItem} :
    item ∈ (joinedResults baseline migrated).filterMap
        (fun pair => driftBetween? pair.1 pair.2) ↔
      ∃ before after, baseline.result? item.testId = some before ∧
        migrated.result? item.testId = some after ∧ item.Reports before after := by
  simp only [List.mem_filterMap, Prod.exists, mem_joinedResults_iff, driftBetween?_eq_some_iff]
  constructor
  · rintro ⟨before, after, ⟨found, foundAfter⟩, reported⟩
    rw [reported.testId]
    exact ⟨before, after, found, foundAfter, reported⟩
  · rintro ⟨before, after, found, foundAfter, reported⟩
    rw [reported.testId] at found foundAfter
    exact ⟨before, after, ⟨found, foundAfter⟩, reported⟩

theorem drifts_sublist :
    (((joinedResults baseline migrated).filterMap fun pair => driftBetween? pair.1 pair.2).map
      DriftItem.testId).Sublist ((firstResults baseline.results).map TestResult.testId) := by
  refine (map_filterMap_sublist ?_ _).trans (joinedResults_sublist baseline migrated)
  intro pair item found
  exact (driftBetween?_eq_some_iff.mp found).testId

end

/-- The drifts that are not critical are the others, as there are only two severities. -/
theorem length_sub_countP_critical (drifts : List DriftItem) :
    (drifts.length - drifts.countP fun drift => drift.severity == .critical) =
      drifts.countP fun drift => drift.severity = .nonCritical := by
  have others : (drifts.countP fun drift => drift.severity = .nonCritical) =
      drifts.countP fun drift => ¬ (drift.severity == .critical) = true := by
    refine List.countP_congr fun drift _ => ?_
    cases drift.severity <;> decide
  rw [others, List.length_eq_countP_add_countP fun drift : DriftItem =>
    drift.severity == .critical, Nat.add_sub_cancel_left]

/-! ### Missing tests -/

/-- The list holds the tests that one run knows and another does not, each once, in the order in
which the one meets them. -/
structure TestRun.Lacks (other known : TestRun) (listed : List String) : Prop where
  /-- A test is listed if only the one run knows it. -/
  member : ∀ test, test ∈ listed ↔ test ∈ known.tests ∧ test ∉ other.tests
  /-- No test is listed twice. -/
  once : listed.Nodup
  /-- The tests stand in the order of their first results. -/
  ordered : listed.Pairwise known.MeetsBefore

theorem missingTests_sublist (known other : TestRun) :
    (missingTests known other).Sublist ((firstResults known.results).map TestResult.testId) :=
  List.filter_sublist.map _

theorem lacks_missingTests (known other : TestRun) :
    other.Lacks known (missingTests known other) where
  member test := by
    rw [← TestRun.mem_tests_firstResults, ← TestRun.result?_eq_none_iff]
    simp only [missingTests, List.mem_map, List.mem_filter, Option.isNone_iff_eq_none]
    constructor
    · rintro ⟨result, ⟨among, unknown⟩, rfl⟩
      exact ⟨⟨result, among, rfl⟩, unknown⟩
    · rintro ⟨⟨result, among, rfl⟩, unknown⟩
      exact ⟨result, ⟨among, unknown⟩, rfl⟩
  once := (nodup_firstResults _).sublist (missingTests_sublist known other)
  ordered := (pairwise_firstResults _).sublist (missingTests_sublist known other)

/-- The tests of a run are those that it shares and those that the other one lacks. -/
theorem TestRun.Lacks.card_tests {known other : TestRun} {listed : List String}
    (lacks : other.Lacks known listed) :
    known.tests.card = (known.tests ∩ other.tests).card + listed.length := by
  have others : listed.toFinset = known.tests \ other.tests := by
    ext test
    rw [List.mem_toFinset, lacks.member, Finset.mem_sdiff]
  rw [← List.toFinset_card_of_nodup lacks.once, others, Finset.card_inter_add_card_sdiff]

/-! ### Percentages -/

/-- Over the rational numbers a number that is not negative is rounded by its integer part. -/
theorem roundTo_rat (places : Nat) {value : ℚ} (notNegative : 0 ≤ value) :
    Arithmetic.roundTo places value = (⌊value * 10 ^ places + 1 / 2⌋ : ℚ) / 10 ^ places := by
  have scaled : ((Nat.pow 10 places : Nat) : ℚ) = 10 ^ places := by
    rw [Nat.pow_eq, Nat.cast_pow, Nat.cast_ofNat]
  have positive : ¬ value * 10 ^ places < 0 := not_lt.mpr (by positivity)
  calc Arithmetic.roundTo places value
      = (nearestWhole (value * (Nat.pow 10 places : Nat)) : ℚ) / (Nat.pow 10 places : Nat) := rfl
    _ = (⌊value * 10 ^ places + 1 / 2⌋ : ℚ) / 10 ^ places := by
      rw [scaled, nearestWhole, if_neg positive]
      rfl

/-- The percentage over the rational numbers is the share, rounded to a tenth. -/
theorem preservationPercentage_rat {passed total : Nat} (some : 0 < total) (bothEmpty : Bool) :
    preservationPercentage (α := ℚ) passed total bothEmpty =
      (⌊10 * (100 * passed / total : ℚ) + 1 / 2⌋ : ℚ) / 10 := by
  have notNegative : (0 : ℚ) ≤ passed / total * (100 : Nat) := by positivity
  have share : (passed / total * (100 : Nat) * 10 ^ 1 : ℚ) = 10 * (100 * passed / total) := by
    rw [Nat.cast_ofNat]
    ring
  rw [preservationPercentage, if_neg some.ne']
  refine (roundTo_rat 1 notNegative).trans ?_
  rw [share, pow_one]

theorem nearest_tenth (share : ℚ) :
    (⌊10 * share + 1 / 2⌋ / 10 - 1 / 20 : ℚ) ≤ share ∧
      share < (⌊10 * share + 1 / 2⌋ / 10 + 1 / 20 : ℚ) := by
  have below := Int.floor_le (10 * share + 1 / 2)
  have above := Int.lt_floor_add_one (10 * share + 1 / 2)
  constructor <;> linarith

theorem preservationPct_classifyDrift {α : Type} [Arithmetic α] (baseline migrated : TestRun) :
    (classifyDrift baseline migrated : ValidationResult α).preservationPct =
      preservationPercentage (passingTests baseline migrated).card
        (sharedTests baseline migrated).card
        (baseline.results.isEmpty && migrated.results.isEmpty) := by
  rw [← countP_joinedResults, ← length_joinedResults]
  rfl

/-- The share of the shared tests that pass after the migration, in percent and before any rounding.
-/
def passingShare (baseline migrated : TestRun) : ℚ :=
  100 * (passingTests baseline migrated).card / (sharedTests baseline migrated).card

/-! ### The comparison -/

/-- What the comparison of two runs reports, in terms of the results alone. Every part of the report
is covered by one of the fields. -/
structure ValidationResult.Compares {α : Type} [Arithmetic α] (result : ValidationResult α)
    (baseline migrated : TestRun) : Prop where
  /-- The results after the migration are kept. -/
  results : result.migratedResults = migrated.results
  /-- A drift reports how the first results of a shared test differ. -/
  drift : ∀ item, item ∈ result.drifts ↔ ∃ before after,
    baseline.result? item.testId = some before ∧ migrated.result? item.testId = some after ∧
      item.Reports before after
  /-- No test has two drifts. -/
  once : (result.drifts.map DriftItem.testId).Nodup
  /-- The drifts stand in the order in which the run before meets their tests. -/
  ordered : (result.drifts.map DriftItem.testId).Pairwise baseline.MeetsBefore
  /-- The critical drifts are counted. -/
  critical : result.criticalDriftCount =
    result.drifts.countP fun drift => drift.severity = .critical
  /-- The other drifts are counted. -/
  nonCritical : result.nonCriticalDriftCount =
    result.drifts.countP fun drift => drift.severity = .nonCritical
  /-- The tests that only the run before knows are listed. -/
  fromMigrated : migrated.Lacks baseline result.missingFromMigrated
  /-- The tests that only the run after knows are listed. -/
  fromBaseline : baseline.Lacks migrated result.missingFromBaseline
  /-- Shared tests and missing ones make up the run before. -/
  complete : baseline.tests.card =
    (sharedTests baseline migrated).card + result.missingFromMigrated.length
  /-- The percentage is the share of shared tests that pass, rounded to one place. -/
  percentage : (sharedTests baseline migrated).Nonempty → result.preservationPct =
    Arithmetic.roundTo 1 (Arithmetic.count (passingTests baseline migrated).card /
      Arithmetic.count (sharedTests baseline migrated).card * Arithmetic.count 100)
  /-- Two runs without any result preserve everything. -/
  bothEmpty : baseline.results = [] → migrated.results = [] →
    result.preservationPct = Arithmetic.count 100
  /-- Two runs that share no test preserve nothing otherwise. -/
  nothingShared : sharedTests baseline migrated = ∅ →
    ¬ (baseline.results = [] ∧ migrated.results = []) →
      result.preservationPct = Arithmetic.count 0

/-- Two runs are compared test by test, each test by its first results, and in every arithmetic the
report is as described. Over the rational numbers the percentage is the tenth that is nearest to the
share of shared tests that pass. -/
theorem classifyDrift_compares (baseline migrated : TestRun) :
    (∀ (α : Type) [Arithmetic α],
      (classifyDrift baseline migrated : ValidationResult α).Compares baseline migrated) ∧
    ((sharedTests baseline migrated).Nonempty → ∃ tenths : ℤ,
      (classifyDrift baseline migrated : ValidationResult ℚ).preservationPct = tenths / 10 ∧
        (tenths / 10 - 1 / 20 : ℚ) ≤ passingShare baseline migrated ∧
        passingShare baseline migrated < (tenths / 10 + 1 / 20 : ℚ)) := by
  constructor
  · intro α arithmetic
    have missing := lacks_missingTests baseline migrated
    refine
      { results := rfl
        drift := fun item => mem_drifts_iff baseline migrated
        once := (nodup_firstResults _).sublist (drifts_sublist baseline migrated)
        ordered := (pairwise_firstResults _).sublist (drifts_sublist baseline migrated)
        critical := List.countP_congr fun drift _ => by rw [beq_iff_eq, decide_eq_true_eq]
        nonCritical := length_sub_countP_critical _
        fromMigrated := missing
        fromBaseline := lacks_missingTests migrated baseline
        complete := missing.card_tests
        percentage := fun shared => ?percentage
        bothEmpty := fun emptyBefore emptyAfter => ?bothEmpty
        nothingShared := fun nothing notEmpty => ?nothingShared }
    case percentage =>
      rw [preservationPct_classifyDrift, preservationPercentage, if_neg shared.card_ne_zero]
    case bothEmpty =>
      have nothing : sharedTests baseline migrated = ∅ := by
        rw [sharedTests, TestRun.tests, emptyBefore]
        exact Finset.empty_inter _
      rw [preservationPct_classifyDrift, preservationPercentage, nothing, Finset.card_empty,
        if_pos rfl, emptyBefore, emptyAfter]
      rfl
    case nothingShared =>
      have notBoth : (baseline.results.isEmpty && migrated.results.isEmpty) = false := by
        rw [← Bool.not_eq_true, Bool.and_eq_true, List.isEmpty_iff, List.isEmpty_iff]
        exact notEmpty
      rw [preservationPct_classifyDrift, preservationPercentage, nothing, Finset.card_empty,
        if_pos rfl, notBoth]
      rfl
  · intro shared
    refine ⟨_, ?_, nearest_tenth (passingShare baseline migrated)⟩
    rw [preservationPct_classifyDrift, preservationPercentage_rat shared.card_pos, passingShare]

end MigrationGuard
