/-
This file says what the fingerprint of a run tells. The text under it is the same
for two lists of results just if the lists hold the same tests, outputs and
outcomes, each as often: sorting forgets the order and nothing else, and the text
of the sorted list is read back as the list. Outputs may hold any characters, as
quotes and control characters are escaped. The hash of the text is the only place
where something is assumed, and only that the two texts at hand do not collide. So
two runs with one fingerprint observed the same, however long they took and in
whatever order their tests ran.
-/

import Mathlib.Data.List.Sort
import Mathlib.Data.Prod.Lex
import Mathlib.Data.String.Basic
import MigrationGuard.Behavior.TestRun
import MigrationGuard.Proofs.Json.Compact

namespace MigrationGuard

open Data

/-! ### Order of observations -/

/-- The parts of an observation in the order in which they are compared. As it loses nothing, the
order of observations is total and sorted lists are unique. -/
def Observation.rank (observation : Observation) : String ×ₗ String ×ₗ Bool :=
  toLex (observation.1, toLex observation.2)

theorem Observation.rank_injective : Function.Injective Observation.rank := by
  rintro ⟨test, output, passed⟩ ⟨otherTest, otherOutput, otherPassed⟩ same
  obtain ⟨rfl, behind⟩ := Prod.mk.inj (toLex_inj.mp same)
  exact congrArg (Prod.mk test) (toLex_inj.mp behind)

theorem observationAtMost_iff {left right : Observation} :
    observationAtMost left right ↔ left.rank ≤ right.rank := by
  obtain ⟨test, output, passed⟩ := left
  obtain ⟨otherTest, otherOutput, otherPassed⟩ := right
  simp only [observationAtMost, Observation.rank, Prod.Lex.toLex_le_toLex]
  split_ifs with sameTest sameOutput
  · subst sameTest sameOutput
    have outcomes : (!passed || otherPassed) = true ↔ passed ≤ otherPassed := by
      revert passed otherPassed
      decide
    simp [outcomes]
  · rw [Text.atMost_iff, le_iff_lt_or_eq]
    simp [sameTest, sameOutput]
  · rw [Text.atMost_iff, le_iff_lt_or_eq]
    simp [sameTest]

/-- Lists are sorted alike just if they hold the same observations, each as often. -/
theorem mergeSort_observationAtMost_eq_iff {left right : List Observation} :
    left.mergeSort observationAtMost = right.mergeSort observationAtMost ↔ left.Perm right := by
  have sorted : ∀ observations : List Observation,
      (observations.mergeSort observationAtMost).Pairwise fun first second =>
        first.rank ≤ second.rank := by
    intro observations
    refine (List.pairwise_mergeSort ?_ ?_ observations).imp observationAtMost_iff.mp
    · intro first second third before behind
      rw [observationAtMost_iff] at *
      exact before.trans behind
    · intro first second
      rw [Bool.or_eq_true, observationAtMost_iff, observationAtMost_iff]
      exact le_total _ _
  constructor
  · intro same
    have unsorted := List.mergeSort_perm left observationAtMost
    rw [same] at unsorted
    exact unsorted.symm.trans (List.mergeSort_perm right observationAtMost)
  · intro same
    have resorted := (List.mergeSort_perm left observationAtMost).trans
      (same.trans (List.mergeSort_perm right observationAtMost).symm)
    refine resorted.eq_of_pairwise ?_ (sorted left) (sorted right)
    intro first second _ _ before behind
    exact Observation.rank_injective (before.antisymm behind)

/-! ### Text of observations -/

theorem reread_observationValues (observations : List Observation) :
    (Value.list (observations.map observationValue)).reread =
      .list (observations.map observationValue) := by
  rw [Value.reread, Value.rereadItems_eq, List.map_map]
  rfl

theorem depth_observationValues (observations : List Observation) :
    (Value.list (observations.map observationValue)).depth ≤ Json.deepest := by
  have shallow : Value.depthItems (observations.map observationValue) ≤ 1 := by
    induction observations with
    | nil => exact Nat.zero_le 1
    | cons observation observations inductionHypothesis =>
      rw [List.map_cons, Value.depthItems]
      exact max_le (Nat.le_refl 1) inductionHypothesis
  rw [Value.depth]
  exact Nat.succ_le_succ (shallow.trans (by decide))

theorem observationValue_injective : Function.Injective observationValue := by
  rintro ⟨test, output, passed⟩ ⟨otherTest, otherOutput, otherPassed⟩ same
  simpa [observationValue] using same

/-- The text of a list of observations is the text of no other. Reading it gives the list back. -/
theorem compact_observationValues_inj {left right : List Observation} :
    Json.compact (.list (left.map observationValue)) =
      Json.compact (.list (right.map observationValue)) ↔ left = right := by
  constructor
  · intro same
    have values := Json.reread_eq_of_compact_eq (depth_observationValues left)
      (depth_observationValues right) same
    rw [reread_observationValues, reread_observationValues] at values
    exact observationValue_injective.list_map (Value.list.inj values)
  · rintro rfl
    rfl

/-! ### Fingerprints -/

/-- The lists hold the same tests, outputs and outcomes, each as often. Neither order nor durations
count. -/
def SameObservations (left right : List TestResult) : Prop :=
  ∀ observation, (left.map TestResult.observation).count observation =
    (right.map TestResult.observation).count observation

/-- The fingerprint of a text, as runs are marked with it. -/
def fingerprint (payload : String) : String :=
  Text.truncate (Hash.Sha256.hashText payload) 16

theorem sameObservations_iff_perm {left right : List TestResult} :
    SameObservations left right ↔
      (left.map TestResult.observation).Perm (right.map TestResult.observation) :=
  List.perm_iff_count.symm

theorem snapshotPayload_eq_iff {left right : List TestResult} :
    snapshotPayload left = snapshotPayload right ↔ SameObservations left right := by
  rw [snapshotPayload, snapshotPayload, compact_observationValues_inj,
    mergeSort_observationAtMost_eq_iff, sameObservations_iff_perm]

/-- The run tells what its results are: it counts them and is marked with their fingerprint. -/
structure TestRun.Tells (run : TestRun) (results : List TestResult) : Prop where
  /-- The run holds the results. -/
  results_eq : run.results = results
  /-- All results count. -/
  total_eq : run.total = results.length
  /-- Some of them passed. -/
  passed_eq : run.passed = results.countP TestResult.passed
  /-- The others failed. -/
  passed_add_failed : run.passed + run.failed = run.total
  /-- The fingerprint is that of the text of the results. -/
  snapshotHash_eq : run.snapshotHash = fingerprint (snapshotPayload results)

theorem TestRun.tells_ofResults (role : RunRole) (results : List TestResult) :
    (TestRun.ofResults role results).Tells results where
  results_eq := rfl
  total_eq := rfl
  passed_eq := rfl
  passed_add_failed := Nat.add_sub_of_le List.countP_le_length
  snapshotHash_eq := rfl

/-- Two runs are marked with the fingerprint of the same text just if they observed the same. Where
the texts do not collide, the same holds of the fingerprints. The counts of each run are those of
its own results. -/
theorem TestRun.identified_ofResults (leftRole rightRole : RunRole) (left right : List TestResult) :
    (TestRun.ofResults leftRole left).Tells left ∧
      (TestRun.ofResults rightRole right).Tells right ∧
      (snapshotPayload left = snapshotPayload right ↔ SameObservations left right) ∧
      ((fingerprint (snapshotPayload left) = fingerprint (snapshotPayload right) →
          snapshotPayload left = snapshotPayload right) →
        ((TestRun.ofResults leftRole left).snapshotHash =
            (TestRun.ofResults rightRole right).snapshotHash ↔ SameObservations left right)) := by
  refine ⟨tells_ofResults leftRole left, tells_ofResults rightRole right, snapshotPayload_eq_iff,
    fun apart => ?_⟩
  rw [(tells_ofResults leftRole left).snapshotHash_eq,
    (tells_ofResults rightRole right).snapshotHash_eq, ← snapshotPayload_eq_iff]
  exact ⟨apart, congrArg fingerprint⟩

/-- A passing result with an output, all else being the same. -/
def printing (output : String) : TestResult :=
  ⟨"t", true, output, 1.5⟩

/-- Runs in another order have the same fingerprint, and a run that prints a quote and one that
prints a backslash have not. -/
theorem TestRun.identified_printing :
    (TestRun.ofResults .baseline [printing "\"", printing "\\", printing "\""]).snapshotHash =
        (TestRun.ofResults .migrated [printing "\\", printing "\"", printing "\""]).snapshotHash ∧
      (TestRun.ofResults .baseline [printing "\""]).snapshotHash ≠
        (TestRun.ofResults .baseline [printing "\\"]).snapshotHash := by
  have reordered : SameObservations [printing "\"", printing "\\", printing "\""]
      [printing "\\", printing "\"", printing "\""] :=
    sameObservations_iff_perm.mpr ((List.Perm.swap _ _ _).map _)
  have changed : ¬ SameObservations [printing "\""] [printing "\\"] :=
    fun same => absurd (same ("t", "\"", true)) (by decide)
  have apart : fingerprint (snapshotPayload [printing "\""]) ≠
      fingerprint (snapshotPayload [printing "\\"]) := by
    rw [snapshotPayload, snapshotPayload, List.map_singleton, List.map_singleton,
      List.mergeSort_singleton, List.mergeSort_singleton]
    decide +kernel
  constructor
  · exact ((identified_ofResults .baseline .migrated _ _).2.2.2 fun _ =>
      snapshotPayload_eq_iff.mpr reordered).mpr reordered
  · intro same
    have identified := (identified_ofResults .baseline .baseline _ _).2.2.2 fun collision =>
      absurd collision apart
    exact changed (identified.mp same)

end MigrationGuard
