/-
This file shows that a saved session comes back also where members that are null
are left out of its text, which is how fields that no stage has filled are
written. It is enough to show for each type with an optional part that its values
endure: that they are read as they were from every record that says the same with
some or all of its nulls left out. Types without optional parts have nothing to
leave out. What a session needs for it is that all of its doubles are finite and
all of its counts fit in their words, which is a little more than being legible: a
risk score of a report that is not finite is read as absent, so such a session
would come back without it. The main theorem joins this with the file that a
session is saved in.
-/

import MigrationGuard.Proofs.Json.Omission
import MigrationGuard.Proofs.Session.Saving

namespace MigrationGuard

open Data

/-! ### Types without null parts -/

instance : Gapless RunRole := .ofWords
instance : Gapless DriftSeverity := .ofWords
instance : Gapless SideEffect := .ofWords
instance : Gapless NodeKind := .ofWords
instance : Gapless CallType := .ofWords
instance : Gapless DeadCodeKind := .ofWords
instance : Gapless ChangeType := .ofWords
instance : Gapless WarningSource := .ofWords
instance : Gapless RiskLevel := .ofWords
instance : Gapless Verdict := .ofWords

instance : Gapless EffectSet where
  gapless effects _ := Gapless.gapless effects.toList fun _ _ => trivial

instance : Gapless Progress where
  gapless progress _ := by
    cases progress <;> rfl

instance : Gapless TestResult where
  gapless _ lasts := isGapless_record.mpr (by simp [isGapless_of_lasts (α := Float) lasts])

instance : Gapless TestRun where
  gapless _ := fun ⟨results, total, passed, failed⟩ => isGapless_record.mpr (by simp [*])

instance : Gapless GeneratedTest where
  gapless _ _ := isGapless_record.mpr (by simp)

instance : Gapless TestSuite where
  gapless _ lasts := isGapless_record.mpr (by simp [isGapless_of_lasts (α := Float) lasts])

instance : Gapless DriftItem where
  gapless _ _ := isGapless_record.mpr (by simp)

instance : Gapless (ValidationResult Float) where
  gapless _ := fun ⟨results, critical, nonCritical, preservation⟩ =>
    isGapless_record.mpr (by simp [*])

instance : Gapless CallNode where
  gapless _ lasts := isGapless_record.mpr (by simp [isGapless_of_lasts (α := Nat) lasts])

instance : Gapless CallEdge where
  gapless _ _ := isGapless_record.mpr (by simp)

instance : Gapless WorkflowGraph where
  gapless graph lasts := isGapless_record.mpr (by
    have paths : Stored.Lasts graph.sideEffectPaths := fun _ _ _ _ => trivial
    simp [isGapless_of_lasts (α := List CallNode) lasts, isGapless_of_lasts paths])

instance : Gapless DeadCodeItem where
  gapless _ lasts := isGapless_record.mpr (by simp [isGapless_of_lasts (α := Nat) lasts])

instance : Gapless DeadCodeReport where
  gapless _ := fun ⟨items, total, zeroCallers, unreachable, commented⟩ =>
    isGapless_record.mpr (by simp [*])

instance : Gapless ChangedFunction where
  gapless _ _ := isGapless_record.mpr (by simp)

instance : Gapless PatchChange where
  gapless _ lasts := isGapless_record.mpr (by simp [isGapless_of_lasts (α := Nat) lasts])

instance : Gapless MigrationPatch where
  gapless _ lasts :=
    isGapless_record.mpr (by simp [isGapless_of_lasts (α := List PatchChange) lasts])

instance : Gapless RiskWarning where
  gapless warning lasts := isGapless_record.mpr (by
    have fits : Stored.Lasts warning.timesSeen := Nat.lt_trans lasts (by decide)
    simp [isGapless_of_lasts fits])

instance : Gapless (RiskFactors Float) where
  gapless _ := fun ⟨drift, history, sideEffect, coverage⟩ => isGapless_record.mpr (by simp [*])

/-! ### Fields that may be absent -/

/-- A value without a null part that may be absent endures if it comes back. -/
theorem endures_of_lasts_option {α : Type} [ToValue α] [OfValue α] [Stored α] [Gapless α]
    {value : Option α} (lasts : ∀ inner ∈ value, Stored.Lasts inner) :
    ∀ inner ∈ value, Endures inner :=
  fun inner known => endures_of_lasts (lasts inner known)

/-- An assessment that comes back endures: of its fields only the worst verdict may be absent. -/
theorem RiskAssessment.endures {risk : RiskAssessment Float} (lasts : Stored.Lasts risk) :
    Endures risk := by
  obtain ⟨score, warnings, drifts, runs, density, gap, factors⟩ := lasts
  refine ⟨reread_record_ne_null, fun less omits => read_of_omits omits fun slot shown => ?_⟩
  simp only [List.forall_mem_cons] at shown
  obtain ⟨showsScore, showsLevel, showsWarnings, showsDrifts, showsRuns, showsWorst, showsDensity,
    showsGap, showsFactors, showsTime, -⟩ := shown
  simp only [List.map_cons, List.map_nil, Option.bind_eq_bind, Option.bind_some,
    showsScore.required (endures_of_lasts score), showsLevel.required (endures_of_lasts trivial),
    showsWarnings.required (endures_of_lasts warnings),
    showsDrifts.required (endures_of_lasts drifts), showsRuns.required (endures_of_lasts runs),
    (showsWorst.optional fun _ _ => endures_of_lasts trivial).2,
    showsDensity.required (endures_of_lasts density), showsGap.required (endures_of_lasts gap),
    showsFactors.required (endures_of_lasts factors),
    showsTime.required (endures_of_lasts trivial)]
  rfl

/-- A report that is legible endures, if its risk score is finite where it has one. -/
theorem ConfidenceReport.endures {report : ConfidenceReport Float} (legible : report.Legible)
    (finite : ∀ score ∈ report.riskScore, score.isFinite) : Endures report := by
  obtain ⟨preservation, critical, nonCritical, coverage⟩ := legible
  refine ⟨reread_record_ne_null, fun less omits => read_of_omits omits fun slot shown => ?_⟩
  simp only [List.forall_mem_cons] at shown
  obtain ⟨showsVerdict, showsPreservation, showsCritical, showsNonCritical, showsCoverage,
    showsRisk, showsMissing, -⟩ := shown
  simp only [List.map_cons, List.map_nil, Option.bind_eq_bind, Option.bind_some,
    showsVerdict.required (endures_of_lasts trivial),
    showsPreservation.required (endures_of_lasts preservation),
    showsCritical.required (endures_of_lasts critical),
    showsNonCritical.required (endures_of_lasts nonCritical),
    showsCoverage.required (endures_of_lasts coverage),
    (showsRisk.optional (endures_of_lasts_option finite)).2,
    showsMissing.withDefault (endures_of_lasts fun _ _ => trivial)]
  rfl

/-! ### Sessions -/

/-- All doubles of the session are finite, and all its counts fit in their words. -/
def Session.Lasts (session : Session) : Prop :=
  session.Legible ∧ ∀ report ∈ session.report, ∀ score ∈ report.riskScore, score.isFinite

instance (session : Session) : Decidable session.Lasts :=
  inferInstanceAs (Decidable (_ ∧ _))

theorem Session.endures {session : Session} (lasts : session.Lasts) : Endures session := by
  obtain ⟨⟨graph, deadCode, suite, patch, baseline, assessment, migrated, validation, report⟩,
    finite⟩ := lasts
  refine ⟨reread_record_ne_null, fun less omits => read_of_omits omits fun slot shown => ?_⟩
  simp only [List.forall_mem_cons] at shown
  obtain ⟨showsId, showsRepository, showsTarget, showsMigrated, showsGraph, showsChanged,
    showsDeadCode, showsSuite, showsPatch, showsBaseline, showsAssessment, showsMigratedRun,
    showsValidation, showsReport, showsProgress, showsError, -⟩ := shown
  simp only [List.map_cons, List.map_nil, fieldNames, Option.bind_eq_bind, Option.bind_some,
    showsId.required (endures_of_lasts trivial),
    showsRepository.required (endures_of_lasts trivial),
    (showsTarget.optional fun _ _ => endures_of_lasts trivial).1,
    (showsMigrated.optional fun _ _ => endures_of_lasts trivial).1,
    (showsGraph.optional (endures_of_lasts_option graph)).1,
    showsChanged.withDefault (endures_of_lasts fun _ _ => trivial),
    (showsDeadCode.optional (endures_of_lasts_option deadCode)).1,
    (showsSuite.optional (endures_of_lasts_option suite)).1,
    (showsPatch.optional (endures_of_lasts_option patch)).1,
    (showsBaseline.optional (endures_of_lasts_option baseline)).1,
    (showsAssessment.optional fun risk known => RiskAssessment.endures (assessment risk known)).1,
    (showsMigratedRun.optional (endures_of_lasts_option migrated)).1,
    (showsValidation.optional (endures_of_lasts_option validation)).1,
    (showsReport.optional fun given known =>
      ConfidenceReport.endures (report given known) (finite given known)).1,
    showsProgress.withDefault (endures_of_lasts trivial),
    (showsError.optional fun _ _ => endures_of_lasts trivial).1]
  rfl

/-! ### Saved sessions -/

/-- The directory of saved sessions can be made, and the file of the session can be written. -/
def FileAccess.TakesSaved {World : Type} (files : FileAccess (StateM World)) (session : Session)
    (world : World) : Prop :=
  let made := files.makeDirectories (WorkspacePlaces.of session.repository).runs world
  made.1 = .ok () ∧
    (files.write session.savedPath (Text.encode session.toText) made.2).1 = .ok ()

theorem saveSession_of_takes {World : Type} {files : FileAccess (StateM World)} {session : Session}
    {world : World} (takes : files.TakesSaved session world) :
    ∃ saved, saveSession files session world = (.ok session.savedPath, saved) := by
  obtain ⟨made, wrote⟩ := takes
  refine ⟨_, Prod.ext ?_ rfl⟩
  simp only [saveSession, bind_apply, made, FileAccess.writeText, wrote]
  rfl

/-- A session is not lost when it is saved, nor when its text is written without its nulls. -/
structure Session.Survives (session : Session) : Prop where
  /-- Its text stands for it. -/
  text : ofText? session.toText = some session
  /-- So does every text that says the same without some of the members that are null. -/
  shorter : ∀ text saved less, Json.parse? session.toText = some saved →
    Json.parse? text = some less → saved.Omits less → ofText? text = some session
  /-- There are such texts: members that are null need not be written. -/
  written : ∀ less, (toValue session).Omits less → ofText? (Json.pretty less) = some session
  /-- Where its file is kept, it is saved and loaded as it was. -/
  kept : ∀ {World : Type} (files : FileAccess (StateM World)) (world : World),
    files.TakesSaved session world → files.KeepsSaved session world →
      ∃ saved, saveSession files session world = (.ok session.savedPath, saved) ∧
        (loadSession files session.savedPath saved).1 = .ok session

/-- A session with finite doubles, and counts that fit in their words, survives storage. -/
theorem Session.survives {session : Session} (lasts : session.Lasts) : session.Survives := by
  have endures := endures lasts
  have text : ofText? session.toText = some session := by
    rw [ofText?, parse?_toText]
    exact endures.read _ .same
  refine ⟨text, fun text saved less parsed shorter omits => ?_, fun less omits => ?_, ?_⟩
  · rw [parse?_toText] at parsed
    obtain rfl := Option.some.inj parsed
    rw [ofText?, shorter]
    exact endures.read less omits
  · have shallow : less.depth ≤ Json.deepest :=
      (omits.depth_le.trans session.depth_le).trans (by decide)
    rw [ofText?, Json.parse?_pretty shallow]
    exact endures.read _ omits.reread
  · intro World files world takes keeps
    obtain ⟨saved, written⟩ := saveSession_of_takes takes
    obtain ⟨-, holds⟩ := read_of_saveSession keeps written
    exact ⟨saved, written, by rw [loadSession_of_read holds, text]⟩

/-- A session that failed at its report. No verdict was passed before, and the report has no risk
score. -/
def stoppedSession : Session where
  id := "s"
  repository := "old"
  migratedPath := some "new"
  assessment := some ⟨0.2, .low, [], 0, 0, none, 0.0, 1.0, ⟨0.0, 0.0, 0.0, 0.2⟩, "1970-01-01"⟩
  report := some ⟨.safe, 99.5, 0, 1, 0.0, none, ["tests/test_tax.py"]⟩
  progress := .failed .report
  error := some "no space left"

theorem stoppedSession_survives : stoppedSession.Survives :=
  Session.survives (by decide +kernel)

end MigrationGuard
