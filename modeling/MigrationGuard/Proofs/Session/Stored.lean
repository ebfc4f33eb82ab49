/-
This file shows which sessions come back from their saved text as they were: those
whose doubles are all finite and whose counts fit in their words. Of the doubles
only the risk score of a report may be absent. Where it is not finite, it is read
as absent; any other text with a number that is out of range stands for no
session. For each structure that a session holds it is said what its written value
is read as, field by field, and the condition on a structure is that of its
fields. So the theorem at the end is an equivalence: the text of a session stands
for another one just if the numbers of the session can be read again and the other
one is the session with that one score dropped where it has to be. Nothing else
about a session can be lost in its text.
-/

import MigrationGuard.Proofs.Json.Stored
import MigrationGuard.Session.State

namespace MigrationGuard

open Data

/-! ### Words -/

instance : Faithful RunRole := .ofWords _ (fun _ => rfl) (by rintro ⟨⟩ <;> rfl)
instance : Faithful DriftSeverity := .ofWords _ (fun _ => rfl) (by rintro ⟨⟩ <;> rfl)
instance : Faithful SideEffect := .ofWords _ (fun _ => rfl) (by rintro ⟨⟩ <;> rfl)
instance : Faithful NodeKind := .ofWords _ (fun _ => rfl) (by rintro ⟨⟩ <;> rfl)
instance : Faithful CallType := .ofWords _ (fun _ => rfl) (by rintro ⟨⟩ <;> rfl)
instance : Faithful DeadCodeKind := .ofWords _ (fun _ => rfl) (by rintro ⟨⟩ <;> rfl)
instance : Faithful ChangeType := .ofWords _ (fun _ => rfl) (by rintro ⟨⟩ <;> rfl)
instance : Faithful WarningSource := .ofWords _ (fun _ => rfl) (by rintro ⟨⟩ <;> rfl)
instance : Faithful RiskLevel := .ofWords _ (fun _ => rfl) (by rintro ⟨⟩ <;> rfl)
instance : Faithful Verdict := .ofWords _ (fun _ => rfl) (by rintro ⟨⟩ <;> rfl)
instance : Faithful Stage := .ofWords _ (fun _ => rfl) (by rintro ⟨⟩ <;> rfl)

instance : Present Verdict := ⟨fun _ => nofun⟩

instance : Faithful EffectSet where
  depth := Stored.depth (List SideEffect)
  shallow effects := Stored.shallow effects.toList
  read effects := by
    show (ofValue? (toValue effects.toList).reread).map EffectSet.ofList = some effects
    rw [Faithful.read, Option.map_some, EffectSet.ofList_toList]

instance : Faithful Progress where
  depth := 2
  shallow progress := by
    cases progress with
    | failed stage => cases stage <;> decide
    | _ => decide
  read progress := by
    cases progress with
    | failed stage => cases stage <;> rfl
    | _ => rfl

/-! ### Results and runs -/

instance : Stored TestResult where
  Lasts result := Stored.Lasts result.durationMs
  depth := 2
  shallow _ := depth_record_le (by simp (disch := decide))
  read_iff _ _ := Iff.trans read_record_iff (by simp [Option.bind_eq_some_iff, and_assoc])

instance : Stored TestRun where
  Lasts run := Stored.Lasts run.results ∧ Stored.Lasts run.total ∧ Stored.Lasts run.passed ∧
    Stored.Lasts run.failed
  depth := 4
  shallow _ := depth_record_le (by simp (disch := decide))
  read_iff _ _ := Iff.trans read_record_iff (by simp [Option.bind_eq_some_iff, and_assoc])

instance : Faithful GeneratedTest where
  depth := 2
  shallow _ := depth_record_le (by simp (disch := decide))
  read
    | ⟨_, _, _, _⟩ => Iff.mpr read_record_iff (by simp)

instance : Stored TestSuite where
  Lasts suite := Stored.Lasts suite.coveragePct
  depth := 4
  shallow _ := depth_record_le (by simp (disch := decide))
  read_iff _ _ := Iff.trans read_record_iff (by simp [Option.bind_eq_some_iff, and_assoc])

instance : Faithful DriftItem where
  depth := 2
  shallow _ := depth_record_le (by simp (disch := decide))
  read
    | ⟨_, _, _, _, _⟩ => Iff.mpr read_record_iff (by simp)

instance : Stored (ValidationResult Float) where
  Lasts result := Stored.Lasts result.migratedResults ∧ Stored.Lasts result.criticalDriftCount ∧
    Stored.Lasts result.nonCriticalDriftCount ∧ Stored.Lasts result.preservationPct
  depth := 4
  shallow _ := depth_record_le (by simp (disch := decide))
  read_iff _ _ := Iff.trans read_record_iff (by simp [Option.bind_eq_some_iff, and_assoc])

/-! ### Workflows -/

instance : Stored CallNode where
  Lasts node := Stored.Lasts node.line
  depth := 2
  shallow _ := depth_record_le (by simp (disch := decide))
  read_iff _ _ := Iff.trans read_record_iff (by simp [Option.bind_eq_some_iff, and_assoc])

instance : Faithful CallEdge where
  depth := 2
  shallow _ := depth_record_le (by simp (disch := decide))
  read
    | ⟨_, _, _⟩ => Iff.mpr read_record_iff (by simp)

instance : Stored WorkflowGraph where
  Lasts graph := Stored.Lasts graph.nodes
  depth := 4
  shallow _ := depth_record_le (by simp (disch := decide))
  read_iff _ _ := Iff.trans read_record_iff (by simp [Option.bind_eq_some_iff, and_assoc])

instance : Stored DeadCodeItem where
  Lasts item := Stored.Lasts item.line
  depth := 2
  shallow _ := depth_record_le (by simp (disch := decide))
  read_iff _ _ := Iff.trans read_record_iff (by simp [Option.bind_eq_some_iff, and_assoc])

instance : Stored DeadCodeReport where
  Lasts report := Stored.Lasts report.items ∧ Stored.Lasts report.total ∧
    Stored.Lasts report.zeroCallerCount ∧ Stored.Lasts report.unreachableCount ∧
    Stored.Lasts report.commentedBlockCount
  depth := 4
  shallow _ := depth_record_le (by simp (disch := decide))
  read_iff _ _ := Iff.trans read_record_iff (by simp [Option.bind_eq_some_iff, and_assoc])

instance : Faithful ChangedFunction where
  depth := 2
  shallow _ := depth_record_le (by simp (disch := decide))
  read
    | ⟨_, _, _⟩ => Iff.mpr read_record_iff (by simp)

/-! ### Changes and risks -/

instance : Stored PatchChange where
  Lasts change := Stored.Lasts change.line
  depth := 2
  shallow _ := depth_record_le (by simp (disch := decide))
  read_iff _ _ := Iff.trans read_record_iff (by simp [Option.bind_eq_some_iff, and_assoc])

instance : Stored MigrationPatch where
  Lasts patch := Stored.Lasts patch.changes
  depth := 4
  shallow _ := depth_record_le (by simp (disch := decide))
  read_iff _ _ := Iff.trans read_record_iff (by simp [Option.bind_eq_some_iff, and_assoc])

/-- A short count comes back if it fits in thirty-two bits, and else it is not read. -/
@[simp]
theorem read_shortCount_iff (count other : Nat) :
    (∃ short : ShortCount, ofValue? (toValue count).reread = some short ∧ short.value = other) ↔
      count < 2 ^ 32 ∧ count = other := by
  rw [← toNatBelow?_reread (by decide)]
  constructor
  · rintro ⟨short, read, rfl⟩
    obtain ⟨value, below, rfl⟩ := Option.map_eq_some_iff.mp read
    exact below
  · intro below
    exact ⟨⟨other⟩, Option.map_eq_some_iff.mpr ⟨other, below, rfl⟩, rfl⟩

instance : Stored RiskWarning where
  Lasts warning := warning.timesSeen < 2 ^ 32
  depth := 2
  shallow _ := depth_record_le (by simp (disch := decide))
  read_iff
    | ⟨_, _, _, _, _⟩, ⟨_, _, _, _, _⟩ => Iff.trans read_record_iff
      (by simp [Option.bind_eq_some_iff, and_left_comm])

instance : Stored (RiskFactors Float) where
  Lasts factors := Stored.Lasts factors.drift ∧ Stored.Lasts factors.history ∧
    Stored.Lasts factors.sideEffect ∧ Stored.Lasts factors.coverage
  depth := 2
  shallow _ := depth_record_le (by simp (disch := decide))
  read_iff _ _ := Iff.trans read_record_iff (by simp [Option.bind_eq_some_iff, and_assoc])

instance : Stored (RiskAssessment Float) where
  Lasts risk := Stored.Lasts risk.score ∧ Stored.Lasts risk.warnings ∧
    Stored.Lasts risk.knownDriftCount ∧ Stored.Lasts risk.pastRunCount ∧
    Stored.Lasts risk.density ∧ Stored.Lasts risk.coverageGap ∧ Stored.Lasts risk.factors
  depth := 4
  shallow _ := depth_record_le (by simp (disch := decide))
  read_iff risk other := by
    refine Iff.trans read_record_iff ?_
    simp only [List.map_cons, List.map_nil, required_given, optional_given, Faithful.read]
    dsimp only [Option.bind_eq_bind, Option.bind_some]
    simp only [Option.bind_eq_some_iff, Option.pure_def, Option.some.injEq, Stored.read_iff,
      existsAndEq, true_and, and_assoc]

/-! ### Reports -/

instance : Present WorkflowGraph := ⟨fun _ => nofun⟩
instance : Present DeadCodeReport := ⟨fun _ => nofun⟩
instance : Present TestSuite := ⟨fun _ => nofun⟩
instance : Present MigrationPatch := ⟨fun _ => nofun⟩
instance : Present TestRun := ⟨fun _ => nofun⟩
instance : Present (RiskAssessment Float) := ⟨fun _ => nofun⟩
instance : Present (ValidationResult Float) := ⟨fun _ => nofun⟩

/-- A double that may be absent is read as absent if it is not finite. -/
@[simp]
theorem read_option_float (value : Option Float) :
    ofValue? (toValue value).reread = some (value.filter Float.isFinite) := by
  cases value with
  | none => rfl
  | some value =>
    show ofValue? (if value.isFinite then .float value else .null) = _
    rw [Option.filter_some]
    split_ifs <;> rfl

theorem depth_option_float (value : Option Float) : (toValue value).depth = 0 := by
  cases value <;> rfl

/-- The numbers of the report can be read again, where they have to be there. -/
def ConfidenceReport.Legible (report : ConfidenceReport Float) : Prop :=
  Stored.Lasts report.preservationPct ∧ Stored.Lasts report.criticalDrifts ∧
    Stored.Lasts report.nonCriticalDrifts ∧ Stored.Lasts report.coveragePct

instance (report : ConfidenceReport Float) : Decidable report.Legible :=
  inferInstanceAs (Decidable (_ ∧ _))

/-- The report with a risk score only if that is finite, which is how it is loaded. -/
def ConfidenceReport.reread (report : ConfidenceReport Float) : ConfidenceReport Float :=
  { report with riskScore := report.riskScore.filter Float.isFinite }

theorem ConfidenceReport.read_iff (report other : ConfidenceReport Float) :
    ofValue? (toValue report).reread = some other ↔ report.Legible ∧ report.reread = other := by
  refine Iff.trans read_record_iff ?_
  simp [Option.bind_eq_some_iff, Legible, reread, and_assoc]

/-! ### Sessions -/

@[simp]
theorem read_option_report_iff (report other : Option (ConfidenceReport Float)) :
    ofValue? (toValue report).reread = some other ↔
      (∀ given ∈ report, given.Legible) ∧ report.map ConfidenceReport.reread = other := by
  cases report with
  | none =>
    show some none = some other ↔ _
    simp
  | some report =>
    have present : (toValue report).reread ≠ .null := nofun
    show ofValue? (toValue report).reread = some other ↔ _
    rw [ofValue?_option_of_ne_null present, Option.map_eq_some_iff]
    simp [ConfidenceReport.read_iff, and_assoc]

theorem depth_option_report_le (report : Option (ConfidenceReport Float)) :
    (toValue report).depth ≤ 4 := by
  cases report with
  | none => exact Nat.zero_le 4
  | some report => exact depth_record_le (by simp (disch := decide) [depth_option_float])

/-- The numbers of a session can be read again, where they have to be there: all its doubles are
finite, and all its counts fit in their words. -/
def Session.Legible (session : Session) : Prop :=
  Stored.Lasts session.graph ∧ Stored.Lasts session.deadCode ∧ Stored.Lasts session.suite ∧
    Stored.Lasts session.patch ∧ Stored.Lasts session.baselineRun ∧
    Stored.Lasts session.assessment ∧ Stored.Lasts session.migratedRun ∧
    Stored.Lasts session.validation ∧ ∀ report ∈ session.report, report.Legible

instance (session : Session) : Decidable session.Legible :=
  inferInstanceAs (Decidable (_ ∧ _))

/-- The session with a risk score in its report only if that is finite, which is how it is loaded.
-/
def Session.reread (session : Session) : Session :=
  { session with report := session.report.map ConfidenceReport.reread }

theorem Session.depth_le (session : Session) : (toValue session).depth ≤ 6 := by
  have report := (depth_option_report_le session.report).trans (by decide : 4 ≤ 5)
  exact depth_record_le (by simp (disch := decide) [report])

theorem Session.parse?_toText (session : Session) :
    Json.parse? session.toText = some (toValue session).reread :=
  Json.parse?_pretty (session.depth_le.trans (by decide))

/-- The saved text of a session that is legible stands for the session, up to the risk score of its
report. Any other text stands for none. -/
theorem Session.ofText?_toText_iff (session other : Session) :
    ofText? session.toText = some other ↔ session.Legible ∧ session.reread = other := by
  rw [ofText?, parse?_toText, Option.bind_some]
  refine Iff.trans read_record_iff ?_
  simp only [List.map_cons, List.map_nil, required_given, withDefault_given, Faithful.read]
  dsimp only [Option.bind_eq_bind, Option.bind_some]
  simp only [Option.bind_eq_some_iff, Option.pure_def, Option.some.injEq, read_option_report_iff,
    existsAndEq, true_and, Stored.read_iff, and_assoc, Legible, reread]

end MigrationGuard
