/-
This file shows that a stored run is read as what was stored. A file holds a full
run or the results alone. Both shapes are tried in turn, and a structure may be
given as a list of its fields; still no list of results is read as a run, and no
run as a list of results. So a run comes back as it was, results come back as the
run that they make up, and two stored runs are compared as they would be compared
in memory. Why the shapes cannot be confused is the point: where a run has its
role, a list of results ends or has a result, which is no word, and what is
written of a run is a record and no list. A list of six results, as many as a run
has fields, is the case that comes closest. The comparison of two files then is
that of the runs that were meant, with the exit code that goes with its verdict.
-/

import MigrationGuard.CommandLine.Execution
import MigrationGuard.Proofs.Json.Compact
import MigrationGuard.Proofs.Session.Saving

namespace MigrationGuard

open Data

/-! ### What is stored -/

/-- What a file of a run stores, in either of its shapes. -/
inductive StoredRun where
  /-- A full run. -/
  | full (run : TestRun)
  /-- The results of a run alone. -/
  | bare (results : List TestResult)

namespace StoredRun

/-- The value that is written: a record for a run and a list for results. -/
def value : StoredRun → Value
  | .full run => toValue run
  | .bare results => toValue results

/-- The run that is meant where a run of the given side is looked for. -/
def meaning (role : RunRole) : StoredRun → TestRun
  | .full run => run
  | .bare results => .ofResults role results

/-- All durations are finite, and all counts fit in their words, so that they can be read again. -/
def Legible : StoredRun → Prop
  | .full run => (∀ result ∈ run.results, result.durationMs.isFinite) ∧ run.total < 2 ^ 64 ∧
    run.passed < 2 ^ 64 ∧ run.failed < 2 ^ 64
  | .bare results => ∀ result ∈ results, result.durationMs.isFinite

instance : (stored : StoredRun) → Decidable stored.Legible
  | .full run => inferInstanceAs (Decidable (Stored.Lasts run))
  | .bare results => inferInstanceAs (Decidable (Stored.Lasts results))

end StoredRun

/-! ### Runs and lists of results -/

/-- The names of the fields of a run, in the order in which a list would give them. -/
def runFields : List String :=
  ["role", "results", "total", "passed", "failed", "snapshot_hash"]

theorem no_run_of_no_slots {value : Value} (none : value.slots? runFields = none) :
    (ofValue? value : Option TestRun) = .none := by
  show (value.slots? runFields >>= _) = .none
  rw [none]
  rfl

/-- A value whose first field is no role is no run, whatever stands in its other fields. -/
theorem no_run_of_no_role {value : Value} {first : Slot} {others : List Slot}
    (slots : value.slots? runFields = some (first :: others))
    (noRole : (first.required : Option RunRole) = none) :
    (ofValue? value : Option TestRun) = none := by
  show (value.slots? runFields >>= _) = none
  rw [slots, Option.bind_eq_bind, Option.bind_some]
  split
  · rename_i same
    obtain ⟨rfl, -⟩ := List.cons.inj same
    rw [noRole]
    rfl
  · rfl

/-- A list of results is no run: where a run has its role, it ends or has a result. -/
theorem no_run_of_results (results : List TestResult) :
    (ofValue? (toValue results).reread : Option TestRun) = none := by
  show ofValue? (Value.list (results.map toValue)).reread = none
  rw [Value.reread, Value.rereadItems_eq, List.map_map]
  cases results with
  | nil => exact no_run_of_no_role rfl rfl
  | cons result others =>
    by_cases few : ((result :: others).map (Value.reread ∘ toValue)).length ≤ runFields.length
    · exact no_run_of_no_role (if_pos few) rfl
    · exact no_run_of_no_slots (if_neg few)

/-- A run is no list of results, as it is written as a record. -/
theorem no_results_of_run (run : TestRun) :
    (ofValue? (toValue run).reread : Option (List TestResult)) = none :=
  rfl

/-- What is stored is read as what was meant just if it is legible. -/
theorem storedRun?_reread_iff (stored : StoredRun) (role : RunRole) (found : TestRun) :
    storedRun? role stored.value.reread = some found ↔
      stored.Legible ∧ stored.meaning role = found := by
  cases stored with
  | full run =>
    have same : storedRun? role (toValue run).reread = ofValue? (toValue run).reread := by
      rw [storedRun?, no_results_of_run]
      cases (ofValue? (toValue run).reread : Option TestRun) <;> rfl
    exact (Eq.congr_left same).trans (Stored.read_iff run found)
  | bare results =>
    have same : storedRun? role (toValue results).reread =
        (ofValue? (toValue results).reread).map (TestRun.ofResults role) := by
      rw [storedRun?, no_run_of_results]
      rfl
    refine (Eq.congr_left same).trans (Option.map_eq_some_iff.trans ?_)
    constructor
    · rintro ⟨read, comes, rfl⟩
      obtain ⟨lasts, rfl⟩ := (Stored.read_iff results read).mp comes
      exact ⟨lasts, rfl⟩
    · rintro ⟨lasts, rfl⟩
      exact ⟨results, (Stored.read_iff results results).mpr ⟨lasts, rfl⟩, rfl⟩

/-! ### Readable parts -/

theorem areReadable_eq_all (items : List Value) :
    Value.areReadable items = items.all Value.isReadable := by
  induction items with
  | nil => rfl
  | cons item items inductionHypothesis =>
    rw [Value.areReadable, inductionHypothesis, List.all_cons]

theorem isReadable_reread_natural {value : Nat} (fits : value < 2 ^ 64) :
    (toValue value).reread.isReadable := by
  show (Value.integer value).reread.isReadable
  rw [reread_natural, if_pos fits]
  rfl

/-- A duration that is no number is written as null and so read. -/
theorem isReadable_reread_float (value : Float) : (toValue value).reread.isReadable := by
  show (Value.float value).reread.isReadable
  rw [Value.reread]
  split <;> rfl

theorem isReadable_reread_result (result : TestResult) :
    (toValue result).reread.isReadable := by
  have duration := isReadable_reread_float result.durationMs
  simpa [toValue, Value.reread, Value.rereadMembers, Value.isReadable, Value.areReadableMembers]
    using duration

theorem isReadable_reread_results (results : List TestResult) :
    (toValue results).reread.isReadable := by
  show (Value.list (results.map toValue)).reread.isReadable
  rw [Value.reread, Value.rereadItems_eq, Value.isReadable, areReadable_eq_all, List.map_map,
    List.all_map, List.all_eq_true]
  exact fun result _ => isReadable_reread_result result

theorem isReadable_reread_run {run : TestRun} (legible : (StoredRun.full run).Legible) :
    (toValue run).reread.isReadable := by
  obtain ⟨-, total, passed, failed⟩ := legible
  have results := isReadable_reread_results run.results
  have total := isReadable_reread_natural total
  have passed := isReadable_reread_natural passed
  have failed := isReadable_reread_natural failed
  have members : (toValue run).reread = .record [("role", (toValue run.role).reread),
      ("results", (toValue run.results).reread), ("total", (toValue run.total).reread),
      ("passed", (toValue run.passed).reread), ("failed", (toValue run.failed).reread),
      ("snapshot_hash", (toValue run.snapshotHash).reread)] := rfl
  rw [members]
  simp only [Value.isReadable, Value.areReadableMembers, results, total, passed, failed]
  rfl

theorem StoredRun.isReadable_reread {stored : StoredRun} (legible : stored.Legible) :
    stored.value.reread.isReadable := by
  cases stored with
  | full run => exact isReadable_reread_run legible
  | bare results => exact isReadable_reread_results results

/-! ### Texts and files -/

theorem StoredRun.depth_le (stored : StoredRun) : stored.value.depth ≤ Json.deepest := by
  cases stored with
  | full run => exact Stored.shallow_le (by decide) run
  | bare results => exact Stored.shallow_le (by decide) results

/-- The text of what is stored is read as what was meant if it is legible, and as no run
otherwise. -/
theorem storedRun?_of_written {stored : StoredRun} {text : String}
    (written : Json.Written stored.value text) (role : RunRole) :
    (Json.parseWhole? text).bind (storedRun? role) =
      if stored.Legible then some (stored.meaning role) else none := by
  rw [Json.parseWhole?, written.parse? stored.depth_le, Option.filter_some]
  by_cases legible : stored.Legible
  · rw [if_pos legible, if_pos (StoredRun.isReadable_reread legible), Option.bind_some]
    exact (storedRun?_reread_iff stored role _).mpr ⟨legible, rfl⟩
  · rw [if_neg legible]
    have nothing : storedRun? role stored.value.reread = none :=
      Option.eq_none_iff_forall_ne_some.mpr fun found read =>
        legible ((storedRun?_reread_iff stored role found).mp read).1
    split
    · exact nothing
    · rfl

section
variable {World : Type}

/-- The file holds the text of what is stored, on one line or over several lines. -/
def FileAccess.HoldsRun (files : FileAccess (StateM World)) (stored : StoredRun) (path : String)
    (world : World) : Prop :=
  ∃ text, Json.Written stored.value text ∧ (files.read path world).1 = .ok (Text.encode text)

theorem readRun_of_holdsRun {files : FileAccess (StateM World)} {stored : StoredRun}
    {path : String} {world : World} (holds : files.HoldsRun stored path world) (role : RunRole) :
    readRun files path role world = (if stored.Legible then .ok (stored.meaning role)
      else .error (.malformed "test run" path), (files.read path world).2) := by
  obtain ⟨text, written, content⟩ := holds
  rw [readRun, readDocument_of_read content, storedRun?_of_written written role]
  by_cases legible : stored.Legible
  · rw [if_pos legible, if_pos legible]
  · rw [if_neg legible, if_neg legible]

/-- What the comparison of two runs leaves behind: the report, and an exit code for its verdict. -/
def comparisonResult (validation : ValidationResult Float) : CommandResult :=
  let report := confidenceReport validation none none
  { CommandResult.ofValue (.record [("validation", toValue validation),
      ("confidence_report", toValue report)]) with
    exitCode := if report.criticalDrifts > 0 then 1 else 0 }

theorem diff_of_holdsRun {station : Station (StateM World)} {left right : StoredRun}
    {first second : String} {world : World} (holdsLeft : station.files.HoldsRun left first world)
    (holdsRight : station.files.HoldsRun right second (station.files.read first world).2)
    (leftLegible : left.Legible) (rightLegible : right.Legible) :
    (station.diff first second world).1 =
      comparisonResult (classifyDrift (left.meaning .baseline) (right.meaning .migrated)) := by
  rw [Station.diff, bind_apply, readRun_of_holdsRun holdsLeft, if_pos leftLegible]
  dsimp only
  rw [bind_apply, readRun_of_holdsRun holdsRight, if_pos rightLegible]
  rfl

end

/-- No list of results is read as a run, and no run as a list of results. From the file that holds
it, a run comes back as it was, and results come back as the run of the given side that they make
up, just if all durations are finite and all counts fit in their words. The comparison of two such
files is that of the runs in memory. -/
theorem stored_runs_come_back {World : Type} (station : Station (StateM World)) :
    (∀ results : List TestResult, (ofValue? (toValue results).reread : Option TestRun) = none) ∧
      (∀ run : TestRun, (ofValue? (toValue run).reread : Option (List TestResult)) = none) ∧
      (∀ stored path world, station.files.HoldsRun stored path world → ∀ role,
        (readRun station.files path role world).1 =
          if stored.Legible then .ok (stored.meaning role)
          else .error (.malformed "test run" path)) ∧
      ∀ left right first second world, station.files.HoldsRun left first world →
        station.files.HoldsRun right second (station.files.read first world).2 →
        left.Legible → right.Legible →
        (station.diff first second world).1 =
          comparisonResult (classifyDrift (left.meaning .baseline) (right.meaning .migrated)) := by
  refine ⟨no_run_of_results, no_results_of_run, ?_, ?_⟩
  · intro stored path world holds role
    rw [readRun_of_holdsRun holds role]
  · intro left right first second world holdsLeft holdsRight
    exact diff_of_holdsRun holdsLeft holdsRight

/-! ### Two stored runs -/

/-- A run whose counts are not those of its results. It is read as it was stored all the same. -/
def oddRun : TestRun :=
  ⟨.migrated, [⟨"t1", false, "boom", 2.0⟩], 9, 4, 5, "odd"⟩

/-- As many results as a run has fields, so their list could be taken for one. -/
def sixResults : List TestResult :=
  List.replicate 6 ⟨"t1", true, "42", 1.0⟩

/-- A station that has a full run in one file and results in every other one. -/
def twoRunStation : Station (StateM Unit) where
  files := {
    find := fun _ => return .error .notFound
    read := fun path => return .ok (Text.encode (if path = "run.json" then
      Json.indented 1 (toValue oddRun) else Json.compact (toValue sixResults)))
    write := fun _ _ => return .error .notFound
    makeDirectories := fun _ => return .error .notFound
    removeDirectory := fun _ => return .error .notFound
    removeFile := fun _ => return .error .notFound
    resolve := fun _ => return .error .notFound }
  runner := fun _ => return .finished "" 0.0
  ask := fun _ _ => return none
  send := fun _ _ => return ()
  environment? := fun _ => none
  clock := return 0

theorem stored_runs_come_back_of_sixResults :
    twoRunStation.files.HoldsRun (.full oddRun) "run.json" () ∧
      twoRunStation.files.HoldsRun (.bare sixResults) "results.json" () ∧
      (readRun twoRunStation.files "run.json" .baseline ()).1 = .ok oddRun ∧
      (readRun twoRunStation.files "results.json" .migrated ()).1 =
        .ok (.ofResults .migrated sixResults) ∧
      (twoRunStation.diff "run.json" "results.json" ()).1 =
        comparisonResult (classifyDrift oddRun (.ofResults .migrated sixResults)) := by
  have full : twoRunStation.files.HoldsRun (.full oddRun) "run.json" () := by
    refine ⟨_, .indented 1, ?_⟩
    simp only [twoRunStation, if_true]
    rfl
  have bare : twoRunStation.files.HoldsRun (.bare sixResults) "results.json" () := by
    refine ⟨_, .compact, ?_⟩
    have other : ¬ "results.json" = "run.json" := by decide
    simp only [twoRunStation, if_neg other]
    rfl
  have fullLegible : (StoredRun.full oddRun).Legible :=
    ⟨by decide, by decide, by decide, by decide⟩
  have bareLegible : (StoredRun.bare sixResults).Legible := by
    intro result member
    rw [List.eq_of_mem_replicate member]
    decide
  obtain ⟨-, -, comes, compared⟩ := stored_runs_come_back twoRunStation
  refine ⟨full, bare, ?_, ?_, ?_⟩
  · exact (comes _ _ () full .baseline).trans (if_pos fullLegible)
  · exact (comes _ _ () bare .migrated).trans (if_pos bareLegible)
  · exact compared (.full oddRun) (.bare sixResults) _ _ () full bare fullLegible bareLegible

end MigrationGuard
