/-
This file takes the times out of a store, and with them the identities that are
made from times. A write leaves the same untimed store whenever it happens, so two
stores that are written to in the same way stay the same up to times. Texts are no
structured records and are taken out too. Runs and documents have identities that
are made from their times, so whether a further one is refused depends on when it
is recorded; apart from that, which rows a write goes to and what it changes in
them is decided by what is left without times. This lets two runs of a session be
compared that were made at different times and ask their memories for the same
things, and it is why the comparison speaks of records up to times.
-/

import Mathlib.Logic.Basic
import MigrationGuard.Memory.Repository

namespace MigrationGuard

/-! ### Records without times -/

/-- The record of a repository without times, with its count of runs. -/
def RepositoryRecord.untimed (record : RepositoryRecord) : RepositoryRecord :=
  { record with firstSeen := 0, lastSeen := 0 }

/-- The record of a run without its time and the identity that is made from it. -/
def RunRecord.untimed (record : RunRecord) : RunRecord :=
  { record with id := "", ranAt := 0 }

/-- The record of a drift without times, with how often it was seen. -/
def DriftRecord.untimed (record : DriftRecord) : DriftRecord :=
  { record with firstSeen := 0, lastSeen := 0 }

/-- The record of a function without its time. The fingerprint has none in it. -/
def SignatureRecord.untimed (record : SignatureRecord) : SignatureRecord :=
  { record with lastSeen := 0 }

/-- The record of a document without times and the identity that is made from them. -/
def DocumentRecord.untimed (record : DocumentRecord) : DocumentRecord :=
  { record with id := "", ranAt := 0, reviewedAt := record.reviewedAt.map fun _ => 0 }

/-- The structured records of a store without times, in the order in which they were made. -/
def Store.untimed (store : Store) : Store where
  repositories := store.repositories.map RepositoryRecord.untimed
  runs := store.runs.map RunRecord.untimed
  drifts := store.drifts.map DriftRecord.untimed
  signatures := store.signatures.map SignatureRecord.untimed
  documents := store.documents.map DocumentRecord.untimed
  texts := []

namespace Store

/-! ### Writes -/

/-- What is forgotten of the rows makes no difference to where a row goes, if it makes none to
which row is meant. -/
theorem map_upsert {Row : Type} (forget : Row → Row) {isIt isItToo : Row → Bool}
    {change changeToo : Row → Row} (new : Row) (rows : List Row)
    (meant : ∀ row, isItToo (forget row) = isIt row)
    (changed : ∀ row, forget (change row) = changeToo (forget row)) :
    (upsert isIt change new rows).map forget =
      upsert isItToo changeToo (forget new) (rows.map forget) := by
  induction rows with
  | nil => rfl
  | cons row rows inductionHypothesis =>
    rw [List.map_cons, upsert, upsert, meant]
    split
    · rw [List.map_cons, changed]
    · rw [List.map_cons, inductionHypothesis]

theorem untimed_touch (store : Store) (id path : String) (now : Int) :
    (store.touch id path now).untimed = store.untimed.touch id path 0 := by
  have rows : (store.touch id path now).untimed.repositories =
      (store.untimed.touch id path 0).repositories :=
    map_upsert _ _ _ (fun _ => rfl) fun _ => rfl
  exact congrArg (fun rows => { store.untimed with repositories := rows }) rows

/-- The store with a run added and counted, and its repository registered. -/
def withRun (store : Store) (path : String) (run : RunRecord) : Store :=
  let touched := store.touch run.repository path run.ranAt
  { touched with
    repositories := touched.repositories.map fun row =>
      if row.id = run.repository then { row with runCount := row.runCount + 1 } else row
    runs := store.runs ++ [{ run with
      preservationPct := run.preservationPct.map keptNumber
      riskScore := run.riskScore.map keptNumber }] }

/-- A run is recorded unless one with its identity is there, and then nothing is changed. -/
theorem recordRun_eq (store : Store) (path : String) (run : RunRecord) :
    store.recordRun path run =
      if store.runs.any fun row => row.id == run.id then .error (.duplicate "pipeline_runs.run_id")
      else .ok (store.withRun path run) :=
  rfl

theorem untimed_withRun (store : Store) (path : String) (run : RunRecord) :
    (store.withRun path run).untimed = store.untimed.withRun path run.untimed := by
  have touched := congrArg Store.repositories (untimed_touch store run.repository path run.ranAt)
  have rows : (store.withRun path run).untimed.repositories =
      (store.untimed.withRun path run.untimed).repositories := by
    refine Eq.trans ?_ (congrArg (List.map fun row : RepositoryRecord =>
      if row.id = run.repository then { row with runCount := row.runCount + 1 } else row) touched)
    refine List.map_map.trans (Eq.trans (List.map_congr_left fun row _ => ?_) List.map_map.symm)
    rw [Function.comp_apply, Function.comp_apply, apply_ite RepositoryRecord.untimed]
    rfl
  have runs : (store.withRun path run).untimed.runs =
      (store.untimed.withRun path run.untimed).runs :=
    List.map_append
  exact congrArg₂ (fun rows runs => { store.untimed with repositories := rows, runs := runs }) rows
    runs

theorem untimed_recordDrift (store : Store) (path : String) (drift : DriftRecord) :
    (store.recordDrift path drift).untimed = store.untimed.recordDrift path drift.untimed := by
  have touched := congrArg Store.repositories
    (untimed_touch store drift.repository path drift.lastSeen)
  have drifts : (store.recordDrift path drift).untimed.drifts =
      (store.untimed.recordDrift path drift.untimed).drifts :=
    map_upsert _ _ _ (fun _ => rfl) fun _ => rfl
  exact congrArg₂ (fun rows drifts => { store.untimed with repositories := rows, drifts := drifts })
    touched drifts

theorem untimed_recordSignature (store : Store) (path : String) (signature : SignatureRecord) :
    (store.recordSignature path signature).untimed =
      store.untimed.recordSignature path signature.untimed := by
  have touched := congrArg Store.repositories
    (untimed_touch store signature.repository path signature.lastSeen)
  have signatures : (store.recordSignature path signature).untimed.signatures =
      (store.untimed.recordSignature path signature.untimed).signatures :=
    map_upsert _ _ _ (fun _ => rfl) fun _ => rfl
  exact congrArg₂
    (fun rows signatures => { store.untimed with repositories := rows, signatures := signatures })
    touched signatures

end Store

end MigrationGuard
