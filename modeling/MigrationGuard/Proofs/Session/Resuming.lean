/-
This file takes up sessions again that paused behind the gate, as they are or from
the file that they were saved in. Either way they end as if the workspace after
the migration had been known from the start. For the saved ones this needs that
all their numbers can be read again, as a session with a duration that is not
finite is saved but not loaded. A session that paused has no report yet, so
nothing of it is lost on the way through its file but such numbers, and the
condition is exact: where it fails, loading fails. The worlds of the samples have
a shelf for the one file that is saved; where nothing else is read from there,
what stands on it makes no difference to a session. Here a world is nothing but a
shelf, and a report with a very long duration is saved on it and never read again;
a shelf may as well stand beside other things.
-/

import MigrationGuard.Proofs.Session.Findings
import MigrationGuard.Proofs.Session.Pausing
import MigrationGuard.Proofs.Session.Saving

namespace MigrationGuard

variable {World : Type}

/-- A session without a report is loaded as it was saved, as only a report can lose a number. -/
theorem Session.reread_of_report {session : Session} (unfinished : session.report = none) :
    session.reread = session := by
  rw [Session.reread, unfinished, Option.map_none, ← unfinished]

/-- A session that paused behind the gate has no report yet, as that is made last. -/
theorem Session.Settled.report_of_riskAnalyzed {session : Session} (settled : session.Settled)
    (passed : session.progress = .riskAnalyzed) : session.report = none := by
  have unfinished : ¬ session.report.isSome := by
    rw [settled.report, passed]
    exact nofun
  exact Option.not_isSome_iff_eq_none.mp unfinished

/-- A new session that paused behind the gate may be taken up again with a workspace after the
migration, and ends as it would have ended with that workspace from the start. If it is saved in
between, it is loaded and ends so just if it is legible. -/
theorem resumeSession_of_saved {around : Surroundings (StateM World)}
    {memory : Option (RepositoryMemory (StateM World))} {like : World → World → Prop}
    {store : World → Store} {session : Session} {migrated : String}
    (repeats : around.Repeats memory like store [session.repository, migrated])
    (new : session.IsNew) (notMigrated : session.migratedPath = none)
    {first second : World} (starts : withRecords like store first second) :
    let straight := runSession around { session with migratedPath := some migrated } first
    let paused := runSession around session second
    paused.1.progress = .riskAnalyzed →
      (∀ later, withRecords like store paused.2 later →
        paused.1.EndsAs around like store migrated later straight) ∧
      ∀ path saved, around.files.KeepsSaved paused.1 paused.2 →
        saveSession around.files paused.1 paused.2 = (.ok path, saved) →
        let loaded := loadSession around.files path saved
        withRecords like store paused.2 loaded.2 →
          ((∃ again, loaded.1 = .ok again ∧
            again.EndsAs around like store migrated loaded.2 straight) ↔ paused.1.Legible) := by
  intro straight paused passed
  have errorless : session.error = none := by rw [new]
  have ends : ∀ later, withRecords like store paused.2 later →
      paused.1.EndsAs around like store migrated later straight := fun later between =>
    resumeSession_of_paused repeats notMigrated errorless starts passed between
  refine ⟨ends, ?_⟩
  intro path saved keeps written loaded between
  have unfinished : paused.1.reread = paused.1 :=
    Session.reread_of_report ((settled_runSession around new second).report_of_riskAnalyzed passed)
  constructor
  · rintro ⟨again, comes, -⟩
    exact ((loadSession_of_saved keeps written).mp comes).1
  · intro legible
    have comes : loaded.1 = .ok paused.1 :=
      (loadSession_of_saved keeps written).mpr ⟨legible, unfinished⟩
    exact ⟨paused.1, comes, ends loaded.2 between⟩

/-! ### A world with a shelf -/

/-- A place of a world where one file is kept, apart from all else in it. -/
structure Shelf (World : Type) where
  /-- The content of the file. -/
  content : World → List UInt8
  /-- Puts a content there and leaves everything else alone. -/
  put : List UInt8 → World → World
  /-- What is put there is kept. -/
  content_put : ∀ bytes world, content (put bytes world) = bytes

section
variable (shelf : Shelf World) (session : Session) (report : String) (sources : FileTree)

/-- Access to the files of a world with a shelf. The file in which a session is saved stands there.
Every other file that is read is the given report, and every workspace holds the same sources. -/
def Shelf.files : FileAccess (StateM World) where
  find _ := return .ok sources
  read path := do
    if path = session.savedPath then return .ok (shelf.content (← get))
    else return .ok (Text.encode report)
  write path content := do
    if path = session.savedPath then modify (shelf.put content)
    return .ok ()
  makeDirectories _ := return .ok ()
  removeDirectory _ := return .ok ()
  removeFile _ := return .ok ()
  resolve path := return .ok path

section
variable {session} {saved : Session} (same : saved.savedPath = session.savedPath) (world : World)
include same

/-- The session that belongs on the shelf is saved there, as its text and in no other place. -/
theorem Shelf.saveSession_files : saveSession (shelf.files session report sources) saved world =
    (.ok saved.savedPath, shelf.put (Text.encode saved.toText) world) := by
  simp only [saveSession, bind_apply, files, FileAccess.writeText, if_pos same]
  rfl

theorem Shelf.keepsSaved_files :
    (shelf.files session report sources).KeepsSaved saved world := by
  intro content left written
  simp only [files, if_pos same] at written ⊢
  obtain rfl : shelf.put content world = left := congrArg Prod.snd written
  exact congrArg Except.ok (shelf.content_put content world)

end

/-- Loading leaves the shelf and everything beside it alone, whatever is read there. -/
theorem Shelf.loadSession_files (path : String) (world : World) :
    (loadSession (shelf.files session report sources) path world).2 = world := by
  have reading : Leaves id ((shelf.files session report sources).read path) := by
    intro world
    simp only [files]
    split_ifs <;> rfl
  have loading : Leaves id (loadSession (shelf.files session report sources) path) := by
    refine Leaves.bind (reading.bind fun content => ?_) fun text => ?_
    · rcases content with _ | content
      · exact Leaves.pure _
      · dsimp only
        cases Text.decodeStrict content <;> exact Leaves.pure _
    · cases text <;> exact Leaves.pure _
  exact loading world

variable {shelf session report sources}

/-- A session that only looks elsewhere gets the same answers whatever stands on the shelf. -/
theorem Shelf.answers_files {around : Surroundings (StateM World)}
    (access : around.files = shelf.files session report sources)
    (runs : ∀ call first second, (around.runner call first).1 = (around.runner call second).1)
    {workspace : String}
    (apart : Path.join workspace around.settings.harness.reportFile ≠ session.savedPath)
    {Answer Taken : Type} {action : StateM World Answer} {taken : Answer → Taken}
    (call : WorkspaceCall around workspace action taken) (first second : World) :
    taken (action first).1 = taken (action second).1 := by
  cases call with
  | write name content =>
    rw [access]
    simp only [files]
    split_ifs <;> rfl
  | read =>
    rw [access]
    simp only [files, if_neg apart]
    rfl
  | run call inside => exact congrArg RunnerOutcome.untimed (runs call first second)
  | forget => rfl
  | _ =>
    rw [access]
    rfl

end

/-- The shelf of a world that is nothing but a shelf. -/
def Shelf.whole : Shelf (List UInt8) :=
  ⟨id, fun content _ => content, fun _ _ => rfl⟩

/-- A world that keeps one file, the one in which a session is saved. Every other file that is read
is the given report, and every workspace holds one empty source file. -/
def shelfSurroundings (session : Session) (report : String) :
    Surroundings (StateM (List UInt8)) where
  settings := {}
  files := Shelf.whole.files session report (.directory [("app.py", .file [])])
  runner := fun _ => return .finished "1 passed" 1.0
  memory := none
  notify := none
  clock := return 0

theorem savedPath_runSession (around : Surroundings (StateM World)) (session : Session)
    (world : World) : (runSession around session world).1.savedPath = session.savedPath := by
  have same := congrArg Session.savedPath (runStages_begun around true Stage.inOrder session world)
  exact same

/-! ### A suite that takes too long to tell -/

/-- The report of a suite whose only test took longer, in milliseconds, than a double can tell. -/
def endlessReport : String :=
  "\x7b\"tests\": [\x7b\"nodeid\": \"a\", \"outcome\": \"passed\", \"call\": \x7b\"duration\": 1e306\x7d\x7d]\x7d"

theorem endlessReport_passes :
    (runSession (shelfSurroundings quietSession endlessReport) quietSession []).1.progress =
      .riskAnalyzed := by
  decide +kernel

theorem endlessReport_not_legible :
    ¬ (runSession (shelfSurroundings quietSession endlessReport) quietSession []).1.Legible := by
  decide +kernel

/-- With such a report the quiet session pauses and is saved, but no session is loaded again. -/
theorem endlessReport_not_loaded :
    let around := shelfSurroundings quietSession endlessReport
    let paused := runSession around quietSession []
    paused.1.progress = .riskAnalyzed ∧
      ∃ path saved, saveSession around.files paused.1 paused.2 = (.ok path, saved) ∧
        ∀ again, (loadSession around.files path saved).1 ≠ .ok again := by
  intro around paused
  have place : paused.1.savedPath = quietSession.savedPath :=
    savedPath_runSession around quietSession []
  have written : saveSession around.files paused.1 paused.2 =
      (.ok paused.1.savedPath, Text.encode paused.1.toText) :=
    Shelf.whole.saveSession_files endlessReport _ place paused.2
  have keeps := Shelf.whole.keepsSaved_files endlessReport (.directory [("app.py", .file [])])
    place paused.2
  refine ⟨endlessReport_passes, _, _, written, fun again loads => endlessReport_not_legible ?_⟩
  exact ((loadSession_of_saved keeps written).mp loads).1

end MigrationGuard
