/-
This file follows a run of a suite on a disk. The tests are written below a
directory of their own and nowhere else: whatever a function is called, the name
of its test's file leads on, as its dots are written as underscores and the one
that is left stands before the ending. So where a walk passes over a directory on
the way to the tests, what is shown outside of that directory stays as it was,
while the directory is made, the tests are written, the report of an earlier run
is removed and the runner does what it does. The report may lie beside the
sources, so it must be no file that is asked for. This is what keeps the tests of
one run out of the sources of the next one.
-/

import MigrationGuard.Proofs.Files.Places
import MigrationGuard.Proofs.Harness.SuiteFiles

namespace MigrationGuard

/-! ### Names of test files -/

theorem count_testFileName (function : String) (place : Nat) :
    (testFileName function place).toList.count '.' = 1 := by
  have noPoint : '.' ∉ fileStem function := by
    rw [fileStem, List.mem_map]
    rintro ⟨character, -, same⟩
    split_ifs at same with isPoint
    · exact absurd same (by decide)
    · exact isPoint same
  have noDigit : '.' ∉ Nat.toDigits 10 place := not_mem_toDigits (by decide) place
  rw [toList_testFileName, List.count_append, List.count_append, List.count_cons,
    List.count_append, List.count_eq_zero.mpr noPoint, List.count_eq_zero.mpr noDigit]
  decide

/-- The name of a test's file leads on, through further directories if the function has slashes in
its name. -/
theorem testFileName_leads (function : String) (place : Nat) :
    ¬ Path.isAbsolute (testFileName function place) ∧ ∃ names : List String, names ≠ [] ∧
      Path.behind (testFileName function place) = names.map .normal := by
  obtain ⟨others, characters⟩ : ∃ others, (testFileName function place).toList = 't' :: others := by
    rw [toList_testFileName]
    exact ⟨_, rfl⟩
  constructor
  · rw [Path.isAbsolute_iff, characters, List.head?_cons]
    decide
  have goesOn : .parent ∉ Path.behind (testFileName function place) := by
    intro parent
    obtain ⟨segment, cut, made⟩ := List.mem_filterMap.mp parent
    obtain ⟨piece, among, rfl⟩ := List.mem_map.mp cut
    obtain rfl : piece = ['.', '.'] := by
      unfold Path.component? at made
      split_ifs at made with none dots
      · rw [← String.toList_ofList (l := piece), dots]
        decide
      · exact nomatch made
    have points := (Text.sublist_of_mem_cutAtEach among).count_le '.'
    rw [count_testFileName] at points
    exact absurd points (by decide)
  obtain ⟨names, named⟩ := Path.exists_names_of_behind goesOn
  refine ⟨names, ?_, named⟩
  rintro rfl
  exact Path.behind_ne_nil characters (by decide) (by decide) named

theorem path_of_mem_suiteFiles {directory : String} {suite : TestSuite} {file : String × String}
    (member : file ∈ suiteFiles directory suite) :
    ∃ function place, file.1 = Path.join directory (testFileName function place) := by
  rw [suiteFiles, List.mem_map] at member
  obtain ⟨⟨test, place⟩, -, same⟩ := member
  dsimp only at same
  refine ⟨test.functionName, place, ?_⟩
  rw [← same]

/-! ### Actions on a disk -/

/-- The test directory of the settings is reached by names of which the walk passes over one, and
the report is no file that is asked for. -/
structure HarnessSettings.HiddenFrom (settings : HarnessSettings) (view : View)
    (names : List String) : Prop where
  /-- The directory lies in the workspace. -/
  relative : ¬ Path.isAbsolute settings.testDirectory
  /-- Names lead to it. -/
  named : Path.behind settings.testDirectory = names.map .normal
  /-- The walk passes over a directory on the way. -/
  hidden : ∃ name ∈ names, view.excluded name
  /-- No file that is asked for has the name of the report. -/
  unwanted : ∀ name, Path.fileName? (Path.join view.root settings.reportFile) = some name →
    ∀ directory content, directory ≠ "" → view.wanted (Path.join directory name, content) = false

theorem Disk.carries_change {before after : Disk → Prop}
    {update : Disk → Except FileFailure Disk}
    (changes : ∀ disk next, before disk → update disk = .ok next → after next)
    (stays : ∀ disk, before disk → after disk) :
    Carries before after (Disk.change update : StateM Disk (Except FileFailure Unit)) := by
  intro disk holds
  rw [Disk.change_apply]
  cases updated : update disk with
  | error failure => exact stays disk holds
  | ok next => exact changes disk next holds updated

section
variable {view : View} {names : List String}

theorem carries_present (path : String) :
    Carries view.ShownBy view.ShownBy ((Disk.access : FileAccess (StateM Disk)).present path) :=
  fun _ shows => shows

theorem carries_presentDirectory (path : String) :
    Carries view.ShownBy view.ShownBy
      ((Disk.access : FileAccess (StateM Disk)).presentDirectory path) := by
  have looks : Carries view.ShownBy view.ShownBy
      ((Disk.access : FileAccess (StateM Disk)).find path) := fun _ shows => shows
  refine looks.bind fun found => ?_
  cases found <;> exact Carries.pure (fun _ shows => shows) _

theorem carries_clearDirectory (hides : ∃ name ∈ names, view.excluded name) {path : String}
    (leads : Path.LeadsOn view.root path names) :
    Carries view.ShownBy view.ShownBy
      (clearDirectory (Disk.access : FileAccess (StateM Disk)) path) := by
  obtain ⟨name, member, excluded⟩ := hides
  obtain ⟨front, back, rfl⟩ := List.append_of_mem member
  refine (carries_present path).bind fun present => ?_
  cases present with
  | false => exact Carries.pure (fun _ shows => shows) _
  | true =>
    exact Disk.carries_change
      (fun disk after shows removed => shows.removeDirectory excluded leads removed)
      fun disk shows => shows

theorem carries_makeDirectories {path : String} (leads : Path.LeadsOn view.root path names) :
    Carries view.ShownBy view.ShownBy
      ((Disk.access : FileAccess (StateM Disk)).makeDirectories path) :=
  fun _ shows => shows.makeDirectories leads

theorem carries_writeFiles (hides : ∃ name ∈ names, view.excluded name)
    {files : List (String × String)} (each : ∀ file ∈ files, ∃ more, more ≠ [] ∧
      Path.LeadsOn view.root file.1 (names ++ more)) :
    Carries view.ShownBy view.ShownBy
      (writeFiles (Disk.access : FileAccess (StateM Disk)) files) := by
  obtain ⟨name, member, excluded⟩ := hides
  obtain ⟨front, back, rfl⟩ := List.append_of_mem member
  induction files with
  | nil => exact Carries.pure (fun _ shows => shows) _
  | cons file files inductionHypothesis =>
    obtain ⟨path, text⟩ := file
    obtain ⟨⟨more, present, leads⟩, others⟩ := List.forall_mem_cons.mp each
    rw [List.append_assoc, List.cons_append] at leads
    have writes : Carries view.ShownBy view.ShownBy
        ((Disk.access : FileAccess (StateM Disk)).writeText path text) :=
      Disk.carries_change
        (fun disk after shows written => shows.write excluded leads (by simp [present]) written)
        fun disk shows => shows
    refine writes.bind fun outcome => ?_
    cases outcome with
    | ok => exact inductionHypothesis others
    | error failure => exact Carries.pure (fun _ shows => shows) _

end

section
variable {view : View} {settings : HarnessSettings} {names : List String}
  (hidden : settings.HiddenFrom view names) (present : view.root ≠ "")
include hidden present

theorem HarnessSettings.HiddenFrom.leadsOn :
    Path.LeadsOn view.root (Path.join view.root settings.testDirectory) names :=
  (Path.LeadsOn.refl view.root).join present hidden.relative hidden.named

theorem carries_writeSuite (suite : TestSuite) :
    Carries view.ShownBy view.ShownBy
      (writeSuite (Disk.access : FileAccess (StateM Disk)) settings view.root suite) := by
  have leads := hidden.leadsOn present
  have directoryPresent : Path.join view.root settings.testDirectory ≠ "" :=
    Path.join_ne_empty present settings.testDirectory
  have marker : Path.LeadsOn view.root
      (Path.join (Path.join view.root settings.testDirectory) packageMarker)
      (names ++ [packageMarker]) := by
    have isName : Path.IsName packageMarker := by decide
    exact leads.join directoryPresent isName.relative isName.behind_eq
  unfold writeSuite
  dsimp only
  refine (carries_clearDirectory hidden.hidden leads).bind fun cleared => ?_
  cases cleared with
  | error failure => exact Carries.pure (fun _ shows => shows) _
  | ok =>
    refine (carries_makeDirectories leads).bind fun made => ?_
    cases made with
    | error failure => exact Carries.pure (fun _ shows => shows) _
    | ok =>
      have each : ∀ file ∈ (Path.join (Path.join view.root settings.testDirectory) packageMarker,
          "") :: suiteFiles (Path.join view.root settings.testDirectory) suite,
          ∃ more, more ≠ [] ∧ Path.LeadsOn view.root file.1 (names ++ more) := by
        refine List.forall_mem_cons.mpr ⟨⟨_, List.cons_ne_nil _ _, marker⟩, fun file member => ?_⟩
        obtain ⟨function, place, path⟩ := path_of_mem_suiteFiles member
        obtain ⟨relative, more, some, goesOn⟩ := testFileName_leads function place
        rw [path]
        exact ⟨more, some, leads.join directoryPresent relative goesOn⟩
      refine (carries_writeFiles hidden.hidden each).bind fun written => ?_
      cases written <;> exact Carries.pure (fun _ shows => shows) _

/-- The report of an earlier run is removed without being missed, wherever its path leads. -/
theorem carries_removeReport :
    Carries view.ShownBy view.ShownBy ((Disk.access : FileAccess (StateM Disk)).removeFile
      (Path.join view.root settings.reportFile)) := by
  refine Disk.carries_change (fun disk after shows removed => ?_) fun _ shows => shows
  refine shows.removeFile ?_ hidden.unwanted removed
  by_cases absolute : Path.isAbsolute (Path.join view.root settings.reportFile)
  · rw [Disk.base, if_pos absolute]
    exact shows.hasDirectory.above ⟨_, rfl⟩
  · have relative : ¬ Path.isAbsolute settings.reportFile := by
      intro whole
      rw [Path.join, if_pos whole] at absolute
      exact absolute whole
    rw [Disk.base, Path.isAbsolute_join present relative]
    refine shows.hasDirectory.above ?_
    rw [← shows.base_append]
    exact List.prefix_append _ _

omit hidden present in
theorem carries_readText {holds : Disk → Prop} (path : String) :
    Carries holds holds ((Disk.access : FileAccess (StateM Disk)).readText path) := by
  have reads : Carries holds holds ((Disk.access : FileAccess (StateM Disk)).read path) :=
    fun _ holds => holds
  refine reads.bind fun content => ?_
  cases content with
  | error failure => exact Carries.pure (fun _ holds => holds) _
  | ok content =>
    dsimp only
    cases Text.decodeStrict content <;> exact Carries.pure (fun _ holds => holds) _

/-- A run of a suite leads where its runner leads from what was shown. -/
theorem carries_executeSuite {after : Disk → Prop} (stays : ∀ disk, view.ShownBy disk → after disk)
    {runner : TestRunner (StateM Disk)} (runs : ∀ call, Carries after after (runner call))
    (suite : TestSuite) (role : RunRole) :
    Carries view.ShownBy after
      (executeSuite (Disk.access : FileAccess (StateM Disk)) runner settings view.root suite
        role) := by
  unfold executeSuite
  refine (carries_presentDirectory view.root).bind fun there => ?_
  split
  · exact Carries.pure stays _
  split
  · exact Carries.pure stays _
  refine (carries_writeSuite hidden present suite).bind fun written => ?_
  cases written with
  | error failure => exact Carries.pure stays _
  | ok paths =>
    refine (carries_present _).bind fun reported => ?_
    rcases reported with - | -
    case' true => refine (carries_removeReport hidden present).bind fun _ => ?_
    all_goals
      refine Carries.bind (fun disk shows => runs _ disk (stays disk shows)) fun outcome => ?_
      cases outcome with
      | failed failure => exact Carries.pure (fun _ holds => holds) _
      | timedOut => exact Carries.pure (fun _ holds => holds) _
      | finished output elapsedMs =>
        exact (carries_readText _).bind fun _ => Carries.pure (fun _ holds => holds) _

end

end MigrationGuard
