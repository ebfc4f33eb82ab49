/-
This file says when the sources of a workspace and the generated tests keep apart.
The miner passes over directories by single names, the harness removes and makes a
directory by its path. The two keep apart just if one of the names on that path is
a name that the miner passes over; then taking the baseline leaves the sources as
they were. A path of several new names is none of them, as the settings add the
whole path to the names that are passed over and no directory is called so. Where
they do not keep apart, the miner lists a file in the directory of the tests,
which the next baseline removes; the sample shows both for a directory that is
reached by two names. That a walk shows the same after a suite was run has been
followed operation by operation before and is applied here to what the miner wants
to see.
-/

import MigrationGuard.Proofs.Harness.Writing
import MigrationGuard.Proofs.Session.Agreement
import MigrationGuard.Session.Stages

namespace MigrationGuard

/-! ### Mined files -/

theorem hasExtension_congr {extensions : List String} {path other : String}
    (same : Path.fileName? path = Path.fileName? other) :
    hasExtension extensions path = hasExtension extensions other := by
  rw [hasExtension, hasExtension, Path.extension?, Path.extension?, same]

theorem hasExtension_join {extensions : List String} {directory name : String}
    (present : directory ≠ "") (isName : Path.IsName name) :
    hasExtension extensions (Path.join directory name) = hasExtension extensions name :=
  hasExtension_congr ((isName.fileName?_join present).trans isName.fileName?_eq.symm)

theorem mem_discoverSources {root : String} {tree : FileTree} {extensions excluded : List String}
    {file : SourceFile} (member : file ∈ discoverSources root tree extensions excluded) :
    (file.path, file.content) ∈ tree.filesBelow excluded.contains root := by
  rw [discoverSources, List.mem_mergeSort, List.mem_map] at member
  obtain ⟨listed, among, rfl⟩ := member
  exact (List.mem_filter.mp among).1

/-- The sources depend on the files with an extension that is mined and on nothing else. -/
theorem discoverSources_congr {root : String} {tree other : FileTree}
    {extensions excluded : List String}
    (same :
      FileTree.shown excluded.contains (fun file => hasExtension extensions file.1) root tree =
        FileTree.shown excluded.contains (fun file => hasExtension extensions file.1) root other) :
    discoverSources root tree extensions excluded =
      discoverSources root other extensions excluded := by
  unfold FileTree.shown at same
  rw [discoverSources, discoverSources, same]

namespace Surroundings

section
variable {m : Type → Type} (around : Surroundings m) (repository : String)

theorem miner_root : (around.miner repository).root = repository := by
  unfold miner Miner.excluding
  split <;> rfl

theorem miner_settings : (around.miner repository).settings = around.settings.miner := by
  unfold miner Miner.excluding
  split <;> rfl

theorem mem_excluded_iff {name : String} (present : name ≠ "") :
    name ∈ (around.miner repository).excluded ↔
      name = around.settings.harness.testDirectory ∨ name ∈ excludedByDefault := by
  unfold miner Miner.excluding
  split
  · rename_i known
    rw [Bool.or_eq_true, decide_eq_true_eq, List.contains_iff_mem] at known
    constructor
    · exact .inr
    · rintro (rfl | usual)
      · exact known.resolve_left present
      · exact usual
  · rw [List.mem_append, List.mem_singleton, or_comm]
    rfl

/-- The sources that the miner lists of a workspace on a disk, or why it lists none. -/
def sourcesOn (target : Option String) (disk : Disk) : Except MiningFailure (List SourceFile) :=
  (around.miner repository).sources (disk.find repository) target

/-! ### Keeping apart -/

/-- No source that is mined lies in the directory of the generated tests, whatever the workspace
holds. -/
def KeepsApart : Prop :=
  ∀ tree : FileTree, tree.WellNamed → ∀ target listed,
    (around.miner repository).sources (.ok tree) target = .ok listed → ∀ file ∈ listed,
      ¬ Path.LiesBelow (Path.join repository around.settings.harness.testDirectory) file.path

/-- Names lead to the directory of the generated tests in a workspace, and none of them is taken
back. -/
structure PlainPaths (names : List String) : Prop where
  /-- The workspace has a path. -/
  present : repository ≠ ""
  /-- The path of the workspace takes no name back. -/
  straight : .parent ∉ Path.behind repository
  /-- The directory lies in the workspace. -/
  relative : ¬ Path.isAbsolute around.settings.harness.testDirectory
  /-- Names lead to it. -/
  named : Path.behind around.settings.harness.testDirectory = names.map .normal

end

section
variable {m : Type → Type} {around : Surroundings m} {repository : String} {names : List String}
  (plain : around.PlainPaths repository names)
include plain

theorem PlainPaths.isName {name : String} (member : name ∈ names) : Path.IsName name := by
  refine Path.isName_of_mem_behind
    (?_ : .normal name ∈ Path.behind around.settings.harness.testDirectory)
  rw [plain.named]
  exact List.mem_map_of_mem member

theorem PlainPaths.components_eq :
    Path.components (Path.join repository around.settings.harness.testDirectory) =
      Path.components repository ++ names.map .normal := by
  rw [Path.components_join plain.present plain.relative, plain.named]

/-- The miner passes over one of the names, and so over all that lies below it. -/
theorem keepsApart_of_hidden (hidden : ∃ name ∈ names, name ∈ (around.miner repository).excluded) :
    around.KeepsApart repository := by
  rintro tree wellNamed target listed found file member ⟨rest, some, below⟩
  obtain ⟨name, among, excluded⟩ := hidden
  have listedBelow : (file.path, file.content) ∈
      tree.filesBelow (around.miner repository).excluded.contains repository := by
    unfold Miner.sources at found
    dsimp only at found
    split at found
    · exact nomatch found
    split at found
    · exact nomatch found
    rw [← Except.ok.inj found, filterSources, List.mem_filter] at member
    have shown := mem_discoverSources member.1
    rwa [miner_root] at shown
  obtain ⟨walked, path, isNames, shows, -⟩ :=
    FileTree.reached_of_mem_filesBelow wellNamed listedBelow
  -- The names on the way to the file begin with those of the directory and go on.
  have way : walked.map PathComponent.normal = names.map .normal ++ rest := by
    dsimp only at path
    rw [path, Path.components_foldl_join plain.present isNames, plain.components_eq,
      List.append_assoc] at below
    exact List.append_cancel_left below
  obtain ⟨front, back, rfl, sameFront, sameBack⟩ := List.map_eq_append_iff.mp way
  obtain rfl := List.map_injective_iff.mpr (fun _ _ => PathComponent.normal.inj) sameFront
  have goesOn : back ≠ [] := by
    rintro rfl
    exact some sameBack.symm
  refine shows name ?_ (List.contains_iff_mem.mpr excluded)
  rw [List.dropLast_append_of_ne_nil goesOn]
  exact List.mem_append_left _ among

/-- If the miner passes over none of the names, then it lists a file at the end of them. -/
theorem not_keepsApart (walked : ∀ name ∈ names, name ∉ (around.miner repository).excluded)
    {file : String} (isName : Path.IsName file)
    (mined : hasExtension around.settings.miner.extensions file) :
    ¬ around.KeepsApart repository := by
  let leaf : FileTree := .directory [(file, .file [])]
  let path := Path.join (names.foldl Path.join repository) file
  have wellNamed : leaf.WellNamed :=
    .directory (List.pairwise_singleton _ _) (List.forall_mem_singleton.mpr isName)
      (List.forall_mem_singleton.mpr (.file []))
  have isDirectory : (leaf.chain names).isDirectory := by cases names <;> rfl
  have present : names.foldl Path.join repository ≠ "" :=
    Path.foldl_join_ne_empty plain.present names
  have files : (leaf.chain names).filesBelow (around.miner repository).excluded.contains
      repository = [(path, .ok [])] := by
    refine (FileTree.filesBelow_chain leaf ?_ repository).trans rfl
    exact fun name member excluded => walked name member (List.contains_iff_mem.mp excluded)
  have found : (around.miner repository).sources (.ok (leaf.chain names)) none =
      .ok [⟨path, moduleName repository path, .ok []⟩] := by
    have extension : hasExtension around.settings.miner.extensions path := by
      rwa [hasExtension_join present isName]
    have discovered : discoverSources repository (leaf.chain names)
        around.settings.miner.extensions (around.miner repository).excluded =
          [⟨path, moduleName repository path, .ok []⟩] := by
      rw [discoverSources, files]
      simp only [List.filter_cons, extension, if_true, List.filter_nil, List.map_singleton,
        List.mergeSort_singleton]
    unfold Miner.sources
    dsimp only
    rw [isDirectory, miner_root, miner_settings, discovered]
    rfl
  intro apart
  refine apart _ (FileTree.wellNamed_chain wellNamed fun name => plain.isName) none _ found _
    List.mem_cons_self ⟨[.normal file], List.cons_ne_nil _ _, ?_⟩
  rw [plain.components_eq, isName.components_join present,
    Path.components_foldl_join plain.present fun name => plain.isName]

end

end Surroundings

/-! ### Taking the baseline -/

/-- What the miner is to show of a workspace: what it shows of a tree. -/
def minerView {m : Type → Type} (around : Surroundings m) {repository : String}
    {rootNames : List String} (straight : Path.behind repository = rootNames.map .normal)
    (working : List String) (tree : FileTree) : View where
  root := repository
  rootNames
  straight
  excluded := (around.miner repository).excluded.contains
  wanted := fun file => hasExtension around.settings.miner.extensions file.1
  working
  files := FileTree.shown (around.miner repository).excluded.contains
    (fun file => hasExtension around.settings.miner.extensions file.1) repository tree

section
variable {around : Surroundings (StateM Disk)} {repository : String} {rootNames : List String}
  {straight : Path.behind repository = rootNames.map .normal} {disk : Disk} {working : List String}

theorem shownBy_minerView {entries : List (String × FileTree)} (wellNamed : disk.tree.WellNamed)
    (found : disk.find repository = .ok (.directory entries)) :
    (minerView around straight disk.working (.directory entries)).ShownBy disk := by
  obtain ⟨place, located, stands⟩ := bind_eq_ok_iff.mp found
  split at stands
  · rename_i tree isThere
    obtain rfl := Except.ok.inj stands
    obtain ⟨rfl, -⟩ := Disk.place_of_leadsOn straight (Path.LeadsOn.refl repository) located
    rw [List.append_nil] at located isThere
    exact ⟨rfl, located, wellNamed, entries, isThere, rfl⟩
  · exact nomatch stands

theorem sources_of_shownBy {tree : FileTree} (isDirectory : tree.isDirectory)
    (shows : (minerView around straight working tree).ShownBy disk) (target : Option String) :
    around.sourcesOn repository target disk =
      (around.miner repository).sources (.ok tree) target := by
  obtain ⟨entries, found, shown⟩ := shows.find_eq
  have foundHere : disk.find repository = .ok (.directory entries) := found
  have same : discoverSources repository (.directory entries) around.settings.miner.extensions
      (around.miner repository).excluded = discoverSources repository tree
        around.settings.miner.extensions (around.miner repository).excluded :=
    discoverSources_congr shown
  rw [Surroundings.sourcesOn, foundHere]
  unfold Miner.sources
  dsimp only
  rw [isDirectory, Surroundings.miner_root, Surroundings.miner_settings, same]
  rfl

end

/-- Without a workspace nothing is done, so nothing can be lost. -/
theorem executeSuite_of_missing {runner : TestRunner (StateM Disk)} {settings : HarnessSettings}
    {workspace : String} {disk : Disk}
    (missing : ¬ ∃ entries, disk.find workspace = .ok (.directory entries)) (suite : TestSuite)
    (role : RunRole) :
    (executeSuite (Disk.access : FileAccess (StateM Disk)) runner settings workspace suite role
      disk).2 = disk := by
  have absent : (Disk.access : FileAccess (StateM Disk)).presentDirectory workspace disk =
      (false, disk) := by
    have finds : (Disk.access : FileAccess (StateM Disk)).find workspace disk =
        (disk.find workspace, disk) := rfl
    rw [FileAccess.presentDirectory, bind_apply, finds]
    cases found : disk.find workspace with
    | error failure => rfl
    | ok tree =>
      cases tree with
      | directory entries => exact absurd ⟨entries, found⟩ missing
      | _ => rfl
  rw [executeSuite, bind_apply, absent]
  rfl

theorem world_takeBaseline {World : Type} (around : Surroundings (StateM World)) (session : Session)
    (world : World) :
    (takeBaseline around session world).2 = match session.suite with
      | none => world
      | some suite => (executeSuite around.files around.runner around.settings.harness
          session.repository suite .baseline world).2 := by
  cases isSuite : session.suite with
  | none =>
    simp only [takeBaseline, isSuite]
    rfl
  | some suite =>
    simp only [takeBaseline, isSuite, bind_apply]
    generalize executeSuite around.files around.runner _ _ suite .baseline world = ran
    rcases ran with ⟨failure | run, left⟩ <;> rfl

section
variable {around : Surroundings (StateM Disk)} (onDisk : around.files = Disk.access)
  {repository : String} {names : List String} (plain : around.PlainPaths repository names)
  (hidden : ∃ name ∈ names, name ∈ (around.miner repository).excluded)
  (noSource : hasExtension around.settings.miner.extensions
    (Path.join repository around.settings.harness.reportFile) = false)

include plain hidden noSource in
theorem hiddenFrom_minerView {rootNames : List String}
    (straight : Path.behind repository = rootNames.map .normal) (working : List String)
    (tree : FileTree) :
    around.settings.harness.HiddenFrom (minerView around straight working tree) names where
  relative := plain.relative
  named := plain.named
  hidden := by
    obtain ⟨name, member, excluded⟩ := hidden
    exact ⟨name, member, List.contains_iff_mem.mpr excluded⟩
  unwanted name isReport directory content present := by
    have isName := Path.isName_of_fileName? isReport
    exact (hasExtension_congr ((isName.fileName?_join present).trans isReport.symm)).trans noSource

include onDisk plain hidden noSource

/-- A run of the suite leaves the sources alone if the runner does. -/
theorem sources_executeSuite {target : Option String}
    (runs : ∀ call, Leaves (around.sourcesOn repository target) (around.runner call))
    (suite : TestSuite) (role : RunRole) {disk : Disk} (wellNamed : disk.tree.WellNamed) :
    around.sourcesOn repository target (executeSuite around.files around.runner
        around.settings.harness repository suite role disk).2 =
      around.sourcesOn repository target disk := by
  obtain ⟨rootNames, straight⟩ := Path.exists_names_of_behind plain.straight
  rw [onDisk]
  by_cases there : ∃ entries, disk.find repository = .ok (.directory entries)
  · obtain ⟨entries, found⟩ := there
    have hiddenFrom := hiddenFrom_minerView plain hidden noSource straight disk.working
      (.directory entries)
    have here : around.sourcesOn repository target disk =
        (around.miner repository).sources (.ok (.directory entries)) target := by
      rw [Surroundings.sourcesOn, found]
    rw [here]
    refine carries_executeSuite hiddenFrom plain.present
      (fun disk shows => sources_of_shownBy rfl shows target) (fun call disk same => ?_) suite role
      disk (shownBy_minerView wellNamed found)
    exact (runs call disk).trans same
  · rw [executeSuite_of_missing there]

/-- The baseline leaves the sources alone if the runner does, whether it succeeds or fails. -/
theorem sources_takeBaseline {target : Option String}
    (runs : ∀ call, Leaves (around.sourcesOn repository target) (around.runner call))
    {session : Session} (here : session.repository = repository) {disk : Disk}
    (wellNamed : disk.tree.WellNamed) :
    around.sourcesOn repository target (takeBaseline around session disk).2 =
      around.sourcesOn repository target disk := by
  subst here
  rw [world_takeBaseline]
  cases session.suite with
  | none => rfl
  | some suite =>
    exact sources_executeSuite onDisk plain hidden noSource runs suite .baseline wellNamed

end

/-- The miner passes over a directory on the way to the generated tests. -/
def Surroundings.PassesOver {m : Type → Type} (around : Surroundings m) (names : List String) :
    Prop :=
  ∃ name ∈ names, name = around.settings.harness.testDirectory ∨ name ∈ excludedByDefault

theorem Surroundings.PlainPaths.passesOver_iff {m : Type → Type} {around : Surroundings m}
    {repository : String} {names : List String} (plain : around.PlainPaths repository names) :
    around.PassesOver names ↔ ∃ name ∈ names, name ∈ (around.miner repository).excluded :=
  exists_congr fun _ => and_congr_right fun member =>
    (around.mem_excluded_iff repository (plain.isName member).present).symm

/-- Where names lead to the directory of the generated tests, the sources and the tests keep apart
just if the miner passes over a directory on the way. Then the baseline leaves the sources alone,
unless its runner changes them or the report is one of them. -/
theorem Surroundings.keepsApart_iff {around : Surroundings (StateM Disk)} {repository : String}
    {names : List String} (plain : around.PlainPaths repository names) :
    (around.PassesOver names → around.KeepsApart repository) ∧
    ((∃ file, Path.IsName file ∧ hasExtension around.settings.miner.extensions file) →
      around.KeepsApart repository → around.PassesOver names) ∧
    (around.PassesOver names → around.files = Disk.access →
      hasExtension around.settings.miner.extensions
        (Path.join repository around.settings.harness.reportFile) = false →
      ∀ target, (∀ call, Leaves (around.sourcesOn repository target) (around.runner call)) →
        ∀ session disk, session.repository = repository → disk.tree.WellNamed →
          around.sourcesOn repository target (takeBaseline around session disk).2 =
            around.sourcesOn repository target disk) := by
  rw [plain.passesOver_iff]
  refine ⟨keepsApart_of_hidden plain, ?_, ?_⟩
  · rintro ⟨file, isName, mined⟩ apart
    by_contra none
    refine not_keepsApart plain (fun name member known => ?_) isName mined apart
    exact none ⟨name, member, known⟩
  · intro hidden onDisk noSource target runs session disk here wellNamed
    exact sources_takeBaseline onDisk plain hidden noSource runs here wellNamed

/-- A session on a disk whose runner prints nothing and leaves the disk alone. -/
def diskSurroundings (settings : Settings) : Surroundings (StateM Disk) where
  settings
  files := Disk.access
  runner _ := pure (.finished "" 0)
  memory := none
  notify := none
  clock := pure 0

/-- A disk with a workspace of one source and one more file in a directory of its own. -/
def shopDisk (directories : List String) (file : String) : Disk where
  tree := .directory [("ws", .directory [("app.py", .file []),
    (directories.headD "", (FileTree.directory [(file, .file [])]).chain directories.tail)])]
  working := []

/-- A session with an empty suite, which still clears the directory of its tests. -/
def shopSession : Session where
  id := "shop"
  repository := "ws"
  targetModule := none
  suite := some ⟨[], 100.0, [], []⟩

theorem wellNamed_shopDisk : (shopDisk ["_bloc_tests"] "test_old.py").tree.WellNamed := by
  have tests : (FileTree.directory [("test_old.py", .file [])]).WellNamed :=
    .directory (by decide) (by decide) (List.forall_mem_singleton.mpr (.file []))
  have workspace : (FileTree.directory [("app.py", .file []),
      ("_bloc_tests", .directory [("test_old.py", .file [])])]).WellNamed :=
    .directory (by decide) (by decide)
      (List.forall_mem_cons.mpr ⟨.file [], List.forall_mem_singleton.mpr tests⟩)
  exact .directory (by decide) (by decide) (List.forall_mem_singleton.mpr workspace)

/-- The default directory is one that the miner passes over, so an old test in it is no source. -/
theorem keepsApart_shop :
    (diskSurroundings {}).KeepsApart "ws" ∧
      (diskSurroundings {}).sourcesOn "ws" none
          (takeBaseline (diskSurroundings {}) shopSession
            (shopDisk ["_bloc_tests"] "test_old.py")).2 =
        (diskSurroundings {}).sourcesOn "ws" none (shopDisk ["_bloc_tests"] "test_old.py") := by
  have plain : (diskSurroundings {}).PlainPaths "ws" ["_bloc_tests"] :=
    ⟨by decide, by decide, by decide, by decide⟩
  have passesOver : (diskSurroundings {}).PassesOver ["_bloc_tests"] :=
    ⟨_, List.mem_cons_self, .inl rfl⟩
  have parts := Surroundings.keepsApart_iff plain
  exact ⟨parts.1 passesOver,
    parts.2.2 passesOver rfl (by decide) none (fun _ _ => rfl) shopSession _ rfl
      wellNamed_shopDisk⟩

/-- The settings with the tests in a directory that is reached by two names. -/
def nestedSettings : Settings :=
  ({ harness := { testDirectory := "gen/tests" } } : Settings).normalize

/-- A directory that is reached by two names is mined like any other, and the baseline removes
what was mined there. -/
theorem nested_not_keepsApart :
    let around := diskSurroundings nestedSettings
    let disk := shopDisk ["gen", "tests"] "old.py"
    ∃ listed, around.sourcesOn "ws" none disk = .ok listed ∧
      (∃ file ∈ listed, file.path = "ws/gen/tests/old.py" ∧
        Path.LiesBelow "ws/gen/tests" file.path) ∧
      (disk.find "ws/gen/tests/old.py").toBool = true ∧
      ((takeBaseline around shopSession disk).2.find "ws/gen/tests/old.py").toBool = false := by
  intro around disk
  let paths := [Path.join "ws" "app.py",
    Path.join (Path.join (Path.join "ws" "gen") "tests") "old.py"]
  let listed := paths.map fun path => SourceFile.mk path (moduleName "ws" path) (.ok [])
  have sorted : listed.Pairwise fun left right => Path.atMost left.path right.path := by
    decide
  let workspace : FileTree := .directory [("app.py", .file []),
    ("gen", .directory [("tests", .directory [("old.py", .file [])])])]
  have stands : disk.find "ws" = .ok workspace := rfl
  have walked : workspace.filesBelow (around.miner "ws").excluded.contains "ws" =
      paths.map fun path => (path, .ok []) := rfl
  have discovered : discoverSources (around.miner "ws").root workspace
      (around.miner "ws").settings.extensions (around.miner "ws").excluded = listed := by
    have wanted : ((paths.map fun path => ((path, .ok []) : FileTree.Listed)).filter fun file =>
        hasExtension (around.miner "ws").settings.extensions file.1) =
          paths.map fun path => (path, .ok []) := rfl
    rw [Surroundings.miner_root, discoverSources, walked, wanted, List.map_map]
    exact List.mergeSort_of_pairwise sorted
  have found : around.sourcesOn "ws" none disk = .ok listed := by
    rw [Surroundings.sourcesOn, stands]
    unfold Miner.sources
    dsimp only
    rw [discovered]
    rfl
  refine ⟨listed, found, ⟨_, List.mem_cons_of_mem _ List.mem_cons_self, by decide, ?_⟩, by decide,
    by decide +kernel⟩
  exact ⟨[.normal "old.py"], List.cons_ne_nil _ _, by decide⟩

end MigrationGuard
