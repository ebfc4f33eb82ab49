/-
This file follows what a walk shows of a directory while a program makes, writes
and removes files on the disk. Where the path of the directory takes no name back,
it leads to the same place as long as a directory stands there. Whatever then
happens below a directory that the walk passes over stays out of what is shown.
The directory, the names that are passed over, the files that are asked for and
what is shown of them are put together as one view, and each operation of the disk
is shown to lead from disks that show it to disks that show it: making a directory
on the way or below, writing a file, and removing a directory or a file. So what a
run of tests does to the disk can be followed operation by operation.
-/

import Mathlib.Data.List.Induction
import MigrationGuard.Proofs.Files.Pruning

namespace MigrationGuard

/-! ### Places that paths lead to -/

namespace Path

/-- The path leads from a root on by names, so it stays below the root. -/
structure LeadsOn (root path : String) (names : List String) : Prop where
  /-- Both start from the same place. -/
  absolute : isAbsolute path = isAbsolute root
  /-- The names follow those of the root. -/
  behind_eq : behind path = behind root ++ names.map .normal

theorem LeadsOn.refl (root : String) : LeadsOn root root [] :=
  ⟨rfl, (List.append_nil _).symm⟩

theorem LeadsOn.join {root path name : String} {names more : List String}
    (leads : LeadsOn root path names) (present : path ≠ "") (relative : ¬ isAbsolute name)
    (goesOn : behind name = more.map .normal) : LeadsOn root (join path name) (names ++ more) where
  absolute := (isAbsolute_join present relative).trans leads.absolute
  behind_eq := by
    rw [behind_join present relative, leads.behind_eq, goesOn, List.append_assoc, List.map_append]

theorem LeadsOn.isName {root path : String} {names : List String} (leads : LeadsOn root path names)
    {name : String} (member : name ∈ names) : IsName name := by
  refine isName_of_mem_behind (?_ : .normal name ∈ behind path)
  rw [leads.behind_eq]
  exact List.mem_append_right _ (List.mem_map_of_mem member)

end Path

namespace FileTree

theorem hasDirectory_append {tree sub : FileTree} {place rest : List String}
    (stands : tree.at? place = some sub) :
    tree.HasDirectory (place ++ rest) ↔ sub.HasDirectory rest := by
  unfold HasDirectory
  rw [at?_append, stands]
  rfl

end FileTree

namespace Disk

/-- Where the names of a path start from: the root of the disk, or the working directory. -/
def base (disk : Disk) (path : String) : List String :=
  if Path.isAbsolute path then [] else disk.working

theorem foldlM_components (disk : Disk) (path : String) :
    (Path.components path).foldlM disk.step disk.working =
      (Path.behind path).foldlM disk.step (disk.base path) := by
  rw [Path.components_eq, Path.lead, base]
  split_ifs <;> rfl

theorem makeDirectory_of_hasDirectory {disk : Disk} {names : List String}
    (has : disk.tree.HasDirectory names) (goesOn : Bool) :
    disk.makeDirectory names goesOn = (disk, none) := by
  obtain ⟨entries, stands⟩ := has
  rw [makeDirectory, stands]

/-- The beginning of a path makes no directory where one stands, so only the names behind it count.
-/
theorem makeAlong_components {disk : Disk} {path : String}
    (has : disk.tree.HasDirectory (disk.base path)) :
    disk.makeAlong disk.working (Path.components path) =
      disk.makeAlong (disk.base path) (Path.behind path) := by
  rw [base] at has ⊢
  rw [Path.components_eq, Path.lead]
  split_ifs at has ⊢
  · rw [List.singleton_append, makeAlong, step]
    dsimp only
    rw [makeDirectory_of_hasDirectory has]
  · rw [List.singleton_append, makeAlong, step]
    dsimp only
    rw [makeDirectory_of_hasDirectory has]
  · rfl

theorem step_normal_iff {disk : Disk} {names place : List String} {name : String} :
    disk.step names (.normal name) = .ok place ↔
      place = names ++ [name] ∧ disk.tree.HasDirectory names ∧ name.utf8ByteSize ≤ longestName := by
  rw [step]
  split
  · rename_i entries stands
    split
    · rename_i long
      refine ⟨(fun fails => by cases fails), ?_⟩
      rintro ⟨-, -, short⟩
      exact absurd short (Nat.not_le_of_lt long)
    · rename_i short
      constructor
      · intro same
        exact ⟨(Except.ok.inj same).symm, ⟨entries, stands⟩, Nat.le_of_not_lt short⟩
      · rintro ⟨rfl, -, -⟩
        rfl
  · rename_i noDirectory stands
    refine ⟨(fun fails => by cases fails), ?_⟩
    rintro ⟨-, ⟨entries, isDirectory⟩, -⟩
    exact absurd (Option.some.inj (stands.symm.trans isDirectory)) (noDirectory entries)
  · rename_i stands
    refine ⟨(fun fails => by cases fails), ?_⟩
    rintro ⟨-, ⟨entries, isDirectory⟩, -⟩
    cases stands.symm.trans isDirectory

/-- Names lead from directory to directory, each of them no longer than a name may be. -/
theorem foldlM_names_iff {disk : Disk} {start names place : List String} :
    (names.map PathComponent.normal).foldlM disk.step start = .ok place ↔
      place = start ++ names ∧ (names ≠ [] → disk.tree.HasDirectory place.dropLast) ∧
        ∀ name ∈ names, name.utf8ByteSize ≤ longestName := by
  induction names using List.reverseRecOn generalizing place with
  | nil =>
    rw [List.append_nil, List.map_nil, List.foldlM_nil]
    constructor
    · intro same
      exact ⟨(Except.ok.inj same).symm, fun present => absurd rfl present, nofun⟩
    · rintro ⟨rfl, -⟩
      rfl
  | append_singleton front name inductionHypothesis =>
    rw [List.map_append, List.foldlM_append, bind_eq_ok_iff]
    simp only [List.map_singleton, List.foldlM_cons, List.foldlM_nil, bind_pure, step_normal_iff]
    constructor
    · rintro ⟨between, led, rfl, has, short⟩
      obtain ⟨rfl, -, others⟩ := inductionHypothesis.mp led
      refine ⟨List.append_assoc _ _ _, fun _ => ?_, ?_⟩
      · rw [List.dropLast_concat]
        exact has
      · exact List.forall_mem_append.mpr ⟨others, List.forall_mem_singleton.mpr short⟩
    · rintro ⟨rfl, has, short⟩
      have has := has (by simp)
      rw [← List.append_assoc, List.dropLast_concat] at has
      obtain ⟨others, last⟩ := List.forall_mem_append.mp short
      exact ⟨start ++ front, inductionHypothesis.mpr ⟨rfl, fun _ => has.dropLast, others⟩,
        (List.append_assoc _ _ _).symm, has, last name (List.mem_singleton_self name)⟩

/-- A path leads to the place of the root and on by its names, all of them directories up to the
last. -/
theorem place_of_leadsOn {disk : Disk} {root path : String} {rootNames names place : List String}
    (straight : Path.behind root = rootNames.map .normal) (leads : Path.LeadsOn root path names)
    (located : disk.locate path = .ok place) :
    place = disk.base root ++ rootNames ++ names ∧
      (names ≠ [] → disk.tree.HasDirectory place.dropLast) := by
  have led := foldlM_of_locate located
  rw [foldlM_components, base, leads.absolute, leads.behind_eq, straight, ← List.map_append] at led
  obtain ⟨rfl, has, -⟩ := foldlM_names_iff.mp led
  refine ⟨(List.append_assoc _ _ _).symm, fun present => has ?_⟩
  simp [present]

theorem ne_empty_of_locate {disk : Disk} {path : String} {place : List String}
    (located : disk.locate path = .ok place) : path ≠ "" := by
  rintro rfl
  exact nomatch located

/-- A straight path leads to the same place where a directory still stands. -/
theorem locate_of_stays {disk other : Disk} {root : String} {rootNames place : List String}
    (straight : Path.behind root = rootNames.map .normal) (located : disk.locate root = .ok place)
    (sameStart : other.working = disk.working) (stays : other.tree.HasDirectory place) :
    other.locate root = .ok place := by
  have led := foldlM_of_locate located
  rw [foldlM_components, straight] at led
  obtain ⟨rfl, -, short⟩ := foldlM_names_iff.mp led
  have again : (Path.components root).foldlM other.step other.working =
      .ok (disk.base root ++ rootNames) := by
    rw [foldlM_components, straight]
    refine foldlM_names_iff.mpr ⟨?_, fun _ => stays.dropLast, short⟩
    rw [base, base, sameStart]
  unfold locate at located ⊢
  split at located
  · exact nomatch located
  rename_i named
  split at located
  · exact nomatch located
  rename_i clean
  rw [if_neg named, if_neg clean]
  exact again

end Disk

/-! ### What is shown of a directory -/

/-- A directory with the files that a walk shows of it. The path of the directory takes no name
back. -/
structure View where
  /-- The path of the directory. -/
  root : String
  /-- The names of the path. -/
  rootNames : List String
  /-- The path has no other parts behind its beginning. -/
  straight : Path.behind root = rootNames.map .normal
  /-- The names of directories that are passed over. -/
  excluded : String → Bool
  /-- The files that are asked for. -/
  wanted : FileTree.Listed → Bool
  /-- The working directory. -/
  working : List String
  /-- The files that are shown. -/
  files : List FileTree.Listed

/-- The names that lead to the directory from the root of the disk. -/
def View.place (view : View) : List String :=
  (if Path.isAbsolute view.root then [] else view.working) ++ view.rootNames

/-- The files that the walk shows of a tree which stands in the place of the directory. -/
def View.shownOf (view : View) (tree : FileTree) : List FileTree.Listed :=
  FileTree.shown view.excluded view.wanted view.root tree

/-- The disk has the directory and shows its files, neither more nor fewer. This is what the
operations keep. -/
structure View.ShownBy (view : View) (disk : Disk) : Prop where
  /-- Relative paths start where they did. -/
  working_eq : disk.working = view.working
  /-- The path leads to the directory. -/
  located : disk.locate view.root = .ok view.place
  /-- All names on the disk can be told apart and can be reached. -/
  wellNamed : disk.tree.WellNamed
  /-- The files are shown. -/
  stands : ∃ entries, disk.tree.at? view.place = some (.directory entries) ∧
    view.shownOf (.directory entries) = view.files

namespace View.ShownBy

open Disk

variable {disk : Disk} {view : View} (shows : view.ShownBy disk)
include shows

theorem find_eq : ∃ entries, disk.find view.root = .ok (.directory entries) ∧
    view.shownOf (.directory entries) = view.files := by
  obtain ⟨entries, stands, shown⟩ := shows.stands
  refine ⟨entries, ?_, shown⟩
  rw [find, shows.located]
  simp only [bind, Except.bind, stands, pure, Except.pure]

theorem hasDirectory : disk.tree.HasDirectory view.place :=
  shows.stands.imp fun _ stands => stands.1

theorem base_append : disk.base view.root ++ view.rootNames = view.place := by
  rw [base, shows.working_eq]
  rfl

theorem place_of_leadsOn {path : String} {names place : List String}
    (leads : Path.LeadsOn view.root path names) (located : disk.locate path = .ok place) :
    place = view.place ++ names ∧ (names ≠ [] → disk.tree.HasDirectory place.dropLast) := by
  obtain ⟨place_eq, has⟩ := Disk.place_of_leadsOn view.straight leads located
  rw [shows.base_append] at place_eq
  exact ⟨place_eq, has⟩

/-- A tree that shows the same files in the same place can take the place of the tree. -/
theorem change {tree : FileTree} (wellNamed : tree.WellNamed) (stands : ∃ entries,
    tree.at? view.place = some (.directory entries) ∧
      view.shownOf (.directory entries) = view.files) :
    view.ShownBy { disk with tree } where
  working_eq := shows.working_eq
  located := locate_of_stays view.straight shows.located rfl (stands.imp fun _ stands => stands.1)
  wellNamed := wellNamed
  stands := stands

/-- What stands below the directory may change as long as that does not show. -/
theorem changeBelow {change : FileTree → List String → FileTree} (isLocal : FileTree.IsLocal change)
    {names : List String} (below : names ≠ [])
    (wellNamed : (change disk.tree (view.place ++ names)).WellNamed)
    (same : ∀ sub, disk.tree.at? view.place = some sub →
      view.shownOf (change sub names) = view.shownOf sub) :
    view.ShownBy { disk with tree := change disk.tree (view.place ++ names) } := by
  obtain ⟨entries, stands, shown⟩ := shows.stands
  have becomes := isLocal.at?_append stands below
  have stays : (change (.directory entries) names).isDirectory = true :=
    isLocal.isDirectory_eq (.directory entries) below
  obtain ⟨after, isDirectory⟩ := FileTree.isDirectory_iff.mp stays
  refine shows.change wellNamed ⟨after, isDirectory ▸ becomes, ?_⟩
  rw [← isDirectory, same _ stands, shown]

theorem put {new : FileTree} {names : List String} (below : names ≠ [])
    (named : ∀ name ∈ names, Path.IsName name) (wellNamed : new.WellNamed)
    (same : ∀ sub, disk.tree.at? view.place = some sub →
      view.shownOf (sub.put new names) = view.shownOf sub) :
    view.ShownBy { disk with tree := disk.tree.put new (view.place ++ names) } := by
  obtain ⟨_, stands⟩ := shows.hasDirectory
  have known : ∀ name ∈ view.place, Path.IsName name := shows.wellNamed.isName_of_at? stands
  have allNamed := List.forall_mem_append.mpr ⟨known, named⟩
  exact shows.changeBelow (FileTree.isLocal_put new) below
    (shows.wellNamed.put allNamed wellNamed) same

theorem remove {names : List String} (below : names ≠ [])
    (same : ∀ sub, disk.tree.at? view.place = some sub →
      view.shownOf (sub.remove names) = view.shownOf sub) :
    view.ShownBy { disk with tree := disk.tree.remove (view.place ++ names) } :=
  shows.changeBelow FileTree.isLocal_remove below shows.wellNamed.remove same

/-! ### Making directories -/

/-- A directory that is made on the way to the directory or below it does not show. -/
theorem makeDirectory {names front : List String} (named : ∀ name ∈ names, Path.IsName name)
    (onTheWay : front <+: view.place ++ names) (goesOn : Bool) :
    view.ShownBy (disk.makeDirectory front goesOn).1 := by
  unfold Disk.makeDirectory
  split
  · exact shows
  · exact shows
  rename_i free
  rcases List.prefix_or_prefix_of_prefix onTheWay (List.prefix_append _ _) with above | ⟨made, rfl⟩
  · obtain ⟨_, stands⟩ := shows.hasDirectory.above above
    exact nomatch free.symm.trans stands
  have isPrefix := (List.prefix_append_right_inj _).mp onTheWay
  have below : made ≠ [] := by
    rintro rfl
    obtain ⟨_, stands⟩ := shows.hasDirectory
    rw [List.append_nil] at free
    exact nomatch free.symm.trans stands
  refine shows.put below (fun name member => named name (isPrefix.subset member))
    (.directory List.nodup_nil nofun nofun) fun sub stands => ?_
  rw [FileTree.at?_append, stands] at free
  exact FileTree.shown_put_emptyDirectory free _

theorem makeAlong {names start made : List String} (named : ∀ name ∈ names, Path.IsName name)
    (onTheWay : start ++ made <+: view.place ++ names) :
    view.ShownBy (disk.makeAlong start (made.map .normal)).1 := by
  induction made generalizing disk start with
  | nil => exact shows
  | cons name made inductionHypothesis =>
    rw [List.map_cons, Disk.makeAlong]
    split
    · exact shows
    rename_i next taken
    obtain ⟨rfl, -, -⟩ := step_normal_iff.mp taken
    have further : start ++ [name] ++ made <+: view.place ++ names := by
      rwa [List.append_assoc, List.singleton_append]
    have made := shows.makeDirectory named ((List.prefix_append _ _).trans further)
      (!(made.map PathComponent.normal).isEmpty)
    split
    · rename_i between isMade
      rw [isMade] at made
      exact inductionHypothesis made further
    · rename_i between failure isMade
      rw [isMade] at made
      exact made

theorem makeDirectories {path : String} {names : List String}
    (leads : Path.LeadsOn view.root path names) : view.ShownBy (disk.makeDirectories path).1 := by
  have sameBase : disk.base path = disk.base view.root := by
    rw [base, base, leads.absolute]
  have hasBase : disk.tree.HasDirectory (disk.base path) := by
    refine shows.hasDirectory.above ?_
    rw [sameBase, ← shows.base_append]
    exact List.prefix_append _ _
  unfold Disk.makeDirectories
  split
  · exact shows
  rw [makeAlong_components hasBase, leads.behind_eq, view.straight, ← List.map_append]
  refine shows.makeAlong (fun name => leads.isName) ?_
  have samePlace : view.place ++ names = disk.base path ++ (view.rootNames ++ names) := by
    rw [sameBase, ← List.append_assoc, shows.base_append]
  exact ⟨[], by rw [List.append_nil, samePlace]⟩

/-! ### Writing and removing -/

section
variable {path name : String} {front back : List String} (hidden : view.excluded name)
  (leads : Path.LeadsOn view.root path (front ++ name :: back))
include hidden leads

/-- A file that is written below a directory that is passed over does not show. -/
theorem write {content : List UInt8} {after : Disk} (below : back ≠ [])
    (written : disk.write path content = .ok after) : view.ShownBy after := by
  obtain ⟨place, located, written⟩ := bind_eq_ok_iff.mp written
  obtain ⟨rfl, has⟩ := shows.place_of_leadsOn leads located
  obtain rfl : { disk with
      tree := disk.tree.put (.file content) (view.place ++ (front ++ name :: back)) } = after := by
    split at written
    · exact nomatch written
    · exact Except.ok.inj written
  refine shows.put (by simp) (fun name => leads.isName) (.file content) fun sub stands => ?_
  have isPrefix : view.place ++ (front ++ [name]) <+:
      (view.place ++ (front ++ name :: back)).dropLast := by
    rw [List.dropLast_append_of_ne_nil (by simp), List.dropLast_append_of_ne_nil (by simp),
      List.dropLast_cons_of_ne_nil below]
    exact ⟨back.dropLast, by simp⟩
  have inside := (FileTree.hasDirectory_append stands).mp ((has (by simp)).above isPrefix)
  exact (FileTree.isLocal_put _).shown_hidden hidden inside below _

/-- A directory that is passed over, or one below it, is removed without being missed. -/
theorem removeDirectory {after : Disk} (removed : disk.removeDirectory path = .ok after) :
    view.ShownBy after := by
  obtain ⟨place, located, removed⟩ := bind_eq_ok_iff.mp removed
  obtain ⟨rfl, -⟩ := shows.place_of_leadsOn leads located
  split at removed
  · rename_i entries isDirectory
    obtain rfl := Except.ok.inj removed
    refine shows.remove (by simp) fun sub stands => ?_
    exact FileTree.shown_remove_hidden hidden (shows.wellNamed.at? stands)
      ((FileTree.hasDirectory_append stands).mp ⟨entries, isDirectory⟩) _
  · exact nomatch removed
  · exact nomatch removed

end

omit shows in
/-- A file whose path starts from a directory is reached by its own name. -/
theorem ends_in_name {path : String} {place : List String} {leaf : FileTree}
    (starts : disk.tree.HasDirectory (disk.base path)) (located : disk.locate path = .ok place)
    (stands : disk.tree.at? place = some leaf) (isLeaf : leaf.isDirectory = false) :
    ∃ front name, place = front ++ [name] ∧ Path.fileName? path = some name := by
  have noDirectory : ¬ disk.tree.HasDirectory place := by
    rintro ⟨entries, isDirectory⟩
    obtain rfl := Option.some.inj (stands.symm.trans isDirectory)
    cases isLeaf
  have led := foldlM_of_locate located
  rw [foldlM_components] at led
  rcases (Path.behind path).eq_nil_or_concat with none | ⟨front, last, behind⟩
  · rw [none] at led
    exact absurd (Except.ok.inj led ▸ starts) noDirectory
  rw [List.concat_eq_append] at behind
  have member : last ∈ Path.behind path := behind ▸ List.mem_append_right _ List.mem_cons_self
  obtain ⟨segment, -, made⟩ := List.mem_filterMap.mp member
  rw [behind, List.foldlM_append, bind_eq_ok_iff] at led
  simp only [List.foldlM_cons, List.foldlM_nil, bind_pure] at led
  obtain ⟨between, -, taken⟩ := led
  cases last with
  | root => exact absurd made (Path.component?_ne_root segment)
  | current => exact absurd made (Path.component?_ne_current segment)
  | parent =>
    rw [step] at taken
    split at taken
    · rename_i entries isDirectory
      obtain rfl := Except.ok.inj taken
      exact absurd (FileTree.HasDirectory.dropLast ⟨entries, isDirectory⟩) noDirectory
    all_goals cases taken
  | normal name =>
    refine ⟨between, name, (step_normal_iff.mp taken).1, ?_⟩
    rw [Path.fileName?, Path.components_eq, behind, ← List.append_assoc, List.getLast?_concat]

/-- A file is removed without being missed if files of its name are not asked for. -/
theorem removeFile {path : String} {after : Disk} (starts : disk.tree.HasDirectory (disk.base path))
    (unwanted : ∀ name, Path.fileName? path = some name → ∀ directory content, directory ≠ "" →
      view.wanted (Path.join directory name, content) = false)
    (removed : disk.removeFile path = .ok after) : view.ShownBy after := by
  obtain ⟨place, located, removed⟩ := bind_eq_ok_iff.mp removed
  split at removed
  · exact nomatch removed
  · rename_i leaf noDirectory stands
    obtain rfl := Except.ok.inj removed
    have isLeaf : leaf.isDirectory = false := by
      rw [Bool.eq_false_iff, Ne, FileTree.isDirectory_iff]
      rintro ⟨entries, isDirectory⟩
      exact noDirectory entries isDirectory
    obtain ⟨front, name, rfl, named⟩ := ends_in_name starts located stands isLeaf
    by_cases below : view.place <+: front ++ [name]
    · obtain ⟨rest, same⟩ := below
      rcases rest.eq_nil_or_concat with rfl | ⟨rest, last, rfl⟩
      · obtain ⟨entries, isDirectory⟩ := shows.hasDirectory
        rw [List.append_nil] at same
        rw [same, stands] at isDirectory
        exact absurd (Option.some.inj isDirectory) (noDirectory entries)
      rw [List.concat_eq_append, ← List.append_assoc] at same
      obtain ⟨rfl, isLast⟩ := List.append_inj' same rfl
      obtain rfl := (List.cons.inj isLast).1
      rw [List.append_assoc]
      refine shows.remove (by simp) fun sub isSub => ?_
      rw [List.append_assoc, FileTree.at?_append, isSub] at stands
      exact FileTree.shown_remove_unwanted (shows.wellNamed.at? isSub) stands isLeaf
        (ne_empty_of_locate shows.located) (unwanted last named)
    · refine shows.change shows.wellNamed.remove ?_
      have notAbove : ¬ front ++ [name] <+: view.place := by
        intro above
        obtain ⟨entries, isDirectory⟩ := shows.hasDirectory.above above
        exact noDirectory entries (Option.some.inj (stands.symm.trans isDirectory))
      rw [FileTree.at?_remove_of_apart below notAbove]
      exact shows.stands
  · exact nomatch removed

end View.ShownBy

end MigrationGuard
