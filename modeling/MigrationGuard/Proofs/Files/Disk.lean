/-
This file reads files that were just written. Writing a file changes no directory
that its path leads through, so the path leads to the same place afterwards, and
what stands there is the new content. A path is followed component by component,
and each component is one step from one chain of names to another, which depends
on the disk only in whether a directory stands there. So it is enough to know
which directories stay, and putting a file where none stands takes no directory
away. The main theorem asks that the path is absolute or that the working
directory is still there, as a relative path cannot be followed from a directory
that is gone. At the end the fact is stated for files in any world, which is what
saved sessions rely on.
-/

import MigrationGuard.Files.Access
import MigrationGuard.Proofs.Actions

namespace MigrationGuard

/-! ### Actions that fail -/

theorem bind_eq_ok_iff {Failure Answer Result : Type} {action : Except Failure Answer}
    {next : Answer → Except Failure Result} {result : Result} :
    action >>= next = .ok result ↔ ∃ answer, action = .ok answer ∧ next answer = .ok result := by
  cases action with
  | error failure => exact ⟨nofun, fun ⟨_, succeeds, _⟩ => nomatch succeeds⟩
  | ok answer => exact ⟨fun goesOn => ⟨answer, rfl, goesOn⟩, fun ⟨_, rfl, goesOn⟩ => goesOn⟩

/-! ### Entries -/

theorem FileTree.lookup_setEntry_self (name : String) (tree : FileTree)
    (entries : List (String × FileTree)) :
    (setEntry name tree entries).lookup name = some tree := by
  induction entries with
  | nil => simp [setEntry]
  | cons entry entries inductionHypothesis =>
    rw [setEntry]
    split
    · exact List.lookup_cons_self
    · rename_i other
      have differs : (name == entry.1) = false := beq_false_of_ne (Ne.symm other)
      rw [List.lookup_cons, differs]
      exact inductionHypothesis

theorem FileTree.lookup_setEntry_of_ne {name other : String} (differs : other ≠ name)
    (tree : FileTree) (entries : List (String × FileTree)) :
    (setEntry name tree entries).lookup other = entries.lookup other := by
  have misses : (other == name) = false := beq_false_of_ne differs
  induction entries with
  | nil =>
    rw [setEntry, List.lookup_cons, misses]
  | cons entry entries inductionHypothesis =>
    rw [setEntry]
    split
    · rename_i same
      rw [List.lookup_cons, List.lookup_cons, same, misses]
    · rw [List.lookup_cons, List.lookup_cons, inductionHypothesis]

/-! ### Directories of a tree -/

/-- A directory stands under a chain of names. Only this decides whether a path can go on there. -/
def FileTree.HasDirectory (tree : FileTree) (names : List String) : Prop :=
  ∃ entries, tree.at? names = some (.directory entries)

theorem FileTree.at?_append (tree : FileTree) (front back : List String) :
    tree.at? (front ++ back) = (tree.at? front).bind fun inner => inner.at? back := by
  induction front generalizing tree with
  | nil => rfl
  | cons name front inductionHypothesis =>
    rw [List.cons_append, at?, at?, Option.bind_assoc]
    exact congrArg _ (funext fun inner => inductionHypothesis inner)

/-- Only a directory has directories below it, so the root of a disk with a directory is one. -/
theorem FileTree.HasDirectory.isDirectory {tree : FileTree} {names : List String}
    (has : tree.HasDirectory names) : tree.HasDirectory [] := by
  obtain ⟨entries, stands⟩ := has
  cases tree with
  | directory entries => exact ⟨entries, rfl⟩
  | _ => cases names <;> simp [at?, FileTree.entries] at stands

theorem FileTree.HasDirectory.above {tree : FileTree} {front names : List String}
    (has : tree.HasDirectory names) (isPrefix : front <+: names) : tree.HasDirectory front := by
  obtain ⟨back, rfl⟩ := isPrefix
  obtain ⟨entries, stands⟩ := has
  rw [at?_append, Option.bind_eq_some_iff] at stands
  obtain ⟨inner, front, below⟩ := stands
  obtain ⟨_, directory⟩ := HasDirectory.isDirectory ⟨entries, below⟩
  exact ⟨_, front.trans directory⟩

theorem FileTree.HasDirectory.dropLast {tree : FileTree} {names : List String}
    (has : tree.HasDirectory names) : tree.HasDirectory names.dropLast :=
  has.above names.dropLast_prefix

/-- Something can be put under a chain of names: there is a directory for it, or it is the root
itself. -/
def FileTree.HasRoom (tree : FileTree) (names : List String) : Prop :=
  names = [] ∨ tree.HasDirectory names.dropLast

theorem FileTree.at?_put {tree : FileTree} {names : List String} (new : FileTree)
    (room : tree.HasRoom names) : (tree.put new names).at? names = some new := by
  induction names generalizing tree with
  | nil => rfl
  | cons name names inductionHypothesis =>
    obtain ⟨below, stands⟩ := room.resolve_left (List.cons_ne_nil name names)
    obtain ⟨entries, directory⟩ := HasDirectory.isDirectory ⟨below, stands⟩
    obtain rfl : tree = .directory entries := Option.some.inj directory
    cases names with
    | nil => simp [put, at?, FileTree.entries, lookup_setEntry_self]
    | cons next names =>
      rw [List.dropLast_cons_cons, at?, Option.bind_eq_some_iff] at stands
      obtain ⟨inner, found, stands⟩ := stands
      have held : entries.lookup name = some inner := found
      have room : inner.HasRoom (next :: names) := .inr ⟨below, stands⟩
      simp only [put, held]
      rw [at?, FileTree.entries, lookup_setEntry_self]
      exact inductionHypothesis room

/-- Directories stay where they are when something is put where there is none. -/
theorem FileTree.HasDirectory.put {tree : FileTree} {other names : List String}
    (has : tree.HasDirectory other) (free : ¬ tree.HasDirectory names) (new : FileTree) :
    (tree.put new names).HasDirectory other := by
  induction names generalizing tree other with
  | nil => exact absurd has.isDirectory free
  | cons name names inductionHypothesis =>
    obtain ⟨entries, directory⟩ := has.isDirectory
    obtain rfl : tree = .directory entries := Option.some.inj directory
    obtain ⟨below, stands⟩ := has
    -- The new thing goes into the entry of the first name, or nowhere.
    have changed : (FileTree.directory entries).put new (name :: names) = .directory entries ∨
        ∃ inner, (∀ old, entries.lookup name = some old → inner = old.put new names) ∧
          (FileTree.directory entries).put new (name :: names) =
            .directory (setEntry name inner entries) := by
      cases names with
      | nil => exact .inr ⟨new, fun _ _ => rfl, rfl⟩
      | cons next names =>
        cases held : entries.lookup name with
        | none => exact .inl (by simp only [FileTree.put, held])
        | some old =>
          refine .inr ⟨old.put new (next :: names), ?_, by simp only [FileTree.put, held]⟩
          intro known same
          rw [Option.some.inj same]
    rcases changed with unchanged | ⟨inner, inside, changed⟩
    · rw [unchanged]
      exact ⟨below, stands⟩
    rw [changed]
    cases other with
    | nil => exact ⟨_, rfl⟩
    | cons first other =>
      rw [at?, Option.bind_eq_some_iff] at stands
      obtain ⟨old, held, stands⟩ := stands
      by_cases same : first = name
      · subst same
        have taken : ¬ old.HasDirectory names := by
          rintro ⟨deep, there⟩
          refine free ⟨deep, ?_⟩
          rw [at?, held]
          exact there
        obtain ⟨deep, there⟩ := inductionHypothesis ⟨below, stands⟩ taken
        refine ⟨deep, ?_⟩
        rw [at?, FileTree.entries, lookup_setEntry_self, inside old held]
        exact there
      · refine ⟨below, ?_⟩
        rw [at?, FileTree.entries, lookup_setEntry_of_ne same]
        exact Option.bind_eq_some_iff.mpr ⟨old, held, stands⟩

/-! ### Paths on a disk -/

/-- A component of a path leads back to the root, or nowhere, or from one directory on. -/
theorem Disk.step_cases {disk : Disk} {names next : List String} {component : PathComponent}
    (taken : disk.step names component = .ok next) :
    (component = .root ∧ next = []) ∨ (component = .current ∧ next = names) ∨
      (disk.tree.HasDirectory names ∧
        (next = names.dropLast ∨ ∃ name, next = names ++ [name])) := by
  cases component with
  | root => exact .inl ⟨rfl, (Except.ok.inj taken).symm⟩
  | current => exact .inr (.inl ⟨rfl, (Except.ok.inj taken).symm⟩)
  | parent =>
    rw [step] at taken
    split at taken
    · rename_i entries stands
      exact .inr (.inr ⟨⟨entries, stands⟩, .inl (Except.ok.inj taken).symm⟩)
    all_goals exact nomatch taken
  | normal name =>
    rw [step] at taken
    split at taken
    · rename_i entries stands
      split at taken
      · exact nomatch taken
      · exact .inr (.inr ⟨⟨entries, stands⟩, .inr ⟨name, (Except.ok.inj taken).symm⟩⟩)
    all_goals exact nomatch taken

/-- What a component does in a directory does not depend on the rest of the disk. -/
theorem Disk.step_of_hasDirectory {disk other : Disk} {names : List String}
    (has : disk.tree.HasDirectory names) (hasToo : other.tree.HasDirectory names)
    (component : PathComponent) : other.step names component = disk.step names component := by
  obtain ⟨entries, stands⟩ := has
  obtain ⟨entriesToo, standsToo⟩ := hasToo
  cases component <;> simp only [step, stands, standsToo]

/-- Components lead to a place where there is room if they start from one. -/
theorem Disk.hasRoom_of_foldlM {disk : Disk} {components : List PathComponent}
    {start place : List String} (room : disk.tree.HasRoom start)
    (leads : components.foldlM disk.step start = .ok place) : disk.tree.HasRoom place := by
  induction components generalizing start with
  | nil => exact Except.ok.inj leads ▸ room
  | cons component components inductionHypothesis =>
    rw [List.foldlM_cons] at leads
    obtain ⟨next, taken, leads⟩ := bind_eq_ok_iff.mp leads
    refine inductionHypothesis ?_ leads
    rcases step_cases taken with ⟨-, rfl⟩ | ⟨-, rfl⟩ | ⟨has, rfl | ⟨name, rfl⟩⟩
    · exact .inl rfl
    · exact room
    · exact .inr has.dropLast.dropLast
    · exact .inr (by rwa [List.dropLast_concat])

/-- Components lead to the same place on a disk that has the same directories. -/
theorem Disk.foldlM_step_congr {disk other : Disk}
    (keeps : ∀ names, disk.tree.HasDirectory names → other.tree.HasDirectory names)
    {components : List PathComponent} {start place : List String}
    (leads : components.foldlM disk.step start = .ok place) :
    components.foldlM other.step start = .ok place := by
  induction components generalizing start with
  | nil => exact leads
  | cons component components inductionHypothesis =>
    rw [List.foldlM_cons] at leads ⊢
    obtain ⟨next, taken, leads⟩ := bind_eq_ok_iff.mp leads
    have same : other.step start component = .ok next := by
      rcases step_cases taken with ⟨rfl, rfl⟩ | ⟨rfl, rfl⟩ | ⟨has, -⟩
      · rfl
      · rfl
      · exact (step_of_hasDirectory has (keeps _ has) component).trans taken
    rw [same]
    exact inductionHypothesis leads

theorem Disk.foldlM_of_locate {disk : Disk} {path : String} {place : List String}
    (located : disk.locate path = .ok place) :
    (Path.components path).foldlM disk.step disk.working = .ok place := by
  unfold locate at located
  split at located
  · exact nomatch located
  split at located
  · exact nomatch located
  exact located

/-- A path leads to the same place when the directories stay, whatever happens to the files. -/
theorem Disk.locate_congr {disk : Disk} {tree : FileTree} {path : String} {place : List String}
    (keeps : ∀ names, disk.tree.HasDirectory names → tree.HasDirectory names)
    (located : disk.locate path = .ok place) :
    ({ disk with tree } : Disk).locate path = .ok place := by
  have leads : (Path.components path).foldlM (Disk.step { disk with tree }) disk.working =
      .ok place :=
    foldlM_step_congr keeps (foldlM_of_locate located)
  unfold locate at located ⊢
  split at located
  · exact nomatch located
  rename_i named
  split at located
  · exact nomatch located
  rename_i clean
  rw [if_neg named, if_neg clean]
  exact leads

/-! ### Files that were written -/

/-- A file that is written can be read. The path is absolute, or the working directory stands. -/
theorem Disk.read_of_write {disk left : Disk} {path : String} {content : List UInt8}
    (starts : Path.isAbsolute path ∨ disk.tree.HasDirectory disk.working)
    (written : disk.write path content = .ok left) : left.read path = .ok content := by
  obtain ⟨place, located, written⟩ := bind_eq_ok_iff.mp written
  have free : ¬ disk.tree.HasDirectory place := by
    rintro ⟨entries, stands⟩
    rw [stands] at written
    exact nomatch written
  obtain rfl : { disk with tree := disk.tree.put (.file content) place } = left := by
    split at written
    · exact nomatch written
    · exact Except.ok.inj written
  have room : disk.tree.HasRoom place := by
    have leads := Disk.foldlM_of_locate located
    rcases starts with absolute | stands
    · rw [Path.components, if_pos absolute, List.foldlM_cons] at leads
      exact hasRoom_of_foldlM (.inl rfl) leads
    · exact hasRoom_of_foldlM (.inr stands.dropLast) leads
  have again := locate_congr (fun names has => has.put free (.file content)) located
  rw [read, find, again]
  simp only [bind, Except.bind, FileTree.at?_put _ room, pure, Except.pure]

/-- What is written to a path can be read from it, in a world. -/
def FileAccess.Keeps {World : Type} (files : FileAccess (StateM World)) (path : String)
    (world : World) : Prop :=
  ∀ content left, files.write path content world = (.ok (), left) →
    (files.read path left).1 = .ok content

/-- A change that fails leaves the disk as it was, and one that succeeds leaves what it computed. -/
theorem Disk.change_apply (update : Disk → Except FileFailure Disk) (disk : Disk) :
    (Disk.change update : StateM Disk (Except FileFailure Unit)) disk =
      ((update disk).map fun _ => (), (update disk).toOption.getD disk) := by
  have seen : update ((get : StateM Disk Disk) disk).1 = update disk := rfl
  rw [Disk.change, bind_apply, seen]
  cases update disk <;> rfl

theorem Disk.access_keeps {disk : Disk} {path : String}
    (starts : Path.isAbsolute path ∨ disk.tree.HasDirectory disk.working) :
    (Disk.access : FileAccess (StateM Disk)).Keeps path disk := by
  intro content left written
  have ran : (Disk.access : FileAccess (StateM Disk)).write path content disk =
      ((disk.write path content).map fun _ => (), (disk.write path content).toOption.getD disk) :=
    Disk.change_apply _ disk
  rw [ran] at written
  cases changed : disk.write path content with
  | error failure =>
    rw [changed] at written
    exact nomatch written
  | ok after =>
    rw [changed] at written
    obtain rfl : after = left := congrArg Prod.snd written
    exact read_of_write starts changed

end MigrationGuard
