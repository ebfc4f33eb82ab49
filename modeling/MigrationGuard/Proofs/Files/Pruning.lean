/-
This file says which changes of a tree its list of files does not show. A walk
passes over directories by their names, so whatever happens below such a directory
stays out of the list. A new empty directory does not show either, nor does the
removal of a file that the list is not asked for. Putting and removing are local:
a change at a chain of names is, where the chain goes on, a change of what stands
under its first name. For such changes it is shown once that a change below a
place shows just if it shows there, so each kind of change need only be looked at
where it happens. Names in a directory are taken to be distinct and to be single
components, as they are on a disk.
-/

import Mathlib.Data.List.Nodup
import MigrationGuard.Proofs.Files.Disk
import MigrationGuard.Proofs.Path

namespace MigrationGuard.FileTree

/-! ### Names in a tree -/

/-- In every directory of the tree the names are distinct, and each is one component of a path. -/
inductive WellNamed : FileTree → Prop
  | file (content : List UInt8) : WellNamed (.file content)
  | locked (failure : FileFailure) : WellNamed (.locked failure)
  | special : WellNamed .special
  | directory {entries : List (String × FileTree)} (distinct : (entries.map Prod.fst).Nodup)
    (named : ∀ entry ∈ entries, Path.IsName entry.1)
    (inside : ∀ entry ∈ entries, entry.2.WellNamed) : WellNamed (.directory entries)

theorem mem_of_lookup {name : String} {tree : FileTree} {entries : List (String × FileTree)}
    (found : entries.lookup name = some tree) : (name, tree) ∈ entries := by
  induction entries with
  | nil => cases found
  | cons entry entries inductionHypothesis =>
    rw [List.lookup_cons] at found
    split at found
    · rename_i same
      rw [eq_of_beq same, ← Option.some.inj found]
      exact List.mem_cons_self
    · exact List.mem_cons_of_mem _ (inductionHypothesis found)

theorem mem_setEntry {name : String} {tree : FileTree} {entries : List (String × FileTree)}
    {entry : String × FileTree} (member : entry ∈ setEntry name tree entries) :
    entry = (name, tree) ∨ entry ∈ entries := by
  induction entries with
  | nil => exact .inl (List.mem_singleton.mp member)
  | cons first others inductionHypothesis =>
    rw [setEntry] at member
    split at member
    · exact (List.mem_cons.mp member).imp_right (List.mem_cons_of_mem _)
    · rcases List.mem_cons.mp member with rfl | member
      · exact .inr List.mem_cons_self
      · exact (inductionHypothesis member).imp_right (List.mem_cons_of_mem _)

theorem nodup_setEntry {name : String} (tree : FileTree) {entries : List (String × FileTree)}
    (distinct : (entries.map Prod.fst).Nodup) :
    ((setEntry name tree entries).map Prod.fst).Nodup := by
  induction entries with
  | nil => exact List.pairwise_singleton _ _
  | cons first others inductionHypothesis =>
    rw [List.map_cons, List.nodup_cons] at distinct
    rw [setEntry]
    split
    · rename_i same
      rw [List.map_cons, List.nodup_cons, ← same]
      exact distinct
    · rename_i differs
      rw [List.map_cons, List.nodup_cons]
      refine ⟨fun again => ?_, inductionHypothesis distinct.2⟩
      obtain ⟨entry, member, same⟩ := List.mem_map.mp again
      rcases mem_setEntry member with rfl | member
      · exact differs same.symm
      · exact distinct.1 (same ▸ List.mem_map_of_mem member)

/-- A chain of names that leads somewhere starts from an entry of a directory. -/
theorem exists_of_at?_cons {tree inner : FileTree} {name : String} {names : List String}
    (stands : tree.at? (name :: names) = some inner) :
    ∃ entries next, tree = .directory entries ∧ entries.lookup name = some next ∧
      next.at? names = some inner := by
  obtain ⟨next, found, further⟩ := Option.bind_eq_some_iff.mp stands
  cases tree with
  | directory entries => exact ⟨entries, next, rfl, found, further⟩
  | _ => cases found

namespace WellNamed

theorem inner {tree : FileTree} {name : String} {entries : List (String × FileTree)}
    (wellNamed : (FileTree.directory entries).WellNamed)
    (found : entries.lookup name = some tree) : tree.WellNamed := by
  cases wellNamed with
  | directory distinct named inside => exact inside _ (mem_of_lookup found)

theorem at? {tree inner : FileTree} {names : List String} (wellNamed : tree.WellNamed)
    (stands : tree.at? names = some inner) : inner.WellNamed := by
  induction names generalizing tree with
  | nil =>
    obtain rfl := Option.some.inj stands
    exact wellNamed
  | cons name names inductionHypothesis =>
    obtain ⟨entries, next, rfl, held, further⟩ := exists_of_at?_cons stands
    exact inductionHypothesis (wellNamed.inner held) further

theorem isName_of_at? {tree inner : FileTree} {names : List String} (wellNamed : tree.WellNamed)
    (stands : tree.at? names = some inner) : ∀ name ∈ names, Path.IsName name := by
  induction names generalizing tree with
  | nil => exact nofun
  | cons name names inductionHypothesis =>
    obtain ⟨entries, next, rfl, held, further⟩ := exists_of_at?_cons stands
    have first : Path.IsName name := by
      cases wellNamed with
      | directory distinct named inside => exact named _ (mem_of_lookup held)
    exact List.forall_mem_cons.mpr ⟨first, inductionHypothesis (wellNamed.inner held) further⟩

theorem setEntry {name : String} {tree : FileTree} {entries : List (String × FileTree)}
    (wellNamed : (FileTree.directory entries).WellNamed) (isName : Path.IsName name)
    (new : tree.WellNamed) :
    (FileTree.directory (FileTree.setEntry name tree entries)).WellNamed := by
  cases wellNamed with
  | directory distinct named inside =>
    refine .directory (nodup_setEntry tree distinct) (fun entry member => ?_) fun entry member => ?_
    · rcases mem_setEntry member with rfl | member
      · exact isName
      · exact named entry member
    · rcases mem_setEntry member with rfl | member
      · exact new
      · exact inside entry member

theorem put {tree new : FileTree} {names : List String} (wellNamed : tree.WellNamed)
    (isName : ∀ name ∈ names, Path.IsName name) (newToo : new.WellNamed) :
    (tree.put new names).WellNamed := by
  induction names generalizing tree with
  | nil => exact newToo
  | cons name names inductionHypothesis =>
    have first := isName name List.mem_cons_self
    cases tree with
    | directory entries =>
      cases names with
      | nil => exact wellNamed.setEntry first newToo
      | cons next names =>
        cases found : entries.lookup name with
        | none => simpa only [FileTree.put, found] using wellNamed
        | some inner =>
          simp only [FileTree.put, found]
          exact wellNamed.setEntry first (inductionHypothesis (wellNamed.inner found)
            fun other member => isName other (List.mem_cons_of_mem _ member))
    | _ => exact wellNamed

theorem remove {tree : FileTree} {names : List String} (wellNamed : tree.WellNamed) :
    (tree.remove names).WellNamed := by
  induction names generalizing tree with
  | nil => exact wellNamed
  | cons name names inductionHypothesis =>
    cases tree with
    | directory entries =>
      cases names with
      | nil =>
        cases wellNamed with
        | directory distinct named inside =>
          exact .directory (distinct.sublist (List.filter_sublist.map _))
            (fun entry member => named entry (List.mem_filter.mp member).1)
            fun entry member => inside entry (List.mem_filter.mp member).1
      | cons next names =>
        cases found : entries.lookup name with
        | none => simpa only [FileTree.remove, found] using wellNamed
        | some inner =>
          have isName : Path.IsName name := by
            cases wellNamed with
            | directory distinct named inside => exact named _ (mem_of_lookup found)
          simp only [FileTree.remove, found]
          exact wellNamed.setEntry isName (inductionHypothesis (wellNamed.inner found))
    | _ => cases names <;> exact wellNamed

end WellNamed

/-! ### Listed files -/

/-- Files as a walk lists them: the path, and the content or why it could not be read. -/
abbrev Listed := String × Except FileFailure (List UInt8)

/-- A property holds of a tree if it passes from the entries of a directory to the directory. -/
@[elab_as_elim]
theorem nestedInduction {motive : FileTree → Prop} (file : ∀ content, motive (.file content))
    (locked : ∀ failure, motive (.locked failure))
    (directory : ∀ entries, (∀ entry ∈ entries, motive entry.2) → motive (.directory entries))
    (special : motive .special) : ∀ tree, motive tree :=
  @FileTree.rec motive (fun entries => ∀ entry ∈ entries, motive entry.2)
    (fun entry => motive entry.2) file locked directory special (fun _ member => nomatch member)
    (fun _ _ first others => List.forall_mem_cons.mpr ⟨first, others⟩) fun _ _ tree => tree

theorem mem_filesOfEntries {excluded : String → Bool} {path : String}
    {entries : List (String × FileTree)} {listed : Listed}
    (member : listed ∈ filesOfEntries excluded path entries) :
    ∃ entry ∈ entries, (entry.2.isDirectory → ¬ excluded entry.1) ∧
      listed ∈ entry.2.filesBelow excluded (Path.join path entry.1) := by
  induction entries with
  | nil => exact nomatch member
  | cons entry entries inductionHypothesis =>
    rw [filesOfEntries, List.mem_append] at member
    rcases member with first | others
    · split at first
      · cases first
      · rename_i shows
        rw [Bool.and_eq_true, not_and] at shows
        exact ⟨entry, List.mem_cons_self, shows, first⟩
    · obtain ⟨other, among, found⟩ := inductionHypothesis others
      exact ⟨other, List.mem_cons_of_mem _ among, found⟩

/-- A listed file is reached from the root by names of which the walk passes over none but perhaps
the last, which is no directory. -/
theorem reached_of_mem_filesBelow {excluded : String → Bool} {tree : FileTree}
    (wellNamed : tree.WellNamed) {path : String}
    {listed : Listed}
    (member : listed ∈ tree.filesBelow excluded path) :
    ∃ names : List String, listed.1 = names.foldl Path.join path ∧
      (∀ name ∈ names, Path.IsName name) ∧ (∀ name ∈ names.dropLast, ¬ excluded name) ∧
      (names ≠ [] → tree.isDirectory) := by
  induction tree using nestedInduction generalizing path with
  | file content =>
    rw [List.mem_singleton.mp member]
    exact ⟨[], rfl, nofun, nofun, fun present => absurd rfl present⟩
  | locked failure =>
    rw [List.mem_singleton.mp member]
    exact ⟨[], rfl, nofun, nofun, fun present => absurd rfl present⟩
  | special => exact nomatch member
  | directory entries inductionHypothesis =>
    cases wellNamed with
    | directory distinct named inside =>
      rw [filesBelow] at member
      obtain ⟨entry, among, shows, member⟩ := mem_filesOfEntries member
      obtain ⟨names, path, isNames, walked, leads⟩ :=
        inductionHypothesis entry among (inside entry among) member
      refine ⟨entry.1 :: names, path, List.forall_mem_cons.mpr ⟨named entry among, isNames⟩, ?_,
        fun _ => rfl⟩
      cases names with
      | nil => exact nofun
      | cons next names =>
        exact List.forall_mem_cons.mpr ⟨shows (leads (List.cons_ne_nil _ _)), walked⟩

/-- The tree in which a chain of names leads to another tree and nothing else stands. -/
def chain (tree : FileTree) : List String → FileTree
  | [] => tree
  | name :: names => .directory [(name, tree.chain names)]

theorem wellNamed_chain {tree : FileTree} (wellNamed : tree.WellNamed) {names : List String}
    (named : ∀ name ∈ names, Path.IsName name) : (tree.chain names).WellNamed := by
  induction names with
  | nil => exact wellNamed
  | cons name names inductionHypothesis =>
    obtain ⟨first, others⟩ := List.forall_mem_cons.mp named
    exact .directory (List.pairwise_singleton _ _) (List.forall_mem_singleton.mpr first)
      (List.forall_mem_singleton.mpr (inductionHypothesis others))

theorem filesBelow_chain {excluded : String → Bool} (tree : FileTree) {names : List String}
    (walked : ∀ name ∈ names, ¬ excluded name) (path : String) :
    (tree.chain names).filesBelow excluded path =
      tree.filesBelow excluded (names.foldl Path.join path) := by
  induction names generalizing path with
  | nil => rfl
  | cons name names inductionHypothesis =>
    obtain ⟨first, others⟩ := List.forall_mem_cons.mp walked
    rw [chain, filesBelow, filesOfEntries, filesOfEntries, List.append_nil,
      if_neg (by simp [first]), inductionHypothesis others]
    rfl

/-! ### Changes below a place -/

theorem isDirectory_iff {tree : FileTree} :
    tree.isDirectory ↔ ∃ entries, tree = .directory entries := by
  cases tree <;> simp [isDirectory]

/-- A change at a chain of names which, where the names lead on, is one of what stands under the
first of them. -/
structure IsLocal (change : FileTree → List String → FileTree) : Prop where
  /-- The change goes on inside. -/
  cons_eq : ∀ {name : String} {names : List String} {inner : FileTree}
    {entries : List (String × FileTree)}, entries.lookup name = some inner → names ≠ [] →
      change (.directory entries) (name :: names) =
        .directory (setEntry name (change inner names) entries)
  /-- A directory stays one, and nothing else gets to be one. -/
  isDirectory_eq : ∀ (tree : FileTree) {names : List String}, names ≠ [] →
    (change tree names).isDirectory = tree.isDirectory

theorem isLocal_put (new : FileTree) : IsLocal fun tree => tree.put new where
  cons_eq held below := by
    obtain ⟨next, others, rfl⟩ := List.exists_cons_of_ne_nil below
    simp only [put, held]
  isDirectory_eq tree names below := by
    obtain ⟨name, names, rfl⟩ := List.exists_cons_of_ne_nil below
    cases tree with
    | directory entries =>
      cases names with
      | nil => rfl
      | cons next names => cases found : entries.lookup name <;> simp [put, found, isDirectory]
    | _ => rfl

theorem isLocal_remove : IsLocal remove where
  cons_eq held below := by
    obtain ⟨next, others, rfl⟩ := List.exists_cons_of_ne_nil below
    simp only [remove, held]
  isDirectory_eq tree names below := by
    obtain ⟨name, names, rfl⟩ := List.exists_cons_of_ne_nil below
    cases tree with
    | directory entries =>
      cases names with
      | nil => rfl
      | cons next names => cases found : entries.lookup name <;> simp [remove, found, isDirectory]
    | _ => cases names <;> rfl

/-- A change below a place is one of what stands there, and the names up to it lead on as before. -/
theorem IsLocal.at?_append {change : FileTree → List String → FileTree} (isLocal : IsLocal change)
    {tree sub : FileTree} {place rest : List String} (stands : tree.at? place = some sub)
    (below : rest ≠ []) : (change tree (place ++ rest)).at? place = some (change sub rest) := by
  induction place generalizing tree with
  | nil =>
    obtain rfl := Option.some.inj stands
    rfl
  | cons name place inductionHypothesis =>
    obtain ⟨entries, inner, rfl, held, further⟩ := exists_of_at?_cons stands
    rw [List.cons_append, isLocal.cons_eq held (List.append_ne_nil_of_right_ne_nil place below),
      FileTree.at?, FileTree.entries, lookup_setEntry_self]
    exact inductionHypothesis further

theorem lookup_filter_of_ne {name other : String} (differs : other ≠ name)
    (entries : List (String × FileTree)) :
    (entries.filter fun entry => entry.1 != name).lookup other = entries.lookup other := by
  induction entries with
  | nil => rfl
  | cons entry entries inductionHypothesis =>
    rw [List.filter_cons]
    split
    · rw [List.lookup_cons, List.lookup_cons, inductionHypothesis]
    · rename_i removed
      have same : entry.1 = name := by simpa using removed
      rw [inductionHypothesis, List.lookup_cons, beq_false_of_ne (same ▸ differs)]

/-- What is removed elsewhere is not missing at a place that does not lie below it. -/
theorem at?_remove_of_apart {tree : FileTree} {names place : List String}
    (apart : ¬ place <+: names) (notAbove : ¬ names <+: place) :
    (tree.remove names).at? place = tree.at? place := by
  induction place generalizing tree names with
  | nil => exact absurd ⟨_, rfl⟩ apart
  | cons first place inductionHypothesis =>
    cases names with
    | nil => exact absurd ⟨_, rfl⟩ notAbove
    | cons name names =>
      cases tree with
      | directory entries =>
        by_cases same : first = name
        · subst same
          rw [List.prefix_cons_inj] at apart notAbove
          cases names with
          | nil => exact absurd ⟨_, rfl⟩ notAbove
          | cons next names =>
            cases found : entries.lookup first with
            | none => simp only [remove, found]
            | some inner =>
              rw [isLocal_remove.cons_eq found (List.cons_ne_nil _ _), FileTree.at?, FileTree.at?,
                FileTree.entries, FileTree.entries, lookup_setEntry_self, found]
              exact inductionHypothesis apart notAbove
        · have unchanged : ((FileTree.directory entries).remove (name :: names)).entries.lookup
              first = entries.lookup first := by
            cases names with
            | nil => exact lookup_filter_of_ne same entries
            | cons next names =>
              cases found : entries.lookup name with
              | none => simp only [remove, found, FileTree.entries]
              | some inner =>
                simp only [remove, found, FileTree.entries]
                exact lookup_setEntry_of_ne same _ _
          rw [FileTree.at?, FileTree.at?, unchanged]
          rfl
      | _ => cases names <;> rfl

/-! ### Shown files -/

/-- The files below a directory that a walk is asked for, in the order in which it lists them. -/
def shown (excluded : String → Bool) (wanted : Listed → Bool) (path : String) (tree : FileTree) :
    List Listed :=
  (tree.filesBelow excluded path).filter wanted

/-- The files that are shown of one entry of a directory, none if the walk passes over it. -/
def shownOfEntry (excluded : String → Bool) (wanted : Listed → Bool) (path : String)
    (entry : String × FileTree) : List Listed :=
  if entry.2.isDirectory && excluded entry.1 then []
  else shown excluded wanted (Path.join path entry.1) entry.2

section
variable {excluded : String → Bool} {wanted : Listed → Bool}

theorem shown_directory (path : String) (entries : List (String × FileTree)) :
    shown excluded wanted path (.directory entries) =
      entries.flatMap (shownOfEntry excluded wanted path) := by
  rw [shown, filesBelow]
  induction entries with
  | nil => rfl
  | cons entry entries inductionHypothesis =>
    rw [filesOfEntries, List.filter_append, inductionHypothesis, List.flatMap_cons, shownOfEntry]
    split <;> rfl

theorem shownOfEntry_of_excluded {path name : String} {tree : FileTree}
    (hidden : excluded name) (isDirectory : tree.isDirectory) :
    shownOfEntry excluded wanted path (name, tree) = [] :=
  if_pos (by rw [isDirectory, hidden, Bool.and_self])

theorem shownOfEntry_congr {path name : String} {old new : FileTree}
    (isDirectory : new.isDirectory = old.isDirectory)
    (same : shown excluded wanted (Path.join path name) new =
      shown excluded wanted (Path.join path name) old) :
    shownOfEntry excluded wanted path (name, new) =
      shownOfEntry excluded wanted path (name, old) := by
  rw [shownOfEntry, shownOfEntry, isDirectory, same]

/-- An entry in its old place shows if it shows something else than before. -/
theorem shown_setEntry {path name : String} {new : FileTree} {entries : List (String × FileTree)}
    (same : ∀ old, entries.lookup name = some old →
      shownOfEntry excluded wanted path (name, new) = shownOfEntry excluded wanted path (name, old))
    (nothing : entries.lookup name = none → shownOfEntry excluded wanted path (name, new) = []) :
    shown excluded wanted path (.directory (setEntry name new entries)) =
      shown excluded wanted path (.directory entries) := by
  rw [shown_directory, shown_directory]
  induction entries with
  | nil =>
    rw [setEntry, List.flatMap_singleton, nothing rfl]
    rfl
  | cons entry entries inductionHypothesis =>
    obtain ⟨known, old⟩ := entry
    rw [setEntry]
    split
    · rename_i isKnown
      obtain rfl : known = name := isKnown
      rw [List.flatMap_cons, List.flatMap_cons, same old List.lookup_cons_self]
    · rename_i differs
      have behind : ((known, old) :: entries).lookup name = entries.lookup name := by
        rw [List.lookup_cons, beq_false_of_ne (Ne.symm differs)]
      rw [behind] at same nothing
      rw [List.flatMap_cons, List.flatMap_cons, inductionHypothesis same nothing]

theorem shown_setEntry_of_held {path name : String} {old new : FileTree}
    {entries : List (String × FileTree)} (held : entries.lookup name = some old)
    (same : shownOfEntry excluded wanted path (name, new) =
      shownOfEntry excluded wanted path (name, old)) :
    shown excluded wanted path (.directory (setEntry name new entries)) =
      shown excluded wanted path (.directory entries) := by
  refine shown_setEntry (fun other again => ?_) fun missing => ?_
  · rw [same, Option.some.inj (held.symm.trans again)]
  · exact absurd (held.symm.trans missing) (Option.some_ne_none old)

/-- The removal of entries that show nothing does not show, however many they are. -/
theorem shown_filter {path name : String} {entries : List (String × FileTree)}
    (nothing : ∀ entry ∈ entries, entry.1 = name → shownOfEntry excluded wanted path entry = []) :
    shown excluded wanted path (.directory (entries.filter fun entry => entry.1 != name)) =
      shown excluded wanted path (.directory entries) := by
  rw [shown_directory, shown_directory]
  induction entries with
  | nil => rfl
  | cons entry entries inductionHypothesis =>
    have others := inductionHypothesis fun other member =>
      nothing other (List.mem_cons_of_mem _ member)
    rw [List.filter_cons]
    split
    · rw [List.flatMap_cons, List.flatMap_cons, others]
    · rename_i removed
      have same : entry.1 = name := by simpa using removed
      rw [others, List.flatMap_cons, nothing entry List.mem_cons_self same, List.nil_append]

theorem eq_of_lookup {entries : List (String × FileTree)} {entry : String × FileTree}
    {tree : FileTree} (distinct : (entries.map Prod.fst).Nodup) (member : entry ∈ entries)
    (found : entries.lookup entry.1 = some tree) : entry.2 = tree :=
  congrArg Prod.snd (List.inj_on_of_nodup_map distinct member (mem_of_lookup found) rfl)

/-- The removal of the one entry of a name does not show if the entry shows nothing. -/
theorem shown_remove_entry {path name : String} {inner : FileTree}
    {entries : List (String × FileTree)} (wellNamed : (FileTree.directory entries).WellNamed)
    (held : entries.lookup name = some inner)
    (nothing : shownOfEntry excluded wanted path (name, inner) = []) :
    shown excluded wanted path ((FileTree.directory entries).remove [name]) =
      shown excluded wanted path (.directory entries) := by
  cases wellNamed with
  | directory distinct named inside =>
    refine shown_filter fun entry member same => ?_
    obtain rfl := same
    obtain rfl := eq_of_lookup distinct member held
    exact nothing

/-! ### Changes that do not show -/

/-- A change below a place shows just if it shows there. So it is enough to look at the place. -/
theorem IsLocal.shown_append {change : FileTree → List String → FileTree} (isLocal : IsLocal change)
    {tree sub : FileTree} {place rest : List String} (stands : tree.at? place = some sub)
    (below : rest ≠ []) {path : String}
    (unseen : shown excluded wanted (place.foldl Path.join path) (change sub rest) =
      shown excluded wanted (place.foldl Path.join path) sub) :
    shown excluded wanted path (change tree (place ++ rest)) =
      shown excluded wanted path tree := by
  induction place generalizing tree path with
  | nil =>
    obtain rfl := Option.some.inj stands
    exact unseen
  | cons name place inductionHypothesis =>
    obtain ⟨entries, inner, rfl, held, further⟩ := exists_of_at?_cons stands
    have more : place ++ rest ≠ [] := List.append_ne_nil_of_right_ne_nil place below
    rw [List.cons_append, isLocal.cons_eq held more]
    exact shown_setEntry_of_held held
      (shownOfEntry_congr (isLocal.isDirectory_eq inner more) (inductionHypothesis further unseen))

/-- An empty directory that is made where nothing stood does not show, as a list has files only. -/
theorem shown_put_emptyDirectory {tree : FileTree} {names : List String}
    (free : tree.at? names = none) (path : String) :
    shown excluded wanted path (tree.put (.directory []) names) =
      shown excluded wanted path tree := by
  induction names generalizing tree path with
  | nil => cases free
  | cons name names inductionHypothesis =>
    cases tree with
    | directory entries =>
      cases names with
      | nil =>
        refine shown_setEntry (fun old found => ?_) fun _ => ?_
        · have taken : (FileTree.directory entries).at? [name] = some old := by
            rw [FileTree.at?, FileTree.entries, found]
            rfl
          rw [taken] at free
          cases free
        · rw [shownOfEntry]
          split <;> rfl
      | cons next names =>
        have more : next :: names ≠ [] := List.cons_ne_nil next names
        cases found : entries.lookup name with
        | none => simp only [put, found]
        | some inner =>
          have freeInside : inner.at? (next :: names) = none := by
            rw [FileTree.at?, FileTree.entries, found] at free
            exact free
          rw [(isLocal_put _).cons_eq found more]
          exact shown_setEntry_of_held found (shownOfEntry_congr
            ((isLocal_put _).isDirectory_eq inner more) (inductionHypothesis freeInside _))
    | _ => rfl

section
variable {name : String} (hidden : excluded name) {back : List String}
include hidden

/-- A change below a directory that is passed over does not show, wherever in the tree that
directory is. -/
theorem IsLocal.shown_hidden {change : FileTree → List String → FileTree} (isLocal : IsLocal change)
    {tree : FileTree} {front : List String} (has : tree.HasDirectory (front ++ [name]))
    (below : back ≠ []) (path : String) :
    shown excluded wanted path (change tree (front ++ name :: back)) =
      shown excluded wanted path tree := by
  obtain ⟨inside, stands⟩ := has
  rw [FileTree.at?_append, Option.bind_eq_some_iff] at stands
  obtain ⟨sub, isSub, stands⟩ := stands
  refine isLocal.shown_append isSub (List.cons_ne_nil _ _) ?_
  obtain ⟨entries, inner, rfl, held, isInner⟩ := exists_of_at?_cons stands
  obtain rfl : inner = .directory inside := Option.some.inj isInner
  rw [isLocal.cons_eq held below]
  refine shown_setEntry_of_held held ?_
  rw [shownOfEntry_of_excluded hidden (isLocal.isDirectory_eq (.directory inside) below),
    shownOfEntry_of_excluded hidden rfl]

/-- The removal of a directory that is passed over, or of one below it, does not show. -/
theorem shown_remove_hidden {tree : FileTree} {front : List String} (wellNamed : tree.WellNamed)
    (has : tree.HasDirectory (front ++ name :: back)) (path : String) :
    shown excluded wanted path (tree.remove (front ++ name :: back)) =
      shown excluded wanted path tree := by
  cases back with
  | cons next back =>
    have above : tree.HasDirectory (front ++ [name]) := has.above ⟨next :: back, by simp⟩
    exact isLocal_remove.shown_hidden hidden above (List.cons_ne_nil _ _) path
  | nil =>
    obtain ⟨inside, stands⟩ := has
    rw [FileTree.at?_append, Option.bind_eq_some_iff] at stands
    obtain ⟨sub, isSub, stands⟩ := stands
    refine isLocal_remove.shown_append isSub (List.cons_ne_nil _ _) ?_
    obtain ⟨entries, inner, rfl, held, isInner⟩ := exists_of_at?_cons stands
    obtain rfl : inner = .directory inside := Option.some.inj isInner
    exact shown_remove_entry (wellNamed.at? isSub) held (shownOfEntry_of_excluded hidden rfl)

end

/-- The removal of a file does not show where files of its name are not wanted. -/
theorem shown_remove_unwanted {tree leaf : FileTree} {names : List String} {name : String}
    (wellNamed : tree.WellNamed) (stands : tree.at? (names ++ [name]) = some leaf)
    (isLeaf : leaf.isDirectory = false) {path : String} (present : path ≠ "")
    (unwanted : ∀ directory content, directory ≠ "" →
      wanted (Path.join directory name, content) = false) :
    shown excluded wanted path (tree.remove (names ++ [name])) =
      shown excluded wanted path tree := by
  rw [FileTree.at?_append, Option.bind_eq_some_iff] at stands
  obtain ⟨sub, isSub, stands⟩ := stands
  refine isLocal_remove.shown_append isSub (List.cons_ne_nil _ _) ?_
  obtain ⟨entries, inner, rfl, held, isInner⟩ := exists_of_at?_cons stands
  obtain rfl : inner = leaf := Option.some.inj isInner
  refine shown_remove_entry (wellNamed.at? isSub) held ?_
  have none := fun content => unwanted _ content (Path.foldl_join_ne_empty present names)
  rw [shownOfEntry, isLeaf]
  cases inner with
  | file content => simp [shown, filesBelow, none]
  | locked failure => simp [shown, filesBelow, none]
  | directory entries => cases isLeaf
  | special => rfl

end

end MigrationGuard.FileTree
