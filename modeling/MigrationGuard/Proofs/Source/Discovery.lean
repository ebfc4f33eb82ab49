/-
This file says which files of a tree are its sources: the regular ones with a
wanted extension that are reached without a step into a directory of an excluded
name. The walk is first described by chains of names, for which neither the path
nor the name of the root counts; the sorted list of paths is the image of a sorted
list of chains. A path below a root has the components of the root and behind them
the names, and paths are compared component by component, so chains that ascend
give paths that ascend. What a walk lists is proved by induction over the tree, an
entry at a time. More excluded names leave fewer sources, since a chain that
avoids them all avoids the fewer ones too. A target keeps the sources whose module
has its text in the name, and it is a failure if none is kept. A file and a
directory may have one name, which is excluded for the directory alone.
-/

import Mathlib.Data.List.Lex
import Mathlib.Data.List.Sort
import Mathlib.Data.String.Basic
import MigrationGuard.Proofs.Files.Pruning
import MigrationGuard.Workflow.Mining

namespace MigrationGuard

/-! ### Paths below a root -/

namespace Path

theorem IsName.components_eq {name : String} (named : IsName name) :
    components name = [.normal name] := by
  have leads : lead name = [] := by
    have segment : segments name = [name] := by
      unfold segments
      rw [Text.cutAtEach_of_none, List.map_singleton, String.ofList_toList]
      intro character member slash
      exact named.whole (eq_of_beq slash ▸ member)
    rw [lead, if_neg named.relative, segment, List.head?_cons,
      if_neg fun same => named.notCurrent (Option.some.inj same)]
  rw [Path.components_eq, leads, named.behind_eq, List.nil_append]

/-- A path below any root, the empty one included, goes on with the names. -/
theorem components_below (root : String) {names : List String}
    (named : ∀ name ∈ names, IsName name) :
    components (names.foldl join root) = components root ++ names.map .normal := by
  by_cases present : root = ""
  · subst present
    cases names with
    | nil => rfl
    | cons name names =>
      obtain ⟨first, others⟩ := List.forall_mem_cons.mp named
      have alone : join "" name = name := by
        rw [join, if_neg first.relative]
        exact String.empty_append
      have blank : components "" = [] := by decide
      rw [List.foldl_cons, alone, components_foldl_join first.present others, first.components_eq,
        blank]
      rfl
  · exact components_foldl_join present named

theorem fileName?_foldl_join (root : String) {names : List String}
    (named : ∀ name ∈ names, IsName name) (present : names ≠ []) :
    fileName? (names.foldl join root) = names.getLast? := by
  obtain ⟨front, last, rfl⟩ := List.eq_nil_or_concat' names |>.resolve_left present
  rw [List.foldl_append, List.getLast?_concat]
  exact (named last (List.mem_append_right front List.mem_cons_self)).fileName?_below _

theorem componentBefore_self (component : PathComponent) :
    componentBefore component component = false := by
  cases component <;> simp [componentBefore]

theorem componentsAtMost_append (front left right : List PathComponent) :
    componentsAtMost (front ++ left) (front ++ right) = componentsAtMost left right := by
  induction front with
  | nil => rfl
  | cons component front inductionHypothesis =>
    rw [List.cons_append, List.cons_append, componentsAtMost, componentBefore_self, if_neg nofun,
      if_neg nofun, inductionHypothesis]

theorem componentsAtMost_names (left right : List String) :
    componentsAtMost (left.map .normal) (right.map .normal) = decide (left ≤ right) := by
  rw [← Bool.decide_congr (not_lt : ¬ right < left ↔ left ≤ right)]
  induction left generalizing right with
  | nil => simp [componentsAtMost]
  | cons name left inductionHypothesis =>
    cases right with
    | nil => simp [componentsAtMost]
    | cons other right =>
      rw [List.map_cons, List.map_cons, componentsAtMost, componentBefore, componentBefore,
        inductionHypothesis]
      simp only [decide_eq_true_eq, List.cons_lt_cons_iff]
      rcases lt_trichotomy name other with before | rfl | behind
      · simp [before, before.not_gt, before.ne']
      · simp
      · simp [behind, behind.not_gt]

/-- The first path stands before the second one, component by component. -/
def Before (left right : String) : Prop :=
  List.Lex (componentBefore · ·) (components left) (components right)

theorem before_below (root : String) {left right : List String}
    (leftNamed : ∀ name ∈ left, IsName name) (rightNamed : ∀ name ∈ right, IsName name)
    (before : left < right) : Before (left.foldl join root) (right.foldl join root) := by
  rw [Before, components_below root leftNamed, components_below root rightNamed]
  refine List.Lex.append_left _ ?_ _
  clear leftNamed rightNamed
  induction before with
  | nil => exact .nil
  | rel before => exact .rel (decide_eq_true before)
  | cons _ inductionHypothesis => exact .cons inductionHypothesis

/-! ### Extensions -/

/-- The name ends in a dot and the extension, behind a stem. -/
theorem splitExtension_eq_iff {name extension : String} :
    (splitExtension name).2 = some extension ↔
      ∃ stem, stem ≠ "" ∧ '.' ∉ extension.toList ∧ name = stem ++ "." ++ extension := by
  have dot : ".".toList = ['.'] := by decide
  constructor
  · intro found
    unfold splitExtension at found
    split at found
    · rename_i stem back cut
      obtain ⟨whole, plain⟩ := Text.eq_of_cutAtLast cut
      split_ifs at found with empty
      obtain rfl := Option.some.inj found
      rw [List.isEmpty_iff] at empty
      refine ⟨String.ofList stem, ?_, ?_, ?_⟩
      · rwa [Ne, ← String.toList_eq_nil_iff, String.toList_ofList]
      · rwa [String.toList_ofList]
      · rw [← String.toList_inj, String.toList_append, String.toList_append, dot,
          String.toList_ofList, String.toList_ofList, whole, List.append_assoc]
        rfl
    · cases found
  · rintro ⟨stem, present, plain, rfl⟩
    have characters : (stem ++ "." ++ extension).toList =
        stem.toList ++ '.' :: extension.toList := by
      rw [String.toList_append, String.toList_append, dot, List.append_assoc]
      rfl
    rw [splitExtension, characters, Text.cutAtLast_append plain]
    have filled : stem.toList.isEmpty = false := by
      rw [List.isEmpty_eq_false_iff]
      exact fun empty => present (String.toList_eq_nil_iff.mp empty)
    dsimp only
    rw [filled, if_neg nofun]
    exact congrArg some String.ofList_toList

end Path

/-! ### Files by names -/

namespace FileTree

/-- What a regular file holds, or why it cannot be read. Other things hold nothing. -/
def content? : FileTree → Option (Except FileFailure (List UInt8))
  | .file content => some (.ok content)
  | .locked failure => some (.error failure)
  | .directory _ => none
  | .special => none

/-- A file by the names that lead to it, and what it holds. -/
abbrev Placed := List String × Except FileFailure (List UInt8)

/-- The names lead to the regular file, through no directory that the test excludes. -/
structure Reaches (excluded : String → Bool) (tree : FileTree) (placed : Placed) : Prop where
  /-- The file stands there. -/
  stands : (tree.at? placed.1).bind content? = some placed.2
  /-- The walk enters each directory on the way. -/
  walked : ∀ directory ∈ placed.1.dropLast, ¬ excluded directory

/-- The list holds what a walk through the tree reaches, by names, whatever path it starts from. -/
structure Lists (excluded : String → Bool) (tree : FileTree) (found : List Placed) : Prop where
  /-- No file is listed twice. -/
  distinct : (found.map Prod.fst).Nodup
  /-- The files that are reached are listed and no others. -/
  mem_iff : ∀ placed, placed ∈ found ↔ tree.Reaches excluded placed
  /-- The paths are those of the names. -/
  filesBelow_eq : ∀ path, tree.filesBelow excluded path =
    found.map fun placed => (placed.1.foldl Path.join path, placed.2)

section
variable {excluded : String → Bool}

theorem lookup_of_mem {entries : List (String × FileTree)} {entry : String × FileTree}
    (distinct : (entries.map Prod.fst).Nodup) (member : entry ∈ entries) :
    entries.lookup entry.1 = some entry.2 := by
  cases found : entries.lookup entry.1 with
  | none =>
    rw [List.lookup_eq_none_iff] at found
    exact absurd (found entry member) (by simp)
  | some tree => rw [eq_of_lookup distinct member found]

/-- The walk looks at the entry of a directory, unless that is a directory of an excluded name. -/
def visible (excluded : String → Bool) (entry : String × FileTree) : Bool :=
  !(entry.2.isDirectory && excluded entry.1)

theorem filesBelow_directory (path : String) (entries : List (String × FileTree)) :
    (FileTree.directory entries).filesBelow excluded path =
      (entries.filter (visible excluded)).flatMap fun entry =>
        entry.2.filesBelow excluded (Path.join path entry.1) := by
  rw [filesBelow]
  induction entries with
  | nil => rfl
  | cons entry entries inductionHypothesis =>
    rw [filesOfEntries, inductionHypothesis, List.filter_cons, visible]
    cases entry.2.isDirectory && excluded entry.1 <;> rfl

theorem reaches_nil_iff {tree : FileTree} {content : Except FileFailure (List UInt8)} :
    tree.Reaches excluded ([], content) ↔ tree.content? = some content :=
  ⟨fun reaches => reaches.stands, fun holds => ⟨holds, nofun⟩⟩

/-- A file further inside is reached from the entry of the first name. -/
theorem reaches_cons_iff {tree : FileTree} {name : String} {names : List String}
    {content : Except FileFailure (List UInt8)} :
    tree.Reaches excluded (name :: names, content) ↔
      ∃ entries next, tree = .directory entries ∧ entries.lookup name = some next ∧
        visible excluded (name, next) ∧ next.Reaches excluded (names, content) := by
  constructor
  · rintro ⟨stands, walked⟩
    obtain ⟨leaf, found, holds⟩ := Option.bind_eq_some_iff.mp stands
    obtain ⟨entries, next, rfl, held, further⟩ := exists_of_at?_cons found
    refine ⟨entries, next, rfl, held, ?_, ⟨Option.bind_eq_some_iff.mpr ⟨leaf, further, holds⟩, ?_⟩⟩
    · cases names with
      | nil =>
        obtain rfl := Option.some.inj further
        cases next with
        | directory inside => cases holds
        | _ => rfl
      | cons other names =>
        have enters := walked name List.mem_cons_self
        simp [visible, enters]
    · intro directory member
      cases names with
      | nil => cases member
      | cons other names => exact walked directory (List.mem_cons_of_mem _ member)
  · rintro ⟨entries, next, rfl, held, shows, stands, walked⟩
    refine ⟨?_, ?_⟩
    · dsimp only
      rw [at?, FileTree.entries, held]
      exact stands
    · cases names with
      | nil => exact List.forall_mem_nil _
      | cons other names =>
        obtain ⟨leaf, further, -⟩ := Option.bind_eq_some_iff.mp stands
        obtain ⟨inside, -, rfl, -, -⟩ := exists_of_at?_cons further
        refine List.forall_mem_cons.mpr ⟨fun enters => ?_, walked⟩
        rw [visible, isDirectory, enters] at shows
        cases shows

theorem reaches_leaf_iff {tree : FileTree} (isLeaf : tree.isDirectory = false) {placed : Placed} :
    tree.Reaches excluded placed ↔ placed.1 = [] ∧ tree.content? = some placed.2 := by
  obtain ⟨names, content⟩ := placed
  cases names with
  | nil => rw [reaches_nil_iff, and_iff_right rfl]
  | cons name names =>
    rw [reaches_cons_iff]
    constructor
    · rintro ⟨entries, next, rfl, -⟩
      cases isLeaf
    · rintro ⟨empty, -⟩
      cases empty

theorem lists_leaf {tree : FileTree} {content : Except FileFailure (List UInt8)}
    (isLeaf : tree.isDirectory = false) (holds : tree.content? = some content)
    (listed : ∀ path, tree.filesBelow excluded path = [(path, content)]) :
    tree.Lists excluded [([], content)] := by
  refine ⟨List.nodup_singleton _, fun placed => ?_, listed⟩
  rw [reaches_leaf_iff isLeaf, holds, List.mem_singleton, Prod.ext_iff, Option.some.injEq,
    @eq_comm _ content]

/-- A directory lists what its visible entries list, each behind the name of the entry. -/
theorem lists_directory {entries : List (String × FileTree)}
    {found : String × FileTree → List Placed} (distinct : (entries.map Prod.fst).Nodup)
    (lists : ∀ entry ∈ entries, entry.2.Lists excluded (found entry)) :
    (FileTree.directory entries).Lists excluded
      ((entries.filter (visible excluded)).flatMap fun entry =>
        (found entry).map fun placed => (entry.1 :: placed.1, placed.2)) := by
  refine ⟨?_, fun placed => ?_, fun path => ?_⟩
  · rw [List.map_flatMap, List.nodup_flatMap]
    refine ⟨fun entry member => ?_, ?_⟩
    · rw [List.map_map]
      have behind := (lists entry (List.mem_filter.mp member).1).distinct.map
        (List.cons_injective (a := entry.1))
      rwa [List.map_map] at behind
    · have apart := (List.pairwise_map.mp distinct).filter (visible excluded)
      refine apart.imp fun {left right} differs => ?_
      refine List.disjoint_left.mpr ?_
      simp only [List.map_map, List.mem_map, Function.comp_apply]
      rintro names ⟨first, -, rfl⟩ ⟨second, -, same⟩
      exact differs (List.cons.inj same).1.symm
  · obtain ⟨names, content⟩ := placed
    simp only [List.mem_flatMap, List.mem_filter, List.mem_map, Prod.mk.injEq]
    cases names with
    | nil =>
      rw [reaches_nil_iff]
      constructor
      · rintro ⟨entry, -, placed, -, same, -⟩
        cases same
      · intro held
        cases held
    | cons name names =>
      rw [reaches_cons_iff]
      constructor
      · rintro ⟨entry, ⟨member, shows⟩, placed, listed, same, rfl⟩
        obtain ⟨rfl, rfl⟩ := List.cons.inj same
        exact ⟨entries, entry.2, rfl, lookup_of_mem distinct member, shows,
          ((lists entry member).mem_iff placed).mp listed⟩
      · rintro ⟨_, next, same, held, shows, reaches⟩
        obtain rfl := FileTree.directory.inj same
        have member := mem_of_lookup held
        exact ⟨(name, next), ⟨member, shows⟩, (names, content),
          ((lists _ member).mem_iff _).mpr reaches, rfl, rfl⟩
  · rw [filesBelow_directory, List.map_flatMap]
    refine List.flatMap_congr fun entry member => ?_
    rw [(lists entry (List.mem_filter.mp member).1).filesBelow_eq, List.map_map]
    rfl

theorem exists_lists {tree : FileTree} (wellNamed : tree.WellNamed) :
    ∃ found, tree.Lists excluded found := by
  induction tree using nestedInduction with
  | file content => exact ⟨_, lists_leaf rfl rfl fun _ => rfl⟩
  | locked failure => exact ⟨_, lists_leaf rfl rfl fun _ => rfl⟩
  | special =>
    refine ⟨[], List.nodup_nil, fun placed => ?_, fun _ => rfl⟩
    rw [reaches_leaf_iff rfl]
    simp [content?]
  | directory entries inductionHypothesis =>
    cases wellNamed with
    | directory distinct named inside =>
      choose! found lists using fun entry member =>
        inductionHypothesis entry member (inside entry member)
      exact ⟨_, lists_directory distinct lists⟩

end

theorem Reaches.isName {excluded : String → Bool} {tree : FileTree} {placed : Placed}
    (reaches : tree.Reaches excluded placed) (wellNamed : tree.WellNamed) :
    ∀ name ∈ placed.1, Path.IsName name := by
  obtain ⟨leaf, found, -⟩ := Option.bind_eq_some_iff.mp reaches.stands
  exact wellNamed.isName_of_at? found

theorem Reaches.ne_nil {excluded : String → Bool} {tree : FileTree} {placed : Placed}
    (reaches : tree.Reaches excluded placed) (isDirectory : tree.isDirectory) : placed.1 ≠ [] := by
  obtain ⟨entries, rfl⟩ := isDirectory_iff.mp isDirectory
  obtain ⟨names, content⟩ := placed
  rintro rfl
  cases reaches.stands

end FileTree

open FileTree

/-! ### Sources by names -/

/-- The name of the module of the file that names lead to. -/
def moduleOfNames (names : List String) : String :=
  if (moduleParts names).isEmpty then rootModuleName else Text.joined "." (moduleParts names)

/-- The source file that names lead to from a root, with the name of its module. -/
def sourceAt (root : String) (placed : Placed) : SourceFile :=
  ⟨placed.1.foldl Path.join root, moduleOfNames placed.1, placed.2⟩

/-- The last of the names has one of the extensions, behind a stem. -/
def endsIn (extensions : List String) (names : List String) : Bool :=
  (names.getLast?.bind fun name => (Path.splitExtension name).2).any extensions.contains

section
variable (root : String) {names : List String} (named : ∀ name ∈ names, Path.IsName name)
include named

theorem moduleName_below : moduleName root (names.foldl Path.join root) = moduleOfNames names := by
  have below : Path.below? (Path.components root) (Path.components root ++ names.map .normal) =
      some (names.map .normal) := by
    rw [Path.below?, if_pos (List.isPrefixOf_iff_prefix.mpr (List.prefix_append _ _)),
      List.drop_left]
  unfold moduleName moduleOfNames
  dsimp only
  rw [Path.components_below root named, below, Option.getD_some, List.filterMap_map]
  simp only [Function.comp_def, List.filterMap_some]

theorem hasExtension_below (extensions : List String) (present : names ≠ []) :
    hasExtension extensions (names.foldl Path.join root) = endsIn extensions names := by
  rw [hasExtension, Path.extension?, Path.fileName?_foldl_join root named present, endsIn]
  cases names.getLast?.bind fun name => (Path.splitExtension name).2 <;> rfl

end

theorem endsIn_iff {extensions names : List String} :
    endsIn extensions names ↔ ∃ name ∈ names.getLast?, ∃ stem, ∃ extension ∈ extensions,
      stem ≠ "" ∧ '.' ∉ extension.toList ∧ name = stem ++ "." ++ extension := by
  rw [endsIn, Option.any_eq_true]
  constructor
  · rintro ⟨extension, found, wanted⟩
    obtain ⟨name, last, split⟩ := Option.bind_eq_some_iff.mp found
    obtain ⟨stem, present, plain, whole⟩ := Path.splitExtension_eq_iff.mp split
    exact ⟨name, last, stem, extension, List.contains_iff_mem.mp wanted, present, plain, whole⟩
  · rintro ⟨name, last, stem, extension, wanted, whole⟩
    refine ⟨extension, Option.bind_eq_some_iff.mpr ⟨name, last, ?_⟩,
      List.contains_iff_mem.mpr wanted⟩
    exact Path.splitExtension_eq_iff.mpr ⟨stem, whole⟩

/-- The file is a source: a regular file whose name has a wanted extension behind a stem, and none
of whose directories below the root has an excluded name. -/
structure FileTree.IsSource (tree : FileTree) (extensions excluded : List String)
    (placed : Placed) : Prop where
  /-- The file stands there. -/
  stands : (tree.at? placed.1).bind content? = some placed.2
  /-- No directory on the way is excluded. -/
  walked : ∀ directory ∈ placed.1.dropLast, directory ∉ excluded
  /-- The extension is wanted. -/
  wanted : ∃ name ∈ placed.1.getLast?, ∃ stem, ∃ extension ∈ extensions,
    stem ≠ "" ∧ '.' ∉ extension.toList ∧ name = stem ++ "." ++ extension

theorem FileTree.isSource_iff {tree : FileTree} {extensions excluded : List String}
    {placed : Placed} : tree.IsSource extensions excluded placed ↔
      tree.Reaches excluded.contains placed ∧ endsIn extensions placed.1 := by
  rw [endsIn_iff]
  constructor
  · rintro ⟨stands, walked, wanted⟩
    exact ⟨⟨stands, fun directory member => by simpa using walked directory member⟩, wanted⟩
  · rintro ⟨⟨stands, walked⟩, wanted⟩
    exact ⟨stands, fun directory member => by simpa using walked directory member, wanted⟩

/-- The list holds the sources of a tree in the order of their names. -/
structure FileTree.ListsSources (tree : FileTree) (extensions excluded : List String)
    (found : List Placed) : Prop where
  /-- Each stands before those behind it, so none is listed twice. -/
  ascending : found.Pairwise fun left right => left.1 < right.1
  /-- The sources are listed and no other files. -/
  mem_iff : ∀ placed, placed ∈ found ↔ tree.IsSource extensions excluded placed

section
variable {tree : FileTree} (wellNamed : tree.WellNamed) (isDirectory : tree.isDirectory)
include wellNamed isDirectory

/-- The list of sources is the same at every root, up to the path of the root. -/
theorem exists_listsSources (extensions excluded : List String) :
    ∃ found, tree.ListsSources extensions excluded found ∧
      ∀ root, discoverSources root tree extensions excluded = found.map (sourceAt root) := by
  obtain ⟨reached, lists⟩ : ∃ found, tree.Lists excluded.contains found := exists_lists wellNamed
  let wanted := reached.filter fun placed => endsIn extensions placed.1
  let byNames : Placed → Placed → Bool := fun left right => decide (left.1 ≤ right.1)
  have named : ∀ placed ∈ wanted, ∀ name ∈ placed.1, Path.IsName name := fun placed member =>
    ((lists.mem_iff placed).mp (List.mem_filter.mp member).1).isName wellNamed
  refine ⟨wanted.mergeSort byNames, ⟨?_, fun placed => ?_⟩, fun root => ?_⟩
  · have sorted : (wanted.mergeSort byNames).Pairwise fun left right => byNames left right := by
      refine List.pairwise_mergeSort (fun first second third => ?_) (fun first second => ?_) _
      · simpa [byNames] using le_trans
      · simpa [byNames] using le_total first.1 second.1
    have distinct : (wanted.mergeSort byNames).Pairwise fun left right => left.1 ≠ right.1 := by
      rw [(List.mergeSort_perm wanted byNames).pairwise_iff Ne.symm]
      exact (List.pairwise_map.mp lists.distinct).filter _
    refine sorted.imp₂ (fun left right atMost differs => ?_) distinct
    exact lt_of_le_of_ne (of_decide_eq_true atMost) differs
  · rw [List.mem_mergeSort, List.mem_filter, lists.mem_iff, isSource_iff]
  · have kept : (tree.filesBelow excluded.contains root).filter
        (fun file => hasExtension extensions file.1) =
          wanted.map fun placed => (placed.1.foldl Path.join root, placed.2) := by
      rw [lists.filesBelow_eq, List.filter_map]
      refine congrArg _ (List.filter_congr fun placed member => ?_)
      have reaches := (lists.mem_iff placed).mp member
      exact hasExtension_below root (reaches.isName wellNamed) extensions
        (reaches.ne_nil isDirectory)
    have sources : (wanted.map fun placed => (placed.1.foldl Path.join root, placed.2)).map
        (fun file => SourceFile.mk file.1 (moduleName root file.1) file.2) =
          wanted.map (sourceAt root) := by
      rw [List.map_map]
      refine List.map_congr_left fun placed member => ?_
      rw [Function.comp_apply, moduleName_below root (named placed member), sourceAt]
    rw [discoverSources, kept, sources, List.map_mergeSort fun left isLeft right isRight => ?_]
    simp only [sourceAt, byNames, Path.atMost, Path.components_below root (named _ isLeft),
      Path.components_below root (named _ isRight), Path.componentsAtMost_append,
      Path.componentsAtMost_names]

end

section
variable {tree : FileTree}

/-- The paths of the sources stand in the order of their components, whatever the root is. -/
theorem FileTree.ListsSources.before {extensions excluded : List String} {found : List Placed}
    (lists : tree.ListsSources extensions excluded found) (wellNamed : tree.WellNamed)
    (root : String) :
    (found.map (sourceAt root)).Pairwise fun left right => Path.Before left.path right.path := by
  have named : ∀ placed ∈ found, ∀ name ∈ placed.1, Path.IsName name := fun placed member =>
    (isSource_iff.mp ((lists.mem_iff placed).mp member)).1.isName wellNamed
  rw [List.pairwise_map]
  exact lists.ascending.imp_of_mem fun isLeft isRight before =>
    Path.before_below root (named _ isLeft) (named _ isRight) before

/-- More excluded names leave fewer sources, in the same order. -/
theorem FileTree.ListsSources.sublist {extensions excluded more : List String}
    {found fewer : List Placed} (lists : tree.ListsSources extensions excluded found)
    (listsFewer : tree.ListsSources extensions more fewer) (larger : excluded ⊆ more) :
    fewer.Sublist found := by
  have within : fewer ⊆ found := by
    intro placed member
    obtain ⟨stands, walked, wanted⟩ := (listsFewer.mem_iff placed).mp member
    exact (lists.mem_iff placed).mpr
      ⟨stands, fun directory among known => walked directory among (larger known), wanted⟩
  have nodup : fewer.Nodup := by
    refine listsFewer.ascending.imp ?_
    rintro left _ before rfl
    exact lt_irrefl _ before
  have : Std.Antisymm fun left right : Placed => left.1 < right.1 :=
    ⟨fun left right before behind => absurd behind before.not_gt⟩
  exact List.sublist_of_subperm_of_pairwise (List.subperm_of_subset nodup within)
    listsFewer.ascending lists.ascending

end

/-! ### Targets -/

/-- The target keeps the module: it is blank, or the name of the module contains its text. -/
def TargetKeeps (target : Option String) (module : String) : Prop :=
  ∀ text ∈ target, Text.trimmed text ≠ "" → (Text.trimmed text).toList <:+: module.toList

theorem keepsModule_iff {target : Option String} {module : String} :
    keepsModule target module ↔ TargetKeeps target module := by
  unfold keepsModule targetText? TargetKeeps
  cases target with
  | none => simp
  | some text =>
    by_cases blank : Text.trimmed text = ""
    · simp [blank, Option.filter]
    · simp [blank, Option.filter, Text.contains, Text.occursIn_iff]

/-- The sources that a target keeps, or the failure that there is none at all. -/
theorem Miner.sources_directory (miner : Miner) {tree : FileTree} (isDirectory : tree.isDirectory)
    {all : List SourceFile}
    (listed : discoverSources miner.root tree miner.settings.extensions miner.excluded = all)
    (target : Option String) :
    (miner.sources (.ok tree) target = .error (.noSourceFiles miner.root) ↔ all = []) ∧
      (all ≠ [] → ∃ kept, miner.sources (.ok tree) target = .ok kept ∧ kept.Sublist all ∧
        ∀ file, file ∈ kept ↔ file ∈ all ∧ TargetKeeps target file.module) := by
  have opened : miner.sources (.ok tree) target =
      if all.isEmpty then .error (.noSourceFiles miner.root)
      else .ok (filterSources target all) := by
    rw [Miner.sources, isDirectory, ← listed]
    rfl
  rw [opened]
  constructor
  · rw [← List.isEmpty_iff]
    cases all.isEmpty <;> simp
  · intro present
    rw [if_neg (by simpa using present)]
    refine ⟨_, rfl, List.filter_sublist, fun file => ?_⟩
    rw [filterSources, List.mem_filter, keepsModule_iff]

/-! ### Sources of a tree -/

/-- The sources of a directory are the regular files with a wanted extension which no excluded
directory hides, each once, in the order of the components of their paths. By their names they are
the same at every root, whatever the root is called, and a longer list of excluded names leaves some
out and adds none. A target keeps those whose modules contain its trimmed text, and fails only where
there is no source at all. -/
theorem sources_of_tree {tree : FileTree} (wellNamed : tree.WellNamed)
    (isDirectory : tree.isDirectory) (extensions excluded : List String) :
    ∃ found : List Placed,
      (found.Pairwise fun left right => left.1 < right.1) ∧
      (∀ placed, placed ∈ found ↔ tree.IsSource extensions excluded placed) ∧
      (∀ root, discoverSources root tree extensions excluded = found.map (sourceAt root) ∧
        (discoverSources root tree extensions excluded).Pairwise fun left right =>
          Path.Before left.path right.path) ∧
      (∀ more, excluded ⊆ more → ∀ root, (discoverSources root tree extensions more).Sublist
        (discoverSources root tree extensions excluded)) ∧
      ∀ root settings target, settings.extensions = extensions →
        ((Miner.mk root settings excluded).sources (.ok tree) target =
          .error (.noSourceFiles root) ↔ found = []) ∧
        (found ≠ [] → ∃ kept,
          (Miner.mk root settings excluded).sources (.ok tree) target = .ok kept ∧
          kept.Sublist (found.map (sourceAt root)) ∧
          ∀ file, file ∈ kept ↔ file ∈ found.map (sourceAt root) ∧
            TargetKeeps target file.module) := by
  obtain ⟨found, lists, listed⟩ := exists_listsSources wellNamed isDirectory extensions excluded
  refine ⟨found, lists.ascending, lists.mem_iff, fun root => ⟨listed root, ?_⟩, ?_, ?_⟩
  · rw [listed root]
    exact lists.before wellNamed root
  · intro more larger root
    obtain ⟨fewer, listsFewer, listedFewer⟩ :=
      exists_listsSources wellNamed isDirectory extensions more
    rw [listed root, listedFewer root]
    exact (lists.sublist listsFewer larger).map _
  · rintro root settings target rfl
    have outcome := (Miner.mk root settings excluded).sources_directory isDirectory (listed root)
      target
    simpa only [ne_eq, List.map_eq_nil_iff] using outcome

/-- A tree in which a file and a directory have the same excluded name. -/
def likeNamedTree : FileTree :=
  .directory [("odd.py", .file []), ("link.py", .special),
    ("a", .directory [("x.py", .file []), ("odd.py", .directory [("y.py", .file [])])])]

theorem wellNamed_likeNamedTree : likeNamedTree.WellNamed := by
  have hidden : (FileTree.directory [("y.py", .file [])]).WellNamed :=
    .directory (by decide) (by decide) (List.forall_mem_singleton.mpr (.file []))
  have inner : (FileTree.directory [("x.py", .file []),
      ("odd.py", .directory [("y.py", .file [])])]).WellNamed :=
    .directory (by decide) (by decide)
      (List.forall_mem_cons.mpr ⟨.file [], List.forall_mem_singleton.mpr hidden⟩)
  exact .directory (by decide) (by decide) (List.forall_mem_cons.mpr ⟨.file [],
    List.forall_mem_cons.mpr ⟨.special, List.forall_mem_singleton.mpr inner⟩⟩)

/-- The file with the excluded name is a source, the file in the directory of that name is none. -/
theorem sources_of_likeNamedTree : likeNamedTree.WellNamed ∧ likeNamedTree.isDirectory ∧
    ∃ found : List Placed,
      (∀ root, discoverSources root likeNamedTree ["py"] ["odd.py", "venv"] =
        found.map (sourceAt root)) ∧
      (["odd.py"], .ok []) ∈ found ∧ (["a", "odd.py", "y.py"], .ok []) ∉ found := by
  have isDirectory : likeNamedTree.isDirectory := rfl
  obtain ⟨found, -, mem_iff, listed, -⟩ :=
    sources_of_tree wellNamed_likeNamedTree isDirectory ["py"] ["odd.py", "venv"]
  refine ⟨wellNamed_likeNamedTree, isDirectory, found, fun root => (listed root).1, ?_, ?_⟩
  · rw [mem_iff]
    exact ⟨rfl, nofun, "odd.py", rfl, "odd", "py", by decide, by decide, by decide, by decide⟩
  · rw [mem_iff]
    exact fun isSource => isSource.walked "odd.py" (by decide) (by decide)

end MigrationGuard
