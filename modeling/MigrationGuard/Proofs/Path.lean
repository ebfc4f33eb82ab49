/-
This file says what the components of a joined path are: those of the directory
and behind them those of the name. A path that takes no name back leads on from
where it starts, name by name. This is what tells that a file that was written
below a directory lies there, and that the tests of a session keep apart from its
sources. The texts of paths are cut at their slashes, and all difficulties lie in
empty pieces and single dots, which are dropped behind the front of a path but not
at it; the lemmas about pieces deal with them, and later files speak of components
only.
-/

import Mathlib.Data.Set.List
import MigrationGuard.Path
import MigrationGuard.Proofs.Text.Search

namespace MigrationGuard

namespace Path

/-! ### Parts of a path -/

/-- What a path begins with: the root, a leading dot, or nothing. Everything behind it depends on
its own piece alone. -/
def lead (path : String) : List PathComponent :=
  if isAbsolute path then [.root]
  else if (segments path).head? = some "." then [.current]
  else []

/-- The components of a path that stands behind another one, where neither a root nor a leading dot
counts. -/
def behind (path : String) : List PathComponent :=
  (segments path).filterMap component?

theorem components_eq (path : String) : components path = lead path ++ behind path := by
  unfold components lead behind
  dsimp only
  split_ifs <;> simp only [List.singleton_append, List.nil_append]

theorem segments_ne_nil (path : String) : segments path ≠ [] := by
  unfold segments
  rw [Ne, List.map_eq_nil_iff]
  exact Text.cutAtEach_ne_nil _

theorem segments_of_append {path : String} {front back : List Char}
    (split : path.toList = front ++ '/' :: back) :
    segments path = segments (String.ofList front) ++ segments (String.ofList back) := by
  unfold segments
  rw [split, Text.cutAtEach_append (by decide), List.map_append, String.toList_ofList,
    String.toList_ofList]

theorem isAbsolute_iff {path : String} : isAbsolute path ↔ path.toList.head? = some '/' := by
  rw [isAbsolute, Text.beginsWith]
  have slash : "/".toList = ['/'] := by decide
  rw [slash]
  cases path.toList with
  | nil => decide
  | cons first others =>
    rw [List.isPrefixOf_cons_cons, List.isPrefixOf_nil_left, Bool.and_true, beq_iff_eq,
      List.head?_cons, Option.some.injEq, eq_comm]

theorem component?_ne_root (segment : String) : component? segment ≠ some .root := by
  unfold component?
  split_ifs <;> exact nofun

theorem component?_ne_current (segment : String) : component? segment ≠ some .current := by
  unfold component?
  split_ifs <;> exact nofun

theorem component?_eq {segment : String} (present : segment ≠ "") (notCurrent : segment ≠ ".") :
    component? segment = some (if segment = ".." then .parent else .normal segment) := by
  unfold component?
  rw [decide_eq_false present, decide_eq_false notCurrent, if_neg (by decide)]
  split <;> rfl

/-- Components that take no name back are names, as roots and dots do not stand behind anything. -/
theorem exists_names_of_behind {path : String} (goesOn : .parent ∉ behind path) :
    ∃ names : List String, behind path = names.map .normal := by
  have each : ∀ component ∈ behind path, component ∈ Set.range PathComponent.normal := by
    intro component member
    obtain ⟨segment, -, made⟩ := List.mem_filterMap.mp member
    cases component with
    | root => exact absurd made (component?_ne_root segment)
    | current => exact absurd made (component?_ne_current segment)
    | parent => exact absurd member goesOn
    | normal name => exact ⟨name, rfl⟩
  have named : behind path ∈ Set.range (List.map PathComponent.normal) := by
    rw [Set.range_list_map]
    exact each
  obtain ⟨names, named⟩ := named
  exact ⟨names, named.symm⟩

/-- The first piece of a path that does not begin with a slash begins as the path. -/
theorem segments_cons {path : String} {first : Char} {others : List Char}
    (characters : path.toList = first :: others) (noSlash : first ≠ '/') :
    ∃ piece pieces, segments path = String.ofList (first :: piece) :: pieces := by
  obtain ⟨piece, pieces, cut⟩ := List.exists_cons_of_ne_nil
    (Text.cutAtEach_ne_nil others : Text.cutAtEach (· == '/') others ≠ [])
  refine ⟨piece, pieces.map String.ofList, ?_⟩
  rw [segments, characters, Text.cutAtEach, if_neg (by simpa using noSlash), cut]
  rfl

theorem behind_ne_nil {path : String} {first : Char} {others : List Char}
    (characters : path.toList = first :: others) (noSlash : first ≠ '/') (noDot : first ≠ '.') :
    behind path ≠ [] := by
  obtain ⟨piece, pieces, cut⟩ := segments_cons characters noSlash
  have differs : ∀ text : String, text.toList.head? ≠ some first →
      String.ofList (first :: piece) ≠ text := by
    rintro text other rfl
    rw [String.toList_ofList] at other
    exact other rfl
  rw [behind, cut, List.filterMap_cons_some (component?_eq (differs "" nofun)
    (differs "." fun same => noDot (Option.some.inj same).symm))]
  exact List.cons_ne_nil _ _

/-! ### Joined paths -/

section
variable {directory name : String} (present : directory ≠ "") (relative : ¬ isAbsolute name)
include present relative

/-- What a joined path is cut into: what the directory is cut into without the empty piece behind
its last slash, and what the name is cut into. -/
theorem segments_join : ∃ front, segments (join directory name) = segments front ++ segments name ∧
    (segments directory = segments front ∨ segments directory = segments front ++ [""]) := by
  rw [join, if_neg relative]
  by_cases closed : Text.endsWith directory "/"
  · rw [if_pos (by rw [closed, Bool.or_true])]
    obtain ⟨front, reversed⟩ : ∃ front, directory.toList.reverse = '/' :: front := by
      rw [Text.endsWith] at closed
      obtain ⟨front, whole⟩ := List.isPrefixOf_iff_prefix.mp closed
      exact ⟨front, whole.symm⟩
    have whole : directory.toList = front.reverse ++ '/' :: [] := by
      rw [← List.reverse_reverse directory.toList, reversed, List.reverse_cons]
    refine ⟨String.ofList front.reverse, ?_, .inr (segments_of_append whole)⟩
    have joined : (directory ++ name).toList = front.reverse ++ '/' :: name.toList := by
      rw [String.toList_append, whole, List.append_assoc]
      rfl
    rw [segments_of_append joined, String.ofList_toList]
  · rw [if_neg (by simpa [present] using closed)]
    refine ⟨directory, ?_, .inl rfl⟩
    have joined : (directory ++ "/" ++ name).toList = directory.toList ++ '/' :: name.toList := by
      simp [String.toList_append]
    rw [segments_of_append joined, String.ofList_toList, String.ofList_toList]

theorem isAbsolute_join : isAbsolute (join directory name) = isAbsolute directory := by
  obtain ⟨first, others, characters⟩ : ∃ first others, directory.toList = first :: others := by
    refine List.exists_cons_of_ne_nil fun empty => present ?_
    exact String.toList_eq_nil_iff.mp empty
  rw [Bool.eq_iff_iff, isAbsolute_iff, isAbsolute_iff, join, if_neg relative]
  split <;> simp [String.toList_append, characters]

theorem lead_join : lead (join directory name) = lead directory := by
  have head : (segments (join directory name)).head? = (segments directory).head? := by
    obtain ⟨front, joined, same | same⟩ := segments_join present relative <;>
      obtain ⟨piece, pieces, cut⟩ := List.exists_cons_of_ne_nil (segments_ne_nil front) <;>
      rw [joined, same, cut] <;> rfl
  rw [lead, lead, isAbsolute_join present relative, head]

theorem behind_join : behind (join directory name) = behind directory ++ behind name := by
  obtain ⟨front, joined, same | same⟩ := segments_join present relative
  · rw [behind, joined, List.filterMap_append, ← same]
    rfl
  · have blank : [""].filterMap component? = [] := by decide
    rw [behind, joined, List.filterMap_append, behind, same, List.filterMap_append, blank,
      List.append_nil]
    rfl

omit relative in
theorem join_ne_empty (name : String) : join directory name ≠ "" := by
  unfold join
  split_ifs with absolute
  · rintro rfl
    exact nomatch absolute
  · exact fun empty => present (String.append_eq_empty_iff.mp empty).1
  · intro empty
    exact present (String.append_eq_empty_iff.mp (String.append_eq_empty_iff.mp empty).1).1

theorem components_join :
    components (join directory name) = components directory ++ behind name := by
  rw [components_eq, components_eq, lead_join present relative, behind_join present relative,
    List.append_assoc]

end

/-! ### Names -/

/-- The text is one component of a path and leads on. Such names make up the paths whose components
can be told without cutting. -/
structure IsName (name : String) : Prop where
  /-- It is not empty. -/
  present : name ≠ ""
  /-- It does not stand for the directory itself. -/
  notCurrent : name ≠ "."
  /-- It does not take a name back. -/
  notParent : name ≠ ".."
  /-- It is not cut. -/
  whole : '/' ∉ name.toList

instance (name : String) : Decidable (IsName name) :=
  decidable_of_iff (name ≠ "" ∧ name ≠ "." ∧ name ≠ ".." ∧ '/' ∉ name.toList)
    ⟨fun ⟨present, notCurrent, notParent, whole⟩ => ⟨present, notCurrent, notParent, whole⟩,
      fun named => ⟨named.present, named.notCurrent, named.notParent, named.whole⟩⟩

namespace IsName

variable {name : String} (named : IsName name)
include named

theorem relative : ¬ isAbsolute name := by
  rw [isAbsolute_iff]
  exact fun slash => named.whole (List.mem_of_mem_head? slash)

theorem behind_eq : behind name = [.normal name] := by
  have segment : segments name = [name] := by
    unfold segments
    rw [Text.cutAtEach_of_none, List.map_singleton, String.ofList_toList]
    intro character member slash
    exact named.whole (eq_of_beq slash ▸ member)
  have component : component? name = some (.normal name) := by
    rw [component?_eq named.present named.notCurrent, if_neg named.notParent]
  rw [behind, segment, List.filterMap_cons_some component, List.filterMap_nil]

theorem fileName?_eq : fileName? name = some name := by
  rw [fileName?, components_eq, named.behind_eq, List.getLast?_concat]

theorem join_ne_empty (directory : String) : join directory name ≠ "" := by
  rw [join, if_neg named.relative]
  split <;> exact fun empty => named.present (String.append_eq_empty_iff.mp empty).2

theorem components_join {directory : String} (present : directory ≠ "") :
    components (join directory name) = components directory ++ [.normal name] := by
  rw [Path.components_join present named.relative, named.behind_eq]

theorem fileName?_join {directory : String} (present : directory ≠ "") :
    fileName? (join directory name) = some name := by
  rw [fileName?, named.components_join present, List.getLast?_concat]

theorem fileName?_below (directory : String) : fileName? (join directory name) = some name := by
  by_cases present : directory = ""
  · rw [present, join, if_neg named.relative]
    exact named.fileName?_eq
  · exact named.fileName?_join present

end IsName

theorem isName_of_mem_behind {path name : String} (member : .normal name ∈ behind path) :
    IsName name := by
  obtain ⟨segment, cut, made⟩ := List.mem_filterMap.mp member
  unfold component? at made
  split_ifs at made with none parent
  · exact nomatch made
  obtain rfl := PathComponent.normal.inj (Option.some.inj made)
  rw [Bool.or_eq_true, decide_eq_true_eq, decide_eq_true_eq, not_or] at none
  refine ⟨none.1, none.2, parent, fun slash => ?_⟩
  obtain ⟨piece, among, rfl⟩ := List.mem_map.mp cut
  rw [String.toList_ofList] at slash
  exact Text.not_separates_of_mem_cutAtEach among slash rfl

theorem isName_of_fileName? {path name : String} (named : fileName? path = some name) :
    IsName name := by
  refine isName_of_mem_behind (?_ : .normal name ∈ behind path)
  unfold fileName? at named
  split at named
  · rename_i last isLast
    obtain rfl := Option.some.inj named
    have member := List.mem_of_getLast? isLast
    rw [components_eq, List.mem_append] at member
    refine member.resolve_left fun leads => ?_
    unfold lead at leads
    split_ifs at leads
    · exact nomatch List.mem_singleton.mp leads
    · exact nomatch List.mem_singleton.mp leads
    · exact nomatch leads
  · exact nomatch named

/-- A path below another one, one name after the other, has the components of the first and then
these names. -/
theorem components_foldl_join {root : String} (present : root ≠ "") {names : List String}
    (named : ∀ name ∈ names, IsName name) :
    components (names.foldl join root) = components root ++ names.map .normal := by
  induction names generalizing root with
  | nil => exact (List.append_nil _).symm
  | cons name names inductionHypothesis =>
    have first := named name List.mem_cons_self
    rw [List.foldl_cons, inductionHypothesis (first.join_ne_empty root) fun other member =>
      named other (List.mem_cons_of_mem _ member), first.components_join present,
      List.append_assoc]
    rfl

theorem foldl_join_ne_empty {root : String} (present : root ≠ "") (names : List String) :
    names.foldl join root ≠ "" := by
  induction names generalizing root with
  | nil => exact present
  | cons name names inductionHypothesis => exact inductionHypothesis (join_ne_empty present name)

/-- The path lies below a directory and is not the directory itself, told by components and not by
texts. -/
def LiesBelow (directory path : String) : Prop :=
  ∃ rest, rest ≠ [] ∧ components path = components directory ++ rest

end Path

end MigrationGuard
