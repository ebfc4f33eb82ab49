/-
This file says which settings are in their normal form, and for which ones a
second pass of the rules finds more to do. Points and slashes are stripped behind
the trimming, and a blank next to them comes to the end of the text only then.
Where no blank stands there the rules are idempotent, and settings that are
written and loaded again come back unchanged; this condition is exact. All other
fields are trimmed once and for good or replaced by usual ones that need no
trimming, so a second pass changes extensions and the address of the dashboard at
most. Loading gives the normal form of what the file says, with the threshold that
an operator gives put over it, and the main theorem follows settings from a disk
through their normal form and their file back to settings. At the end an extension
with a blank behind its point is taken through two passes.
-/

import Mathlib.Data.List.TakeWhile
import MigrationGuard.Proofs.Files.Disk
import MigrationGuard.Proofs.Text.Search
import MigrationGuard.Proofs.Text.Utf8
import MigrationGuard.Settings.File

namespace MigrationGuard

namespace Text

/-! ### Stripped fronts -/

/-- No character that the test holds of stands at the front, so stripping finds nothing to do. -/
def StartsFree (strips : Char → Bool) (text : List Char) : Prop :=
  ∀ first ∈ text.head?, ¬ strips first

section
variable {strips blanks : Char → Bool} {text : List Char}

theorem startsFree_cons_iff {first : Char} :
    StartsFree strips (first :: text) ↔ strips first = false := by
  simp [StartsFree]

instance : (text : List Char) → Decidable (StartsFree strips text)
  | [] => .isTrue fun _ none => nomatch none
  | _ :: _ => decidable_of_iff _ startsFree_cons_iff.symm

theorem startsFree_dropWhile (strips : Char → Bool) (text : List Char) :
    StartsFree strips (text.dropWhile strips) :=
  (cut_spec strips text).2.2

theorem dropWhile_of_startsFree (free : StartsFree strips text) : text.dropWhile strips = text := by
  cases text with
  | nil => rfl
  | cons first rest => rw [List.dropWhile_cons, if_neg (free first rfl)]

/-- What is stripped off the front leaves the back as it is, so both ends may be looked at apart. -/
theorem StartsFree.dropWhile_reverse (free : StartsFree strips text.reverse) :
    StartsFree strips (text.dropWhile blanks).reverse := by
  obtain ⟨front, whole⟩ := List.dropWhile_suffix (l := text) blanks
  rw [← whole, List.reverse_append] at free
  intro last isLast
  refine free last ?_
  rw [List.head?_append, Option.mem_def.mp isLast]
  rfl

/-- Something comes to the front that stood behind what was stripped off. -/
theorem not_startsFree_dropWhile_iff (apart : ∀ character, blanks character → ¬ strips character) :
    ¬ StartsFree blanks (text.dropWhile strips) ↔ ∃ front blank back,
      text = front ++ blank :: back ∧ (∀ character ∈ front, strips character) ∧ blanks blank := by
  constructor
  · intro held
    cases rest : text.dropWhile strips with
    | nil =>
      rw [rest] at held
      exact absurd nofun held
    | cons blank back =>
      rw [rest, startsFree_cons_iff, Bool.not_eq_false] at held
      refine ⟨text.takeWhile strips, blank, back, ?_, fun _ => List.mem_takeWhile_imp, held⟩
      rw [← rest, List.takeWhile_append_dropWhile]
  · rintro ⟨front, blank, back, rfl, stripped, isBlank⟩
    rw [List.dropWhile_append_of_pos stripped, List.dropWhile_cons, if_neg (apart blank isBlank),
      startsFree_cons_iff, isBlank]
    exact nofun

end

/-! ### Trimmed texts -/

/-- No blank stands at either end, so trimming leaves the text as it is. -/
structure IsTrimmed (text : List Char) : Prop where
  /-- None stands at the front. -/
  front : StartsFree isBlank text
  /-- None stands at the back. -/
  back : StartsFree isBlank text.reverse

theorem IsTrimmed.reverse {text : List Char} (trimmed : IsTrimmed text) : IsTrimmed text.reverse :=
  ⟨trimmed.back, (List.reverse_reverse text).symm ▸ trimmed.front⟩

theorem isTrimmed_trim (text : List Char) : IsTrimmed (trim text) where
  front := by
    refine StartsFree.dropWhile_reverse ?_
    rw [List.reverse_reverse]
    exact startsFree_dropWhile isBlank text
  back := by
    rw [trim, trimEnd, List.reverse_reverse]
    exact startsFree_dropWhile isBlank _

theorem trim_eq_self_iff {text : List Char} : trim text = text ↔ IsTrimmed text := by
  constructor
  · intro same
    exact same ▸ isTrimmed_trim text
  · rintro ⟨front, back⟩
    rw [trim, trimStart, dropWhile_of_startsFree front, trimEnd, dropWhile_of_startsFree back,
      List.reverse_reverse]

theorem trimmed_trimmed (text : String) : trimmed (trimmed text) = trimmed text := by
  rw [trimmed, trimmed, String.toList_ofList, trim_eq_self_iff.mpr (isTrimmed_trim _)]

/-! ### Small letters -/

/-- A letter in a capital form gets its small form, and any other character stays. -/
theorem toLower_cases (character : Char) : character.toLower = character ∨
    ∃ place < 26, character = .ofNat (65 + place) ∧ character.toLower = .ofNat (97 + place) := by
  have letters : ∀ place < 26, (Char.ofNat (65 + place)).toLower = .ofNat (97 + place) := by decide
  by_cases capital : 65 ≤ character.toNat ∧ character.toNat ≤ 90
  · have same : character = .ofNat (65 + (character.toNat - 65)) := by
      rw [Nat.add_sub_cancel' capital.1, Char.ofNat_toNat]
    have small : character.toNat - 65 < 26 := by omega
    exact .inr ⟨character.toNat - 65, small, same,
      (congrArg Char.toLower same).trans (letters _ small)⟩
  · refine .inl (dif_neg ?_)
    simpa [UInt32.le_iff_toNat_le] using capital

theorem isBlank_toLower (character : Char) : isBlank character.toLower = isBlank character := by
  have letters : ∀ place < 26,
      isBlank (.ofNat (97 + place)) = isBlank (.ofNat (65 + place)) := by decide
  obtain same | ⟨place, small, same, lowered⟩ := toLower_cases character
  · rw [same]
  · rw [lowered, letters place small, same]

theorem toLower_toLower (character : Char) : character.toLower.toLower = character.toLower := by
  have letters : ∀ place < 26,
      (Char.ofNat (97 + place)).toLower = .ofNat (97 + place) := by decide
  obtain same | ⟨place, small, -, lowered⟩ := toLower_cases character
  · rw [same, same]
  · rw [lowered, letters place small]

theorem toLower_eq_point (character : Char) :
    (character.toLower == '.') = (character == '.') := by
  have letters : ∀ place < 26,
      (Char.ofNat (97 + place) == '.') = (Char.ofNat (65 + place) == '.') := by decide
  obtain same | ⟨place, small, same, lowered⟩ := toLower_cases character
  · rw [same]
  · rw [lowered, letters place small, same]

theorem startsFree_map_toLower_iff {strips : Char → Bool}
    (keeps : ∀ character : Char, strips character.toLower = strips character) {text : List Char} :
    StartsFree strips (text.map Char.toLower) ↔ StartsFree strips text := by
  cases text with
  | nil => exact Iff.rfl
  | cons first rest => rw [List.map_cons, startsFree_cons_iff, startsFree_cons_iff, keeps]

end Text

open Text

/-! ### Extensions -/

/-- A blank stands behind the points that the trimmed extension begins with. It is at the front when
they are gone. -/
def BlankBehindPoints (extension : String) : Prop :=
  ∃ points blank rest, trim extension.toList = points ++ blank :: rest ∧
    (∀ character ∈ points, character = '.') ∧ isBlank blank

theorem toList_normalExtension (extension : String) : (normalExtension extension).toList =
    ((trim extension.toList).dropWhile (· == '.')).map Char.toLower := by
  rw [normalExtension, lowered, String.toList_ofList, String.toList_ofList]

theorem blankBehindPoints_iff {extension : String} : BlankBehindPoints extension ↔
    ¬ StartsFree isBlank (normalExtension extension).toList := by
  have apart : ∀ character, isBlank character → ¬ (character == '.') := by
    rintro character blank point
    rw [eq_of_beq point] at blank
    exact absurd blank (by decide)
  rw [toList_normalExtension, startsFree_map_toLower_iff isBlank_toLower,
    not_startsFree_dropWhile_iff apart]
  simp only [beq_iff_eq]
  rfl

/-- What stays of an extension: no point at its front, no blank at its back, no capital letter. -/
structure IsStripped (extension : String) : Prop where
  /-- No point stands at the front. -/
  front : StartsFree (· == '.') extension.toList
  /-- No blank stands at the back. -/
  back : StartsFree isBlank extension.toList.reverse
  /-- All letters are small. -/
  small : lowered extension = extension

theorem isStripped_normalExtension (extension : String) :
    IsStripped (normalExtension extension) where
  front := by
    rw [toList_normalExtension, startsFree_map_toLower_iff toLower_eq_point]
    exact startsFree_dropWhile _ _
  back := by
    rw [toList_normalExtension, ← List.map_reverse, startsFree_map_toLower_iff isBlank_toLower]
    exact (isTrimmed_trim _).back.dropWhile_reverse
  small := by
    rw [lowered, toList_normalExtension, List.map_map, normalExtension, lowered,
      String.toList_ofList]
    refine congrArg _ (List.map_congr_left fun character _ => ?_)
    exact toLower_toLower character

/-- The extensions that the rules leave as they are: stripped ones that begin with no blank. -/
theorem normalExtension_eq_self_iff {extension : String} : normalExtension extension = extension ↔
    IsStripped extension ∧ StartsFree isBlank extension.toList := by
  constructor
  · intro same
    refine ⟨same ▸ isStripped_normalExtension extension, ?_⟩
    have long : extension.toList.length ≤ (trim extension.toList).length := by
      have length := congrArg (fun text => text.toList.length) same
      rw [← length, toList_normalExtension, List.length_map]
      exact List.length_dropWhile_le _ _
    exact (trim_eq_self_iff.mp ((trim_infix_self _).sublist.eq_of_length_le long)).front
  · rintro ⟨stripped, free⟩
    rw [normalExtension, trim_eq_self_iff.mpr ⟨free, stripped.back⟩,
      dropWhile_of_startsFree stripped.front, String.ofList_toList, stripped.small]

theorem normalExtension_twice_iff {extension : String} :
    normalExtension (normalExtension extension) = normalExtension extension ↔
      ¬ BlankBehindPoints extension := by
  rw [normalExtension_eq_self_iff, and_iff_right (isStripped_normalExtension extension),
    blankBehindPoints_iff, not_not]

theorem normalExtensions_eq_self_iff {extensions : List String} (present : extensions ≠ [])
    (filled : "" ∉ extensions) : normalExtensions extensions = extensions ↔
      ∀ extension ∈ extensions, normalExtension extension = extension := by
  unfold normalExtensions
  dsimp only
  constructor
  · intro same
    split_ifs at same with none
    · rw [← same]
      decide
    · have all := List.filter_eq_self.mp
        (List.filter_sublist.eq_of_length ((congrArg List.length same).trans
          (List.length_map normalExtension).symm))
      rw [List.filter_eq_self.mpr all] at same
      exact List.map_eq_map_iff.mp (same.trans (List.map_id _).symm)
  · intro each
    have map : extensions.map normalExtension = extensions :=
      (List.map_congr_left each).trans (List.map_id _)
    have filter : extensions.filter (· != "") = extensions :=
      List.filter_eq_self.mpr fun extension member =>
        bne_iff_ne.mpr (ne_of_mem_of_not_mem member filled)
    rw [map, filter, if_neg (by simpa using present)]

/-- Each extension that is left is the normal form of one that was given, or the usual one. -/
theorem mem_normalExtensions {extensions : List String} {extension : String}
    (member : extension ∈ normalExtensions extensions) :
    extension ≠ "" ∧
      (extension = "py" ∨ ∃ given ∈ extensions, normalExtension given = extension) := by
  unfold normalExtensions at member
  dsimp only at member
  split_ifs at member
  · obtain rfl := List.mem_singleton.mp member
    exact ⟨by decide, .inl rfl⟩
  · obtain ⟨among, filled⟩ := List.mem_filter.mp member
    exact ⟨bne_iff_ne.mp filled, .inr (List.mem_map.mp among)⟩

theorem normalExtension_mem {extensions : List String} {given : String}
    (member : given ∈ extensions) (filled : normalExtension given ≠ "") :
    normalExtension given ∈ normalExtensions extensions := by
  have kept : normalExtension given ∈ (extensions.map normalExtension).filter (· != "") :=
    List.mem_filter.mpr ⟨List.mem_map_of_mem member, bne_iff_ne.mpr filled⟩
  unfold normalExtensions
  dsimp only
  rwa [if_neg]
  simpa only [List.isEmpty_iff] using List.ne_nil_of_mem kept

theorem normalExtensions_ne_nil (extensions : List String) : normalExtensions extensions ≠ [] := by
  unfold normalExtensions
  dsimp only
  split_ifs with none
  · decide
  · simpa only [List.isEmpty_iff] using none

theorem normalExtensions_twice_iff {extensions : List String} :
    normalExtensions (normalExtensions extensions) = normalExtensions extensions ↔
      ∀ given ∈ extensions, ¬ BlankBehindPoints given := by
  rw [normalExtensions_eq_self_iff (normalExtensions_ne_nil extensions)
    fun empty => (mem_normalExtensions empty).1 rfl]
  constructor
  · intro fixed given member held
    refine normalExtension_twice_iff.mp (fixed _ (normalExtension_mem member ?_)) held
    intro empty
    rw [blankBehindPoints_iff, empty] at held
    exact held nofun
  · intro free extension member
    obtain ⟨-, rfl | ⟨given, among, rfl⟩⟩ := mem_normalExtensions member
    · decide
    · exact normalExtension_twice_iff.mpr (free given among)

/-! ### Addresses -/

/-- A blank stands before the slashes that the trimmed address ends with. It is at the back when
they are gone. -/
def BlankBeforeSlashes (address : String) : Prop :=
  ∃ front blank slashes, trim address.toList = front ++ blank :: slashes ∧
    (∀ character ∈ slashes, character = '/') ∧ isBlank blank

/-- The address without blanks around it and, after that, without slashes at its end. -/
def normalAddress (address : String) : String :=
  dropSlashes (trimmed address)

theorem toList_normalAddress (address : String) : (normalAddress address).toList =
    ((trim address.toList).reverse.dropWhile (· == '/')).reverse := by
  rw [normalAddress, dropSlashes, trimmed, String.toList_ofList, String.toList_ofList]

theorem normalAddress_eq_self_iff {address : String} : normalAddress address = address ↔
    StartsFree (· == '/') address.toList.reverse ∧ IsTrimmed address.toList := by
  constructor
  · intro same
    constructor
    · rw [← same, toList_normalAddress, List.reverse_reverse]
      exact startsFree_dropWhile _ _
    · have long : address.toList.length ≤ (trim address.toList).length := by
        have length := congrArg (fun text => text.toList.length) same
        rw [← length, toList_normalAddress, List.length_reverse]
        refine (List.length_dropWhile_le _ _).trans ?_
        rw [List.length_reverse]
      exact trim_eq_self_iff.mp ((trim_infix_self _).sublist.eq_of_length_le long)
  · rintro ⟨free, trimmed⟩
    rw [← String.toList_inj, toList_normalAddress, trim_eq_self_iff.mpr trimmed,
      dropWhile_of_startsFree free, List.reverse_reverse]

theorem normalAddress_twice_iff {address : String} :
    normalAddress (normalAddress address) = normalAddress address ↔
      ¬ BlankBeforeSlashes address := by
  have apart : ∀ character, isBlank character → ¬ (character == '/') := by
    rintro character blank slash
    rw [eq_of_beq slash] at blank
    exact absurd blank (by decide)
  have free : StartsFree (· == '/') (normalAddress address).toList.reverse := by
    rw [toList_normalAddress, List.reverse_reverse]
    exact startsFree_dropWhile _ _
  have front : StartsFree isBlank (normalAddress address).toList := by
    rw [toList_normalAddress]
    exact (isTrimmed_trim address.toList).reverse.back.dropWhile_reverse
  have held : BlankBeforeSlashes address ↔
      ¬ StartsFree isBlank (normalAddress address).toList.reverse := by
    rw [toList_normalAddress, List.reverse_reverse, not_startsFree_dropWhile_iff apart]
    simp only [beq_iff_eq]
    constructor
    · rintro ⟨front, blank, slashes, whole, only, isBlank⟩
      refine ⟨slashes.reverse, blank, front.reverse, ?_, ?_, isBlank⟩
      · simp [whole]
      · simpa using only
    · rintro ⟨slashes, blank, front, whole, only, isBlank⟩
      refine ⟨front.reverse, blank, slashes.reverse, ?_, ?_, isBlank⟩
      · rw [← List.reverse_reverse (trim _), whole]
        simp
      · simpa using only
  rw [normalAddress_eq_self_iff, and_iff_right free, held, not_not]
  exact ⟨fun trimmed => trimmed.back, fun back => ⟨front, back⟩⟩

/-! ### Settings -/

theorem unlessBlank_twice (usual text : String) :
    unlessBlank usual (unlessBlank usual text) = unlessBlank usual text := by
  unfold unlessBlank
  split_ifs <;> rfl

theorem unlessZero_twice (usual value : Nat) :
    unlessZero usual (unlessZero usual value) = unlessZero usual value := by
  unfold unlessZero
  split_ifs <;> rfl

theorem trimmedOption_twice (text : Option String) :
    trimmedOption (trimmedOption text) = trimmedOption text := by
  cases text with
  | none => rfl
  | some text =>
    by_cases blank : trimmed text = ""
    · simp [trimmedOption, Option.filter, blank]
    · simp [trimmedOption, Option.filter, blank, trimmed_trimmed]

theorem trimmedWords_twice (words : List String) :
    (((words.map trimmed).filter (· != "")).map trimmed).filter (· != "") =
      (words.map trimmed).filter (· != "") := by
  have each : ∀ word ∈ (words.map trimmed).filter (· != ""), trimmed word = word := by
    intro word member
    obtain ⟨given, -, rfl⟩ := List.mem_map.mp (List.mem_filter.mp member).1
    exact trimmed_trimmed given
  rw [(List.map_congr_left each).trans (List.map_id _), List.filter_filter]
  simp only [Bool.and_self]

/-- The name of a variable that is trimmed, or a usual one that needs no trimming. -/
theorem unlessBlank_trimmed_twice {usual : String} (clean : trimmed usual = usual) (text : String) :
    unlessBlank usual (trimmed (unlessBlank usual (trimmed text))) =
      unlessBlank usual (trimmed text) := by
  by_cases blank : allBlank (trimmed text)
  · have first : unlessBlank usual (trimmed text) = usual := if_pos blank
    rw [first, clean]
    exact ite_self usual
  · have first : unlessBlank usual (trimmed text) = trimmed text := if_neg blank
    rw [first, trimmed_trimmed, first]

namespace Settings

/-- A second pass of the rules changes extensions and the address of the dashboard at most. -/
theorem normalize_twice (settings : Settings) : settings.normalize.normalize =
    { settings.normalize with
      miner := { settings.normalize.miner with
        extensions := normalExtensions settings.normalize.miner.extensions }
      notices := { settings.normalize.notices with
        dashboardUrl := normalAddress settings.normalize.notices.dashboardUrl } } := by
  have clean : trimmed ({} : Settings).notices.webhookVariable =
      ({} : Settings).notices.webhookVariable := by decide
  simp only [normalize, unlessBlank_twice, unlessZero_twice, trimmedOption_twice,
    trimmedWords_twice, unlessBlank_trimmed_twice clean]
  rfl

theorem normalize_twice_eq_iff {settings : Settings} :
    settings.normalize.normalize = settings.normalize ↔
      (∀ given ∈ settings.miner.extensions, ¬ BlankBehindPoints given) ∧
        ¬ BlankBeforeSlashes settings.notices.dashboardUrl := by
  rw [← normalExtensions_twice_iff, ← normalAddress_twice_iff, normalize_twice]
  constructor
  · intro same
    exact ⟨congrArg (fun other => other.miner.extensions) same,
      congrArg (fun other => other.notices.dashboardUrl) same⟩
  · rintro ⟨extensions, address⟩
    have kept : normalExtensions settings.normalize.miner.extensions =
        settings.normalize.miner.extensions := extensions
    have keptAddress : normalAddress settings.normalize.notices.dashboardUrl =
        settings.normalize.notices.dashboardUrl := address
    rw [kept, keptAddress]

/-! ### Loading again -/

theorem normalize_withThreshold (settings : Settings) (override : Option String) :
    (settings.withThreshold override).normalize = settings.normalize.withThreshold override := by
  unfold withThreshold
  split <;> rfl

theorem withThreshold_twice (settings : Settings) (override : Option String) :
    (settings.withThreshold override).withThreshold override = settings.withThreshold override := by
  unfold withThreshold
  cases override.bind threshold? <;> rfl

theorem withThreshold_inj {settings other : Settings} (same : settings.risk = other.risk)
    (override : Option String) :
    settings.withThreshold override = other.withThreshold override ↔ settings = other := by
  unfold withThreshold
  cases override.bind threshold? with
  | none => exact Iff.rfl
  | some value =>
    obtain ⟨miner, deadCode, harness, risk, memory, notices⟩ := settings
    obtain ⟨_, _, _, _, _, _⟩ := other
    obtain rfl : risk = _ := same
    simp only [Settings.mk.injEq, true_and]

/-- The settings that the rules are applied to: those of the file, or the usual ones where nothing
stands at its place. -/
inductive GivenBy (disk : Disk) (workspace : String) : Settings → Prop
  | file {content : List UInt8} {text : String} {settings : Settings}
      (held : disk.read (WorkspacePlaces.of workspace).settings = .ok content)
      (isText : decodeStrict content = some text) (reads : ofText? text = some settings) :
      GivenBy disk workspace settings
  | usual {failure : FileFailure}
      (missing : disk.find (WorkspacePlaces.of workspace).settings = .error failure) :
      GivenBy disk workspace {}

section
variable {disk : Disk} {workspace : String} (override : Option String)

theorem load_of_missing {failure : FileFailure}
    (missing : disk.find (WorkspacePlaces.of workspace).settings = .error failure) :
    (load Disk.access workspace override : StateM Disk _) disk =
      (.ok (({} : Settings).withThreshold override), disk) := by
  have finds : (Disk.access : FileAccess (StateM Disk)).find (WorkspacePlaces.of workspace).settings
    disk = (disk.find (WorkspacePlaces.of workspace).settings, disk) := rfl
  simp only [load, FileAccess.present, bind_apply, pure_apply, finds, missing]
  rfl

theorem load_of_found {tree : FileTree}
    (found : disk.find (WorkspacePlaces.of workspace).settings = .ok tree) :
    (load Disk.access workspace override : StateM Disk _) disk =
      (match disk.read (WorkspacePlaces.of workspace).settings with
        | .error failure => .error (.files failure)
        | .ok content => match decodeStrict content with
          | none => .error (.files .notText)
          | some text => match ofText? text with
            | some settings => .ok (settings.normalize.withThreshold override)
            | none => .error .document, disk) := by
  have finds : (Disk.access : FileAccess (StateM Disk)).find (WorkspacePlaces.of workspace).settings
    disk = (disk.find (WorkspacePlaces.of workspace).settings, disk) := rfl
  have reads : (Disk.access : FileAccess (StateM Disk)).read (WorkspacePlaces.of workspace).settings
    disk = (disk.read (WorkspacePlaces.of workspace).settings, disk) := rfl
  simp only [load, FileAccess.present, FileAccess.readText, bind_apply, pure_apply, finds, found,
    Except.toBool, if_true, reads]
  cases disk.read (WorkspacePlaces.of workspace).settings with
  | error failure => rfl
  | ok content =>
    dsimp only
    cases decodeStrict content with
    | none => rfl
    | some text =>
      simp only [pure_apply]
      cases ofText? text <;> rfl

theorem find_of_read {path : String} {content : List UInt8} (held : disk.read path = .ok content) :
    ∃ tree, disk.find path = .ok tree := by
  obtain ⟨tree, found, -⟩ := bind_eq_ok_iff.mp held
  exact ⟨tree, found⟩

/-- Loading gives the normal form of the given settings, with the threshold of the operator. -/
theorem load_iff {loaded : Settings} :
    (load Disk.access workspace override : StateM Disk _) disk = (.ok loaded, disk) ↔
      ∃ given, GivenBy disk workspace given ∧ given.normalize.withThreshold override = loaded := by
  have usual : ({} : Settings).normalize = {} := by decide +kernel
  rcases found : disk.find (WorkspacePlaces.of workspace).settings with failure | tree
  · rw [load_of_missing override found, Prod.mk.injEq, and_iff_left rfl, Except.ok.injEq]
    constructor
    · exact fun same => ⟨{}, .usual found, by rw [usual, same]⟩
    · rintro ⟨given, held | _, same⟩
      · obtain ⟨tree, stands⟩ := find_of_read held
        exact nomatch found.symm.trans stands
      · rw [← same, usual]
  · rw [load_of_found override found, Prod.mk.injEq, and_iff_left rfl]
    constructor
    · intro loads
      split at loads
      · cases loads
      · rename_i content held
        split at loads
        · cases loads
        · rename_i text isText
          split at loads
          · rename_i settings reads
            exact ⟨settings, .file held isText reads, Except.ok.inj loads⟩
          · cases loads
    · rintro ⟨given, ⟨held, isText, reads⟩ | missing, same⟩
      · rw [held]
        dsimp only
        rw [isText]
        dsimp only
        rw [reads, ← same]
      · exact nomatch found.symm.trans missing

/-- Settings that are written are read from their file, where it can be read again. -/
theorem load_of_written {written : Disk} {settings : Settings} {text : String}
    (starts : Path.isAbsolute (WorkspacePlaces.of workspace).settings ∨
      disk.tree.HasDirectory disk.working)
    (wrote : (Disk.access : FileAccess (StateM Disk)).writeText
      (WorkspacePlaces.of workspace).settings text disk = (.ok (), written))
    (reads : ofText? text = some settings) :
    (load Disk.access workspace override : StateM Disk _) written =
      (.ok (settings.normalize.withThreshold override), written) := by
  have held : written.read (WorkspacePlaces.of workspace).settings = .ok (encode text) :=
    Disk.access_keeps starts (encode text) written wrote
  exact (load_iff override).mpr ⟨settings, .file held (decodeStrict_encode text) reads, rfl⟩

/-- A loaded configuration that is written and loaded again comes back, just if its normal form is
one for a second pass of the rules too. -/
theorem reload_iff {written : Disk} {given loaded : Settings} {text : String}
    (starts : Path.isAbsolute (WorkspacePlaces.of workspace).settings ∨
      disk.tree.HasDirectory disk.working)
    (isLoaded : given.normalize.withThreshold override = loaded)
    (wrote : (Disk.access : FileAccess (StateM Disk)).writeText
      (WorkspacePlaces.of workspace).settings text disk = (.ok (), written))
    (reads : ofText? text = some loaded) :
    (load Disk.access workspace override : StateM Disk _) written = (.ok loaded, written) ↔
      given.normalize.normalize = given.normalize := by
  rw [load_of_written override starts wrote reads, Prod.mk.injEq, and_iff_left rfl, Except.ok.injEq,
    ← isLoaded, normalize_withThreshold, withThreshold_twice]
  have unchanged : given.normalize.normalize.risk = given.normalize.risk := rfl
  exact withThreshold_inj unchanged override

end

end Settings

/-! ### The normal form -/

/-- The rules are idempotent on settings just if no extension has a blank behind the points at its
front and the address of the dashboard has none before the slashes at its end. The extensions that
they leave are not empty, begin with no point and end with no blank, and one that begins with a
blank had it behind points. Loading gives the normal form with the threshold of the operator;
written to the file and loaded again it comes back just if the rules are idempotent on what the
file gave. -/
theorem normalForm_of_settings (settings : Settings) :
    (settings.normalize.normalize = settings.normalize ↔
      (∀ given ∈ settings.miner.extensions, ¬ BlankBehindPoints given) ∧
        ¬ BlankBeforeSlashes settings.notices.dashboardUrl) ∧
    (∀ extension ∈ settings.normalize.miner.extensions,
      extension ≠ "" ∧ StartsFree (· == '.') extension.toList ∧
        StartsFree isBlank extension.toList.reverse ∧
        (StartsFree isBlank extension.toList ∨ ∃ given ∈ settings.miner.extensions,
          BlankBehindPoints given ∧ normalExtension given = extension)) ∧
    ∀ disk workspace override, Settings.GivenBy disk workspace settings →
      (Settings.load Disk.access workspace override : StateM Disk _) disk =
        (.ok (settings.normalize.withThreshold override), disk) ∧
      ∀ written text,
        Path.isAbsolute (WorkspacePlaces.of workspace).settings ∨
          disk.tree.HasDirectory disk.working →
        (Disk.access : FileAccess (StateM Disk)).writeText (WorkspacePlaces.of workspace).settings
          text disk = (.ok (), written) →
        Settings.ofText? text = some (settings.normalize.withThreshold override) →
        ((Settings.load Disk.access workspace override : StateM Disk _) written =
            (.ok (settings.normalize.withThreshold override), written) ↔
          settings.normalize.normalize = settings.normalize) := by
  refine ⟨Settings.normalize_twice_eq_iff, fun extension member => ?_,
    fun disk workspace override given => ⟨?_, fun written text starts wrote reads => ?_⟩⟩
  · obtain ⟨filled, rfl | ⟨given, among, rfl⟩⟩ := mem_normalExtensions member
    · exact ⟨filled, by decide, by decide, .inl (by decide)⟩
    · have stripped := isStripped_normalExtension given
      refine ⟨filled, stripped.front, stripped.back, ?_⟩
      by_cases held : BlankBehindPoints given
      · exact .inr ⟨given, among, held, rfl⟩
      · exact .inl (not_not.mp (blankBehindPoints_iff.not.mp held))
  · exact (Settings.load_iff override).mpr ⟨settings, given, rfl⟩
  · exact Settings.reload_iff override starts rfl wrote reads

/-- Settings whose extension is written with a point and capital letters. -/
def capitalSettings : Settings := { miner := { extensions := [".PY"] } }

/-- A disk with a workspace whose file gives these settings. -/
def capitalDisk : Disk :=
  ⟨.directory [("w", .directory [(".bloc", .directory
    [("config.toml", .file (encode "[miner]\nextensions = [\".PY\"]\n"))])])], []⟩

theorem givenBy_capitalDisk : Settings.GivenBy capitalDisk "/w" capitalSettings := by
  have held : capitalDisk.read (WorkspacePlaces.of "/w").settings =
    .ok (encode "[miner]\nextensions = [\".PY\"]\n") := rfl
  exact .file held (decodeStrict_encode _) (by decide +kernel)

/-- A text that gives the normal form of these settings, and another threshold. -/
def rewrittenText : String := "[miner]\nextensions = [\"py\"]\n[risk]\nblock_threshold = 0.5"

/-- The disk with this text in the file, as it is after the settings were written. -/
def rewrittenDisk : Disk :=
  ⟨.directory [("w", .directory [(".bloc", .directory
    [("config.toml", .file (encode rewrittenText))])])], []⟩

/-- With a threshold from the operator the settings are loaded, written and loaded again, and come
back. -/
theorem capitalSettings_reloaded :
    Settings.GivenBy capitalDisk "/w" capitalSettings ∧
      Path.isAbsolute (WorkspacePlaces.of "/w").settings ∧
      (Disk.access : FileAccess (StateM Disk)).writeText (WorkspacePlaces.of "/w").settings
        rewrittenText capitalDisk = (.ok (), rewrittenDisk) ∧
      Settings.ofText? rewrittenText =
        some (capitalSettings.normalize.withThreshold (some " 0.5")) ∧
      (Settings.load Disk.access "/w" (some " 0.5") : StateM Disk _) rewrittenDisk =
        (.ok (capitalSettings.normalize.withThreshold (some " 0.5")), rewrittenDisk) := by
  have absolute : Path.isAbsolute (WorkspacePlaces.of "/w").settings := by decide
  obtain ⟨idempotent, -, reloaded⟩ := normalForm_of_settings capitalSettings
  have free : ∀ given ∈ capitalSettings.miner.extensions, ¬ BlankBehindPoints given := by
    intro given member
    obtain rfl := List.mem_singleton.mp member
    rw [blankBehindPoints_iff, not_not]
    decide
  have closed : ¬ BlankBeforeSlashes capitalSettings.notices.dashboardUrl :=
    normalAddress_twice_iff.mp (by decide)
  have wrote : (Disk.access : FileAccess (StateM Disk)).writeText
      (WorkspacePlaces.of "/w").settings rewrittenText capitalDisk = (.ok (), rewrittenDisk) := rfl
  have reads : Settings.ofText? rewrittenText =
      some (capitalSettings.normalize.withThreshold (some " 0.5")) := by decide +kernel
  have again := (reloaded capitalDisk "/w" (some " 0.5") givenBy_capitalDisk).2 rewrittenDisk
    rewrittenText (.inl absolute) wrote reads
  exact ⟨givenBy_capitalDisk, absolute, wrote, reads, again.mpr (idempotent.mpr ⟨free, closed⟩)⟩

/-- Settings whose extension has a blank behind its point, as a file may well have it. -/
def spacedSettings : Settings := { miner := { extensions := [". py"] } }

/-- A file can give these settings. In their normal form the extension begins with a blank, and a
second pass of the rules takes it away. -/
theorem spacedSettings_not_normal :
    Settings.ofText? "[miner]\nextensions = [\". py\"]\n" = some spacedSettings ∧
      spacedSettings.normalize.miner.extensions = [" py"] ∧
      spacedSettings.normalize.normalize.miner.extensions = ["py"] ∧
      spacedSettings.normalize.normalize ≠ spacedSettings.normalize := by
  decide +kernel

end MigrationGuard
