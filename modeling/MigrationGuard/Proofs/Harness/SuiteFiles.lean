/-
This file shows that the tests of a suite are told apart by their files. The place
of a test is written behind the last underscore of its file's name and is read
back from every name under which a runner may know a test in the file, with
directories before it and the name of a test behind it. The function's name, with
the dots written as underscores, stands before that underscore, so whatever it
looks like it takes no part in the reading, and functions whose names look like
the files of each other's tests are no exception. What is asked of the names is
only that neither a slash nor a double colon cuts them. The main theorem says that
a suite which is written is written into files of distinct names, each of which
leads back to its place and to the function that the test was made for.
-/

import MigrationGuard.Harness.Execution
import MigrationGuard.Proofs.Actions
import MigrationGuard.Proofs.Json.Number
import MigrationGuard.Proofs.Path

namespace MigrationGuard

/-! ### Names -/

/-- A function's name without slashes of either kind and without a double colon. A file that is
called after the function has one name, and a test id is not cut within it. -/
structure IsUncut (function : String) : Prop where
  /-- No slash is in it. -/
  slash : '/' ∉ function.toList
  /-- No backslash is in it. -/
  backslash : '\\' ∉ function.toList
  /-- No double colon is in it. -/
  colons : ¬ [':', ':'] <:+: function.toList

instance (function : String) : Decidable (IsUncut function) :=
  decidable_of_iff ('/' ∉ function.toList ∧ '\\' ∉ function.toList ∧
      ¬ [':', ':'] <:+: function.toList)
    ⟨fun ⟨slash, backslash, colons⟩ => ⟨slash, backslash, colons⟩,
      fun uncut => ⟨uncut.slash, uncut.backslash, uncut.colons⟩⟩

/-- What stands before a file in a test id: nothing, or directories up to a slash of either kind. -/
structure IsFolder (folder : String) : Prop where
  /-- The file begins a name. -/
  closed : folder = "" ∨ ∃ directory, folder = directory ++ "/" ∨ folder = directory ++ "\\"
  /-- No double colon is in it. -/
  colons : ¬ [':', ':'] <:+: folder.toList

/-- The runner knows a test in the file by this id: directories may stand before the file, and a
double colon with anything after it may stand behind it. -/
inductive IsTestIdIn (file : String) : String → Prop where
  /-- The id is the path of the file. -/
  | whole {folder : String} (isFolder : IsFolder folder) : IsTestIdIn file (folder ++ file)
  /-- The id names something in the file. -/
  | within {folder : String} (isFolder : IsFolder folder) (test : String) :
    IsTestIdIn file (folder ++ file ++ ("::" ++ test))

/-- The files of the tests, in the order of the suite. -/
def TestSuite.fileNames (suite : TestSuite) : List String :=
  suite.tests.zipIdx.map fun (test, place) => testFileName test.functionName place

/-- The tests of the suite are told apart by their files: written there, distinct, and led back from
there. -/
structure TestSuite.ToldApart (suite : TestSuite) : Prop where
  /-- A suite that is written is written into files of these names. -/
  written : ∀ {World : Type} (files : FileAccess (StateM World)) (settings : HarnessSettings)
    (workspace : String), Ensures (writeSuite files settings workspace suite) fun outcome =>
      ∀ paths, outcome = .ok paths → paths.map Path.fileName? = suite.fileNames.map some
  /-- No two of the names are the same. -/
  distinct : suite.fileNames.Nodup
  /-- The place of a test is read from whatever the runner calls a test in its file. -/
  place : ∀ place test, suite.tests[place]? = some test → ∀ testId,
    IsTestIdIn (testFileName test.functionName place) testId → suitePlace? testId = some place
  /-- A drift there belongs to the function that the test was made for. -/
  function : ∀ place test, suite.tests[place]? = some test → ∀ testId,
    IsTestIdIn (testFileName test.functionName place) testId →
      driftFunction testId (some suite) = test.functionName

/-! ### Parts of a file's name -/

/-- The function's name as it stands in the name of its file, where a dot would end the stem. -/
def fileStem (function : String) : List Char :=
  function.toList.map fun character => if character = '.' then '_' else character

theorem colons_fileStem {function : String} (free : ¬ [':', ':'] <:+: function.toList) :
    ¬ [':', ':'] <:+: fileStem function := by
  have isColon : ∀ character : Char, (if character = '.' then '_' else character) = ':' →
      character = ':' := by
    intro character same
    split_ifs at same
    · exact absurd same (by decide)
    · exact same
  rintro ⟨front, back, cut⟩
  obtain ⟨beginning, behind, whole, begins, -⟩ := List.map_eq_append_iff.mp cut.symm
  obtain ⟨before, pair, rfl, -, colons⟩ := List.map_eq_append_iff.mp begins
  obtain ⟨first, rest, rfl, isFirst, colons⟩ := List.map_eq_cons_iff.mp colons
  obtain ⟨second, rest, rfl, isSecond, none⟩ := List.map_eq_cons_iff.mp colons
  obtain rfl := List.map_eq_nil_iff.mp none
  rw [isColon first isFirst, isColon second isSecond] at whole
  exact free ⟨before, behind, whole.symm⟩

theorem toList_testFileName (function : String) (place : Nat) :
    (testFileName function place).toList = "test_".toList ++
      (fileStem function ++ '_' :: (Nat.toDigits 10 place ++ ".py".toList)) := by
  unfold testFileName
  simp only [String.toList_append, String.toList_ofList, Nat.toString_eq_repr, Nat.toList_repr,
    List.append_assoc]
  rfl

theorem mem_testFileName {function : String} {place : Nat} {character : Char}
    (member : character ∈ (testFileName function place).toList) :
    character ∈ function.toList ∨ character.isDigit ∨ character ∈ "test_.py".toList := by
  rw [toList_testFileName, List.mem_append, List.mem_append, List.mem_cons, List.mem_append]
    at member
  have fixed : ∀ part : List Char, part ⊆ "test_.py".toList → character ∈ part →
      character ∈ "test_.py".toList := fun _ within inside => within inside
  rcases member with start | stem | line | digit | finish
  · exact .inr (.inr (fixed "test_".toList (by decide) start))
  · obtain ⟨original, among, rfl⟩ := List.mem_map.mp stem
    split_ifs
    · exact .inr (.inr (by decide))
    · exact .inl among
  · exact .inr (.inr (line ▸ by decide))
  · exact .inr (.inl (Data.Json.allDigits_toDigits place character digit))
  · exact .inr (.inr (fixed ".py".toList (by decide) finish))

theorem not_mem_toDigits {character : Char} (noDigit : character.isDigit = false) (place : Nat) :
    character ∉ Nat.toDigits 10 place := by
  intro member
  have isDigit := Data.Json.allDigits_toDigits place character member
  rw [noDigit] at isDigit
  exact nomatch isDigit

section
variable {function : String} (uncut : IsUncut function) (place : Nat)
include uncut

/-- The file of a test has one name, so it lies in the test directory itself. -/
theorem IsUncut.isName : Path.IsName (testFileName function place) := by
  have begins : (testFileName function place).toList.head? = some 't' := by
    rw [toList_testFileName]
    rfl
  have apart : ∀ text : String, text.toList.head? ≠ some 't' →
      testFileName function place ≠ text := by
    rintro text other rfl
    exact other begins
  refine ⟨apart _ (by decide), apart _ (by decide), apart _ (by decide), fun slash => ?_⟩
  rcases mem_testFileName slash with inside | digit | fixed
  · exact uncut.slash inside
  · exact absurd digit (by decide)
  · exact absurd fixed (by decide)

theorem IsUncut.not_separates : ∀ character ∈ (testFileName function place).toList,
    ¬ (character == '/' || character == '\\') := by
  intro character member separates
  rw [Bool.or_eq_true, beq_iff_eq, beq_iff_eq] at separates
  rcases mem_testFileName member with inside | digit | fixed
  · rcases separates with rfl | rfl
    · exact uncut.slash inside
    · exact uncut.backslash inside
  · rcases separates with rfl | rfl <;> exact absurd digit (by decide)
  · rcases separates with rfl | rfl <;> exact absurd fixed (by decide)

theorem IsUncut.colons_testFileName : ¬ [':', ':'] <:+: (testFileName function place).toList := by
  have noColon : ':' ∉ '_' :: (Nat.toDigits 10 place ++ ".py".toList) := by
    rw [List.mem_cons, List.mem_append, not_or, not_or]
    exact ⟨by decide, not_mem_toDigits (by decide) place, by decide⟩
  have behind : ¬ [':', ':'] <:+: '_' :: (Nat.toDigits 10 place ++ ".py".toList) :=
    fun found => noColon (found.subset List.mem_cons_self)
  have start : ¬ [':', ':'] <:+: "test_".toList := by decide
  rw [toList_testFileName]
  exact Text.no_pair_in_append start
    (Text.no_pair_in_append (colons_fileStem uncut.colons) behind (.inr (by simp)))
    (.inl (by decide))

end

/-! ### Places -/

theorem placeOfText?_toDigits {place : Nat} (fits : place < 2 ^ 64) :
    placeOfText? (Nat.toDigits 10 place) = some place := by
  have digits := Data.Json.allDigits_toDigits place
  have read : Decimal.natural? (Nat.toDigits 10 place) = some place := by
    rw [Decimal.natural?, if_pos ⟨Nat.toDigits_ne_nil, List.all_eq_true.mpr digits⟩,
      Data.Json.digitsValue_toDigits]
  unfold placeOfText?
  split
  · rename_i rest plus
    exact absurd (digits '+' (plus ▸ List.mem_cons_self)) (by decide)
  · dsimp only
    rw [read, Option.filter_some]
    exact if_pos (decide_eq_true fits)

/-- What is left of a file's name between its fixed parts, with the place behind the last
underscore. -/
theorem cutAtLast_stem (function : String) (place : Nat) :
    Text.cutAtLast '_' (fileStem function ++ '_' :: Nat.toDigits 10 place) =
      some (fileStem function, Nat.toDigits 10 place) :=
  Text.cutAtLast_append (not_mem_toDigits (by decide) place) _

/-- The place can be told from the file, whatever the functions are called. -/
theorem place_eq_of_testFileName {function other : String} {place otherPlace : Nat}
    (same : testFileName function place = testFileName other otherPlace) : place = otherPlace := by
  have characters := congrArg String.toList same
  rw [toList_testFileName, toList_testFileName] at characters
  have stems := List.append_cancel_left characters
  simp only [← List.cons_append, ← List.append_assoc] at stems
  have cuts := congrArg (Text.cutAtLast '_') (List.append_cancel_right stems)
  rw [cutAtLast_stem, cutAtLast_stem] at cuts
  have digits := (Prod.mk.inj (Option.some.inj cuts)).2
  rw [← Data.Json.digitsValue_toDigits place, digits, Data.Json.digitsValue_toDigits]

/-- The parts of a file's name that are taken away before the place is read. -/
theorem testFileName_eq (function : String) (place : Nat) : testFileName function place =
    "test_" ++ String.ofList (fileStem function ++ '_' :: Nat.toDigits 10 place) ++ ".py" := by
  rw [← String.toList_inj, toList_testFileName]
  simp only [String.toList_append, String.toList_ofList, List.append_assoc, List.cons_append]

section
variable {function testId : String} {place : Nat} (uncut : IsUncut function)
  (isTestId : IsTestIdIn (testFileName function place) testId)
include uncut isTestId

/-- The path before the double colon is that of the file, as nothing before it has a double colon.
-/
theorem IsTestIdIn.beforeText_eq : ∃ folder, IsFolder folder ∧
    Text.beforeText "::".toList testId.toList =
      folder.toList ++ (testFileName function place).toList := by
  have begins : (testFileName function place).toList.head? ≠ some ':' := by
    rw [toList_testFileName]
    exact fun same => absurd (Option.some.inj same) (by decide)
  have ends : (testFileName function place).toList.getLast? = some 'y' := by
    rw [testFileName_eq, String.toList_append, List.getLast?_append]
    rfl
  have read : ∀ (folder : String) (rest : List Char), IsFolder folder →
      rest = [] ∨ [':', ':'] <+: rest →
      Text.beforeText "::".toList (folder.toList ++ (testFileName function place).toList ++ rest) =
        folder.toList ++ (testFileName function place).toList := by
    intro folder rest isFolder stops
    -- No double colon arises where the folder meets the file, or where the file ends.
    have free := Text.no_pair_in_append isFolder.colons (uncut.colons_testFileName place)
      (.inr begins)
    refine Text.beforeText_append free ?_ stops
    rw [List.getLast?_append, ends]
    exact fun same => absurd (Option.some.inj same) (by decide)
  cases isTestId with
  | @whole folder isFolder =>
    have done := read folder [] isFolder (.inl rfl)
    rw [List.append_nil] at done
    exact ⟨folder, isFolder, by rw [String.toList_append, done]⟩
  | @within folder isFolder test =>
    have stops : [':', ':'] <+: ("::" ++ test).toList := by
      rw [String.toList_append]
      exact List.prefix_append _ _
    refine ⟨folder, isFolder, ?_⟩
    rw [String.toList_append, String.toList_append, read folder _ isFolder (.inr stops)]

theorem IsTestIdIn.suitePlace?_eq (fits : place < 2 ^ 64) : suitePlace? testId = some place := by
  obtain ⟨folder, isFolder, path⟩ := isTestId.beforeText_eq uncut
  have closed : folder.toList = [] ∨ ∃ front separator,
      (separator == '/' || separator == '\\') ∧ folder.toList = front ++ [separator] := by
    rcases isFolder.closed with rfl | ⟨directory, rfl | rfl⟩
    · exact .inl rfl
    · exact .inr ⟨directory.toList, '/', by decide, String.toList_append⟩
    · exact .inr ⟨directory.toList, '\\', by decide, String.toList_append⟩
  unfold suitePlace?
  dsimp only
  rw [path, Text.getLast?_cutAtEach closed (uncut.not_separates place), Option.bind_eq_bind,
    Option.bind_some, String.ofList_toList, testFileName_eq, Text.dropFinish_append]
  dsimp only [Option.bind_eq_bind, Option.bind_some]
  rw [Text.dropStart_append]
  dsimp only [Option.bind_some]
  rw [String.toList_ofList, cutAtLast_stem]
  exact placeOfText?_toDigits fits

end

/-! ### Suites -/

/-- A suite that is written gives the paths of its files, one for each test and in their order. -/
theorem ensures_writeSuite {World : Type} (files : FileAccess (StateM World))
    (settings : HarnessSettings) (workspace : String) (suite : TestSuite) :
    Ensures (writeSuite files settings workspace suite) fun outcome =>
      ∀ paths, outcome = .ok paths →
        paths = (suiteFiles (Path.join workspace settings.testDirectory) suite).map Prod.fst := by
  have fails : ∀ failure : HarnessFailure,
      Ensures (pure (.error failure) : StateM World (Except HarnessFailure (List String)))
        fun outcome => ∀ paths, outcome = .ok paths →
          paths = (suiteFiles (Path.join workspace settings.testDirectory) suite).map Prod.fst :=
    fun failure => Ensures.pure fun _ done => nomatch done
  unfold writeSuite
  dsimp only
  refine Ensures.bind fun cleared => ?_
  cases cleared with
  | error failure => exact fails _
  | ok =>
    refine Ensures.bind fun made => ?_
    cases made with
    | error failure => exact fails _
    | ok =>
      refine Ensures.bind fun written => ?_
      cases written with
      | error failure => exact fails _
      | ok => exact Ensures.pure fun paths done => (Except.ok.inj done).symm

/-- A suite whose functions have uncut names, and which is no longer than a machine can count, has
its tests told apart. -/
theorem TestSuite.toldApart (suite : TestSuite)
    (uncut : ∀ test ∈ suite.tests, IsUncut test.functionName)
    (fits : suite.tests.length ≤ 2 ^ 64) : suite.ToldApart := by
  have places : ∀ place test, suite.tests[place]? = some test → ∀ testId,
      IsTestIdIn (testFileName test.functionName place) testId →
        suitePlace? testId = some place := by
    intro place test there testId isTestId
    obtain ⟨inside, rfl⟩ := List.getElem?_eq_some_iff.mp there
    have counted : place < 2 ^ 64 := Nat.lt_of_lt_of_le inside fits
    exact isTestId.suitePlace?_eq (uncut _ (List.getElem_mem inside)) counted
  refine ⟨?_, ?_, places, ?_⟩
  · intro World files settings workspace world paths written
    obtain rfl := ensures_writeSuite files settings workspace suite world paths written
    rw [suiteFiles, TestSuite.fileNames, List.map_map, List.map_map, List.map_map]
    refine List.map_congr_left fun ⟨test, place⟩ member => ?_
    have named := (uncut test (List.fst_mem_of_mem_zipIdx member)).isName place
    dsimp only [Function.comp_apply]
    rw [named.fileName?_below]
  · rw [TestSuite.fileNames, List.Nodup, List.pairwise_iff_getElem]
    intro place other _ _ before same
    rw [List.getElem_map, List.getElem_map, List.getElem_zipIdx, List.getElem_zipIdx] at same
    have samePlace := place_eq_of_testFileName same
    omega
  · intro place test there testId isTestId
    rw [driftFunction, places place test there testId isTestId]
    dsimp only [Option.bind_some]
    rw [there]
    rfl

/-- Functions with names that look like the files of each other's tests, and one without a name. -/
def lookalikeSuite : TestSuite where
  tests := ["fee_1", "fee.1", "fee", "test_fee_0.py", ""].map fun name => ⟨name, "pass", false, []⟩
  coveragePct := 100.0
  coveredFunctions := ["fee"]
  uncoveredFunctions := []

theorem lookalikeSuite_toldApart :
    (∀ test ∈ lookalikeSuite.tests, IsUncut test.functionName) ∧
      lookalikeSuite.tests.length ≤ 2 ^ 64 ∧ lookalikeSuite.ToldApart :=
  have uncut : ∀ test ∈ lookalikeSuite.tests, IsUncut test.functionName := by decide
  have fits : lookalikeSuite.tests.length ≤ 2 ^ 64 := by decide
  ⟨uncut, fits, lookalikeSuite.toldApart uncut fits⟩

end MigrationGuard
