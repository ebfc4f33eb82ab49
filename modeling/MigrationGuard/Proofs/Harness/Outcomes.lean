/-
This file says what the results that are taken from the output of a runner tell of
it. A line that names an outcome gives a result, and the result passes just if the
line says so, whatever else it says. So a failure can be hidden, but only by a
line that names a pass beside it, such as one with the word in the parameter of a
test. Without such lines one result stands for the suite, and it passes just if
the output does not speak of a failure. What a line says is told by the parts of
its text, without the definitions that read it. The main theorem holds for every
output, where the runner left no report that names tests; the last one gives the
line that hides a failure.
-/

import Mathlib.Data.List.Forall2
import MigrationGuard.Harness.Report
import MigrationGuard.Proofs.Text.Lines

namespace MigrationGuard

/-! ### What an output says -/

/-- The text says that a test passed, in the way in which runners put it behind the name of the
test. -/
def SaysPassed (text : String) : Prop :=
  " PASSED".toList <:+: text.toList

/-- The text says that a test did not pass, because it failed or could not be run. -/
def SaysFailed (text : String) : Prop :=
  " FAILED".toList <:+: text.toList ∨ " ERROR".toList <:+: text.toList

instance (text : String) : Decidable (SaysPassed text) :=
  inferInstanceAs (Decidable (_ <:+: _))

instance (text : String) : Decidable (SaysFailed text) :=
  inferInstanceAs (Decidable (_ ∨ _))

/-- The word stands in the text, in whatever case and as part of whatever word. -/
def SpeaksOf (word text : String) : Prop :=
  ∃ part, part <:+: text.toList ∧ part.map Char.toLower = word.toList

/-- The lines of an output that name an outcome. Each of them is taken for the report of one test.
-/
def outcomeLines (output : String) : List String :=
  (Text.linesOf output).filter fun line => SaysPassed line ∨ SaysFailed line

/-- The results are what an output tells of its tests, line by line or as a whole. -/
structure ToldBy (output : String) (results : List TestResult) : Prop where
  /-- Each line that names an outcome gives one result, in order. It keeps the line and passes just
  if the line says that a test passed. -/
  lines : outcomeLines output ≠ [] → List.Forall₂ (fun line result =>
    result.output = Text.trimmed line ∧ (result.passed ↔ SaysPassed line))
      (outcomeLines output) results
  /-- Without such lines one result stands for all tests. It passes just if no failure or error is
  spoken of. -/
  suite : outcomeLines output = [] → ∃ result, results = [result] ∧
    (result.passed ↔ ¬ SpeaksOf "failed" output ∧ ¬ SpeaksOf "error" output)
  /-- If all results pass, then so do the lines that say that a test did not pass: each of them says
  that one passed, and nothing but such lines says it in the output. -/
  hidden : (∀ result ∈ results, result.passed) →
    (∀ line ∈ Text.linesOf output, SaysFailed line → SaysPassed line) ∧
      (SaysFailed output → ∃ line ∈ Text.linesOf output, SaysFailed line ∧ SaysPassed line)

/-- The runner left no report that names tests, so only its output is left to be read. -/
def TellsNothing (report : Option String) : Prop :=
  ∀ results, report.bind resultsOfReport? = some results → results = []

/-! ### Marks -/

theorem contains_passed_iff (text : String) : Text.contains text " PASSED" ↔ SaysPassed text :=
  Text.occursIn_iff

theorem isMarked_iff (line : String) : isMarked line ↔ SaysPassed line ∨ SaysFailed line := by
  unfold isMarked SaysPassed SaysFailed Text.contains
  rw [Bool.or_eq_true, Bool.or_eq_true, Text.occursIn_iff, Text.occursIn_iff, Text.occursIn_iff,
    or_assoc]

theorem filter_isMarked (output : String) :
    (Text.linesOf output).filter isMarked = outcomeLines output := by
  unfold outcomeLines
  refine List.filter_congr fun line _ => ?_
  rw [Bool.eq_iff_iff, isMarked_iff, decide_eq_true_eq]

theorem contains_lowered_iff (word text : String) :
    Text.contains (Text.lowered text) word ↔ SpeaksOf word text := by
  rw [Text.contains, Text.occursIn_iff, Text.lowered, String.toList_ofList]
  exact List.infix_map_iff.trans (by simp only [SpeaksOf, eq_comm])

theorem passed_wholeSuiteResult_iff (output : String) (elapsedMs : Float) :
    (wholeSuiteResult output elapsedMs).passed ↔
      ¬ SpeaksOf "failed" output ∧ ¬ SpeaksOf "error" output := by
  unfold wholeSuiteResult
  rw [Bool.not_eq_true', ← Bool.not_eq_true, speaksOfFailure, Bool.or_eq_true, not_or,
    contains_lowered_iff, contains_lowered_iff]

/-- What says that a test did not pass says so on a line, as no line break is part of the words. -/
theorem saysFailed_iff (output : String) :
    SaysFailed output ↔ ∃ line ∈ Text.linesOf output, SaysFailed line := by
  have onLine : ∀ mark : String, mark.toList ≠ [] → '\r' ∉ mark.toList → '\n' ∉ mark.toList →
      (mark.toList <:+: output.toList ↔
        ∃ line ∈ Text.linesOf output, mark.toList <:+: line.toList) := by
    intro mark present noReturn noFeed
    rw [Text.infix_iff_of_lines present noReturn noFeed, Text.linesOf]
    simp only [List.mem_map, exists_exists_and_eq_and, String.toList_ofList]
  rw [SaysFailed, onLine " FAILED" (by decide) (by decide) (by decide),
    onLine " ERROR" (by decide) (by decide) (by decide), ← exists_or]
  simp only [SaysFailed, ← and_or_left]

/-! ### Results -/

/-- Lines that name an outcome give their results whatever else is in the output. -/
theorem resultsOfLines_forall₂ (output : String) (elapsedMs : Float) :
    List.Forall₂ (fun line result =>
      result.output = Text.trimmed line ∧ (result.passed ↔ SaysPassed line))
        (outcomeLines output) (resultsOfLines output elapsedMs) := by
  unfold resultsOfLines
  dsimp only
  rw [filter_isMarked, List.forall₂_map_right_iff, List.forall₂_same]
  exact fun line _ => ⟨rfl, contains_passed_iff line⟩

theorem resultsOfOutput_eq (output : String) (elapsedMs : Float) :
    resultsOfOutput output elapsedMs =
      if outcomeLines output = [] then [wholeSuiteResult output elapsedMs]
      else resultsOfLines output elapsedMs := by
  have none : (resultsOfLines output elapsedMs).isEmpty ↔ outcomeLines output = [] := by
    rw [List.isEmpty_iff, resultsOfLines, List.map_eq_nil_iff, filter_isMarked]
  unfold resultsOfOutput
  simp only [none]

theorem collectResults_of_tellsNothing {report : Option String} (nothing : TellsNothing report)
    (output : String) (elapsedMs : Float) :
    collectResults report output elapsedMs = resultsOfOutput output elapsedMs := by
  unfold collectResults
  split
  · rename_i result results told
    exact nomatch nothing _ told
  · rfl

/-- Where no report names tests, the results are what the output tells, whatever the output is. -/
theorem collectResults_toldBy {report : Option String} (nothing : TellsNothing report)
    (output : String) (elapsedMs : Float) :
    ToldBy output (collectResults report output elapsedMs) := by
  rw [collectResults_of_tellsNothing nothing, resultsOfOutput_eq]
  refine ⟨fun some => ?_, fun none => ?_, fun passes => ?_⟩
  · rw [if_neg some]
    exact resultsOfLines_forall₂ output elapsedMs
  · rw [if_pos none]
    exact ⟨_, rfl, passed_wholeSuiteResult_iff output elapsedMs⟩
  · have each : ∀ line ∈ Text.linesOf output, SaysFailed line → SaysPassed line := by
      intro line member failed
      -- The line names an outcome, so it has a result of its own among those that pass.
      have among : line ∈ outcomeLines output :=
        List.mem_filter.mpr ⟨member, decide_eq_true (.inr failed)⟩
      rw [if_neg (List.ne_nil_of_mem among), resultsOfLines, filter_isMarked] at passes
      exact (contains_passed_iff line).mp (passes _ (List.mem_map_of_mem among))
    refine ⟨each, fun failed => ?_⟩
    obtain ⟨line, member, failed⟩ := (saysFailed_iff output).mp failed
    exact ⟨line, member, failed, each line member failed⟩

theorem shopOutput_toldBy :
    TellsNothing (some "not json") ∧ ToldBy "test_fee PASSED\r\ntest_tax ERROR"
      (collectResults (some "not json") "test_fee PASSED\r\ntest_tax ERROR" 100.0) :=
  have unread : (some "not json").bind resultsOfReport? = none := by decide
  have nothing : TellsNothing (some "not json") :=
    fun _ told => nomatch unread.symm.trans told
  ⟨nothing, collectResults_toldBy nothing _ _⟩

/-- A test that fails for a parameter with the word in it passes. Its line says both, and the pass
is looked for first. -/
theorem namedAfterPass_hidden :
    SaysFailed "_bloc_tests/test_fee_0.py::test_state[after PASSED] FAILED" ∧
      ∀ result ∈ collectResults none
        "_bloc_tests/test_fee_0.py::test_state[after PASSED] FAILED" 100.0, result.passed := by
  decide

end MigrationGuard
