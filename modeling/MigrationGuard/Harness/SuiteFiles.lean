/-
This file names the files of a suite. The name of a test's file carries the place
of the test in the suite, and the place can be read back from the name under which
the runner knows the test. That is how a drift finds the function that it belongs
to: the runner tells nothing but names. A name from which no place can be read
stands for itself.
-/

import MigrationGuard.Behavior.TestRun
import MigrationGuard.Decimal.Parse

namespace MigrationGuard

/-- The file of the test of a function at a place of the suite. -/
def testFileName (function : String) (place : Nat) : String :=
  "test_" ++ String.ofList (function.toList.map fun character =>
    if character = '.' then '_' else character) ++ "_" ++ toString place ++ ".py"

/-- The number that a text spells, with an optional plus before it, if it fits into sixty-four
bits. -/
def placeOfText? (text : List Char) : Option Nat :=
  let digits := match text with
    | '+' :: rest => rest
    | rest => rest
  (Decimal.natural? digits).filter fun value => value < Nat.pow 2 64

/-- The place that a test id carries: the digits behind the last underscore of the file's name. -/
def suitePlace? (testId : String) : Option Nat := do
  let file := Text.beforeText "::".toList testId.toList
  let parts := Text.cutAtEach (fun character => character == '/' || character == '\\') file
  let stem ← Text.dropFinish ".py" (String.ofList (← parts.getLast?))
  let name ← Text.dropStart "test_" stem
  let (_, place) ← Text.cutAtLast '_' name.toList
  placeOfText? place

/-- The function that a test of a suite belongs to, or the test id itself where that cannot be
told. -/
def driftFunction (testId : String) (suite : Option TestSuite) : String :=
  let test := (suitePlace? testId).bind fun place => suite.bind fun suite => suite.tests[place]?
  (test.map GeneratedTest.functionName).getD testId

end MigrationGuard
