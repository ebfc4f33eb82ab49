/-
This file finds code that was commented out: runs of lines that hold a comment and
nothing else. A bare number sign and a line such as `#!` belong to no run. A scan
goes through the lines once. It gathers the lines of the run that it is in, with
the number of the first one, and reports the run where it leaves it, if the run
has enough lines. The run that a text ends with is left behind the last line, so
it is reported as any other.
-/

import MigrationGuard.Workflow.Graph

namespace MigrationGuard

/-- A line that holds a comment and nothing else. The comment has to say something. -/
def isCommentLine (line : List Char) : Bool :=
  match Text.trim line with
  | '#' :: rest => !rest.isEmpty && (Text.trimStart rest).head? != some '!'
  | _ => false

/-- How many lines of a run are shown. The report tells how many there are. -/
def commentSnippetLines : Nat := 6

/-- The report on one run: where it begins, how long it is and how its first lines read. -/
def commentItem (module : String) (run : Nat × List (List Char)) : DeadCodeItem :=
  { name := "commented_block_L" ++ toString run.1
    module
    line := run.1
    kind := .commentedBlock
    detail := "Commented-out block (" ++ toString run.2.length ++ " lines)"
    snippet := Text.joined "\n" ((run.2.take commentSnippetLines).map String.ofList) }

/-! ### Scanning -/

/-- The state of a scan: the run that it is in and the reports so far. -/
structure CommentScan where
  /-- The lines of the run that the scan is in. Between two runs there is none. -/
  run : List (List Char)
  /-- The number of the line that the last run began with. -/
  start : Nat
  /-- The reports on the runs that the scan has left. -/
  items : List DeadCodeItem

namespace CommentScan

/-- The scan before the first line, which is in no run. -/
def atFirst : CommentScan := ⟨[], 0, []⟩

/-- Leaves a run, and reports it if it has enough lines. -/
def flush (module : String) (minimum : Nat) (scan : CommentScan) : CommentScan :=
  { scan with
    run := []
    items :=
      if minimum ≤ scan.run.length then scan.items ++ [commentItem module (scan.start, scan.run)]
      else scan.items }

/-- Reads the line with a number: it goes on with the run, begins one or leaves it. -/
def readLine (module : String) (minimum : Nat) (scan : CommentScan) (number : Nat)
    (line : List Char) : CommentScan :=
  if isCommentLine line then
    { scan with
      run := scan.run ++ [line]
      start := if scan.run.isEmpty then number else scan.start }
  else scan.flush module minimum

/-- Reads lines, the first of which has the given number. -/
def readLines (module : String) (minimum : Nat) (scan : CommentScan) (number : Nat) :
    List (List Char) → CommentScan
  | [] => scan
  | line :: below => readLines module minimum (scan.readLine module minimum number line) (number + 1)
    below

end CommentScan

/-- The reports on the runs of comment lines that are long enough. The run that the text ends with
is left behind its last line. -/
def commentedBlocks (module source : String) (minimum : Nat) : List DeadCodeItem :=
  let enough := max minimum 1
  let scan := CommentScan.atFirst.readLines module enough 1 (Text.lines source.toList)
  (scan.flush module enough).items

end MigrationGuard
