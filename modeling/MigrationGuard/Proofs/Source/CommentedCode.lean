/-
This file says which commented-out code is reported: every run of lines that hold
a comment and nothing else, if it cannot be made longer at either end and has
enough lines. The reports are in the order of the runs, so no run is reported
twice, and a run at the end of the text is reported like any other. The maximal
runs are listed by cutting each of them off the lines at once, and they are shown
to be just the runs with other lines before and behind them. The scan, which reads
one line after the other and remembers where a run began, comes to the same:
together with the runs that it has still to leave, its reports stay as they are
from line to line. When all lines are read, the run that it is in is the only one
left, and the last flush reports it.
-/

import MigrationGuard.Proofs.Text.Search
import MigrationGuard.Source.CommentedCode

namespace MigrationGuard

/-! ### Runs of comment lines -/

/-- A line that holds a comment and nothing else. Behind its number sign there is something, and
this does not begin with an exclamation mark. -/
def CommentOnly (line : List Char) : Prop :=
  ∃ text, Text.trim line = '#' :: text ∧ text ≠ [] ∧ ∀ others, Text.trimStart text ≠ '!' :: others

/-- Lines are a run of comment lines with other lines before and behind it, and no comment line
stands next to the run. -/
structure IsCommentRun (lines before run behind : List (List Char)) : Prop where
  /-- These are all lines. -/
  whole : lines = before ++ (run ++ behind)
  /-- The run has a line. -/
  some : run ≠ []
  /-- Its lines hold comments and nothing else. -/
  comments : ∀ line ∈ run, CommentOnly line
  /-- The line before the run is of another kind. -/
  begins : ∀ line ∈ before.getLast?, ¬ CommentOnly line
  /-- The line behind the run is of another kind. -/
  ends : ∀ line ∈ behind.head?, ¬ CommentOnly line

theorem isCommentLine_iff (line : List Char) : isCommentLine line ↔ CommentOnly line := by
  rw [isCommentLine, CommentOnly]
  split
  case h_1 text trimmed =>
    rw [trimmed]
    have mark : (Text.trimStart text).head? ≠ some '!' ↔
        ∀ others, Text.trimStart text ≠ '!' :: others := by
      rw [ne_eq, List.head?_eq_some_iff, not_exists]
    simp [← mark]
  case h_2 other =>
    refine iff_of_false (by decide) ?_
    rintro ⟨text, trimmed, -⟩
    exact other text trimmed

/-- Comment lines that stand before a line of another kind are all comment lines at the front. -/
theorem takeWhile_isCommentLine {run behind : List (List Char)}
    (comments : ∀ line ∈ run, CommentOnly line)
    (ends : ∀ line ∈ behind.head?, ¬ CommentOnly line) :
    (run ++ behind).takeWhile isCommentLine = run :=
  (Text.cut_iff.mpr ⟨rfl, fun line member => (isCommentLine_iff line).mpr (comments line member),
    fun next isNext => mt (isCommentLine_iff next).mp (ends next isNext)⟩).1

namespace IsCommentRun

variable {line : List Char} {rest before run behind : List (List Char)}

/-- A line of another kind at the front makes no difference to the runs. -/
theorem cons_iff (other : ¬ CommentOnly line) :
    IsCommentRun (line :: rest) before run behind ↔
      ∃ front, before = line :: front ∧ IsCommentRun rest front run behind := by
  constructor
  · rintro ⟨whole, some, comments, begins, ends⟩
    obtain ⟨rfl, inside⟩ | ⟨front, rfl, rfl⟩ := List.cons_eq_append_iff.mp whole
    · obtain ⟨first, others, rfl⟩ := List.exists_cons_of_ne_nil some
      obtain rfl : first = line := (List.cons.inj inside).1
      exact absurd (comments first List.mem_cons_self) other
    · refine ⟨front, rfl, rfl, some, comments, fun last isLast => ?_, ends⟩
      refine begins last (List.getLast?_cons.trans ?_)
      rw [Option.mem_def.mp isLast, Option.getD_some]
  · rintro ⟨front, rfl, ⟨rfl, some, comments, begins, ends⟩⟩
    refine ⟨rfl, some, comments, fun last isLast => ?_, ends⟩
    cases front with
    | nil => exact Option.some.inj isLast ▸ other
    | cons next others =>
      exact begins last (by rwa [List.getLast?_cons_cons] at isLast)

/-- Behind a run that is at the front, the other runs are those of the lines behind it. -/
theorem append_iff {first others : List (List Char)} (present : first ≠ [])
    (comments : ∀ line ∈ first, CommentOnly line)
    (ends : ∀ line ∈ others.head?, ¬ CommentOnly line) :
    IsCommentRun (first ++ others) before run behind ↔
      before = [] ∧ run = first ∧ behind = others ∨
        ∃ front, before = first ++ front ∧ IsCommentRun others front run behind := by
  constructor
  · rintro ⟨whole, some, runComments, begins, runEnds⟩
    obtain ⟨front, rfl, rest⟩ | ⟨back, split, rest⟩ := List.append_eq_append_iff.mp whole
    · refine .inr ⟨front, rfl, rest, some, runComments, fun last isLast => ?_, runEnds⟩
      refine begins last ?_
      rw [List.getLast?_append, Option.mem_def.mp isLast, Option.some_or]
      rfl
    · rcases List.eq_nil_or_concat before with rfl | ⟨front, last, rfl⟩
      · have same := takeWhile_isCommentLine runComments runEnds
        rw [List.nil_append] at whole
        rw [← whole, takeWhile_isCommentLine comments ends] at same
        subst same
        exact .inl ⟨rfl, rfl, (List.append_cancel_left whole).symm⟩
      · -- The line before the run would be one of the first run.
        refine absurd (comments last ?_) (begins last (by simp))
        rw [split]
        simp
  · rintro (⟨rfl, rfl, rfl⟩ | ⟨front, rfl, ⟨rfl, some, runComments, begins, runEnds⟩⟩)
    · exact ⟨rfl, present, comments, nofun, ends⟩
    · refine ⟨List.append_assoc .. ▸ rfl, some, runComments, fun last isLast => ?_, runEnds⟩
      rcases List.eq_nil_or_concat front with rfl | ⟨front, previous, rfl⟩
      · obtain ⟨line, others, rfl⟩ := List.exists_cons_of_ne_nil some
        exact absurd (runComments line List.mem_cons_self) (ends line rfl)
      · refine begins last ?_
        rw [List.concat_eq_append] at isLast ⊢
        rwa [← List.append_assoc, List.getLast?_concat, ← List.getLast?_concat] at isLast

end IsCommentRun

/-! ### Finding them -/

/-- The maximal runs of comment lines, each with the number of its first line. The first line of the
list has the given number. -/
def commentRuns (number : Nat) (lines : List (List Char)) : List (Nat × List (List Char)) :=
  match lines with
  | [] => []
  | line :: rest =>
    if isCommentLine line then
      let run := rest.takeWhile isCommentLine
      (number, line :: run) ::
        commentRuns (number + 1 + run.length) (rest.dropWhile isCommentLine)
    else commentRuns (number + 1) rest
termination_by lines.length
decreasing_by
  · exact Nat.lt_succ_of_le (List.dropWhile_sublist isCommentLine).length_le
  · simp

/-- The runs that are found are all runs, each with the number of its first line. -/
theorem mem_commentRuns_iff {number first : Nat} {lines run : List (List Char)} :
    (first, run) ∈ commentRuns number lines ↔
      ∃ before behind, IsCommentRun lines before run behind ∧ first = number + before.length := by
  induction number, lines using commentRuns.induct with
  | case1 number =>
    rw [commentRuns]
    refine iff_of_false List.not_mem_nil ?_
    rintro ⟨before, behind, ⟨whole, some, -⟩, -⟩
    exact some (List.append_eq_nil_iff.mp (List.append_eq_nil_iff.mp whole.symm).2).1
  | case2 number line rest comment others inductionHypothesis =>
    obtain ⟨split, kind, stops⟩ := Text.cut_spec isCommentLine rest
    have isFront : line :: rest = (line :: others) ++ rest.dropWhile isCommentLine :=
      congrArg (line :: ·) split
    have comments : ∀ one ∈ line :: others, CommentOnly one :=
      List.forall_mem_cons.mpr ⟨(isCommentLine_iff line).mp comment,
        fun one member => (isCommentLine_iff one).mp (kind one member)⟩
    have ends : ∀ one ∈ (rest.dropWhile isCommentLine).head?, ¬ CommentOnly one :=
      fun one isNext => mt (isCommentLine_iff one).mpr (stops one isNext)
    rw [commentRuns, if_pos comment, List.mem_cons, inductionHypothesis, isFront]
    simp only [IsCommentRun.append_iff (List.cons_ne_nil _ _) comments ends, Prod.mk.injEq]
    constructor
    · rintro (⟨rfl, rfl⟩ | ⟨front, behind, found, rfl⟩)
      · exact ⟨[], _, .inl ⟨rfl, rfl, rfl⟩, rfl⟩
      · refine ⟨_, behind, .inr ⟨front, rfl, found⟩, ?_⟩
        rw [List.length_append, List.length_cons]
        omega
    · rintro ⟨before, behind, ⟨rfl, rfl, rfl⟩ | ⟨front, rfl, found⟩, rfl⟩
      · exact .inl ⟨rfl, rfl⟩
      · refine .inr ⟨front, behind, found, ?_⟩
        rw [List.length_append, List.length_cons]
        omega
  | case3 number line rest other inductionHypothesis =>
    have other : ¬ CommentOnly line := mt (isCommentLine_iff line).mpr other
    rw [commentRuns, if_neg (mt (isCommentLine_iff line).mp other), inductionHypothesis]
    simp only [IsCommentRun.cons_iff other]
    constructor
    · rintro ⟨front, behind, found, rfl⟩
      refine ⟨_, behind, ⟨front, rfl, found⟩, ?_⟩
      rw [List.length_cons]
      omega
    · rintro ⟨before, behind, ⟨front, rfl, found⟩, rfl⟩
      refine ⟨front, behind, found, ?_⟩
      rw [List.length_cons]
      omega

/-- The runs are found in the order of their lines, so none is found twice. -/
theorem pairwise_commentRuns (number : Nat) (lines : List (List Char)) :
    (commentRuns number lines).Pairwise fun one other => one.1 < other.1 := by
  induction number, lines using commentRuns.induct with
  | case1 number =>
    rw [commentRuns]
    exact List.Pairwise.nil
  | case2 number line rest comment others inductionHypothesis =>
    rw [commentRuns, if_pos comment]
    refine inductionHypothesis.cons fun run member => ?_
    obtain ⟨before, behind, -, first⟩ := mem_commentRuns_iff.mp member
    dsimp only
    omega
  | case3 number line rest other inductionHypothesis =>
    rwa [commentRuns, if_neg other]

/-- The reports on those of some runs that have enough lines, in their order. -/
def reportsOn (module : String) (minimum : Nat) (runs : List (Nat × List (List Char))) :
    List DeadCodeItem :=
  (runs.filter fun run => minimum ≤ run.2.length).map (commentItem module)

theorem reportsOn_append (module : String) (minimum : Nat)
    (first later : List (Nat × List (List Char))) :
    reportsOn module minimum (first ++ later) =
      reportsOn module minimum first ++ reportsOn module minimum later := by
  rw [reportsOn, List.filter_append, List.map_append]
  rfl

/-! ### The scan -/

namespace CommentScan

/-- The runs that a scan has still to leave, where the lines below are given with the number of the
first one: the run that it is in, as far as that goes on below, and those behind it. -/
def openRuns (scan : CommentScan) (number : Nat) (below : List (List Char)) :
    List (Nat × List (List Char)) :=
  if scan.run = [] then commentRuns number below
  else
    (scan.start, scan.run ++ below.takeWhile isCommentLine) ::
      commentRuns (number + (below.takeWhile isCommentLine).length) (below.dropWhile isCommentLine)

/-- All reports of a scan that goes on with the lines below: those that it has made and those on the
long ones of the runs that it has still to leave. -/
def reports (module : String) (minimum : Nat) (scan : CommentScan) (number : Nat)
    (below : List (List Char)) : List DeadCodeItem :=
  scan.items ++ reportsOn module minimum (scan.openRuns number below)

variable (scan : CommentScan) (number : Nat) {line : List Char} (below : List (List Char))

theorem openRuns_nil :
    scan.openRuns number [] = if scan.run = [] then [] else [(scan.start, scan.run)] := by
  rw [openRuns, List.takeWhile_nil, List.dropWhile_nil, List.append_nil, commentRuns, commentRuns]

/-- A comment line goes to the run that the scan is in, or it begins a run. -/
theorem openRuns_cons_comment (comment : isCommentLine line) (module : String) (minimum : Nat) :
    (scan.readLine module minimum number line).openRuns (number + 1) below =
      scan.openRuns number (line :: below) := by
  rw [readLine, if_pos comment, openRuns,
    if_neg (List.append_ne_nil_of_right_ne_nil _ (List.cons_ne_nil line []))]
  dsimp only
  by_cases outside : scan.run = []
  · rw [openRuns, if_pos outside, outside, commentRuns, if_pos comment]
    rfl
  · rw [openRuns, if_neg outside, List.takeWhile_cons_of_pos comment,
      List.dropWhile_cons_of_pos comment, if_neg (mt List.isEmpty_iff.mp outside),
      List.append_assoc, List.length_cons, Nat.add_assoc, Nat.add_comm 1]
    rfl

/-- A line of another kind stands behind the run that the scan is in. -/
theorem openRuns_cons_other (other : ¬isCommentLine line) :
    scan.openRuns number (line :: below) =
      scan.openRuns number [] ++ commentRuns (number + 1) below := by
  have behind : commentRuns number (line :: below) = commentRuns (number + 1) below := by
    rw [commentRuns, if_neg other]
  rw [openRuns_nil, openRuns, List.takeWhile_cons_of_neg other, List.dropWhile_cons_of_neg other,
    List.append_nil, List.length_nil, Nat.add_zero, behind]
  split <;> rfl

variable (module : String) {minimum : Nat} (enough : 0 < minimum)
include enough

/-- When no line is left, the scan reports the run that it is in. -/
theorem reports_nil :
    scan.reports module minimum number [] = (scan.flush module minimum).items := by
  rw [reports, openRuns_nil, flush]
  by_cases outside : scan.run = []
  · have short : ¬minimum ≤ scan.run.length := by
      rw [outside]
      exact Nat.not_le_of_lt enough
    rw [if_pos outside, if_neg short]
    exact List.append_nil _
  · rw [if_neg outside]
    by_cases long : minimum ≤ scan.run.length <;> simp [reportsOn, long]

/-- Reading a line changes none of the reports that there are in the end. -/
theorem reports_readLine (line : List Char) :
    (scan.readLine module minimum number line).reports module minimum (number + 1) below =
      scan.reports module minimum number (line :: below) := by
  by_cases comment : isCommentLine line
  · have kept : (scan.readLine module minimum number line).items = scan.items := by
      rw [readLine, if_pos comment]
    rw [reports, reports, kept, openRuns_cons_comment scan number below comment]
  · -- The scan leaves the run that it is in, so it reports what it had still to report.
    have later : scan.readLine module minimum number line = scan.flush module minimum :=
      if_neg comment
    have closed : (scan.flush module minimum).openRuns (number + 1) below =
        commentRuns (number + 1) below := if_pos rfl
    rw [later, reports, closed, ← reports_nil scan number module enough, reports, reports,
      openRuns_cons_other scan number below comment, reportsOn_append, List.append_assoc]

/-- Reading all lines leaves the run that the text ends with, which the last flush reports. -/
theorem items_flush_readLines (lines : List (List Char)) :
    ((scan.readLines module minimum number lines).flush module minimum).items =
      scan.reports module minimum number lines := by
  induction lines generalizing scan number with
  | nil => exact (reports_nil scan number module enough).symm
  | cons line below inductionHypothesis =>
    rw [readLines, inductionHypothesis, reports_readLine scan number below module enough]

end CommentScan

/-- The scan reports the long ones of the maximal runs. At least one line is always asked for. -/
theorem commentedBlocks_eq (module source : String) (minimum : Nat) :
    commentedBlocks module source minimum =
      reportsOn module (max minimum 1) (commentRuns 1 (Text.lines source.toList)) := by
  have enough : 0 < max minimum 1 := Nat.lt_of_lt_of_le Nat.zero_lt_one (Nat.le_max_right _ _)
  exact CommentScan.items_flush_readLines .atFirst 1 module enough _

/-! ### Reports -/

/-- The item reports a run that stands behind the given lines of a module. -/
structure DeadCodeItem.ReportsRun (item : DeadCodeItem) (module : String)
    (before run : List (List Char)) : Prop where
  /-- It is about the module. -/
  module : item.module = module
  /-- It tells of a commented block. -/
  kind : item.kind = .commentedBlock
  /-- It gives the number of the first line of the run, counted from one. -/
  line : item.line = before.length + 1
  /-- Its name has the number too. -/
  name : item.name = "commented_block_L" ++ toString (before.length + 1)
  /-- It says how many lines the run has. -/
  detail : item.detail = "Commented-out block (" ++ toString run.length ++ " lines)"
  /-- It shows the first lines, six at most. -/
  snippet : item.snippet =
    Text.joined "\n" ((run.take (min 6 run.length)).map String.ofList)

/-- The items report the runs of comment lines of a source that have enough lines. -/
structure ReportsRuns (module source : String) (minimum : Nat) (items : List DeadCodeItem) :
    Prop where
  /-- An item is there just if it reports such a run. -/
  mem_iff : ∀ item, item ∈ items ↔ ∃ before run behind,
    IsCommentRun (Text.lines source.toList) before run behind ∧
      max minimum 1 ≤ run.length ∧ item.ReportsRun module before run
  /-- The items are in the order of the lines, so none is there twice. -/
  ordered : items.Pairwise fun one other => one.line < other.line

theorem DeadCodeItem.reportsRun_iff {item : DeadCodeItem} {module : String}
    {before run : List (List Char)} :
    item.ReportsRun module before run ↔ item = commentItem module (before.length + 1, run) := by
  have shown : run.take (min 6 run.length) = run.take commentSnippetLines :=
    List.take_eq_take_iff.mpr (by rw [commentSnippetLines, Nat.min_assoc, Nat.min_self])
  constructor
  · rintro ⟨sameModule, kind, line, name, detail, snippet⟩
    obtain ⟨itemName, itemModule, itemLine, itemKind, itemDetail, itemSnippet⟩ := item
    dsimp only at sameModule kind line name detail snippet
    rw [sameModule, kind, line, name, detail, snippet, shown]
    rfl
  · rintro rfl
    exact ⟨rfl, rfl, rfl, rfl, rfl, by rw [shown]; rfl⟩

/-- A scan for commented-out code reports the runs of comment lines that have enough lines, each
run once and in their order. -/
theorem commentedBlocks_reportsRuns (module source : String) (minimum : Nat) :
    ReportsRuns module source minimum (commentedBlocks module source minimum) where
  mem_iff item := by
    rw [commentedBlocks_eq, reportsOn, List.mem_map]
    constructor
    · rintro ⟨⟨first, run⟩, member, rfl⟩
      obtain ⟨found, enough⟩ := List.mem_filter.mp member
      obtain ⟨before, behind, isRun, rfl⟩ := mem_commentRuns_iff.mp found
      refine ⟨before, run, behind, isRun, of_decide_eq_true enough, ?_⟩
      rw [DeadCodeItem.reportsRun_iff, Nat.add_comm]
    · rintro ⟨before, run, behind, isRun, enough, reports⟩
      refine ⟨(before.length + 1, run), List.mem_filter.mpr ⟨?_, decide_eq_true enough⟩,
        (DeadCodeItem.reportsRun_iff.mp reports).symm⟩
      exact mem_commentRuns_iff.mpr ⟨before, behind, isRun, Nat.add_comm _ _⟩
  ordered := by
    rw [commentedBlocks_eq, reportsOn, List.pairwise_map]
    exact (pairwise_commentRuns 1 _).sublist List.filter_sublist

end MigrationGuard
