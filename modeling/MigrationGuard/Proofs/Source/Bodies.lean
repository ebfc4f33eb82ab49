/-
This file says what the loop gathers that reads the lines below a definition. The
lines that it gets to are the region of the definition: those within the window
before the first one that goes back to the indentation of the definition. What it
has gathered in the end are the calls on these lines, one line after the other,
and the side effects on any of them. A line without code is skipped by the loop
but belongs to the region, which makes no difference, because nothing is found on
it. Reading one line adds what is found on it to what was gathered before, and by
induction over the lines below the whole loop adds what is found on the region.
With this the region can be spoken of without the loop, as a piece of the text
with a first line that ends it.
-/

import MigrationGuard.Proofs.Source.Callees
import MigrationGuard.Proofs.Text.Search

namespace MigrationGuard.LineScanner

/-! ### Regions -/

/-- A line that ends the region of a definition: its code is not blank and indented no deeper. -/
def endsRegion (indent : Nat) (line : List Char) : Bool :=
  let code := stripComment line
  !code.all Text.isBlank && indentation code ≤ indent

/-- The lines within a number of lines before one that ends a region. -/
def linesWithin (left indent : Nat) (below : List (List Char)) : List (List Char) :=
  (below.take left).takeWhile fun line => !endsRegion indent line

/-- The region of a definition among the lines below it. A window of no lines counts as one line. -/
def region (window indent : Nat) (below : List (List Char)) : List (List Char) :=
  linesWithin (max window 1) indent below

section
variable {left indent : Nat} {line : List Char} {below : List (List Char)}

theorem linesWithin_cons (goesOn : endsRegion indent line = false) :
    linesWithin (left + 1) indent (line :: below) = line :: linesWithin left indent below := by
  rw [linesWithin, List.take_succ_cons, List.takeWhile_cons_of_pos (by rw [goesOn]; rfl)]
  rfl

theorem linesWithin_of_endsRegion (ends : endsRegion indent line) :
    linesWithin (left + 1) indent (line :: below) = [] := by
  rw [linesWithin, List.take_succ_cons, List.takeWhile_cons_of_neg (by rw [ends]; decide)]

end

/-! ### What is found on a line -/

/-- The calls on a line, in their order, without its comment. -/
def lineCalls (line : List Char) : List CallSite :=
  (callees (stripComment line)).map fun callee => ⟨callee, .direct⟩

/-- The line speaks of the environment, be it in a call or not, but not in its comment. -/
def mentionsEnvironment (line : List Char) : Bool :=
  Text.occursIn "os.environ".toList (stripComment line)

/-- The side effects on a line: those of its calls, and reading the environment if it speaks of
that. -/
def lineEffects (line : List Char) : EffectSet :=
  let ofCalls := EffectSet.unionAll ((callees (stripComment line)).map classifyCall)
  if mentionsEnvironment line then environmentRead.union ofCalls else ofCalls

/-- On a line without code nothing is called, as there is no parenthesis on it. -/
theorem callees_of_blank {code : List Char} (blank : code.all Text.isBlank) : callees code = [] := by
  have closed : '(' ∉ code := fun among => absurd (List.all_eq_true.mp blank '(' among) (by decide)
  exact (calls_iff.mp (.none closed)).symm

theorem lineEffects_of_blank {line : List Char} (blank : (stripComment line).all Text.isBlank) :
    lineEffects line = .empty := by
  have silent : ¬mentionsEnvironment line := by
    rw [mentionsEnvironment, Text.occursIn_iff]
    intro mentioned
    have among : 'o' ∈ stripComment line := mentioned.subset (by decide)
    exact absurd (List.all_eq_true.mp blank 'o' among) (by decide)
  rw [lineEffects, if_neg silent, callees_of_blank blank]
  rfl

/-! ### The loop -/

namespace Body

/-- What has been gathered when some lines more have been read, whatever was gathered before. -/
def joined (body : Body) (lines : List (List Char)) : Body :=
  ⟨body.calls ++ lines.flatMap lineCalls,
    body.effects.union (EffectSet.unionAll (lines.map lineEffects))⟩

theorem joined_nil (body : Body) : body.joined [] = body := by
  rw [joined, List.flatMap_nil, List.append_nil, List.map_nil]
  exact congrArg (Body.mk _) (EffectSet.union_empty _)

theorem joined_cons (body : Body) (line : List Char) (lines : List (List Char)) :
    body.joined (line :: lines) = (body.joined [line]).joined lines := by
  rw [joined, joined, joined, List.flatMap_singleton, List.append_assoc, EffectSet.union_assoc]
  rw [List.flatMap_cons]
  refine congrArg (Body.mk _) (congrArg _ ?_)
  exact (congrArg (EffectSet.union · _) (EffectSet.union_empty (lineEffects line))).symm

/-- Nothing comes from a line without code, so it makes no difference that the loop skips it. -/
theorem joined_of_blank (body : Body) {line : List Char}
    (blank : (stripComment line).all Text.isBlank) : body.joined [line] = body := by
  rw [joined, List.flatMap_singleton, lineCalls, callees_of_blank blank, List.map_nil,
    List.append_nil, List.map_singleton, lineEffects_of_blank blank]
  exact congrArg (Body.mk _) (EffectSet.union_empty _)

/-- The names before the parentheses of a line are gone through one after the other. -/
theorem foldl_addCall (body : Body) (names : List String) :
    names.foldl addCall body =
      ⟨body.calls ++ (names.filter fun callee => !keywords.contains callee).map (⟨·, .direct⟩),
        body.effects.union (EffectSet.unionAll
          ((names.filter fun callee => !keywords.contains callee).map classifyCall))⟩ := by
  induction names generalizing body with
  | nil =>
    rw [List.foldl_nil, List.filter_nil, List.map_nil, List.append_nil, List.map_nil]
    exact congrArg (Body.mk _) (EffectSet.union_empty _).symm
  | cons callee names inductionHypothesis =>
    rw [List.foldl_cons, inductionHypothesis, addCall]
    by_cases isKeyword : keywords.contains callee
    · rw [if_pos isKeyword, List.filter_cons_of_neg (by rw [isKeyword]; decide)]
    · have isCall : (!keywords.contains callee) = true := by
        rwa [Bool.not_eq_true', ← Bool.not_eq_true]
      rw [if_neg isKeyword, List.filter_cons, if_pos isCall, List.append_assoc,
        EffectSet.union_assoc]
      rfl

/-- Reading a line adds what is found on it to what has been gathered. -/
theorem addLine_eq (body : Body) (line : List Char) :
    body.addLine (stripComment line) = body.joined [line] := by
  have single : EffectSet.unionAll [lineEffects line] = lineEffects line :=
    EffectSet.union_empty _
  rw [addLine, foldl_addCall, joined, List.flatMap_singleton, List.map_singleton, single,
    addMention, lineEffects, mentionsEnvironment, callees, lineCalls, callees]
  split_ifs with mentioned
  · rw [EffectSet.union_assoc]
  · rfl

/-- The loop reads the lines of the region and no others, and adds what is found on them. -/
theorem readLines_eq (left indent : Nat) (body : Body) (below : List (List Char)) :
    readLines indent left body below = body.joined (linesWithin left indent below) := by
  fun_induction readLines indent left body below with
  | case1 body below => exact body.joined_nil.symm
  | case2 left body some => rw [linesWithin, List.take_nil, List.takeWhile_nil, joined_nil]
  | case3 left body line below code blank inductionHypothesis =>
    have goesOn : endsRegion indent line = false := by
      rw [endsRegion, blank]
      rfl
    rw [linesWithin_cons goesOn, joined_cons, joined_of_blank body blank, inductionHypothesis]
  | case4 left body line below code notBlank deeper =>
    have ends : endsRegion indent line := by
      simp [endsRegion, notBlank, deeper, code]
    rw [linesWithin_of_endsRegion ends, joined_nil]
  | case5 left body line below code notBlank deeper inductionHypothesis =>
    have goesOn : endsRegion indent line = false := by
      simp [endsRegion, deeper, code]
    rw [linesWithin_cons goesOn, joined_cons, ← addLine_eq, inductionHypothesis]

end Body

end MigrationGuard.LineScanner
