/-
This file says which calls the line scanner finds on a line. Every opening
parenthesis is looked at, in order: if a dotted name stands before it, blanks
apart, the longest such name is called there, unless it is a word of the language.
The scanner comes to this without looking back. It takes a dotted name as soon as
one begins and makes it as long as it can be. What it has passed over since the
last parenthesis is without consequence, because no name that begins there reaches
the next parenthesis: that is the invariant which every step of the scanner keeps.
The names that a text calls are determined by it, since names at the end of one
text all end at one place and the longest of them is one only; so it is enough
that the scanner finds such names, and the two descriptions then say the same of
every text.
-/

import Mathlib.Data.List.Induction
import MigrationGuard.Proofs.Source.Headers

namespace MigrationGuard.LineScanner

open Text (cut_iff)

/-! ### Dotted names -/

/-- A text is a name, or a name with a point and a dotted name behind it. -/
inductive IsDotted : List Char → Prop where
  /-- A single name. -/
  | name {name : List Char} (isName : IsName name) : IsDotted name
  /-- A name before a point. -/
  | point {name rest : List Char} (isName : IsName name) (dotted : IsDotted rest) :
    IsDotted (name ++ '.' :: rest)

namespace IsDotted

variable {text : List Char} {next : Char}

/-- A dotted name begins like a name, so the scanner notices where it begins. -/
theorem begins (dotted : IsDotted text) :
    ∃ first others, text = first :: others ∧ beginsName first := by
  cases dotted with
  | name isName =>
    obtain ⟨first, others, same, starts, -⟩ := isName
    exact ⟨first, others, same, starts⟩
  | point isName =>
    obtain ⟨first, others, rfl, starts, -⟩ := isName
    exact ⟨first, _, rfl, starts⟩

theorem ne_nil (dotted : IsDotted text) : text ≠ [] := by
  obtain ⟨first, others, rfl, -⟩ := dotted.begins
  exact List.cons_ne_nil _ _

/-- There are only points and characters of names in it, so neither a blank nor a parenthesis stands
in one. -/
theorem characters (dotted : IsDotted text) :
    ∀ character ∈ text, continuesName character ∨ character = '.' := by
  induction dotted with
  | name isName => exact fun character among => .inl (isName.continues character among)
  | point isName _ inductionHypothesis =>
    intro character among
    obtain early | rfl | late := by simpa using among
    · exact .inl (isName.continues character early)
    · exact .inr rfl
    · exact inductionHypothesis character late

/-- Behind a point a name begins, so no dotted name ends with a point. -/
theorem behind_point (dotted : IsDotted text) {before behind : List Char}
    (split : text = before ++ '.' :: behind) :
    ∃ first others, behind = first :: others ∧ beginsName first := by
  induction dotted generalizing before with
  | name isName =>
    have inside := isName.continues '.' (split ▸ by simp)
    exact absurd inside (by decide)
  | @point name rest isName dotted inductionHypothesis =>
    obtain ⟨further, rfl, later⟩ | ⟨further, early, later⟩ := List.append_eq_append_iff.mp split
    · cases further with
      | nil =>
        obtain rfl := (List.cons.inj later).2
        exact dotted.begins
      | cons point further => exact inductionHypothesis (List.cons.inj later).2
    · cases further with
      | nil =>
        obtain rfl := (List.cons.inj later).2
        exact dotted.begins
      | cons point further =>
        obtain rfl := (List.cons.inj later).1
        have inside := isName.continues '.' (early ▸ by simp)
        exact absurd inside (by decide)

/-- A dotted name goes on with a character of names, and is a dotted name again. -/
theorem concat (dotted : IsDotted text) (continues : continuesName next) :
    IsDotted (text ++ [next]) := by
  induction dotted with
  | name isName =>
    obtain ⟨first, others, rfl, starts, further⟩ := isName
    refine .name ⟨first, others ++ [next], rfl, starts, fun character among => ?_⟩
    obtain early | rfl := by simpa using among
    · exact further character early
    · exact continues
  | point isName _ inductionHypothesis =>
    rw [List.append_assoc, List.cons_append]
    exact .point isName inductionHypothesis

/-- A dotted name goes on with a point and the beginning of a name. -/
theorem concat_point (dotted : IsDotted text) (starts : beginsName next) :
    IsDotted (text ++ ['.', next]) := by
  have single : IsDotted [next] := .name ⟨next, [], rfl, starts, nofun⟩
  induction dotted with
  | name isName => exact .point isName single
  | point isName _ inductionHypothesis =>
    rw [List.append_assoc, List.cons_append]
    exact .point isName inductionHypothesis

end IsDotted

/-- A dotted name does not go on with this text, neither with a character nor with a point and a
name. -/
def StopsDotted (text : List Char) : Prop :=
  (∀ next ∈ text.head?, ¬continuesName next) ∧
    ∀ next others, text = '.' :: next :: others → ¬beginsName next

/-- From a dotted name that the text begins with, the scanner gets to the longest one. -/
theorem dottedName_spec (reversed text : List Char) (dotted : IsDotted reversed.reverse) :
    reversed.reverse ++ text = (dottedName reversed text).1.reverse ++ (dottedName reversed text).2 ∧
      IsDotted (dottedName reversed text).1.reverse ∧ StopsDotted (dottedName reversed text).2 := by
  fun_induction dottedName reversed text with
  | case1 reversed => exact ⟨rfl, dotted, nofun, nofun⟩
  | case2 reversed character continues =>
    refine ⟨?_, ?_, nofun, nofun⟩
    · rw [List.reverse_cons, List.append_nil]
    · rw [List.reverse_cons]
      exact dotted.concat continues
  | case3 reversed character other =>
    refine ⟨rfl, dotted, ?_, nofun⟩
    rintro next ⟨⟩
    exact other
  | case4 reversed character next rest continues inductionHypothesis =>
    rw [List.reverse_cons] at inductionHypothesis
    obtain ⟨split, others⟩ := inductionHypothesis (dotted.concat continues)
    exact ⟨by rw [← split, List.append_assoc]; rfl, others⟩
  | case5 reversed character next rest other point inductionHypothesis =>
    obtain ⟨rfl, starts⟩ := point
    rw [List.reverse_cons, List.reverse_cons, List.append_assoc] at inductionHypothesis
    obtain ⟨split, others⟩ := inductionHypothesis (dotted.concat_point starts)
    exact ⟨by rw [← split, List.append_assoc]; rfl, others⟩
  | case6 reversed character next rest other noPoint =>
    refine ⟨rfl, dotted, ?_, ?_⟩
    · rintro first ⟨⟩
      exact other
    · rintro first others ⟨⟩ starts
      exact noPoint ⟨rfl, starts⟩

/-! ### Calls -/

/-- A dotted name stands at the end of a text, blanks apart. It need not be the longest one. -/
def EndsWithName (text name : List Char) : Prop :=
  ∃ before blanks, text = before ++ (name ++ blanks) ∧ IsDotted name ∧ IsGap blanks

/-- The name is the longest one that stands at the end of a text. -/
def EndsWithLongest (text name : List Char) : Prop :=
  EndsWithName text name ∧ ∀ other, EndsWithName text other → other.length ≤ name.length

/-- The names that a text calls are those before its opening parentheses, in order. -/
inductive Calls : List Char → List String → Prop where
  /-- There is no parenthesis. -/
  | none {text : List Char} (closed : '(' ∉ text) : Calls text []
  /-- The longest name before the first parenthesis is called. -/
  | call {before name rest : List Char} {names : List String} (closed : '(' ∉ before)
    (longest : EndsWithLongest before name) (isCall : String.ofList name ∉ keywords)
    (calls : Calls rest names) : Calls (before ++ '(' :: rest) (String.ofList name :: names)
  /-- No name stands before the first parenthesis, or it is a word of the language. -/
  | other {before rest : List Char} {names : List String} (closed : '(' ∉ before)
    (noCall : ∀ name, EndsWithLongest before name → String.ofList name ∈ keywords)
    (calls : Calls rest names) : Calls (before ++ '(' :: rest) names

/-- The names that a line calls. -/
def callees (code : List Char) : List String :=
  (calleesWithin code.length code).filter fun callee => !keywords.contains callee

/-! ### Names before a parenthesis -/

theorem not_isIndent_of_isDotted {name : List Char} (dotted : IsDotted name) :
    ∀ character ∈ name, ¬isIndent character := by
  intro character among blank
  obtain continues | rfl := dotted.characters character among
  · exact not_continuesName_of_isIndent blank continues
  · exact absurd blank (by decide)

theorem paren_notMem_of_isDotted {name : List Char} (dotted : IsDotted name) : '(' ∉ name :=
  fun among => absurd (dotted.characters '(' among) (by decide)

/-- What stands between a dotted name and a parenthesis does not prolong the name. -/
theorem not_characters_of_gap {blanks rest : List Char} (isGap : IsGap blanks) :
    ∀ next ∈ (blanks ++ '(' :: rest).head?, ¬(continuesName next ∨ next = '.') := by
  cases blanks with
  | nil =>
    rintro next ⟨⟩
    decide
  | cons blank others =>
    rintro next ⟨⟩
    have isBlank := isGap blank List.mem_cons_self
    rintro (continues | rfl)
    · exact not_continuesName_of_isIndent isBlank continues
    · exact absurd isBlank (by decide)

/-- The blanks behind a name at the end of a text are all blanks that the text ends with. So names
at the end of one text all end at one place. -/
theorem same_end {before name blanks beforeToo other blanksToo : List Char}
    (same : before ++ (name ++ blanks) = beforeToo ++ (other ++ blanksToo))
    (dotted : IsDotted name) (dottedToo : IsDotted other) (isGap : IsGap blanks)
    (isGapToo : IsGap blanksToo) : before ++ name = beforeToo ++ other := by
  have cut : ∀ {front text gap : List Char}, IsDotted text → IsGap gap →
      ((front ++ (text ++ gap)).reverse.dropWhile isIndent) = (front ++ text).reverse := by
    intro front text gap isText isBlank
    refine (@cut_iff _ isIndent _ gap.reverse _ |>.mpr
      ⟨?_, fun character among => ?_, fun next isNext => ?_⟩).2
    · rw [← List.append_assoc, List.reverse_append]
    · exact isBlank character (List.mem_reverse.mp among)
    · have among : next ∈ text := by
        rw [List.reverse_append, List.head?_append_of_ne_nil _
          (mt List.reverse_eq_nil_iff.mp isText.ne_nil)] at isNext
        exact List.mem_reverse.mp (List.mem_of_mem_head? isNext)
      exact not_isIndent_of_isDotted isText next among
  have reversed := (cut dotted isGap).symm.trans ((congrArg (fun text =>
    text.reverse.dropWhile isIndent) same).trans (cut dottedToo isGapToo))
  exact List.reverse_injective reversed

theorem EndsWithLongest.unique {text name other : List Char} (longest : EndsWithLongest text name)
    (longestToo : EndsWithLongest text other) : name = other := by
  have sameLength := Nat.le_antisymm (longestToo.2 name longest.1) (longest.2 other longestToo.1)
  obtain ⟨before, blanks, rfl, dotted, isGap⟩ := longest.1
  obtain ⟨beforeToo, blanksToo, split, dottedToo, isGapToo⟩ := longestToo.1
  have same := same_end split dotted dottedToo isGap isGapToo
  exact (List.append_inj' same sameLength).2

/-- The first parenthesis of a text has one place, so what is before it is determined. -/
theorem same_paren {before rest beforeToo restToo : List Char}
    (same : before ++ '(' :: rest = beforeToo ++ '(' :: restToo) (closed : '(' ∉ before)
    (closedToo : '(' ∉ beforeToo) : before = beforeToo ∧ rest = restToo := by
  have cut : ∀ front behind : List Char, '(' ∉ front →
      (front ++ '(' :: behind).takeWhile (· ≠ '(') = front ∧
        (front ++ '(' :: behind).dropWhile (· ≠ '(') = '(' :: behind := by
    intro front behind none
    refine cut_iff.mpr ⟨rfl, fun character among => ?_, ?_⟩
    · exact decide_eq_true fun paren => none (paren ▸ among)
    · rintro next ⟨⟩
      decide
  obtain ⟨front, behind⟩ := cut before rest closed
  rw [same, (cut _ _ closedToo).1] at front
  rw [same, (cut _ _ closedToo).2] at behind
  exact ⟨front.symm, (List.cons.inj behind).2.symm⟩

/-- The calls of a text are determined by it: there is one list of them at most. -/
theorem Calls.unique {text : List Char} {names others : List String} (calls : Calls text names)
    (again : Calls text others) : names = others := by
  induction calls generalizing others with
  | none closed =>
    cases again with
    | none => rfl
    | call => exact absurd (by simp) closed
    | other => exact absurd (by simp) closed
  | @call before name rest names closed longest isCall _ inductionHypothesis =>
    generalize whole : before ++ '(' :: rest = text at again
    cases again with
    | none none => exact absurd (whole ▸ by simp) none
    | call closedToo longestToo _ calls =>
      obtain ⟨rfl, rfl⟩ := same_paren whole closed closedToo
      rw [longest.unique longestToo, inductionHypothesis calls]
    | other closedToo noCall _ =>
      obtain ⟨rfl, rfl⟩ := same_paren whole closed closedToo
      exact absurd (noCall name longest) isCall
  | @other before rest names closed noCall _ inductionHypothesis =>
    generalize whole : before ++ '(' :: rest = text at again
    cases again with
    | none none => exact absurd (whole ▸ by simp) none
    | call closedToo longest isCall _ =>
      obtain ⟨rfl, rfl⟩ := same_paren whole closed closedToo
      exact absurd (noCall _ longest) isCall
    | other closedToo _ calls =>
      obtain ⟨rfl, rfl⟩ := same_paren whole closed closedToo
      exact inductionHypothesis calls

/-! ### What the scanner has passed over -/

/-- No name before the first parenthesis begins in what has been passed over. -/
def Idle (passed code : List Char) : Prop :=
  ∀ before name blanks rest, passed ++ code = before ++ (name ++ (blanks ++ '(' :: rest)) →
    '(' ∉ before → IsDotted name → IsGap blanks → passed.length ≤ before.length

theorem idle_nil (code : List Char) : Idle [] code :=
  fun _ _ _ _ _ _ _ _ => Nat.zero_le _

variable {passed : List Char}

/-- Before a parenthesis that follows what was passed over there is no name, so nothing is called
there. -/
theorem Idle.not_endsWithName {rest name : List Char} (idle : Idle passed ('(' :: rest))
    (closed : '(' ∉ passed) : ¬EndsWithName passed name := by
  rintro ⟨before, blanks, split, dotted, isGap⟩
  have present := List.length_pos_iff.mpr dotted.ne_nil
  have atMost := idle before name blanks rest (by rw [split]; simp)
    (fun among => closed (split ▸ List.mem_append_left _ among)) dotted isGap
  rw [split, List.length_append, List.length_append] at atMost
  omega

/-- A character that no name begins with may be passed over, and the invariant stays. -/
theorem Idle.step_other {character : Char} {rest : List Char}
    (idle : Idle passed (character :: rest)) (other : ¬beginsName character) :
    Idle (passed ++ [character]) rest := by
  intro before name blanks behind split closed dotted isGap
  rw [List.append_assoc] at split
  have atMost := idle before name blanks behind split closed dotted isGap
  rw [List.length_append, List.length_singleton, Nat.succ_le_iff]
  refine Nat.lt_of_le_of_ne atMost fun same => ?_
  -- A name that begins behind what was passed over would begin with the character.
  obtain ⟨-, later⟩ := List.append_inj split same
  obtain ⟨first, others, rfl, begins⟩ := dotted.begins
  exact other ((List.cons.inj later).1 ▸ begins)

/-- A longest dotted name that stands before no parenthesis may be passed over. -/
theorem Idle.step_name {name behind : List Char} (idle : Idle passed (name ++ behind))
    (dotted : IsDotted name) (stops : StopsDotted behind)
    (noParen : ∀ rest, behind.dropWhile isIndent ≠ '(' :: rest) : Idle (passed ++ name) behind := by
  intro before other blanks rest split closed dottedToo isGap
  rw [List.append_assoc] at split
  have atMost := idle before other blanks rest split closed dottedToo isGap
  rw [List.length_append]
  by_contra within
  -- The other name begins within the name, so it has a part of the name in front.
  obtain ⟨front, rfl⟩ : passed <+: before :=
    List.prefix_of_prefix_length_le ⟨_, split⟩ (List.prefix_append _ _) atMost
  rw [List.append_assoc, List.append_cancel_left_eq] at split
  rw [List.length_append] at within
  obtain ⟨inside, rfl⟩ : front <+: name :=
    List.prefix_of_prefix_length_le ⟨_, split.symm⟩ (List.prefix_append _ _) (by omega)
  rw [List.append_assoc, List.append_cancel_left_eq] at split
  have ends : behind ≠ blanks ++ '(' :: rest := by
    rintro rfl
    refine noParen rest (cut_iff.mpr ⟨rfl, isGap, ?_⟩).2
    rintro next ⟨⟩
    decide
  obtain ⟨further, rfl, later⟩ | ⟨further, rfl, later⟩ := List.append_eq_append_iff.mp split
  · cases further with
    | nil => exact ends later
    | cons next further =>
      -- It goes on behind the name, which could then have been longer.
      obtain continues | rfl := dottedToo.characters next (by simp)
      · exact stops.1 next (by rw [later]; rfl) continues
      · obtain ⟨first, others, rfl, begins⟩ := dottedToo.behind_point rfl
        exact stops.2 first _ later begins
  · cases further with
    | nil => exact ends later.symm
    | cons next further =>
      -- It ends within the name, where no parenthesis stands.
      have character := dotted.characters next (by simp)
      exact not_characters_of_gap isGap next (by rw [later]; rfl) character

/-- The name that begins behind what was passed over is the longest one before its parenthesis. -/
theorem Idle.endsWithLongest {name blanks rest : List Char}
    (idle : Idle passed (name ++ (blanks ++ '(' :: rest))) (closed : '(' ∉ passed)
    (dotted : IsDotted name) (isGap : IsGap blanks) :
    EndsWithLongest (passed ++ (name ++ blanks)) name := by
  refine ⟨⟨passed, blanks, rfl, dotted, isGap⟩, ?_⟩
  rintro other ⟨before, blanksToo, split, dottedToo, isGapToo⟩
  have same := congrArg List.length (same_end split dotted dottedToo isGap isGapToo)
  have closedToo : '(' ∉ before := by
    intro among
    have inside : '(' ∈ passed ++ (name ++ blanks) := split ▸ List.mem_append_left _ among
    obtain early | isName | isBlank := by simpa using inside
    · exact closed early
    · exact paren_notMem_of_isDotted dotted isName
    · exact absurd (isGap '(' isBlank) (by decide)
  have atMost := idle before other blanksToo rest
    (by simpa using congrArg (· ++ '(' :: rest) split) closedToo dottedToo isGapToo
  rw [List.length_append, List.length_append] at same
  omega

/-- At a name that stands before a parenthesis a call is found, unless the name is a word of the
language, and behind the parenthesis the search begins anew. -/
theorem Idle.calls_name {name blanks rest : List Char} {names : List String}
    (idle : Idle passed (name ++ (blanks ++ '(' :: rest))) (closed : '(' ∉ passed)
    (dotted : IsDotted name) (isGap : IsGap blanks)
    (calls : Calls rest (names.filter fun callee => !keywords.contains callee)) :
    Calls (passed ++ (name ++ (blanks ++ '(' :: rest)))
      ((String.ofList name :: names).filter fun callee => !keywords.contains callee) := by
  have longest := idle.endsWithLongest closed dotted isGap
  have closedToo : '(' ∉ passed ++ (name ++ blanks) := by
    have noGap : '(' ∉ blanks := fun among => absurd (isGap '(' among) (by decide)
    simp [closed, paren_notMem_of_isDotted dotted, noGap]
  have whole : passed ++ (name ++ (blanks ++ '(' :: rest)) =
      (passed ++ (name ++ blanks)) ++ '(' :: rest := by simp
  rw [whole, List.filter_cons]
  split_ifs with isCall
  · exact .call closedToo longest (by simpa using isCall) calls
  · refine .other closedToo (fun other longestToo => ?_) calls
    rw [longestToo.unique longest]
    simpa using isCall

/-! ### Calls that the scanner finds -/

section
variable {steps : Nat} {character : Char} {rest : List Char}

theorem calleesWithin_other (other : ¬beginsName character) :
    calleesWithin (steps + 1) (character :: rest) = calleesWithin steps rest := by
  rw [calleesWithin, if_neg other]

theorem calleesWithin_call {others : List Char} (begins : beginsName character)
    (paren : (dottedName [character] rest).2.dropWhile isIndent = '(' :: others) :
    calleesWithin (steps + 1) (character :: rest) =
      String.ofList (dottedName [character] rest).1.reverse :: calleesWithin steps others := by
  rw [calleesWithin, if_pos begins]
  dsimp only
  rw [paren]
  rfl

theorem calleesWithin_name (begins : beginsName character)
    (noParen : ∀ others, (dottedName [character] rest).2.dropWhile isIndent ≠ '(' :: others) :
    calleesWithin (steps + 1) (character :: rest) =
      calleesWithin steps (dottedName [character] rest).2 := by
  rw [calleesWithin, if_pos begins]
  dsimp only
  split
  · rename_i others paren
    exact absurd paren (noParen others)
  · rfl

end

/-- The scanner finds the calls of a text whose front it has passed over. -/
theorem calls_calleesWithin {steps : Nat} {code : List Char} (enough : code.length ≤ steps)
    (closed : '(' ∉ passed) (idle : Idle passed code) :
    Calls (passed ++ code)
      ((calleesWithin steps code).filter fun callee => !keywords.contains callee) := by
  induction steps generalizing passed code with
  | zero =>
    obtain rfl := List.length_eq_zero_iff.mp (Nat.le_zero.mp enough)
    exact .none (by simpa using closed)
  | succ steps inductionHypothesis =>
    cases code with
    | nil => exact .none (by simpa using closed)
    | cons character rest =>
      by_cases begins : beginsName character
      · have single : IsDotted [character].reverse := .name ⟨character, [], rfl, begins, nofun⟩
        obtain ⟨split, dotted, stops⟩ := dottedName_spec [character] rest single
        have split : character :: rest = (dottedName [character] rest).1.reverse ++
          (dottedName [character] rest).2 := split
        have present := List.length_pos_iff.mpr dotted.ne_nil
        rw [split, List.length_append] at enough
        rw [split] at idle
        by_cases paren : ∃ others, (dottedName [character] rest).2.dropWhile isIndent = '(' :: others
        · obtain ⟨others, paren⟩ := paren
          rw [calleesWithin_call begins paren, split]
          obtain ⟨afterName, isGap, -⟩ := cut_iff.mp (And.intro rfl paren)
          have fewer := congrArg List.length afterName
          rw [List.length_append, List.length_cons] at fewer
          rw [afterName] at idle ⊢
          exact idle.calls_name closed dotted isGap
            (inductionHypothesis (by omega) List.not_mem_nil (idle_nil others))
        · rw [calleesWithin_name begins (not_exists.mp paren), split, ← List.append_assoc]
          exact inductionHypothesis (by omega) (by simp [closed, paren_notMem_of_isDotted dotted])
            (idle.step_name dotted stops (not_exists.mp paren))
      · rw [calleesWithin_other begins]
        rw [List.length_cons, Nat.succ_le_succ_iff] at enough
        by_cases paren : character = '('
        · subst paren
          refine .other closed (fun name longest => ?_)
            (inductionHypothesis enough List.not_mem_nil (idle_nil rest))
          exact absurd longest.1 (idle.not_endsWithName closed)
        · rw [List.append_cons]
          exact inductionHypothesis enough (by simpa [eq_comm] using ⟨closed, paren⟩)
            (idle.step_other begins)

/-- The scanner finds the calls of every text, in their order, and nothing else. -/
theorem calls_iff {code : List Char} {names : List String} :
    Calls code names ↔ names = callees code := by
  have finds : Calls code (callees code) :=
    calls_calleesWithin (Nat.le_refl _) List.not_mem_nil (idle_nil code)
  refine ⟨fun calls => calls.unique finds, ?_⟩
  rintro rfl
  exact finds

end MigrationGuard.LineScanner
