/-
This file says which lines begin a definition and what they tell of it. Such a
line has its parts in a fixed order: an indentation, perhaps the word `async`, the
word `def`, a name, and the parameters if a parenthesis follows. Between two parts
stand blanks, where they are needed to tell the parts apart or where they are not.
The parts of a line are determined by it, because each of them is as long as it
can be and what comes behind it is of another kind. So there is one header at most
for a line, and it is the one that the line scanner finds. The description has the
parts as texts that make up the line, with no order in which they are looked for;
the proof takes them off the line one by one, and a single lemma about cutting a
text behind its longest beginning of one kind does it for blanks, names and
parameters.
-/

import Mathlib.Data.List.Basic
import MigrationGuard.Proofs.Text.Search
import MigrationGuard.Source.LineScanner

namespace MigrationGuard.LineScanner

open Text (cut_iff cut_spec)

/-! ### Names and blanks -/

/-- All characters of a text are blanks that indent, or there is none. Such a gap may stand between
two parts. -/
def IsGap (text : List Char) : Prop :=
  ∀ character ∈ text, isIndent character

/-- A text is a name: a letter or an underscore, and digits among the characters behind it. -/
def IsName (text : List Char) : Prop :=
  ∃ first others, text = first :: others ∧ beginsName first ∧
    ∀ character ∈ others, continuesName character

theorem continuesName_of_beginsName {character : Char} (begins : beginsName character) :
    continuesName character := by
  rw [beginsName, Bool.or_eq_true] at begins
  rw [continuesName, Char.isAlphanum, Bool.or_eq_true, Bool.or_eq_true]
  exact begins.imp_left .inl

theorem not_continuesName_of_isIndent {character : Char} (blank : isIndent character) :
    ¬continuesName character := by
  rw [isIndent, Bool.or_eq_true, decide_eq_true_eq, decide_eq_true_eq] at blank
  obtain rfl | rfl := blank <;> decide

theorem IsName.continues {text : List Char} (isName : IsName text) :
    ∀ character ∈ text, continuesName character := by
  obtain ⟨first, others, rfl, begins, continues⟩ := isName
  exact List.forall_mem_cons.mpr ⟨continuesName_of_beginsName begins, continues⟩

theorem foldl_width {gap : List Char} (isGap : IsGap gap) (start : Nat) :
    gap.foldl (fun width character => if character = '\t' then width + 4 else width + 1) start =
      start + (gap.count ' ' + 4 * gap.count '\t') := by
  induction gap generalizing start with
  | nil => rfl
  | cons character gap inductionHypothesis =>
    obtain ⟨blank, others⟩ := List.forall_mem_cons.mp isGap
    rw [isIndent, Bool.or_eq_true, decide_eq_true_eq, decide_eq_true_eq] at blank
    rw [List.foldl_cons, inductionHypothesis others, List.count_cons, List.count_cons]
    obtain rfl | rfl := blank
    · rw [if_neg (by decide), if_pos (by decide), if_neg (by decide)]
      omega
    · rw [if_pos rfl, if_neg (by decide), if_pos (by decide)]
      omega

/-- The width of an indentation: a tab counts for four blanks, wherever it stands. -/
theorem indentation_of_isGap {gap : List Char} (isGap : IsGap gap) :
    indentation gap = gap.count ' ' + 4 * gap.count '\t' := by
  have whole : gap.takeWhile isIndent = gap :=
    (cut_iff.mpr ⟨(List.append_nil gap).symm, isGap, nofun⟩).1
  rw [indentation, whole, foldl_width isGap, Nat.zero_add]

/-! ### Parts of a definition -/

/-- What is shown for the parameters, where the text behind the name and its blanks is given. -/
inductive ShowsParameters : List Char → String → Prop where
  /-- The parameters end on the line. -/
  | closed {inside rest : List Char} (within : ')' ∉ inside) :
    ShowsParameters ('(' :: (inside ++ ')' :: rest))
      (Text.collapse (String.ofList ('(' :: inside ++ [')'])))
  /-- The parameters go on below, so all that the line has of them is shown. -/
  | unclosed {inside : List Char} (within : ')' ∉ inside) :
    ShowsParameters ('(' :: inside) (Text.collapse (String.ofList ('(' :: inside)))
  /-- There are no parameters on the line. -/
  | missing {text : List Char} (other : text.head? ≠ some '(') : ShowsParameters text "()"

/-- What may stand before the word that begins a definition: nothing, or the word for a coroutine
and blanks. -/
def IsModifier (text : List Char) : Prop :=
  text = [] ∨ ∃ gap, text = "async".toList ++ gap ∧ IsGap gap ∧ gap ≠ []

/-- A line consists of the parts that begin a definition, and a header tells of them. -/
structure HasParts (line : List Char) (header : Header)
    (indent modifier gap name blanks rest : List Char) : Prop where
  /-- These are the parts of the line. -/
  whole : line =
    indent ++ (modifier ++ ("def".toList ++ (gap ++ (name ++ (blanks ++ rest)))))
  /-- The line is indented. -/
  indents : IsGap indent
  /-- The definition may be that of a coroutine. -/
  isModifier : IsModifier modifier
  /-- Blanks stand before the name. -/
  apart : IsGap gap ∧ gap ≠ []
  /-- A name is defined. -/
  isName : IsName name
  /-- The name does not go on. -/
  ends : ∀ next ∈ (blanks ++ rest).head?, ¬continuesName next
  /-- Blanks may stand behind the name. -/
  isGap : IsGap blanks
  /-- These are all blanks that stand there. -/
  parameters : ∀ next ∈ rest.head?, ¬isIndent next
  /-- The header gives the width of the indentation. -/
  width : header.indent = indent.count ' ' + 4 * indent.count '\t'
  /-- It gives the name. -/
  named : header.name = String.ofList name
  /-- It gives the parameters. -/
  shown : ShowsParameters rest header.parameters

/-- A line begins the definition that a header tells of, whatever its parts are in detail. -/
def Begins (line : List Char) (header : Header) : Prop :=
  ∃ indent modifier gap name blanks rest, HasParts line header indent modifier gap name blanks rest

/-- Behind its parenthesis a text is cut at the first one that closes it. -/
theorem parameterText_cons {text inside rest : List Char} (split : text = inside ++ rest)
    (within : ')' ∉ inside) (ends : ∀ next ∈ rest.head?, next = ')') :
    parameterText ('(' :: text) =
      Text.collapse (String.ofList ('(' :: inside ++ rest.take 1)) := by
  have cut : text.takeWhile (· ≠ ')') = inside ∧ text.dropWhile (· ≠ ')') = rest := by
    refine cut_iff.mpr ⟨split, fun character among => ?_, fun next isNext => ?_⟩
    · exact decide_eq_true fun closes => within (closes ▸ among)
    · rw [ends next isNext]
      decide
  rw [parameterText, cut.1, cut.2]

/-- Without a parenthesis at the front there are no parameters to show. -/
theorem parameterText_of_head? {text : List Char} (other : text.head? ≠ some '(') :
    parameterText text = "()" := by
  unfold parameterText
  split
  · exact absurd rfl other
  · rfl

theorem showsParameters_parameterText (text : List Char) :
    ShowsParameters text (parameterText text) := by
  by_cases opens : text.head? = some '('
  · obtain ⟨rest, rfl⟩ := List.head?_eq_some_iff.mp opens
    obtain ⟨split, among, ends⟩ := cut_spec (· ≠ ')') rest
    have within : ')' ∉ rest.takeWhile (· ≠ ')') := fun member =>
      of_decide_eq_true (among ')' member) rfl
    generalize rest.takeWhile (· ≠ ')') = inside at split within
    generalize rest.dropWhile (· ≠ ')') = behind at split ends
    have closes : ∀ next ∈ behind.head?, next = ')' := fun next isNext =>
      not_not.mp (mt decide_eq_true (ends next isNext))
    rw [parameterText_cons split within closes, split]
    cases behind with
    | nil =>
      rw [List.take_nil, List.append_nil, List.append_nil]
      exact .unclosed within
    | cons next others =>
      obtain rfl := closes next rfl
      exact .closed within
  · rw [parameterText_of_head? opens]
    exact .missing opens

theorem ShowsParameters.parameterText_eq {text : List Char} {shown : String}
    (shows : ShowsParameters text shown) : parameterText text = shown := by
  cases shows with
  | @closed inside rest within =>
    have ends : ∀ next ∈ (')' :: rest).head?, next = ')' := fun next isNext =>
      (Option.some.inj isNext).symm
    rw [parameterText_cons rfl within ends, List.take_succ_cons, List.take_zero]
  | @unclosed inside within =>
    have whole : inside = inside ++ [] := (List.append_nil inside).symm
    rw [parameterText_cons whole within nofun, List.take_nil, List.append_nil]
  | missing other => exact parameterText_of_head? other

/-- There is one way to show the parameters, and the line scanner shows them so. -/
theorem parameterText_iff {text : List Char} {shown : String} :
    parameterText text = shown ↔ ShowsParameters text shown :=
  ⟨fun same => same ▸ showsParameters_parameterText text, ShowsParameters.parameterText_eq⟩

theorem behindWord?_eq_some_iff {word : String} {text rest : List Char} :
    behindWord? word text = some rest ↔ ∃ gap, text = word.toList ++ (gap ++ rest) ∧
      IsGap gap ∧ gap ≠ [] ∧ ∀ next ∈ rest.head?, ¬isIndent next := by
  by_cases begins : word.toList <+: text
  · obtain ⟨behind, rfl⟩ := begins
    have blank : (behind.head?.map isIndent).getD false = true ↔ behind.takeWhile isIndent ≠ [] := by
      cases behind with
      | nil => simp
      | cons next others => cases blank : isIndent next <;> simp [blank]
    have found : behindWord? word (word.toList ++ behind) =
        if behind.takeWhile isIndent ≠ [] then some (behind.dropWhile isIndent) else none := by
      rw [behindWord?, if_pos (List.isPrefixOf_iff_prefix.mpr (List.prefix_append _ _)),
        ← String.length_toList, List.drop_left]
      simp only [blank]
    rw [found, Option.ite_none_right_eq_some, Option.some_inj]
    constructor
    · rintro ⟨some, stops⟩
      obtain ⟨split, isGap, ends⟩ := cut_iff.mp ⟨rfl, stops⟩
      exact ⟨_, congrArg _ split, isGap, some, ends⟩
    · rintro ⟨gap, split, isGap, some, ends⟩
      obtain ⟨same, stops⟩ := cut_iff.mpr ⟨List.append_cancel_left split, isGap, ends⟩
      exact ⟨same ▸ some, stops⟩
  · rw [behindWord?, if_neg (mt List.isPrefixOf_iff_prefix.mp begins)]
    refine iff_of_false nofun ?_
    rintro ⟨gap, rfl, -⟩
    exact begins (List.prefix_append _ _)

/-! ### Lines that begin a definition -/

/-- What stands behind the indentation of a line, and behind the word for a coroutine if that comes
first. -/
theorem exists_modifier (text : List Char) : ∃ modifier, IsModifier modifier ∧
    text = modifier ++ (behindWord? "async" text).getD text := by
  cases found : behindWord? "async" text with
  | none => exact ⟨[], .inl rfl, rfl⟩
  | some behind =>
    obtain ⟨gap, split, isGap, some, -⟩ := behindWord?_eq_some_iff.mp found
    refine ⟨"async".toList ++ gap, .inr ⟨gap, rfl, isGap, some⟩, ?_⟩
    rw [List.append_assoc]
    exact split

/-- The word for a coroutine is passed over, and the word that begins a definition is not taken for
it. -/
theorem getD_behindWord?_async {modifier rest : List Char} (isModifier : IsModifier modifier) :
    (behindWord? "async" (modifier ++ ("def".toList ++ rest))).getD
      (modifier ++ ("def".toList ++ rest)) = "def".toList ++ rest := by
  obtain rfl | ⟨gap, rfl, isGap, some⟩ := isModifier
  · have other : behindWord? "async" ("def".toList ++ rest) = none :=
      if_neg (Bool.false_ne_true : ¬"async".toList.isPrefixOf ("def".toList ++ rest) = true)
    rw [List.nil_append, other, Option.getD_none]
  · have found : behindWord? "async" (("async".toList ++ gap) ++ ("def".toList ++ rest)) =
        Option.some ("def".toList ++ rest) := by
      refine behindWord?_eq_some_iff.mpr ⟨gap, List.append_assoc _ _ _, isGap, some, ?_⟩
      rintro next ⟨⟩
      decide
    rw [found, Option.getD_some]

theorem header?_eq_some_iff_exists {line : List Char} {header : Header} :
    header? line = some header ↔ ∃ behind,
      behindWord? "def" ((behindWord? "async" (line.dropWhile isIndent)).getD
        (line.dropWhile isIndent)) = some behind ∧
      (∃ first ∈ behind.head?, beginsName first) ∧
      header = ⟨indentation (line.takeWhile isIndent),
        String.ofList (behind.takeWhile continuesName),
        parameterText ((behind.dropWhile continuesName).dropWhile isIndent)⟩ := by
  simp only [header?, Option.bind_eq_bind, Option.bind_eq_some_iff, Option.ite_none_right_eq_some,
    Option.some_inj, Option.mem_def]
  grind

/-- The parts that the line scanner takes off a line are the parts of a definition. -/
theorem begins_of_header? {line : List Char} {header : Header}
    (isHeader : header? line = some header) : Begins line header := by
  obtain ⟨behind, isDef, ⟨first, isFirst, begins⟩, rfl⟩ := header?_eq_some_iff_exists.mp isHeader
  obtain ⟨modifier, isModifier, afterIndent⟩ := exists_modifier (line.dropWhile isIndent)
  obtain ⟨gap, afterModifier, isGap, some, -⟩ := behindWord?_eq_some_iff.mp isDef
  obtain ⟨afterLine, indents, -⟩ := cut_spec isIndent line
  obtain ⟨afterGap, continues, nameEnds⟩ := cut_spec continuesName behind
  obtain ⟨afterName, blanks, blanksEnd⟩ := cut_spec isIndent (behind.dropWhile continuesName)
  have isName : IsName (behind.takeWhile continuesName) := by
    obtain ⟨others, rfl⟩ := List.head?_eq_some_iff.mp isFirst
    rw [List.takeWhile_cons_of_pos (continuesName_of_beginsName begins)] at continues ⊢
    exact ⟨first, _, rfl, begins, (List.forall_mem_cons.mp continues).2⟩
  exact ⟨line.takeWhile isIndent, modifier, gap, behind.takeWhile continuesName,
    (behind.dropWhile continuesName).takeWhile isIndent,
    (behind.dropWhile continuesName).dropWhile isIndent, {
    whole := by
      rw [← afterName, ← afterGap, ← afterModifier, ← afterIndent]
      exact afterLine
    indents := indents
    isModifier := isModifier
    apart := ⟨isGap, some⟩
    isName := isName
    ends := by rwa [← afterName]
    isGap := blanks
    parameters := blanksEnd
    width := indentation_of_isGap indents
    named := rfl
    shown := parameterText_iff.mp rfl }⟩

/-- Wherever a line is cut into the parts of a definition, the line scanner cuts it there too. -/
theorem HasParts.header?_eq {line indent modifier gap name blanks rest : List Char}
    {header : Header} (parts : HasParts line header indent modifier gap name blanks rest) :
    header? line = some header := by
  obtain ⟨first, others, rfl, begins, continues⟩ := parts.isName
  have indented : ∀ next ∈ (modifier ++ ("def".toList ++
      (gap ++ (first :: others ++ (blanks ++ rest))))).head?, ¬isIndent next := by
    obtain rfl | ⟨gap, rfl, -⟩ := parts.isModifier <;> rintro next ⟨⟩ <;> decide
  obtain ⟨sameIndent, afterIndent⟩ := cut_iff.mpr ⟨parts.whole, parts.indents, indented⟩
  obtain ⟨sameName, afterName⟩ := cut_iff.mpr ⟨rfl, parts.isName.continues, parts.ends⟩
  obtain ⟨-, afterBlanks⟩ := cut_iff.mpr ⟨rfl, parts.isGap, parts.parameters⟩
  refine header?_eq_some_iff_exists.mpr
    ⟨first :: others ++ (blanks ++ rest), ?_, ⟨first, rfl, begins⟩, ?_⟩
  · rw [afterIndent, getD_behindWord?_async parts.isModifier]
    refine behindWord?_eq_some_iff.mpr ⟨gap, rfl, parts.apart.1, parts.apart.2, ?_⟩
    rintro next ⟨⟩
    exact fun blank => not_continuesName_of_isIndent blank (continuesName_of_beginsName begins)
  · obtain ⟨width, named, parameters⟩ := header
    rw [sameIndent, sameName, afterName, afterBlanks, indentation_of_isGap parts.indents,
      parameterText_iff.mpr parts.shown]
    exact congrArg₂ (Header.mk · · parameters) parts.width parts.named

/-- A line begins a definition just if it has the parts of one, and then the header tells of
them. -/
theorem header?_eq_some_iff {line : List Char} {header : Header} :
    header? line = some header ↔ Begins line header :=
  ⟨begins_of_header?, fun ⟨_, _, _, _, _, _, parts⟩ => parts.header?_eq⟩

end MigrationGuard.LineScanner
