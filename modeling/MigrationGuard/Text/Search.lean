/-
This file searches texts: does one text occur in another, what stands before and
behind the first or the last occurrence of a character, and which pieces lie
between separators. Everything is told by characters and not by bytes. The order
of texts is that of their code points, and letters have a case in ASCII only, so
no result depends on a language.
-/

import MigrationGuard.Text.Blank

namespace MigrationGuard.Text

/-! ### Occurrence -/

/-- The needle stands somewhere in the text. The empty needle stands in every text. -/
def occursIn (needle : List Char) : List Char → Bool
  | [] => needle.isEmpty
  | character :: rest => needle.isPrefixOf (character :: rest) || occursIn needle rest

/-- The needle stands somewhere in the string, in the same letter case. -/
def contains (text needle : String) : Bool :=
  occursIn needle.toList text.toList

/-- The string begins with the given one. -/
def beginsWith (text start : String) : Bool :=
  start.toList.isPrefixOf text.toList

/-- The string ends with the given one. -/
def endsWith (text finish : String) : Bool :=
  finish.toList.reverse.isPrefixOf text.toList.reverse

/-! ### Cutting at one character -/

/-- What stands before and behind the first separator, if there is one. -/
def cutAtFirst (separator : Char) : List Char → Option (List Char × List Char)
  | [] => none
  | character :: rest =>
    if character = separator then some ([], rest)
    else (cutAtFirst separator rest).map fun (before, behind) => (character :: before, behind)

/-- What stands before and behind the last separator, if there is one. -/
def cutAtLast (separator : Char) : List Char → Option (List Char × List Char)
  | [] => none
  | character :: rest => match cutAtLast separator rest with
    | some (before, behind) => some (character :: before, behind)
    | none => if character = separator then some ([], rest) else none

/-- The pieces between separators, empty ones included, so there is one piece more than separators.
-/
def cutAtEach (separates : Char → Bool) : List Char → List (List Char)
  | [] => [[]]
  | character :: rest =>
    if separates character then [] :: cutAtEach separates rest
    else match cutAtEach separates rest with
      | [] => [[character]]
      | piece :: pieces => (character :: piece) :: pieces

/-- What stands before the first occurrence of a text, or everything. -/
def beforeText (needle : List Char) : List Char → List Char
  | [] => []
  | character :: rest =>
    if needle.isPrefixOf (character :: rest) then [] else character :: beforeText needle rest

/-- What stands behind the last occurrence of a text, if it occurs. -/
def behindLastText (needle : List Char) : List Char → Option (List Char)
  | [] => if needle.isEmpty then some [] else none
  | character :: rest => match behindLastText needle rest with
    | some behind => some behind
    | none =>
      if needle.isPrefixOf (character :: rest) then some ((character :: rest).drop needle.length)
      else none

/-- The text without the given start, if it begins so. -/
def dropStart (start : String) (text : String) : Option String :=
  if start.toList.isPrefixOf text.toList then
    some (String.ofList (text.toList.drop start.length))
  else none

/-- The text without the given end, if it ends so. -/
def dropFinish (finish : String) (text : String) : Option String :=
  if endsWith text finish then some (String.ofList (text.toList.take (text.length - finish.length)))
  else none

/-! ### Lengths in characters, and case -/

/-- The first characters of a string, at most as many as asked for. -/
def truncate (text : String) (limit : Nat) : String :=
  String.ofList (text.toList.take limit)

/-- The string with its ASCII capitals made small. All else stays as it is. -/
def lowered (text : String) : String :=
  String.ofList (text.toList.map Char.toLower)

/-- The string with its small ASCII letters made capitals. All else stays as it is. -/
def raised (text : String) : String :=
  String.ofList (text.toList.map Char.toUpper)

/-- The strings with a separator between each two, and none before the first or behind the last. -/
def joined (separator : String) (texts : List String) : String :=
  String.intercalate separator texts

/-- The order of strings by their code points, which is also the order of their UTF-8 bytes. -/
def atMost (left right : String) : Bool :=
  !decide (right < left)

theorem atMost_iff {left right : String} : atMost left right ↔ left ≤ right := by
  rw [atMost, Bool.not_eq_true', decide_eq_false_iff_not, String.not_lt]

/-- Rows that are sorted by a text stand in the order of these texts. -/
theorem pairwise_mergeSort {Row : Type} (key : Row → String) (rows : List Row) :
    (rows.mergeSort fun left right => atMost (key left) (key right)).Pairwise
      fun left right => key left ≤ key right := by
  refine (List.pairwise_mergeSort ?_ ?_ rows).imp atMost_iff.mp
  · intro first second third early late
    exact atMost_iff.mpr (String.le_trans (atMost_iff.mp early) (atMost_iff.mp late))
  · intro left right
    rw [Bool.or_eq_true, atMost_iff, atMost_iff]
    exact String.le_total _ _

end MigrationGuard.Text
