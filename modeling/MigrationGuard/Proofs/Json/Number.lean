/-
This file shows that numbers are read as they are written. A written number is a
whole part, digits behind a point and an exponent; reading collects the digits up
to the first character that cannot belong to the number. These parts are made a
record of their own, a spelling, from which the text and the numeral that it
stands for can both be told. So writing has to be followed only as far as the
spelling that it makes, and reading from the spelling on. A double is laid out
from its shortest decimal in one of four ways, by where its point stands, and each
of them is a spelling of that decimal. With the theorem about decimals, the text
of a finite double is therefore read as this double; what is no finite number is
written as null.
-/

import MigrationGuard.Data.Json
import MigrationGuard.Proofs.Decimal.Shortest
import MigrationGuard.Proofs.Text.Search

namespace MigrationGuard.Data.Json

open Decimal

/-! ### Runs of digits -/

/-- All characters are decimal digits, of which there may be none. -/
def AllDigits (text : List Char) : Prop :=
  ∀ character ∈ text, character.isDigit

/-- No digit follows, so the digits before it are all that is collected. -/
def EndsDigits (rest : List Char) : Prop :=
  ∀ next ∈ rest.head?, next.isDigit = false

/-- Nothing follows that could belong to a number, so reading it ends here. -/
def EndsNumber (rest : List Char) : Prop :=
  ∀ next ∈ rest.head?, next.isDigit = false ∧ next ≠ '.' ∧ next ≠ 'e' ∧ next ≠ 'E'

theorem EndsNumber.endsDigits {rest : List Char} (ends : EndsNumber rest) : EndsDigits rest :=
  fun next first => (ends next first).1

section
variable {run rest : List Char} (digits : AllDigits run) (ends : EndsDigits rest)
include digits ends

theorem cut_isDigit : (run ++ rest).takeWhile Char.isDigit = run ∧
    (run ++ rest).dropWhile Char.isDigit = rest :=
  Text.cut_iff.mpr ⟨rfl, digits, fun next isNext => Bool.eq_false_iff.mp (ends next isNext)⟩

theorem takeWhile_isDigit : (run ++ rest).takeWhile Char.isDigit = run :=
  (cut_isDigit digits ends).1

theorem dropWhile_isDigit : (run ++ rest).dropWhile Char.isDigit = rest :=
  (cut_isDigit digits ends).2

end

/-! ### Parts of a number -/

/-- A number as it is spelled, without its sign and taken apart into its digits. -/
structure Spelling where
  /-- The digits before the point. -/
  whole : List Char
  /-- The digits behind the point. Without them there is no point. -/
  places : List Char
  /-- The exponent, if one is written. -/
  exponent : Option Int

namespace Spelling

/-- The characters of the spelled number, with a point and an exponent only where they are needed.
-/
def text (spelling : Spelling) : List Char :=
  spelling.whole ++ (if spelling.places = [] then [] else '.' :: spelling.places) ++
    match spelling.exponent with
    | none => []
    | some exponent => 'e' :: (exponentText exponent).toList

theorem text_eq (spelling : Spelling) : spelling.text = spelling.whole ++
    ((if spelling.places = [] then [] else '.' :: spelling.places) ++
      match spelling.exponent with
      | none => []
      | some exponent => 'e' :: (exponentText exponent).toList) :=
  List.append_assoc _ _ _

/-- The numeral that is spelled: all digits as one number, and the power of ten that goes with them.
-/
def numeral (spelling : Spelling) : Numeral :=
  ⟨digitsValue (spelling.whole ++ spelling.places),
    spelling.exponent.getD 0 - spelling.places.length⟩

/-- The parts hold digits only, and a zero at the front stands alone, as the grammar of numbers
asks. -/
structure WellFormed (spelling : Spelling) : Prop where
  /-- There is a whole part. -/
  present : spelling.whole ≠ []
  /-- The whole part holds digits. -/
  digits : AllDigits spelling.whole
  /-- A zero at the front stands alone. -/
  leading : ∀ others, spelling.whole = '0' :: others → others = []
  /-- Digits stand behind the point. -/
  behind : AllDigits spelling.places

end Spelling

theorem wholePart?_append {whole rest : List Char} (present : whole ≠ []) (digits : AllDigits whole)
    (leading : ∀ others, whole = '0' :: others → others = []) (ends : EndsDigits rest) :
    wholePart? (whole ++ rest) = some (whole, rest) := by
  obtain ⟨first, others, rfl⟩ := List.exists_cons_of_ne_nil present
  by_cases zero : first = '0'
  · subst zero
    obtain rfl := leading others rfl
    cases rest with
    | nil => rfl
    | cons next behind =>
      show (if next.isDigit then none else some (['0'], next :: behind)) = _
      rw [ends next rfl]
      rfl
  · unfold wholePart?
    split
    · rename_i same
      exact absurd (List.cons.inj same).1 zero
    · dsimp only
      rw [takeWhile_isDigit digits ends, dropWhile_isDigit digits ends, if_neg present]

theorem places?_append {places rest : List Char} (digits : AllDigits places)
    (ends : EndsDigits rest) (noPoint : ∀ next ∈ rest.head?, next ≠ '.') :
    places? ((if places = [] then [] else '.' :: places) ++ rest) =
      some (if places = [] then none else some places, rest) := by
  split_ifs with none
  · rw [List.nil_append]
    unfold places?
    split
    · exact absurd rfl (noPoint '.' rfl)
    · rfl
  · show (if (places ++ rest).takeWhile Char.isDigit = [] then Option.none
      else some (some ((places ++ rest).takeWhile Char.isDigit),
        (places ++ rest).dropWhile Char.isDigit)) = _
    rw [takeWhile_isDigit digits ends, dropWhile_isDigit digits ends, if_neg none]

theorem exponentPart?_none {rest : List Char} (ends : EndsNumber rest) :
    exponentPart? rest = some (none, rest) := by
  cases rest with
  | nil => rfl
  | cons next others =>
    have other := (ends next rfl).2.2
    unfold exponentPart?
    dsimp only
    rw [if_neg]
    rintro (small | large)
    · exact other.1 small
    · exact other.2 large

theorem allDigits_toDigits (value : ℕ) : AllDigits (Nat.toDigits 10 value) :=
  fun _ member => Nat.isDigit_of_mem_toDigits (by decide) (by decide) member

theorem digitsValue_toDigits (value : ℕ) : digitsValue (Nat.toDigits 10 value) = value :=
  Nat.ofDigitChars_ten_toDigits

/-- The first digit of a number is not zero, so its digits may stand at the front. -/
theorem head_toDigits {value : ℕ} (pos : 0 < value) :
    ∀ first ∈ (Nat.toDigits 10 value).head?, first ≠ '0' := by
  induction value using Nat.strong_induction_on with
  | _ value inductionHypothesis =>
    by_cases small : value < 10
    · rw [Nat.toDigits_of_lt_base small]
      rintro first ⟨⟩ zero
      have same := Nat.toNat_digitChar_sub_48_of_lt_ten small
      rw [zero] at same
      exact pos.ne same
    · rw [Nat.toDigits_of_base_le (by decide) (by omega), List.head?_append_of_ne_nil _
        Nat.toDigits_ne_nil]
      exact inductionHypothesis (value / 10) (by omega) (by omega)

theorem leading_toDigits {value : ℕ} {others : List Char}
    (same : Nat.toDigits 10 value = '0' :: others) : others = [] := by
  obtain rfl | pos := Nat.eq_zero_or_pos value
  · rw [Nat.toDigits_zero] at same
    exact (List.cons.inj same).2.symm
  · exact absurd rfl (head_toDigits pos '0' (same ▸ rfl))

/-- An integer is written with a sign before its digits. -/
theorem toList_toString_int (value : ℤ) : (toString value).toList =
    (if value < 0 then ['-'] else []) ++ Nat.toDigits 10 value.natAbs := by
  cases value with
  | ofNat value =>
    rw [if_neg (show ¬Int.ofNat value < 0 from (Int.natCast_nonneg value).not_gt)]
    exact Nat.toList_repr
  | negSucc value =>
    rw [if_pos (Int.negSucc_lt_zero value)]
    show ("-" ++ Nat.repr (value + 1)).toList = _
    rw [String.toList_append, Nat.toList_repr]
    rfl

/-- An exponent is written with either sign before its digits. -/
theorem toList_exponentText (exponent : ℤ) : (exponentText exponent).toList =
    (if exponent < 0 then '-' else '+') :: Nat.toDigits 10 exponent.natAbs := by
  unfold exponentText
  by_cases negative : exponent < 0
  · rw [if_neg negative.not_ge, toList_toString_int, if_pos negative, if_pos negative]
    rfl
  · rw [if_pos (not_lt.mp negative), String.toList_append, toList_toString_int, if_neg negative,
      if_neg negative]
    rfl

theorem exponentPart?_some {exponent : ℤ} {rest : List Char} (ends : EndsDigits rest) :
    exponentPart? ('e' :: (exponentText exponent).toList ++ rest) = some (some exponent, rest) := by
  have digits := allDigits_toDigits exponent.natAbs
  have unfolded : ∀ text, exponentPart? ('e' :: text) =
      if (exponentSign text).2.takeWhile Char.isDigit = [] then none
      else some (some (if (exponentSign text).1
          then -(digitsValue ((exponentSign text).2.takeWhile Char.isDigit) : ℤ)
          else digitsValue ((exponentSign text).2.takeWhile Char.isDigit)),
        (exponentSign text).2.dropWhile Char.isDigit) := fun text => rfl
  have sign : exponentSign ((exponentText exponent).toList ++ rest) =
      (decide (exponent < 0), Nat.toDigits 10 exponent.natAbs ++ rest) := by
    rw [toList_exponentText]
    split_ifs with negative
    · rw [decide_eq_true negative]
      rfl
    · rw [decide_eq_false negative]
      rfl
  rw [List.cons_append, unfolded, sign]
  dsimp only
  rw [takeWhile_isDigit digits ends, dropWhile_isDigit digits ends, if_neg Nat.toDigits_ne_nil,
    digitsValue_toDigits]
  congr 3
  split_ifs with negative <;> rw [decide_eq_true_eq] at negative <;> omega

/-! ### Numbers -/

/-- A number with a point or an exponent is read as the double nearest to it. -/
theorem Spelling.WellFormed.readNumber? {spelling : Spelling} (wellFormed : spelling.WellFormed)
    (broken : spelling.places ≠ [] ∨ spelling.exponent ≠ none) {rest : List Char}
    (ends : EndsNumber rest) (negative : Bool) :
    Json.readNumber? negative (spelling.text ++ rest) =
      some (ofFloat (spelling.numeral.toFloat negative), rest) := by
  obtain ⟨whole, places, exponent⟩ := spelling
  obtain ⟨present, digits, leading, behind⟩ := wellFormed
  dsimp only at present digits leading behind broken
  generalize known : (match exponent with
    | none => []
    | some exponent => 'e' :: (exponentText exponent).toList) = tail
  have first : EndsDigits (tail ++ rest) ∧ ∀ next ∈ (tail ++ rest).head?, next ≠ '.' := by
    subst known
    cases exponent with
    | none => exact ⟨ends.endsDigits, fun next head => (ends next head).2.1⟩
    | some exponent =>
      constructor <;> rintro next ⟨⟩ <;> decide
  have afterWhole : EndsDigits ((if places = [] then [] else '.' :: places) ++ (tail ++ rest)) := by
    split_ifs with none
    · exact first.1
    · rintro next ⟨⟩
      decide
  have last : exponentPart? (tail ++ rest) = some (exponent, rest) := by
    subst known
    cases exponent with
    | none => exact exponentPart?_none ends
    | some exponent => exact exponentPart?_some ends.endsDigits
  unfold Json.readNumber? Spelling.text
  dsimp only
  rw [known, List.append_assoc, List.append_assoc,
    wholePart?_append present digits leading afterWhole]
  dsimp only [Option.bind_eq_bind, Option.bind_some]
  rw [places?_append behind first.1 first.2]
  dsimp only [Option.bind_some]
  rw [last]
  dsimp only [Option.bind_some]
  by_cases none : places = []
  · subst none
    obtain ⟨power, rfl⟩ := Option.ne_none_iff_exists'.mp (broken.resolve_left fun some => some rfl)
    rfl
  · rw [if_neg none]
    cases exponent <;> rfl

/-- A number without a point or an exponent is read as an integer. -/
theorem readNumber?_toDigits (value : ℕ) {rest : List Char} (ends : EndsNumber rest)
    (negative : Bool) : readNumber? negative (Nat.toDigits 10 value ++ rest) =
      some (ofInteger negative value, rest) := by
  have whole := wholePart?_append Nat.toDigits_ne_nil (allDigits_toDigits value)
    (fun others same => leading_toDigits same) ends.endsDigits
  have places := @places?_append [] rest (fun _ member => nomatch member) ends.endsDigits
    fun next head => (ends next head).2.1
  unfold readNumber?
  rw [whole]
  dsimp only [Option.bind_eq_bind, Option.bind_some]
  rw [show places? rest = _ from places]
  dsimp only [Option.bind_some]
  rw [exponentPart?_none ends]
  dsimp only [Option.bind_some]
  rw [if_pos rfl, digitsValue_toDigits]
  rfl

/-! ### Written numbers -/

/-- The spelling is that of a decimal, with a point or an exponent. -/
structure Spelling.Spells (spelling : Spelling) (decimal : Scientific) : Prop where
  /-- The parts are well formed. -/
  wellFormed : spelling.WellFormed
  /-- There is a point or an exponent. -/
  broken : spelling.places ≠ [] ∨ spelling.exponent ≠ none
  /-- The value is that of the decimal. -/
  value : (spelling.numeral.digits : ℚ) * 10 ^ spelling.numeral.exponent =
    decimal.digits * 10 ^ decimal.exponent

theorem digitsValue_append (left right : List Char) :
    digitsValue (left ++ right) = 10 ^ right.length * digitsValue left + digitsValue right := by
  have joined : digitsValue (left ++ right) = Nat.ofDigitChars 10 right (digitsValue left) :=
    Nat.ofDigitChars_append 0
  rw [joined, Nat.ofDigitChars_eq_ofDigitChars_zero]
  rfl

theorem allDigits_replicate (count : ℕ) : AllDigits (List.replicate count '0') := by
  intro character member
  rw [List.eq_of_mem_replicate member]
  rfl

theorem AllDigits.append {left right : List Char} (leftDigits : AllDigits left)
    (rightDigits : AllDigits right) : AllDigits (left ++ right) := by
  intro character member
  rcases List.mem_append.mp member with first | second
  · exact leftDigits character first
  · exact rightDigits character second

theorem digitsValue_replicate (count : ℕ) : digitsValue (List.replicate count '0') = 0 := by
  have zero := @Nat.ofDigitChars_replicate_zero 10 0 count
  rw [Nat.mul_zero] at zero
  exact zero

section
variable {digits : ℕ} (pos : 0 < digits)
include pos

/-- A whole number is followed by a zero behind the point. -/
theorem spells_whole (zeros : ℕ) :
    Spelling.Spells ⟨Nat.toDigits 10 digits ++ List.replicate zeros '0', ['0'], none⟩
      ⟨digits, zeros⟩ := by
  refine ⟨⟨?_, ?_, ?_, ?_⟩, .inl (List.cons_ne_nil _ _), ?_⟩ <;> dsimp only
  · exact List.append_ne_nil_of_left_ne_nil Nat.toDigits_ne_nil _
  · exact (allDigits_toDigits digits).append (allDigits_replicate zeros)
  · intro others same
    refine absurd rfl (head_toDigits pos '0' ?_)
    rw [← List.head?_append_of_ne_nil _ Nat.toDigits_ne_nil, same]
    rfl
  · exact allDigits_replicate 1
  · have value : digitsValue (Nat.toDigits 10 digits ++ List.replicate zeros '0' ++ ['0']) =
        digits * 10 ^ zeros * 10 := by
      rw [digitsValue_append, digitsValue_append, digitsValue_toDigits, digitsValue_replicate,
        List.length_replicate]
      show 10 ^ 1 * (10 ^ zeros * digits + 0) + 0 = _
      ring
    dsimp only [Spelling.numeral]
    rw [value, Option.getD_none, List.length_singleton, zero_sub, zpow_neg, zpow_natCast,
      zpow_natCast]
    push_cast
    field_simp

omit pos in
/-- A number below one begins with a zero before the point. -/
theorem spells_below (zeros : ℕ) :
    Spelling.Spells ⟨['0'], List.replicate zeros '0' ++ Nat.toDigits 10 digits, none⟩
      ⟨digits, -((zeros + (Nat.toDigits 10 digits).length : ℕ) : ℤ)⟩ := by
  refine ⟨⟨List.cons_ne_nil _ _, allDigits_replicate 1, ?_, ?_⟩, .inl ?_, ?_⟩ <;> dsimp only
  · rintro others ⟨⟩
    rfl
  · exact (allDigits_replicate zeros).append (allDigits_toDigits digits)
  · exact List.append_ne_nil_of_right_ne_nil _ Nat.toDigits_ne_nil
  · have value : digitsValue (['0'] ++ (List.replicate zeros '0' ++ Nat.toDigits 10 digits)) =
        digits := by
      rw [← List.append_assoc, digitsValue_append, digitsValue_toDigits]
      have none := digitsValue_replicate (zeros + 1)
      rw [List.replicate_succ] at none
      rw [List.singleton_append, none, Nat.mul_zero, Nat.zero_add]
    dsimp only [Spelling.numeral]
    rw [value, Option.getD_none, zero_sub, List.length_append, List.length_replicate]

omit pos in
theorem allDigits_split {whole places : List Char}
    (split : Nat.toDigits 10 digits = whole ++ places) : AllDigits whole ∧ AllDigits places := by
  have all := allDigits_toDigits digits
  rw [split] at all
  exact ⟨fun character member => all character (List.mem_append_left _ member),
    fun character member => all character (List.mem_append_right _ member)⟩

/-- The point may stand among the digits, with some of them before it and some behind. -/
theorem spells_among {whole places : List Char} (split : Nat.toDigits 10 digits = whole ++ places)
    (before : whole ≠ []) (behind : places ≠ []) :
    Spelling.Spells ⟨whole, places, none⟩ ⟨digits, -(places.length : ℤ)⟩ := by
  obtain ⟨wholeDigits, placesDigits⟩ := allDigits_split split
  refine ⟨⟨before, wholeDigits, ?_, placesDigits⟩, .inl behind, ?_⟩ <;> dsimp only
  · rintro others rfl
    exact absurd rfl (head_toDigits pos '0' (split ▸ rfl))
  · dsimp only [Spelling.numeral]
    rw [← split, digitsValue_toDigits, Option.getD_none, zero_sub]

omit pos in
/-- The point may stand behind the first digit if an exponent follows. -/
theorem spells_exponent {first : Char} {others : List Char}
    (split : Nat.toDigits 10 digits = first :: others) (exponent : ℤ) :
    Spelling.Spells ⟨[first], others, some (others.length + exponent)⟩ ⟨digits, exponent⟩ := by
  have split : Nat.toDigits 10 digits = [first] ++ others := split
  obtain ⟨wholeDigits, placesDigits⟩ := allDigits_split split
  refine ⟨⟨List.cons_ne_nil _ _, wholeDigits, ?_, placesDigits⟩, .inr (Option.some_ne_none _), ?_⟩
    <;> dsimp only
  · rintro behind ⟨⟩
    rfl
  · dsimp only [Spelling.numeral]
    rw [← split, digitsValue_toDigits, Option.getD_some, add_sub_cancel_left]

/-- A decimal written out is a number with a point, where a zero is added behind the point if no
digit stands there. -/
theorem parts_spells (exponent : ℤ) : ∃ whole places : List Char,
    (Scientific.mk digits exponent).parts = (String.ofList whole, String.ofList places) ∧
      Spelling.Spells ⟨whole, if places = [] then ['0'] else places, none⟩ ⟨digits, exponent⟩ := by
  unfold Scientific.parts digitText zeros
  dsimp only
  split_ifs with high few
  · refine ⟨Nat.toDigits 10 digits ++ List.replicate exponent.toNat '0', [], ?_, ?_⟩
    · rw [String.ofList_append]
    · have spelled := spells_whole pos exponent.toNat
      rwa [Int.toNat_of_nonneg high] at spelled
  · rw [String.length_ofList] at few ⊢
    refine ⟨['0'], List.replicate ((-exponent).toNat - (Nat.toDigits 10 digits).length) '0' ++
      Nat.toDigits 10 digits, ?_, ?_⟩
    · rw [String.ofList_append]
    · have spelled := @spells_below digits ((-exponent).toNat - (Nat.toDigits 10 digits).length)
      rw [if_neg (List.append_ne_nil_of_right_ne_nil _ Nat.toDigits_ne_nil)]
      rwa [Nat.sub_add_cancel few, Int.toNat_of_nonneg (by omega), neg_neg] at spelled
  · rw [String.length_ofList] at few ⊢
    rw [String.toList_ofList]
    refine ⟨_, _, rfl, ?_⟩
    generalize cut : (Nat.toDigits 10 digits).length - (-exponent).toNat = before
    have count : ((Nat.toDigits 10 digits).drop before).length = (-exponent).toNat := by
      rw [List.length_drop]
      omega
    have behind : (Nat.toDigits 10 digits).drop before ≠ [] := by
      rw [← List.length_pos_iff, count]
      omega
    have front : (Nat.toDigits 10 digits).take before ≠ [] := by
      rw [← List.length_pos_iff, List.length_take]
      omega
    rw [if_neg behind]
    have spelled := spells_among pos (List.take_append_drop before _).symm front behind
    rwa [count, Int.toNat_of_nonneg (by omega), neg_neg] at spelled

/-- A decimal is laid out as a number with a point or an exponent, whichever the range asks for. -/
theorem compact_spells (range : PlainRange) (exponent : ℤ) : ∃ spelling : Spelling,
    ((Scientific.mk digits exponent).compact range).toList = spelling.text ∧
      spelling.Spells ⟨digits, exponent⟩ := by
  unfold Scientific.compact digitText
  dsimp only
  rw [String.length_ofList, String.toList_ofList]
  by_cases plain : range.above < ((Nat.toDigits 10 digits).length : ℤ) + exponent ∧
      ((Nat.toDigits 10 digits).length : ℤ) + exponent ≤ range.upTo
  · obtain ⟨whole, places, known, spelled⟩ := parts_spells pos exponent
    refine ⟨_, ?_, spelled⟩
    rw [if_pos plain, known]
    unfold Spelling.text
    dsimp only
    rw [String.toList_append, String.toList_append, String.toList_ofList, List.append_nil]
    by_cases none : places = []
    · rw [if_pos (String.ofList_eq_empty_iff.mpr none), if_pos none]
      exact List.append_assoc whole ['.'] ['0']
    · rw [if_neg (mt String.ofList_eq_empty_iff.mp none), if_neg none, if_neg none,
        @String.toList_ofList places]
      exact List.append_assoc whole ['.'] places
  · obtain ⟨first, others, split⟩ := List.exists_cons_of_ne_nil (@Nat.toDigits_ne_nil digits 10)
    refine ⟨_, ?_, spells_exponent split exponent⟩
    have place : (((first :: others).length : ℕ) : ℤ) + exponent - 1 =
        others.length + exponent := by
      rw [List.length_cons]
      omega
    rw [if_neg plain, split, place]
    unfold Spelling.text
    show ((if String.ofList others = "" then String.ofList [first]
      else String.ofList [first] ++ "." ++ String.ofList others) ++ "e" ++
        exponentText ((others.length : ℤ) + exponent)).toList = _
    rw [String.toList_append, String.toList_append]
    by_cases none : others = []
    · rw [if_pos (String.ofList_eq_empty_iff.mpr none), if_pos none, String.toList_ofList]
      exact List.append_assoc [first] ['e'] _
    · rw [if_neg (mt String.ofList_eq_empty_iff.mp none), if_neg none, String.toList_append,
        String.toList_append, String.toList_ofList, @String.toList_ofList others]
      exact List.append_assoc ([first] ++ '.' :: others) ['e'] _

end

/-! ### Doubles -/

/-- The text of a finite double is a number that is read as this double. -/
theorem floatText_spelling {value : Float} (finite : value.isFinite) :
    ∃ (negative : Bool) (spelling : Spelling),
      (floatText value).toList = (if negative then ['-'] else []) ++ spelling.text ∧
        spelling.WellFormed ∧ (spelling.places ≠ [] ∨ spelling.exponent ≠ none) ∧
          spelling.numeral.toFloat negative = value := by
  have sign : ∀ negative, (signText negative).toList = if negative then ['-'] else [] := by
    rintro (_ | _) <;> rfl
  unfold floatText
  obtain ⟨negative, read⟩ | ⟨negative, magnitude, read⟩ := (isFinite_iff value).mp finite
  · rw [read]
    refine ⟨negative, ⟨['0'], ['0'], none⟩, ?_, ?_, .inl (List.cons_ne_nil _ _), ?_⟩
    · show (signText negative ++ "0.0").toList = _
      rw [String.toList_append, sign]
      rfl
    · refine ⟨List.cons_ne_nil _ _, allDigits_replicate 1, ?_, allDigits_replicate 1⟩
      rintro others ⟨⟩
      rfl
    · exact eq_of_readDouble_zero read
  · rw [read]
    have isMagnitude := isMagnitude_of_read read
    have rounds := isMagnitude.shortest_roundsTo
    have present := RoundsTo.digits_pos isMagnitude.double rounds
    obtain ⟨spelling, text, spelled⟩ := compact_spells present .ofDouble magnitude.shortest.exponent
    refine ⟨negative, spelling, ?_, spelled.wellFormed, spelled.broken, ?_⟩
    · show (signText negative ++ magnitude.shortest.compact .ofDouble).toList = _
      rw [String.toList_append, sign, text]
    · refine Numeral.toFloat_of_read read ?_
      rw [spelled.value]
      exact rounds

/-- What is no finite number is written as null, as there is no text for it. -/
theorem floatText_of_not_finite {value : Float} (infinite : ¬value.isFinite) :
    floatText value = "null" := by
  rw [isFinite_iff] at infinite
  unfold floatText
  cases read : readDouble value with
  | notANumber => rfl
  | infinite negative => rfl
  | zero negative => exact absurd (.inl ⟨negative, read⟩) infinite
  | finite negative magnitude => exact absurd (.inr ⟨negative, magnitude, read⟩) infinite

end MigrationGuard.Data.Json
