/-
This file shows what a written value is read as. Finite doubles, texts and
integers within sixty-four bits come back as they were; what is no finite number
is written as null and stays null. Items and members come back in their order, so
the value that is read can be computed from the one that was written, part by
part, without any text. The proof is an induction over the value. Its invariant
says that the text is read wherever it may stand: with any text behind it that
cannot belong to it, at any level that is not too deep, and with enough steps for
its length. Lists and records are read in terms of the parts between their
brackets, which is stated apart from the layout, so it serves values on one line
as well.
-/

import MigrationGuard.Proofs.Json.Number
import MigrationGuard.Proofs.Json.Text

namespace MigrationGuard.Data

open Json

/-! ### What is read again -/

namespace Value

mutual

/-- What a written value is read as. Whether a value comes back is to ask whether this is the value.
-/
def reread : Value → Value
  | .integer value => ofInteger (value < 0) value.natAbs
  | .float value => if value.isFinite then .float value else .null
  | .list items => .list (rereadItems items)
  | .record members => .record (rereadMembers members)
  | .unreadable => .null
  | value => value

/-- What the items of a list are read as, one by one. -/
def rereadItems : List Value → List Value
  | [] => []
  | item :: items => item.reread :: rereadItems items

/-- What the members of a record are read as, each under its name. -/
def rereadMembers : List (String × Value) → List (String × Value)
  | [] => []
  | (name, value) :: members => (name, value.reread) :: rereadMembers members

end

mutual

/-- How many lists and records lie within one another. Reading goes no deeper than a fixed number of
them. -/
def depth : Value → Nat
  | .list items => depthItems items + 1
  | .record members => depthMembers members + 1
  | _ => 0

/-- The depth of the deepest item, and zero if there is none. -/
def depthItems : List Value → Nat
  | [] => 0
  | item :: items => max item.depth (depthItems items)

/-- The depth of the deepest member, and zero if there is none. -/
def depthMembers : List (String × Value) → Nat
  | [] => 0
  | (_, value) :: members => max value.depth (depthMembers members)

end

/-- A property holds of a value if it passes from the items and members to the whole. -/
@[elab_as_elim]
theorem nestedInduction {motive : Value → Prop} (null : motive .null)
    (bool : ∀ value, motive (.bool value)) (integer : ∀ value, motive (.integer value))
    (float : ∀ value, motive (.float value)) (text : ∀ value, motive (.text value))
    (list : ∀ items, (∀ item ∈ items, motive item) → motive (.list items))
    (record : ∀ members, (∀ member ∈ members, motive member.2) → motive (.record members))
    (unreadable : motive .unreadable) : ∀ value, motive value :=
  @Value.rec motive (fun items => ∀ item ∈ items, motive item)
    (fun members => ∀ member ∈ members, motive member.2) (fun member => motive member.2) null bool
    integer float text list record unreadable (fun _ member => nomatch member)
    (fun _ _ first others => List.forall_mem_cons.mpr ⟨first, others⟩)
    (fun _ member => nomatch member)
    (fun _ _ first others => List.forall_mem_cons.mpr ⟨first, others⟩) fun _ _ value => value

theorem depth_le_depthItems {item : Value} {items : List Value} (member : item ∈ items) :
    item.depth ≤ depthItems items := by
  induction items with
  | nil => exact nomatch member
  | cons first others inductionHypothesis =>
    rw [depthItems]
    rcases List.mem_cons.mp member with rfl | behind
    · exact Nat.le_max_left _ _
    · exact (inductionHypothesis behind).trans (Nat.le_max_right _ _)

theorem depth_le_depthMembers {member : String × Value} {members : List (String × Value)}
    (known : member ∈ members) : member.2.depth ≤ depthMembers members := by
  induction members with
  | nil => exact nomatch known
  | cons first others inductionHypothesis =>
    rw [depthMembers]
    rcases List.mem_cons.mp known with rfl | behind
    · exact Nat.le_max_left _ _
    · exact (inductionHypothesis behind).trans (Nat.le_max_right _ _)

theorem rereadItems_eq (items : List Value) : rereadItems items = items.map reread := by
  induction items with
  | nil => rfl
  | cons item items inductionHypothesis =>
    rw [rereadItems, inductionHypothesis, List.map_cons]

theorem rereadMembers_eq (members : List (String × Value)) :
    rereadMembers members = members.map fun member => (member.1, member.2.reread) := by
  induction members with
  | nil => rfl
  | cons member members inductionHypothesis =>
    rw [rereadMembers, inductionHypothesis, List.map_cons]

end Value

namespace Json

/-! ### Blanks -/

theorem skipBlanks_newLine (level : Nat) (rest : List Char) :
    skipBlanks ((newLine level).toList ++ rest) = skipBlanks rest := by
  unfold skipBlanks newLine
  simp only [String.toList_append, String.toList_ofList]
  refine List.dropWhile_append_of_pos fun character member => ?_
  rcases List.mem_append.mp member with first | blank
  · rw [List.mem_singleton.mp first]
    rfl
  · rw [List.eq_of_mem_replicate blank]
    rfl

theorem skipBlanks_cons {first : Char} (solid : isBlank first = false) (others : List Char) :
    skipBlanks (first :: others) = first :: others := by
  refine List.dropWhile_cons_of_neg ?_
  rw [solid]
  exact Bool.false_ne_true

/-! ### Reading values -/

/-- The text is read as the value wherever a value of its depth may stand. -/
structure Reads (text : List Char) (value : Value) (depth : Nat) : Prop where
  /-- The text begins with a character that begins values. -/
  begins : ∃ first others, text = first :: others ∧ isBlank first = false ∧ first ≠ ']'
  /-- Reading takes just the text. -/
  read : ∀ {steps level : Nat} {rest : List Char}, 2 * text.length ≤ steps →
    level + depth ≤ deepest → EndsNumber rest →
      readValue? steps level (text ++ rest) = some (value, rest)

theorem Reads.skipBlanks {text : List Char} {value : Value} {depth : Nat}
    (reads : Reads text value depth) (rest : List Char) :
    Json.skipBlanks (text ++ rest) = text ++ rest := by
  obtain ⟨first, others, rfl, solid, -⟩ := reads.begins
  exact skipBlanks_cons solid (others ++ rest)

theorem Reads.deeper {text : List Char} {value : Value} {depth further : Nat}
    (reads : Reads text value depth) (deeper : depth ≤ further) : Reads text value further :=
  ⟨reads.begins, fun enough within ends => reads.read enough (by omega) ends⟩

theorem reads_null : Reads "null".toList .null 0 := by
  refine ⟨⟨'n', _, rfl, rfl, by decide⟩, fun {steps level rest} enough _ _ => ?_⟩
  obtain ⟨steps, rfl⟩ := Nat.exists_eq_add_of_lt (Nat.lt_of_lt_of_le (by decide : 0 < 8) enough)
  rfl

theorem reads_bool (value : Bool) :
    Reads (if value then "true" else "false").toList (.bool value) 0 := by
  cases value with
  | false =>
    refine ⟨⟨'f', _, rfl, rfl, by decide⟩, fun {steps level rest} enough _ _ => ?_⟩
    obtain ⟨steps, rfl⟩ := Nat.exists_eq_add_of_lt (Nat.lt_of_lt_of_le (by decide : 0 < 10) enough)
    rfl
  | true =>
    refine ⟨⟨'t', _, rfl, rfl, by decide⟩, fun {steps level rest} enough _ _ => ?_⟩
    obtain ⟨steps, rfl⟩ := Nat.exists_eq_add_of_lt (Nat.lt_of_lt_of_le (by decide : 0 < 8) enough)
    rfl

/-- A digit begins a number, and nothing else begins with one. -/
theorem readValue?_digit {first : Char} (digit : first.isDigit) (steps level : Nat)
    (others : List Char) :
    readValue? (steps + 1) level (first :: others) = readNumber? false (first :: others) := by
  unfold readValue?
  split
  case h_8 => rfl
  all_goals
    rename_i same
    rw [(List.cons.inj same).1] at digit
    exact absurd digit (by decide)

theorem AllDigits.head {text : List Char} (digits : AllDigits text) (present : text ≠ []) :
    ∃ first others, text = first :: others ∧ first.isDigit := by
  obtain ⟨first, others, rfl⟩ := List.exists_cons_of_ne_nil present
  exact ⟨first, others, rfl, digits first List.mem_cons_self⟩

theorem begins_of_isDigit {first : Char} (digit : first.isDigit) :
    isBlank first = false ∧ first ≠ ']' := by
  constructor
  · rw [Bool.eq_false_iff]
    intro blank
    simp only [isBlank, Bool.or_eq_true, decide_eq_true_eq] at blank
    rcases blank with ((rfl | rfl) | rfl) | rfl <;> exact absurd digit (by decide)
  · rintro rfl
    exact absurd digit (by decide)

/-- Text that a number is read from, with its sign before it, is read as the value of the number. -/
theorem reads_number {negative : Bool} {text : List Char} {value : Value}
    (digit : ∃ first others, text = first :: others ∧ first.isDigit)
    (read : ∀ {rest}, EndsNumber rest →
      readNumber? negative (text ++ rest) = some (value, rest)) :
    Reads ((if negative then ['-'] else []) ++ text) value 0 := by
  obtain ⟨first, others, rfl, digit⟩ := digit
  cases negative with
  | true =>
    refine ⟨⟨'-', first :: others, rfl, rfl, by decide⟩, fun {steps level rest} enough _ ends => ?_⟩
    obtain ⟨steps, rfl⟩ : ∃ count, steps = count + 1 := by
      refine Nat.exists_eq_add_one.mpr (Nat.lt_of_lt_of_le ?_ enough)
      simp
    exact read ends
  | false =>
    have begins := begins_of_isDigit digit
    refine ⟨⟨first, others, rfl, begins⟩, fun {steps level rest} enough _ ends => ?_⟩
    obtain ⟨steps, rfl⟩ : ∃ count, steps = count + 1 := by
      refine Nat.exists_eq_add_one.mpr (Nat.lt_of_lt_of_le ?_ enough)
      simp
    exact (readValue?_digit digit steps level (others ++ rest)).trans (read ends)

theorem reads_integer (value : Int) :
    Reads (toString value).toList (ofInteger (value < 0) value.natAbs) 0 := by
  rw [toList_toString_int]
  have reads := @reads_number (decide (value < 0)) (Nat.toDigits 10 value.natAbs)
    (ofInteger (value < 0) value.natAbs) ((allDigits_toDigits _).head Nat.toDigits_ne_nil)
    fun ends => readNumber?_toDigits value.natAbs ends _
  simpa only [decide_eq_true_eq] using reads

theorem reads_float (value : Float) :
    Reads (floatText value).toList (if value.isFinite then .float value else .null) 0 := by
  by_cases finite : value.isFinite
  · rw [if_pos finite]
    obtain ⟨negative, spelling, text, wellFormed, broken, same⟩ := floatText_spelling finite
    rw [text]
    refine reads_number ?_ fun ends => ?_
    · obtain ⟨first, others, whole, digit⟩ := wellFormed.digits.head wellFormed.present
      have known := spelling.text_eq
      rw [whole, List.cons_append] at known
      exact ⟨first, _, known, digit⟩
    · rw [wellFormed.readNumber? broken ends, same, ofFloat, if_pos finite]
  · rw [if_neg finite, floatText_of_not_finite finite]
    exact reads_null

theorem toList_quoted (text : String) :
    (quoted text).toList = '"' :: (text.toList.flatMap escape ++ ['"']) := by
  unfold quoted
  simp only [String.toList_append, String.toList_ofList]
  rfl

theorem length_flatMap_escape (characters : List Char) :
    characters.length ≤ (characters.flatMap escape).length := by
  induction characters with
  | nil => exact Nat.le_refl 0
  | cons character characters inductionHypothesis =>
    have some : 0 < (escape character).length := by
      unfold escape
      split <;> try exact Nat.succ_pos _
      split_ifs <;> exact Nat.succ_pos _
    rw [List.flatMap_cons, List.length_append, List.length_cons]
    omega

/-- A text between quotes is read up to its closing quote, whatever characters are in it. -/
theorem readText?_quoted {text : String} {steps : Nat}
    (enough : (quoted text).toList.length ≤ steps + 1) (rest : List Char) :
    readText? steps (text.toList.flatMap escape ++ '"' :: rest) [] true =
      some (text.toList, true, rest) := by
  have long := length_flatMap_escape text.toList
  rw [toList_quoted, List.length_cons, List.length_append, List.length_singleton] at enough
  exact readText?_flatMap rest text.toList [] true (by omega)

theorem reads_text (text : String) : Reads (quoted text).toList (.text text) 0 := by
  refine ⟨⟨'"', _, toList_quoted text, rfl, by decide⟩, fun {steps level rest} enough _ _ => ?_⟩
  have long : (quoted text).toList.length =
      (text.toList.flatMap escape).length + 1 + 1 := by
    rw [toList_quoted, List.length_cons, List.length_append, List.length_singleton]
  obtain ⟨steps, rfl⟩ : ∃ count, steps = count + 1 := Nat.exists_eq_add_one.mpr (by omega)
  have read := @readText?_quoted text steps (by omega) rest
  rw [toList_quoted, List.cons_append, List.append_assoc, List.singleton_append]
  show (readText? steps (text.toList.flatMap escape ++ '"' :: rest) [] true).map _ = _
  rw [read]
  dsimp only [Option.map_some]
  rw [if_pos rfl, String.ofList_toList]

/-! ### Reading lists and records -/

theorem toList_newLine (level : Nat) :
    (newLine level).toList = '\n' :: List.replicate (2 * level) ' ' := by
  unfold newLine
  simp only [String.toList_append, String.toList_ofList]
  rfl

theorem endsNumber_comma (rest : List Char) : EndsNumber (',' :: rest) := by
  rintro next ⟨⟩
  decide

theorem endsNumber_newLine (level : Nat) (rest : List Char) :
    EndsNumber ((newLine level).toList ++ rest) := by
  rw [toList_newLine]
  rintro next ⟨⟩
  decide

section
variable {level depth : Nat}

/-- The items of a list are read up to the closing bracket, with their line breaks skipped. -/
theorem readItems?_indented {deep : Nat} (within : deep + depth ≤ deepest) (close : Nat)
    (rest : List Char) : ∀ {items : List Value} {steps : Nat}, items ≠ [] →
      (∀ item ∈ items, Reads (indented level item).toList item.reread depth) →
      2 * (indentedItems level items).toList.length ≤ steps →
        readItems? steps deep
            ((indentedItems level items).toList ++ ((newLine close).toList ++ ']' :: rest)) =
          some (items.map Value.reread, rest)
  | [item], steps, _, each, enough => by
    have reads := each item List.mem_cons_self
    rw [indentedItems, String.toList_append] at enough ⊢
    rw [List.length_append, toList_newLine, List.length_cons] at enough
    obtain ⟨steps, rfl⟩ : ∃ count, steps = count + 1 := Nat.exists_eq_add_one.mpr (by omega)
    unfold readItems?
    rw [List.append_assoc, skipBlanks_newLine, reads.skipBlanks,
      reads.read (by omega) within (endsNumber_newLine close _)]
    dsimp only
    rw [skipBlanks_newLine, skipBlanks_cons rfl]
    rfl
  | item :: next :: items, steps, _, each, enough => by
    have reads := each item List.mem_cons_self
    have split : (indentedItems level (item :: next :: items)).toList = (newLine level).toList ++
        ((indented level item).toList ++ ',' :: (indentedItems level (next :: items)).toList) := by
      rw [indentedItems]
      · simp [String.toList_append]
      · exact List.cons_ne_nil _ _
    rw [split] at enough ⊢
    rw [List.length_append, toList_newLine, List.length_cons, List.length_append,
      List.length_cons] at enough
    obtain ⟨steps, rfl⟩ : ∃ count, steps = count + 1 := Nat.exists_eq_add_one.mpr (by omega)
    have others := @readItems?_indented deep within close rest (next :: items) steps
      (List.cons_ne_nil _ _) (fun item member => each item (List.mem_cons_of_mem _ member))
      (by omega)
    unfold readItems?
    rw [List.append_assoc, List.append_assoc, List.cons_append, skipBlanks_newLine,
      reads.skipBlanks, reads.read (by omega) within (endsNumber_comma _)]
    dsimp only
    rw [skipBlanks_cons rfl]
    exact congrArg (Option.map fun found => (item.reread :: found.1, found.2)) others

omit level depth in
theorem skipBlanks_quoted (text : String) (rest : List Char) :
    skipBlanks ((quoted text).toList ++ rest) = (quoted text).toList ++ rest := by
  rw [toList_quoted, List.cons_append, skipBlanks_cons rfl]

/-- The members that start with a given one, read from the text behind its value: that tells whether
further members follow. -/
def readBehindMember (steps deep : Nat) (member : String × Value) (text : List Char) :
    Option (List (String × Value) × Bool × List Char) :=
  match skipBlanks text with
  | '\x7d' :: behind => some ([member], true, behind)
  | ',' :: more => (readMembers? steps deep more).map fun (members, names, behind) =>
    (member :: members, true && names, behind)
  | _ => none

theorem readMembers?_step {name : String} {value : Value} {steps deep : Nat}
    {text behindName behindColon behindValue : List Char}
    (enough : (quoted name).toList.length ≤ steps + 1)
    (start : skipBlanks text = (quoted name).toList ++ behindName)
    (colon : skipBlanks behindName = ':' :: behindColon)
    (read : readValue? steps deep (skipBlanks behindColon) = some (value, behindValue)) :
    readMembers? (steps + 1) deep text = readBehindMember steps deep (name, value) behindValue := by
  have readName := readText?_quoted enough behindName
  have quote : skipBlanks text = '"' :: (name.toList.flatMap escape ++ '"' :: behindName) := by
    rw [start, toList_quoted, List.cons_append, List.append_assoc]
    rfl
  rw [readMembers?]
  simp only [quote, readName, colon, read, String.ofList_toList]
  rfl

theorem readMembers?_newLine {name : String} {value : Value} {steps deep : Nat}
    {rest behindValue : List Char} (enough : (quoted name).toList.length ≤ steps + 1)
    (read : readValue? steps deep (skipBlanks rest) = some (value, behindValue)) :
    readMembers? (steps + 1) deep ((newLine level).toList ++
        ((quoted name).toList ++ (": ".toList ++ rest))) =
      readBehindMember steps deep (name, value) behindValue := by
  have start : skipBlanks ((newLine level).toList ++
      ((quoted name).toList ++ (": ".toList ++ rest))) =
        (quoted name).toList ++ (": ".toList ++ rest) := by
    rw [skipBlanks_newLine, skipBlanks_quoted]
  have blank : skipBlanks (' ' :: rest) = skipBlanks rest := List.dropWhile_cons_of_pos rfl
  exact readMembers?_step enough start (skipBlanks_cons rfl _) (blank ▸ read)

/-- The members of a record are read up to the closing brace, with their line breaks skipped. -/
theorem readMembers?_indented {deep : Nat} (within : deep + depth ≤ deepest) (close : Nat)
    (rest : List Char) : ∀ {members : List (String × Value)} {steps : Nat}, members ≠ [] →
      (∀ member ∈ members, Reads (indented level member.2).toList member.2.reread depth) →
      2 * (indentedMembers level members).toList.length ≤ steps →
        readMembers? steps deep
            ((indentedMembers level members).toList ++ ((newLine close).toList ++ '\x7d' :: rest)) =
          some (members.map fun member => (member.1, member.2.reread), true, rest)
  | [(name, value)], steps, _, each, enough => by
    have reads : Reads (indented level value).toList value.reread depth :=
      each (name, value) List.mem_cons_self
    have split : (indentedMembers level [(name, value)]).toList = (newLine level).toList ++
        ((quoted name).toList ++ (": ".toList ++ (indented level value).toList)) := by
      simp [indentedMembers, String.toList_append]
    rw [split] at enough ⊢
    rw [List.length_append, toList_newLine, List.length_cons, List.length_append,
      List.length_append] at enough
    obtain ⟨steps, rfl⟩ : ∃ count, steps = count + 1 := Nat.exists_eq_add_one.mpr (by omega)
    have read := @Reads.read _ _ _ reads steps deep ((newLine close).toList ++ '\x7d' :: rest)
      (by omega) within (endsNumber_newLine close _)
    rw [← reads.skipBlanks] at read
    rw [List.append_assoc, List.append_assoc, List.append_assoc,
      readMembers?_newLine (by omega) read, readBehindMember, skipBlanks_newLine,
      skipBlanks_cons rfl]
    rfl
  | (name, value) :: next :: members, steps, _, each, enough => by
    have reads : Reads (indented level value).toList value.reread depth :=
      each (name, value) List.mem_cons_self
    have split : (indentedMembers level ((name, value) :: next :: members)).toList =
        (newLine level).toList ++ ((quoted name).toList ++ (": ".toList ++
          ((indented level value).toList ++
            ',' :: (indentedMembers level (next :: members)).toList))) := by
      rw [indentedMembers]
      · simp [String.toList_append]
      · exact List.cons_ne_nil _ _
    rw [split] at enough ⊢
    rw [List.length_append, toList_newLine, List.length_cons, List.length_append,
      List.length_append, List.length_append, List.length_cons] at enough
    obtain ⟨steps, rfl⟩ : ∃ count, steps = count + 1 := Nat.exists_eq_add_one.mpr (by omega)
    have others := @readMembers?_indented deep within close rest (next :: members) steps
      (List.cons_ne_nil _ _) (fun member mem => each member (List.mem_cons_of_mem _ mem))
      (by omega)
    have read := @Reads.read _ _ _ reads steps deep (',' ::
      ((indentedMembers level (next :: members)).toList ++
        ((newLine close).toList ++ '\x7d' :: rest))) (by omega) within (endsNumber_comma _)
    rw [← reads.skipBlanks] at read
    rw [List.append_assoc, List.append_assoc, List.append_assoc, List.append_assoc,
      List.cons_append, readMembers?_newLine (by omega) read, readBehindMember,
      skipBlanks_cons rfl]
    exact congrArg (Option.map fun found =>
      ((name, value.reread) :: found.1, true && found.2.1, found.2.2)) others

end

theorem skipBlanks_skipBlanks (text : List Char) :
    skipBlanks (skipBlanks text) = skipBlanks text := by
  induction text with
  | nil => rfl
  | cons first others inductionHypothesis =>
    cases solid : isBlank first with
    | true =>
      have blank : skipBlanks (first :: others) = skipBlanks others :=
        List.dropWhile_cons_of_pos solid
      rw [blank]
      exact inductionHypothesis
    | false => rw [skipBlanks_cons solid, skipBlanks_cons solid]

theorem readItems?_skipBlanks (steps level : Nat) (text : List Char) :
    readItems? steps level (skipBlanks text) = readItems? steps level text := by
  cases steps with
  | zero => rw [readItems?, readItems?]
  | succ steps => rw [readItems?, readItems?, skipBlanks_skipBlanks]

theorem readMembers?_skipBlanks (steps level : Nat) (text : List Char) :
    readMembers? steps level (skipBlanks text) = readMembers? steps level text := by
  cases steps with
  | zero => rw [readMembers?, readMembers?]
  | succ steps => rw [readMembers?, readMembers?, skipBlanks_skipBlanks]

section
variable {first : Char} {others rest : List Char} (start : skipBlanks rest = first :: others)
include start

/-- A list that is not empty is read item by item, one level deeper. -/
theorem readValue?_list (solid : first ≠ ']') (steps level : Nat) :
    readValue? (steps + 1) level ('[' :: rest) =
      (readItems? steps (level + 1) rest).map fun found =>
        (within (level + 1) true (.list found.1), found.2) := by
  rw [← readItems?_skipBlanks, start, readValue?]
  split
  · rename_i same
    exact absurd (List.cons.inj (start.symm.trans same)).1 solid
  · rw [start]

/-- A record that is not empty is read member by member, one level deeper. -/
theorem readValue?_record (solid : first ≠ '\x7d') (steps level : Nat) :
    readValue? (steps + 1) level ('\x7b' :: rest) =
      (readMembers? steps (level + 1) rest).map fun found =>
        (within (level + 1) found.2.1 (.record found.1), found.2.2) := by
  rw [← readMembers?_skipBlanks, start, readValue?]
  split
  · rename_i same
    exact absurd (List.cons.inj (start.symm.trans same)).1 solid
  · rw [start]

end

theorem within_of_le {level : Nat} (shallow : level ≤ deepest) (value : Value) :
    within level true value = value :=
  if_pos ⟨shallow, rfl⟩

section
variable {level depth : Nat}

theorem indentedItems_begins (level : Nat) (item : Value) (others : List Value) :
    ∃ tail, (indentedItems level (item :: others)).toList =
      (newLine level).toList ++ ((indented level item).toList ++ tail) := by
  cases others with
  | nil =>
    refine ⟨[], ?_⟩
    rw [indentedItems, String.toList_append, List.append_nil]
  | cons next others =>
    refine ⟨',' :: (indentedItems level (next :: others)).toList, ?_⟩
    rw [indentedItems]
    · simp [String.toList_append]
    · exact List.cons_ne_nil _ _

theorem indentedMembers_begins (level : Nat) (member : String × Value)
    (others : List (String × Value)) :
    ∃ tail, (indentedMembers level (member :: others)).toList =
      (newLine level).toList ++ '"' :: tail := by
  have name := toList_quoted member.1
  generalize member.1.toList.flatMap escape ++ ['"'] = behind at name
  cases others with
  | nil =>
    refine ⟨behind ++ (": ".toList ++ (indented level member.2).toList), ?_⟩
    rw [indentedMembers]
    simp [String.toList_append, name]
  | cons next others =>
    refine ⟨behind ++ (": ".toList ++ ((indented level member.2).toList ++
      ',' :: (indentedMembers level (next :: others)).toList)), ?_⟩
    rw [indentedMembers]
    · simp [String.toList_append, name]
    · exact List.cons_ne_nil _ _

/-- A list is read if what stands between its brackets is read up to the closing one. -/
theorem reads_brackets {inner : List Char} {items : List Value}
    (start : ∀ rest, ∃ first behind, skipBlanks (inner ++ rest) = first :: behind ∧ first ≠ ']')
    (read : ∀ {steps deep : Nat} (rest : List Char), 2 * inner.length < steps →
      deep + depth ≤ deepest → readItems? steps deep (inner ++ ']' :: rest) = some (items, rest)) :
    Reads ('[' :: (inner ++ [']'])) (.list items) (depth + 1) := by
  refine ⟨⟨'[', _, rfl, rfl, by decide⟩, fun {steps deep rest} enough shallow _ => ?_⟩
  rw [List.length_cons, List.length_append, List.length_singleton] at enough
  obtain ⟨steps, rfl⟩ : ∃ count, steps = count + 1 := Nat.exists_eq_add_one.mpr (by omega)
  obtain ⟨first, behind, begins, solid⟩ := start (']' :: rest)
  rw [List.cons_append, List.append_assoc, List.singleton_append, readValue?_list begins solid,
    read rest (by omega) (by omega)]
  dsimp only [Option.map_some]
  rw [within_of_le (by omega)]

/-- A record is read if what stands between its braces is read up to the closing one. -/
theorem reads_braces {inner : List Char} {members : List (String × Value)}
    (start : ∀ rest, ∃ behind, skipBlanks (inner ++ rest) = '"' :: behind)
    (read : ∀ {steps deep : Nat} (rest : List Char), 2 * inner.length < steps →
      deep + depth ≤ deepest →
        readMembers? steps deep (inner ++ '\x7d' :: rest) = some (members, true, rest)) :
    Reads ('\x7b' :: (inner ++ ['\x7d'])) (.record members) (depth + 1) := by
  refine ⟨⟨'\x7b', _, rfl, rfl, by decide⟩, fun {steps deep rest} enough shallow _ => ?_⟩
  rw [List.length_cons, List.length_append, List.length_singleton] at enough
  obtain ⟨steps, rfl⟩ : ∃ count, steps = count + 1 := Nat.exists_eq_add_one.mpr (by omega)
  obtain ⟨behind, begins⟩ := start ('\x7d' :: rest)
  rw [List.cons_append, List.append_assoc, List.singleton_append,
    readValue?_record begins (by decide), read rest (by omega) (by omega)]
  dsimp only [Option.map_some]
  rw [within_of_le (by omega)]

/-- A list over several lines is read as the list of what its items are read as. -/
theorem reads_list {items : List Value} (present : items ≠ [])
    (each : ∀ item ∈ items, Reads (indented (level + 1) item).toList item.reread depth) :
    Reads (indented level (.list items)).toList (.list (items.map Value.reread)) (depth + 1) := by
  obtain ⟨item, others, rfl⟩ := List.exists_cons_of_ne_nil present
  have text : (indented level (.list (item :: others))).toList = '[' ::
      ((indentedItems (level + 1) (item :: others)).toList ++ (newLine level).toList ++ [']']) := by
    rw [indented]
    simp [String.toList_append]
  rw [text]
  refine reads_brackets (fun rest => ?_) fun {steps deep} rest enough within => ?_
  · have reads := each item List.mem_cons_self
    obtain ⟨tail, split⟩ := indentedItems_begins (level + 1) item others
    obtain ⟨first, behind, known, -, solid⟩ := reads.begins
    refine ⟨first, behind ++ (tail ++ ((newLine level).toList ++ rest)), ?_, solid⟩
    rw [split, List.append_assoc, List.append_assoc, List.append_assoc, skipBlanks_newLine,
      reads.skipBlanks, known, List.cons_append]
  · rw [List.length_append] at enough
    rw [List.append_assoc]
    exact readItems?_indented within level rest present each (by omega)

/-- A record over several lines is read as the record of what its members are read as. -/
theorem reads_record {members : List (String × Value)} (present : members ≠ [])
    (each : ∀ member ∈ members,
      Reads (indented (level + 1) member.2).toList member.2.reread depth) :
    Reads (indented level (.record members)).toList
      (.record (members.map fun member => (member.1, member.2.reread))) (depth + 1) := by
  obtain ⟨member, others, rfl⟩ := List.exists_cons_of_ne_nil present
  have text : (indented level (.record (member :: others))).toList = '\x7b' ::
      ((indentedMembers (level + 1) (member :: others)).toList ++ (newLine level).toList ++
        ['\x7d']) := by
    rw [indented]
    simp [String.toList_append]
  rw [text]
  refine reads_braces (fun rest => ?_) fun {steps deep} rest enough within => ?_
  · obtain ⟨tail, split⟩ := indentedMembers_begins (level + 1) member others
    rw [split, List.append_assoc, List.append_assoc, skipBlanks_newLine]
    exact ⟨_, skipBlanks_cons rfl _⟩
  · rw [List.length_append] at enough
    rw [List.append_assoc]
    exact readMembers?_indented within level rest present each (by omega)

end

theorem reads_emptyList : Reads (compact (.list [])).toList (.list []) 1 := by
  refine ⟨⟨'[', [']'], rfl, rfl, by decide⟩, fun {steps deep rest} enough within _ => ?_⟩
  obtain ⟨steps, rfl⟩ := Nat.exists_eq_add_of_lt (Nat.lt_of_lt_of_le (by decide : 0 < 4) enough)
  exact congrArg (fun value => some (value, rest)) (within_of_le (by omega) _)

theorem reads_emptyRecord : Reads (compact (.record [])).toList (.record []) 1 := by
  refine ⟨⟨'\x7b', ['\x7d'], rfl, rfl, by decide⟩, fun {steps deep rest} enough within _ => ?_⟩
  obtain ⟨steps, rfl⟩ := Nat.exists_eq_add_of_lt (Nat.lt_of_lt_of_le (by decide : 0 < 4) enough)
  exact congrArg (fun value => some (value, rest)) (within_of_le (by omega) _)

/-- The text of a value over several lines is read as what the value is read as. -/
theorem reads_indented (value : Value) :
    ∀ level, Reads (indented level value).toList value.reread value.depth := by
  induction value using Value.nestedInduction with
  | null => exact fun _ => reads_null
  | bool value => exact fun _ => reads_bool value
  | integer value => exact fun _ => reads_integer value
  | float value => exact fun _ => reads_float value
  | text value => exact fun _ => reads_text value
  | unreadable => exact fun _ => reads_null
  | list items inductionHypothesis =>
    intro level
    rw [Value.reread, Value.rereadItems_eq, Value.depth]
    by_cases present : items = []
    · subst present
      exact reads_emptyList
    · exact reads_list present fun item member =>
        (inductionHypothesis item member _).deeper (Value.depth_le_depthItems member)
  | record members inductionHypothesis =>
    intro level
    rw [Value.reread, Value.rereadMembers_eq, Value.depth]
    by_cases present : members = []
    · subst present
      exact reads_emptyRecord
    · exact reads_record present fun member known =>
        (inductionHypothesis member known _).deeper (Value.depth_le_depthMembers known)

theorem Reads.parse? {text : String} {value : Value} {depth : Nat}
    (reads : Reads text.toList value depth) (shallow : depth ≤ deepest) :
    Json.parse? text = some value := by
  have read := @Reads.read _ _ _ reads (2 * text.toList.length + 2) 0 []
    (Nat.le_add_right _ 2) (by omega) fun next head => nomatch head
  have blanks := reads.skipBlanks []
  rw [List.append_nil] at read blanks
  unfold Json.parse?
  dsimp only
  rw [blanks, read]
  rfl

/-- A written text is parsed as what the value is read as. It is this that a data file is. -/
theorem parse?_pretty {value : Value} (shallow : value.depth ≤ deepest) :
    parse? (pretty value) = some value.reread :=
  Reads.parse? (reads_indented value 0) shallow

end Json

end MigrationGuard.Data
