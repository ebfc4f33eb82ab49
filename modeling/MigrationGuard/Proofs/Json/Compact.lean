/-
This file shows that a value on one line is read as it is read over several lines.
Lists and records on one line are followed item by item and member by member, as
they are over several lines, with nothing but the commas between them. Two values
with the same line are therefore read as the same value: no quote, bracket or
comma inside a text can stand for one between the parts. Signatures and payloads
are hashed as such lines, so what is told apart by reading is told apart by what
is hashed. At the end both forms are put together: whichever way a value was
written, its text is parsed as what the value is read as, as long as it is not
nested too deeply.
-/

import MigrationGuard.Proofs.Json.Reread

namespace MigrationGuard.Data.Json

/-! ### Ends of numbers -/

theorem endsNumber_bracket (rest : List Char) : EndsNumber (']' :: rest) := by
  rintro next ⟨⟩
  decide

theorem endsNumber_brace (rest : List Char) : EndsNumber ('\x7d' :: rest) := by
  rintro next ⟨⟩
  decide

/-! ### Items and members on one line -/

theorem toList_compactItems_cons {item : Value} {items : List Value} (more : items ≠ []) :
    (compactItems (item :: items)).toList =
      (compact item).toList ++ ',' :: (compactItems items).toList := by
  obtain ⟨next, items, rfl⟩ := List.exists_cons_of_ne_nil more
  rw [compactItems]
  · simp [String.toList_append]
  · exact List.cons_ne_nil _ _

theorem toList_compactMembers_one (member : String × Value) :
    (compactMembers [member]).toList =
      (quoted member.1).toList ++ ':' :: (compact member.2).toList := by
  simp [compactMembers, String.toList_append]

theorem toList_compactMembers_cons {member : String × Value} {members : List (String × Value)}
    (more : members ≠ []) :
    (compactMembers (member :: members)).toList = (quoted member.1).toList ++
      ':' :: ((compact member.2).toList ++ ',' :: (compactMembers members).toList) := by
  obtain ⟨next, members, rfl⟩ := List.exists_cons_of_ne_nil more
  rw [compactMembers]
  · simp [String.toList_append]
  · exact List.cons_ne_nil _ _

section
variable {depth deep : Nat} (within : deep + depth ≤ deepest) (rest : List Char)
include within

/-- The items on one line are read up to the closing bracket, each as it would be read alone. -/
theorem readItems?_compact {items : List Value} (present : items ≠ [])
    (each : ∀ item ∈ items, Reads (compact item).toList item.reread depth) {steps : Nat}
    (enough : 2 * (compactItems items).toList.length < steps) :
    readItems? steps deep ((compactItems items).toList ++ ']' :: rest) =
      some (items.map Value.reread, rest) := by
  induction items generalizing steps with
  | nil => exact absurd rfl present
  | cons item items inductionHypothesis =>
    obtain ⟨steps, rfl⟩ : ∃ count, steps = count + 1 :=
      Nat.exists_eq_add_one.mpr (Nat.zero_lt_of_lt enough)
    have reads := each item List.mem_cons_self
    by_cases last : items = []
    · subst last
      rw [compactItems] at enough ⊢
      unfold readItems?
      rw [reads.skipBlanks, reads.read (by omega) within (endsNumber_bracket rest)]
      rfl
    · rw [toList_compactItems_cons last] at enough ⊢
      rw [List.length_append, List.length_cons] at enough
      have others := @inductionHypothesis last
        (fun item member => each item (List.mem_cons_of_mem _ member)) steps (by omega)
      unfold readItems?
      rw [List.append_assoc, List.cons_append, reads.skipBlanks,
        reads.read (by omega) within (endsNumber_comma _)]
      exact congrArg (Option.map fun found => (item.reread :: found.1, found.2)) others

omit within in
theorem readMembers?_colon {name : String} {value : Value} {steps : Nat}
    {text behindValue : List Char} (enough : (quoted name).toList.length ≤ steps + 1)
    (read : readValue? steps deep (skipBlanks text) = some (value, behindValue)) :
    readMembers? (steps + 1) deep ((quoted name).toList ++ ':' :: text) =
      readBehindMember steps deep (name, value) behindValue :=
  readMembers?_step enough (skipBlanks_quoted name _) (skipBlanks_cons rfl _) read

/-- The members on one line are read up to the closing brace, each under its own name. -/
theorem readMembers?_compact {members : List (String × Value)} (present : members ≠ [])
    (each : ∀ member ∈ members, Reads (compact member.2).toList member.2.reread depth)
    {steps : Nat} (enough : 2 * (compactMembers members).toList.length < steps) :
    readMembers? steps deep ((compactMembers members).toList ++ '\x7d' :: rest) =
      some (members.map fun member => (member.1, member.2.reread), true, rest) := by
  induction members generalizing steps with
  | nil => exact absurd rfl present
  | cons member members inductionHypothesis =>
    obtain ⟨name, value⟩ := member
    obtain ⟨steps, rfl⟩ : ∃ count, steps = count + 1 :=
      Nat.exists_eq_add_one.mpr (Nat.zero_lt_of_lt enough)
    have reads : Reads (compact value).toList value.reread depth :=
      each (name, value) List.mem_cons_self
    by_cases last : members = []
    · subst last
      rw [toList_compactMembers_one] at enough ⊢
      rw [List.length_append, List.length_cons] at enough
      dsimp only at enough ⊢
      have read := @Reads.read _ _ _ reads steps deep ('\x7d' :: rest) (by omega) within
        (endsNumber_brace rest)
      rw [← reads.skipBlanks] at read
      rw [List.append_assoc, List.cons_append, readMembers?_colon (by omega) read]
      rfl
    · rw [toList_compactMembers_cons last] at enough ⊢
      rw [List.length_append, List.length_cons, List.length_append, List.length_cons] at enough
      dsimp only at enough ⊢
      have others := @inductionHypothesis last
        (fun member known => each member (List.mem_cons_of_mem _ known)) steps (by omega)
      have read := @Reads.read _ _ _ reads steps deep
        (',' :: ((compactMembers members).toList ++ '\x7d' :: rest)) (by omega) within
        (endsNumber_comma _)
      rw [← reads.skipBlanks] at read
      rw [List.append_assoc, List.cons_append, List.append_assoc, List.cons_append,
        readMembers?_colon (by omega) read]
      exact congrArg (Option.map fun found =>
        ((name, value.reread) :: found.1, true && found.2.1, found.2.2)) others

end

/-! ### Values on one line -/

section
variable {depth : Nat}

theorem compactItems_begins {item : Value} {text : List Char} (others : List Value)
    (reads : Reads (compact item).toList item.reread depth) :
    ∃ first tail, skipBlanks ((compactItems (item :: others)).toList ++ text) = first :: tail ∧
      first ≠ ']' := by
  obtain ⟨first, behind, begins, solid, noBracket⟩ := reads.begins
  cases others with
  | nil =>
    rw [compactItems, begins]
    exact ⟨first, behind ++ text, skipBlanks_cons solid _, noBracket⟩
  | cons next others =>
    rw [toList_compactItems_cons (List.cons_ne_nil _ _), begins]
    exact ⟨first, _, skipBlanks_cons solid _, noBracket⟩

theorem compactMembers_begins {text : List Char} (member : String × Value)
    (others : List (String × Value)) :
    ∃ tail, skipBlanks ((compactMembers (member :: others)).toList ++ text) = '"' :: tail := by
  cases others with
  | nil =>
    rw [toList_compactMembers_one, toList_quoted]
    exact ⟨_, skipBlanks_cons rfl _⟩
  | cons next others =>
    rw [toList_compactMembers_cons (List.cons_ne_nil _ _), toList_quoted]
    exact ⟨_, skipBlanks_cons rfl _⟩

theorem reads_compactList {items : List Value} (present : items ≠ [])
    (each : ∀ item ∈ items, Reads (compact item).toList item.reread depth) :
    Reads (compact (.list items)).toList (.list (items.map Value.reread)) (depth + 1) := by
  obtain ⟨item, others, rfl⟩ := List.exists_cons_of_ne_nil present
  have text : (compact (.list (item :: others))).toList =
      '[' :: ((compactItems (item :: others)).toList ++ [']']) := by
    rw [compact]
    simp [String.toList_append]
  rw [text]
  exact reads_brackets (fun rest => compactItems_begins others (each item List.mem_cons_self))
    fun rest enough within => readItems?_compact within rest present each enough

theorem reads_compactRecord {members : List (String × Value)} (present : members ≠ [])
    (each : ∀ member ∈ members, Reads (compact member.2).toList member.2.reread depth) :
    Reads (compact (.record members)).toList
      (.record (members.map fun member => (member.1, member.2.reread))) (depth + 1) := by
  obtain ⟨member, others, rfl⟩ := List.exists_cons_of_ne_nil present
  have text : (compact (.record (member :: others))).toList =
      '\x7b' :: ((compactMembers (member :: others)).toList ++ ['\x7d']) := by
    rw [compact]
    simp [String.toList_append]
  rw [text]
  exact reads_braces (fun rest => compactMembers_begins member others)
    fun rest enough within => readMembers?_compact within rest present each enough

end

theorem reads_compact (value : Value) : Reads (compact value).toList value.reread value.depth := by
  induction value using Value.nestedInduction with
  | null => exact reads_null
  | bool value => exact reads_bool value
  | integer value => exact reads_integer value
  | float value => exact reads_float value
  | text value => exact reads_text value
  | unreadable => exact reads_null
  | list items inductionHypothesis =>
    rw [Value.reread, Value.rereadItems_eq, Value.depth]
    by_cases present : items = []
    · subst present
      exact reads_emptyList
    · exact reads_compactList present fun item member =>
        (inductionHypothesis item member).deeper (Value.depth_le_depthItems member)
  | record members inductionHypothesis =>
    rw [Value.reread, Value.rereadMembers_eq, Value.depth]
    by_cases present : members = []
    · subst present
      exact reads_emptyRecord
    · exact reads_compactRecord present fun member known =>
        (inductionHypothesis member known).deeper (Value.depth_le_depthMembers known)

/-- A line is parsed as what its value is read as, if lists and records do not lie too deep within
one another. -/
theorem parse?_compact {value : Value} (shallow : value.depth ≤ deepest) :
    parse? (compact value) = some value.reread :=
  (reads_compact value).parse? shallow

/-- The text is how the value is written, on one line or over several lines. -/
inductive Written (value : Value) : String → Prop
  /-- The value stands on one line. -/
  | compact : Written value (compact value)
  /-- The value stands over several lines, as a part of a document or on its own. -/
  | indented (level : Nat) : Written value (indented level value)

theorem Written.parse? {value : Value} {text : String} (written : Written value text)
    (shallow : value.depth ≤ deepest) : parse? text = some value.reread := by
  cases written with
  | compact => exact parse?_compact shallow
  | indented level => exact (reads_indented value level).parse? shallow

theorem reread_eq_of_compact_eq {left right : Value} (leftShallow : left.depth ≤ deepest)
    (rightShallow : right.depth ≤ deepest) (same : compact left = compact right) :
    left.reread = right.reread := by
  have read := parse?_compact leftShallow
  rw [same, parse?_compact rightShallow] at read
  exact (Option.some.inj read).symm

end MigrationGuard.Data.Json
