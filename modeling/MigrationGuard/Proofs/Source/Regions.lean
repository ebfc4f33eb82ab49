/-
This file says what the line scanner reads for a definition. The region of a
definition ends before the first line whose code is indented no deeper, or when
the window is used up, or with the text. Blank lines and comments stand in the
region without ending it. What a definition adds to its function are the calls and
the side effects on the lines of its region, so nothing else in the text makes a
difference to them. The region is described by its lines and the line behind it,
and it is the only piece of the text below a definition that fits the description.
The functions of a source are followed from line to line: a line that begins no
definition leaves them as they are, and one that does adds what its region holds.
Hence two sources that agree on a line, its region and the line behind it agree on
the definition, wherever in them it stands.
-/

import Mathlib.Data.List.Forall2
import MigrationGuard.Proofs.Keyed
import MigrationGuard.Proofs.Source.Bodies
import MigrationGuard.Proofs.Text.Search
import MigrationGuard.Source.LineScanner

namespace MigrationGuard

/-! ### One definition more -/

theorem ExtractedFunction.name_absorb (first later : ExtractedFunction) :
    (first.absorb later).name = first.name :=
  rfl

theorem mergeFunction_eq (functions : List ExtractedFunction) (function : ExtractedFunction) :
    mergeFunction functions function =
      Keyed.merge ExtractedFunction.name ExtractedFunction.absorb functions function := by
  induction functions with
  | nil => rfl
  | cons first rest inductionHypothesis =>
    rw [mergeFunction, Keyed.merge, inductionHypothesis]

theorem mergeFunctions_eq (definitions : List ExtractedFunction) :
    mergeFunctions definitions =
      Keyed.gather ExtractedFunction.name ExtractedFunction.absorb definitions := by
  have merged : mergeFunction = Keyed.merge ExtractedFunction.name ExtractedFunction.absorb :=
    funext fun functions => funext fun function => mergeFunction_eq functions function
  rw [mergeFunctions, merged]
  rfl

/-- The calls that are recorded under a name, none if the name is not known. -/
def callsUnder (functions : List ExtractedFunction) (name : String) : List CallSite :=
  ((functions.find? fun function => function.name = name).map ExtractedFunction.calls).getD []

/-- The side effects that are recorded under a name, none if the name is not known. -/
def effectsUnder (functions : List ExtractedFunction) (name : String) : EffectSet :=
  ((functions.find? fun function => function.name = name).map ExtractedFunction.effects).getD .empty

/-- A definition is added to functions: what its name stands for gets its calls and effects, and
nothing else happens. -/
structure ExtractedFunction.AddedTo (definition : ExtractedFunction)
    (before after : List ExtractedFunction) : Prop where
  /-- The calls go behind those that are recorded under the name. -/
  calls : ∀ name, callsUnder after name =
    callsUnder before name ++ if name = definition.name then definition.calls else []
  /-- The effects are recorded under the name. -/
  effects : ∀ name effect, (effectsUnder after name).contains effect ↔
    (effectsUnder before name).contains effect ∨
      name = definition.name ∧ definition.effects.contains effect
  /-- The name is known from then on. -/
  names : ∀ name, name ∈ after.map ExtractedFunction.name ↔
    name ∈ before.map ExtractedFunction.name ∨ name = definition.name

theorem addedTo_mergeFunction (functions : List ExtractedFunction)
    (definition : ExtractedFunction) :
    definition.AddedTo functions (mergeFunction functions definition) := by
  rw [mergeFunction_eq]
  refine ⟨fun name => ?_, fun name effect => ?_, fun name => ?_⟩
  · rw [callsUnder, callsUnder, Keyed.find_merge ExtractedFunction.name_absorb]
    by_cases same : name = definition.name
    · rw [if_pos same.symm, if_pos same]
      cases functions.find? fun function => function.name = name <;> rfl
    · rw [if_neg (Ne.symm same), if_neg same, List.append_nil]
  · rw [effectsUnder, effectsUnder, Keyed.find_merge ExtractedFunction.name_absorb]
    by_cases same : name = definition.name
    · rw [if_pos same.symm]
      cases functions.find? fun function => function.name = name with
      | none => simp [same]
      | some first => simp [same, ExtractedFunction.absorb]
    · rw [if_neg (Ne.symm same), or_iff_left fun other => same other.1]
  · exact Keyed.mem_keys_merge ExtractedFunction.name_absorb functions definition name

namespace LineScanner

/-! ### Regions -/

/-- The line has code, and the code is indented no deeper than a definition. -/
def Dedents (indent : Nat) (line : List Char) : Prop :=
  (∃ character ∈ stripComment line, Text.isBlank character = false) ∧
    indentation (stripComment line) ≤ indent

/-- Lines are the region of a definition that stands above them, where the lines behind them are
given as well. -/
structure IsRegion (window indent : Nat) (lines behind : List (List Char)) : Prop where
  /-- No line of the region goes back to the indentation of the definition. -/
  deeper : ∀ line ∈ lines, ¬ Dedents indent line
  /-- The region is within the window. -/
  bounded : lines.length ≤ max window 1
  /-- Where the window is not used up, the next line goes back, if there is one. -/
  ends : lines.length < max window 1 → ∀ line ∈ behind.head?, Dedents indent line

theorem endsRegion_iff {indent : Nat} {line : List Char} :
    endsRegion indent line ↔ Dedents indent line := by
  simp [endsRegion, Dedents]

theorem endsRegion_eq_false_iff {indent : Nat} {line : List Char} :
    endsRegion indent line = false ↔ ¬ Dedents indent line := by
  rw [← endsRegion_iff, Bool.not_eq_true]

namespace IsRegion

variable {window indent : Nat} {lines behind others : List (List Char)}

/-- The region is what the scanner takes for it, so there is one region at most. -/
theorem region_eq (isRegion : IsRegion window indent lines behind) :
    region window indent (lines ++ behind) = lines := by
  have deeper : ∀ line ∈ lines, (!endsRegion indent line) = true := fun line member => by
    rw [endsRegion_eq_false_iff.mpr (isRegion.deeper line member)]
    rfl
  rw [region, linesWithin, List.take_append, List.take_of_length_le isRegion.bounded,
    List.takeWhile_append_of_pos deeper]
  refine (congrArg (lines ++ ·) ?_).trans (List.append_nil lines)
  -- Of the lines behind, none is within the window, or the first one ends the region.
  rcases Nat.lt_or_ge lines.length (max window 1) with within | usedUp
  · cases behind with
    | nil => rw [List.take_nil, List.takeWhile_nil]
    | cons next rest =>
      have dedents := isRegion.ends within next rfl
      obtain ⟨left, more⟩ := Nat.exists_eq_add_one.mpr (Nat.sub_pos_of_lt within)
      rw [more, List.take_succ_cons, List.takeWhile_cons_of_neg]
      rw [endsRegion_iff.mpr dedents]
      exact Bool.false_ne_true
  · rw [Nat.sub_eq_zero_of_le usedUp, List.take_zero, List.takeWhile_nil]

/-- Of what stands behind a region, the line that ends it alone makes a difference. -/
theorem congr_behind (isRegion : IsRegion window indent lines behind)
    (same : lines.length < max window 1 → others.head? = behind.head?) :
    IsRegion window indent lines others :=
  ⟨isRegion.deeper, isRegion.bounded, fun within => same within ▸ isRegion.ends within⟩

end IsRegion

/-- The scanner finds a region below every line, which may have no lines. -/
theorem isRegion_region (window indent : Nat) (below : List (List Char)) :
    IsRegion window indent (region window indent below)
      (below.drop (region window indent below).length) := by
  let keeps := fun line => !endsRegion indent line
  have within : (region window indent below).length ≤ (below.take (max window 1)).length :=
    (List.takeWhile_sublist keeps).length_le
  obtain ⟨split, kept, stops⟩ := Text.cut_spec keeps (below.take (max window 1))
  refine ⟨fun line member => ?_, within.trans (List.length_take_le _ _),
    fun shorter next isNext => ?_⟩
  · exact endsRegion_eq_false_iff.mp ((Bool.not_eq_true' _).mp (kept line member))
  · have behind : (below.take (max window 1)).drop (region window indent below).length =
        (below.take (max window 1)).dropWhile keeps := by
      conv_lhs => rw [split]
      exact List.drop_left
    have stopped : keeps next ≠ true := by
      refine stops next ?_
      rwa [← behind, List.head?_drop, List.getElem?_take_of_lt shorter, ← List.head?_drop]
    exact endsRegion_iff.mp ((Bool.not_eq_false' _).mp (Bool.eq_false_iff.mpr stopped))

theorem region_append_drop (window indent : Nat) (below : List (List Char)) :
    region window indent below ++ below.drop (region window indent below).length = below := by
  have begins : region window indent below <+: below :=
    (List.takeWhile_prefix _).trans (List.take_prefix _ _)
  rw [List.prefix_iff_eq_append.mp begins]

/-! ### What is found on a line -/

/-- A side effect is found on a line: a name that is called tells of it, or it is reading the
environment and the code mentions the environment. -/
def FoundOn (line : List Char) (effect : SideEffect) : Prop :=
  (∃ names, Calls (stripComment line) names ∧
      ∃ callee ∈ names, (classifyCall callee).contains effect) ∨
    effect = .envRead ∧ "os.environ".toList <:+: stripComment line

theorem foundOn_iff {line : List Char} {effect : SideEffect} :
    FoundOn line effect ↔
      (∃ callee ∈ callees (stripComment line), (classifyCall callee).contains effect) ∨
        effect = .envRead ∧ "os.environ".toList <:+: stripComment line := by
  simp only [FoundOn, calls_iff, exists_eq_left]

theorem contains_lineEffects {line : List Char} {effect : SideEffect} :
    (lineEffects line).contains effect ↔ FoundOn line effect := by
  have ofCalls : (EffectSet.unionAll ((callees (stripComment line)).map classifyCall)).contains
      effect ↔ ∃ callee ∈ callees (stripComment line), (classifyCall callee).contains effect := by
    rw [EffectSet.contains_unionAll]
    simp only [List.mem_map, exists_exists_and_eq_and]
  have mentions : mentionsEnvironment line ↔ "os.environ".toList <:+: stripComment line :=
    Text.occursIn_iff
  rw [lineEffects, foundOn_iff]
  split
  · rename_i mentioned
    rw [EffectSet.contains_union, Bool.or_eq_true, ofCalls, contains_environmentRead,
      and_iff_left (mentions.mp mentioned), or_comm]
  · rename_i silent
    rw [ofCalls, or_iff_left fun mentioned => silent (mentions.mpr mentioned.2)]

/-! ### Definitions -/

/-- The definition that a header begins on the line with a number, read from its region. -/
def Header.definition (header : Header) (number : Nat) (lines : List (List Char)) :
    ExtractedFunction :=
  { name := header.name
    line := number
    signature := "def " ++ header.name ++ header.parameters
    calls := lines.flatMap lineCalls
    effects := EffectSet.unionAll (lines.map lineEffects) }

/-- The loop that reads the lines below a header reads its region. -/
theorem Header.readLines_eq (header : Header) (number window : Nat) (below : List (List Char)) :
    let body := Body.readLines header.indent (max window 1) .empty below
    { name := header.name
      line := number
      signature := "def " ++ header.name ++ header.parameters
      calls := body.calls
      effects := body.effects } = header.definition number (region window header.indent below) := by
  dsimp only
  rw [Body.readLines_eq]
  exact congrArg (ExtractedFunction.mk _ _ _ _) (EffectSet.empty_union _)

/-- The definition that a line with the given number begins, with the lines below it. -/
def definitionOn? (window number : Nat) (line : List Char) (below : List (List Char)) :
    Option ExtractedFunction :=
  (header? line).map fun header => header.definition number (region window header.indent below)

/-- The definition that begins on the line at a place, if one does. -/
def definitionAt? (window : Nat) (lines : List (List Char)) (place : Nat) :
    Option ExtractedFunction :=
  lines[place]?.bind fun line =>
    definitionOn? window (place + 1) line (lines.drop (place + 1))

/-- The functions that are known when the lines before a place have been searched for
definitions. -/
def functionsUpTo (window : Nat) (lines : List (List Char)) (place : Nat) :
    List ExtractedFunction :=
  mergeFunctions ((List.range place).filterMap (definitionAt? window lines))

theorem definitions_eq_filterMap (window number : Nat) (lines : List (List Char)) :
    definitions window number lines = (List.range lines.length).filterMap fun place =>
      lines[place]?.bind fun line =>
        definitionOn? window (number + place) line (lines.drop (place + 1)) := by
  induction lines generalizing number with
  | nil => rfl
  | cons line below inductionHypothesis =>
    have later : definitions window (number + 1) below =
        ((List.range below.length).map Nat.succ).filterMap fun place =>
          (line :: below)[place]?.bind fun found =>
            definitionOn? window (number + place) found ((line :: below).drop (place + 1)) := by
      rw [inductionHypothesis, List.filterMap_map]
      refine List.filterMap_congr fun place _ => ?_
      rw [Function.comp_apply, List.getElem?_cons_succ, Nat.add_right_comm, Nat.add_assoc]
      rfl
    rw [definitions, List.length_cons, List.range_succ_eq_map, List.filterMap_cons, ← later]
    cases begun : header? line with
    | none => simp [definitionOn?, begun]
    | some header =>
      dsimp only
      rw [header.readLines_eq]
      simp [definitionOn?, begun]

theorem definitions_eq (window : Nat) (lines : List (List Char)) :
    definitions window 1 lines =
      (List.range lines.length).filterMap (definitionAt? window lines) := by
  rw [definitions_eq_filterMap]
  exact List.filterMap_congr fun place _ => by rw [definitionAt?, Nat.add_comm 1]

/-- The functions of a source are those that are known when all lines have been searched. -/
theorem functions_extract (window : Nat) (module source : String) :
    (extract window module source).functions =
      functionsUpTo window (Text.lines source.toList) (Text.lines source.toList).length := by
  rw [extract, functionsUpTo, definitions_eq]

theorem functionsUpTo_succ (window : Nat) (lines : List (List Char)) (place : Nat) :
    functionsUpTo window lines (place + 1) =
      (definitionAt? window lines place).toList.foldl mergeFunction
        (functionsUpTo window lines place) := by
  rw [functionsUpTo, functionsUpTo, mergeFunctions, mergeFunctions, List.range_succ,
    List.filterMap_append, List.foldl_append]
  cases found : definitionAt? window lines place <;> simp [found]

section
variable {window : Nat} {before : List (List Char)} {line : List Char} {header : Header}

/-- Behind the lines before a line stands the line, and behind that stand those below it. -/
theorem line_and_below (before : List (List Char)) (line : List Char) (below : List (List Char)) :
    (before ++ line :: below)[before.length]? = some line ∧
      (before ++ line :: below).drop (before.length + 1) = below := by
  constructor
  · rw [List.getElem?_append_right (Nat.le_refl _), Nat.sub_self, List.getElem?_cons_zero]
  · rw [List.append_cons]
    exact List.drop_left' (by rw [List.length_append, List.length_singleton])

theorem definitionAt?_append (window : Nat) (before : List (List Char)) (line : List Char)
    (below : List (List Char)) :
    definitionAt? window (before ++ line :: below) before.length =
      definitionOn? window (before.length + 1) line below := by
  obtain ⟨here, rest⟩ := line_and_below before line below
  rw [definitionAt?, here, rest, Option.bind_some]

/-- The definition is read from its region, whatever stands before it and behind its region. -/
theorem definitionAt?_of_isRegion {lines behind : List (List Char)}
    (begun : Begins line header) (isRegion : IsRegion window header.indent lines behind) :
    definitionAt? window (before ++ line :: (lines ++ behind)) before.length =
      some (header.definition (before.length + 1) lines) := by
  rw [definitionAt?_append, definitionOn?, header?_eq_some_iff.mpr begun, Option.map_some,
    isRegion.region_eq]

end

/-! ### Reading a source -/

/-- A definition is what its header and the lines of its region tell. -/
structure IsReadFrom (definition : ExtractedFunction) (header : Header)
    (lines : List (List Char)) : Prop where
  /-- The name is the one that is defined. -/
  name : definition.name = header.name
  /-- The signature is put together from the name and the parameters. -/
  signature : definition.signature = "def " ++ header.name ++ header.parameters
  /-- The calls are those of the names that the code of the lines calls, line by line and in their
  order on the line. -/
  calls : ∃ names, List.Forall₂ (fun line => Calls (stripComment line)) lines names ∧
    definition.calls = names.flatten.map fun callee => ⟨callee, .direct⟩
  /-- The side effects are those that are found on the lines. -/
  effects : ∀ effect, definition.effects.contains effect ↔ ∃ line ∈ lines, FoundOn line effect

/-- The names that lines call are determined by the lines, each of them by its own code. -/
theorem forall₂_calls_iff {lines : List (List Char)} {names : List (List String)} :
    List.Forall₂ (fun line => Calls (stripComment line)) lines names ↔
      names = lines.map fun line => callees (stripComment line) := by
  induction lines generalizing names with
  | nil => rw [List.forall₂_nil_left_iff, List.map_nil]
  | cons line lines inductionHypothesis =>
    rw [List.forall₂_cons_left_iff, List.map_cons]
    simp only [calls_iff, inductionHypothesis]
    constructor
    · rintro ⟨_, _, rfl, rfl, rfl⟩
      rfl
    · rintro rfl
      exact ⟨_, _, rfl, rfl, rfl⟩

theorem flatMap_lineCalls (lines : List (List Char)) :
    lines.flatMap lineCalls =
      (lines.map fun line => callees (stripComment line)).flatten.map (⟨·, .direct⟩) := by
  rw [← List.flatMap_def, List.map_flatMap]
  rfl

theorem Header.isReadFrom_definition (header : Header) (number : Nat) (lines : List (List Char)) :
    IsReadFrom (header.definition number lines) header lines where
  name := rfl
  signature := rfl
  calls := by
    exact ⟨_, forall₂_calls_iff.mpr rfl, flatMap_lineCalls lines⟩
  effects effect := by
    rw [definition, EffectSet.contains_unionAll]
    simp only [List.mem_map, exists_exists_and_eq_and, contains_lineEffects]

/-- Functions are read off lines, one definition after the other, and each definition adds what its
region holds. -/
structure ReadsRegions (window : Nat) (lines : List (List Char))
    (functions : List ExtractedFunction) : Prop where
  /-- No function is known at first. -/
  begins : functionsUpTo window lines 0 = []
  /-- A line that begins no definition adds nothing. -/
  passes : ∀ before line below, lines = before ++ line :: below → (∀ header, ¬Begins line header) →
    functionsUpTo window lines (before.length + 1) = functionsUpTo window lines before.length
  /-- Below a line that begins a definition stands its region, and what is read from the region is
  added. -/
  adds : ∀ before line below header, lines = before ++ line :: below →
    Begins line header → ∃ region behind definition, below = region ++ behind ∧
      IsRegion window header.indent region behind ∧
      definitionAt? window lines before.length = some definition ∧
      definition.line = before.length + 1 ∧ IsReadFrom definition header region ∧
      definition.AddedTo (functionsUpTo window lines before.length)
        (functionsUpTo window lines (before.length + 1))
  /-- Nothing is left out and nothing else is added. -/
  ends : functionsUpTo window lines lines.length = functions

theorem readsRegions_functionsUpTo (window : Nat) (lines : List (List Char)) :
    ReadsRegions window lines (functionsUpTo window lines lines.length) where
  begins := rfl
  passes before line below split none := by
    have noHeader : header? line = Option.none :=
      Option.eq_none_iff_forall_ne_some.mpr fun header => mt header?_eq_some_iff.mp (none header)
    have nothing : definitionAt? window lines before.length = Option.none := by
      rw [split, definitionAt?_append, definitionOn?, noHeader, Option.map_none]
    rw [functionsUpTo_succ, nothing]
    rfl
  adds before line below header split begun := by
    obtain ⟨region, behind, rfl, isRegion⟩ :
        ∃ region behind, below = region ++ behind ∧ IsRegion window header.indent region behind :=
      ⟨_, _, (region_append_drop window header.indent below).symm, isRegion_region _ _ _⟩
    have found : definitionAt? window lines before.length =
        some (header.definition (before.length + 1) region) :=
      split ▸ definitionAt?_of_isRegion begun isRegion
    refine ⟨region, behind, _, rfl, isRegion, found, rfl, header.isReadFrom_definition _ _, ?_⟩
    rw [functionsUpTo_succ, found]
    exact addedTo_mergeFunction _ _
  ends := rfl

/-- The functions of a source are read off its lines: each definition adds the calls and the side
effects on the lines of its region, all of them and nothing else. So in two sources with the same
line, the same region below it and the same line behind the region, unless the window ends it, the
same definition is added, whatever else the sources hold. -/
theorem extract_readsRegions (window : Nat) (module source : String) :
    ReadsRegions window (Text.lines source.toList) (extract window module source).functions ∧
    ∀ (other : String) before beforeToo line header region behind behindToo,
      Text.lines source.toList = before ++ line :: (region ++ behind) →
      Text.lines other.toList = beforeToo ++ line :: (region ++ behindToo) →
      Begins line header → IsRegion window header.indent region behind →
      (region.length < max window 1 → behindToo.head? = behind.head?) →
      definitionAt? window (Text.lines other.toList) beforeToo.length =
        (definitionAt? window (Text.lines source.toList) before.length).map fun definition =>
          { definition with line := beforeToo.length + 1 } := by
  refine ⟨functions_extract window module source ▸ readsRegions_functionsUpTo _ _, ?_⟩
  intro other before beforeToo line header region behind behindToo split splitToo begun isRegion
    same
  rw [split, splitToo, definitionAt?_of_isRegion begun isRegion,
    definitionAt?_of_isRegion begun (isRegion.congr_behind same)]
  rfl

/-- A blank line and a comment use up the window, so that the last call is out of reach. -/
example :
    (extract 3 "shop" "def total():\n\n# sum()\n\tadd(1)\n    print_all()").functions.map
        (fun function => function.calls.map CallSite.callee) =
      [["add"]] := by
  decide +kernel

end LineScanner

end MigrationGuard
