/-
This file says how the definitions that are found in a source make up its
functions. Definitions of one name belong to one function: the first of them gives
its line and signature, all of them give their calls, and its side effects are
those of its calls and, where one of the definitions reads the environment by
itself, that as well. The line scanner gathers in this way what it finds line by
line. What it is to find is said without it: a definition begins on a line that
has the parts of a header, its region is the lines below it up to the first one
that ends it, and the names that are called there are those before the
parentheses. So for every text the functions that the scanner delivers are told
from the text alone, and the reader of syntax trees can be compared with it.
-/

import MigrationGuard.Proofs.Source.Regions

namespace MigrationGuard

/-! ### Definitions and functions -/

/-- A definition as it is found in a source, by either of the two readers. -/
structure FoundDefinition where
  /-- The name that is defined. -/
  name : String
  /-- The line on which it begins. -/
  line : Nat
  /-- The text of the signature. -/
  signature : String
  /-- The calls that belong to it. -/
  calls : List CallSite
  /-- It mentions the environment, be it in a call or not. -/
  readsEnvironment : Prop

/-- The definitions of a name, in their order. They make up one function. -/
def definitionsNamed (name : String) (found : List FoundDefinition) : List FoundDefinition :=
  found.filter fun definition => definition.name = name

/-- A call among those given tells of the side effect, by the name that is called. -/
def ToldByCalls (calls : List CallSite) (effect : SideEffect) : Prop :=
  ∃ call ∈ calls, (classifyCall call.callee).contains effect

/-- The functions are made up of the definitions that were found, one for each name. -/
structure GatheredFrom (functions : List ExtractedFunction) (found : List FoundDefinition) :
    Prop where
  /-- No two functions have one name. -/
  distinct : (functions.map ExtractedFunction.name).Nodup
  /-- Their names are those that are defined. -/
  named : ∀ name, name ∈ functions.map ExtractedFunction.name ↔
    name ∈ found.map FoundDefinition.name
  /-- They stand in the order in which their names are defined first. -/
  ordered : (functions.map ExtractedFunction.name).Pairwise
    (Keyed.Precedes FoundDefinition.name found)
  /-- The line and the signature are those of the first definition of the name. -/
  first : ∀ function ∈ functions, ∃ first later,
    definitionsNamed function.name found = first :: later ∧
      function.line = first.line ∧ function.signature = first.signature
  /-- The calls are those of all definitions of the name. -/
  calls : ∀ function ∈ functions, function.calls.Perm
    ((definitionsNamed function.name found).flatMap FoundDefinition.calls)
  /-- The side effects are those that the calls tell of, and reading the environment where one of
  the definitions does so. -/
  effects : ∀ function ∈ functions, ∀ effect, function.effects.contains effect ↔
    ToldByCalls function.calls effect ∨ effect = .envRead ∧
      ∃ definition ∈ definitionsNamed function.name found, definition.readsEnvironment

/-! ### One definition after the other -/

/-- A definition has a side effect of its own or by its calls. -/
def FoundDefinition.HasEffect (definition : FoundDefinition) (effect : SideEffect) : Prop :=
  ToldByCalls definition.calls effect ∨ effect = .envRead ∧ definition.readsEnvironment

open scoped Classical in
/-- The function of one definition, as it is before any other one is absorbed. -/
noncomputable def FoundDefinition.function (definition : FoundDefinition) : ExtractedFunction :=
  { name := definition.name
    line := definition.line
    signature := definition.signature
    calls := definition.calls
    effects := .ofTest fun effect => definition.HasEffect effect }

theorem FoundDefinition.contains_effects_function (definition : FoundDefinition)
    (effect : SideEffect) :
    definition.function.effects.contains effect ↔ definition.HasEffect effect := by
  classical
  rw [FoundDefinition.function, EffectSet.contains_ofTest, decide_eq_true_eq]

/-- A function with the text and the calls of a definition and with its effects is the function of
the definition. -/
theorem FoundDefinition.function_eq {definition : FoundDefinition} {function : ExtractedFunction}
    (text : function = { definition.function with effects := function.effects })
    (effects : ∀ effect, function.effects.contains effect ↔ definition.HasEffect effect) :
    definition.function = function := by
  have same : definition.function.effects = function.effects := EffectSet.ext_contains fun effect =>
    Bool.eq_iff_iff.mpr ((definition.contains_effects_function effect).trans
      (effects effect).symm)
  rw [text, ← same]

/-- Absorbing later definitions adds their calls and effects, and nothing else changes. -/
theorem foldl_absorb (first : ExtractedFunction) (later : List FoundDefinition) :
    let all := (later.map FoundDefinition.function).foldl ExtractedFunction.absorb first
    all = { first with calls := all.calls, effects := all.effects } ∧
      all.calls = first.calls ++ later.flatMap FoundDefinition.calls ∧
      ∀ effect, all.effects.contains effect ↔ first.effects.contains effect ∨
        ∃ definition ∈ later, definition.HasEffect effect := by
  induction later generalizing first with
  | nil => simp
  | cons definition later inductionHypothesis =>
    obtain ⟨text, calls, effects⟩ := inductionHypothesis (first.absorb definition.function)
    rw [List.map_cons, List.foldl_cons]
    refine ⟨text, ?_, fun effect => ?_⟩
    · rw [calls, List.flatMap_cons, ← List.append_assoc]
      rfl
    · rw [effects, ExtractedFunction.absorb, EffectSet.contains_union, Bool.or_eq_true,
        definition.contains_effects_function, or_assoc]
      simp only [List.mem_cons, exists_eq_or_imp]

/-- A name is a function just if its definitions, put together, are that function. -/
theorem mem_mergeFunctions_iff {found : List FoundDefinition} {function : ExtractedFunction} :
    function ∈ mergeFunctions (found.map FoundDefinition.function) ↔ ∃ first later,
      definitionsNamed function.name found = first :: later ∧
        (later.map FoundDefinition.function).foldl ExtractedFunction.absorb first.function =
          function := by
  have named : Keyed.withKey ExtractedFunction.name function.name
      (found.map FoundDefinition.function) =
        (definitionsNamed function.name found).map FoundDefinition.function := by
    rw [Keyed.withKey, List.filter_map]
    rfl
  rw [mergeFunctions_eq, Keyed.mem_gather ExtractedFunction.name_absorb, named]
  cases definitionsNamed function.name found with
  | nil => simp [Keyed.absorbed?]
  | cons first later => simp [Keyed.absorbed?, and_assoc]

/-- What the definitions of one name have between them, told by their calls taken together. -/
theorem exists_hasEffect_iff (definitions : List FoundDefinition) (effect : SideEffect) :
    (∃ definition ∈ definitions, definition.HasEffect effect) ↔
      ToldByCalls (definitions.flatMap FoundDefinition.calls) effect ∨
        effect = .envRead ∧ ∃ definition ∈ definitions, definition.readsEnvironment := by
  simp only [FoundDefinition.HasEffect, ToldByCalls, List.mem_flatMap]
  grind

/-- Definitions that are merged one after the other are gathered, with their calls in order. -/
theorem gatheredFrom_mergeFunctions (found : List FoundDefinition) :
    let functions := mergeFunctions (found.map FoundDefinition.function)
    GatheredFrom functions found ∧ ∀ function ∈ functions,
      function.calls = (definitionsNamed function.name found).flatMap FoundDefinition.calls := by
  intro functions
  have gathered : functions = Keyed.gather ExtractedFunction.name ExtractedFunction.absorb
      (found.map FoundDefinition.function) :=
    mergeFunctions_eq _
  have names : (found.map FoundDefinition.function).map ExtractedFunction.name =
      found.map FoundDefinition.name :=
    List.map_map
  have calls : ∀ function ∈ functions, function.calls =
      (definitionsNamed function.name found).flatMap FoundDefinition.calls := by
    intro function member
    obtain ⟨first, later, definitions, same⟩ := mem_mergeFunctions_iff.mp member
    rw [definitions, List.flatMap_cons, ← same]
    exact (foldl_absorb first.function later).2.1
  refine ⟨⟨?_, fun name => ?_, ?_, fun function member => ?_, fun function member => ?_,
    fun function member effect => ?_⟩, calls⟩
  · rw [gathered]
    exact Keyed.nodup_keys_gather ExtractedFunction.name_absorb _
  · rw [gathered, Keyed.mem_keys_gather ExtractedFunction.name_absorb, names]
  · rw [gathered]
    exact (Keyed.pairwise_gather ExtractedFunction.name_absorb _).imp fun precedes =>
      precedes.of_map
  · obtain ⟨first, later, definitions, same⟩ := mem_mergeFunctions_iff.mp member
    refine ⟨first, later, definitions, ?_⟩
    rw [← same, (foldl_absorb first.function later).1]
    exact ⟨rfl, rfl⟩
  · rw [calls function member]
  · obtain ⟨first, later, definitions, same⟩ := mem_mergeFunctions_iff.mp member
    rw [calls function member, ← exists_hasEffect_iff, definitions, ← same,
      (foldl_absorb first.function later).2.2, first.contains_effects_function]
    simp only [List.mem_cons, exists_eq_or_imp]

/-! ### Definitions on lines -/

namespace LineScanner

/-- The definition that begins on the line at a place, as the lines of its region show it. -/
def foundAt? (window : Nat) (lines : List (List Char)) (place : Nat) : Option FoundDefinition :=
  lines[place]?.bind fun line => (header? line).map fun header =>
    let body := region window header.indent (lines.drop (place + 1))
    { name := header.name
      line := place + 1
      signature := "def " ++ header.name ++ header.parameters
      calls := body.flatMap lineCalls
      readsEnvironment := ∃ line ∈ body, "os.environ".toList <:+: stripComment line }

/-- The definitions that begin on lines, in the order of the lines. -/
def found (window : Nat) (lines : List (List Char)) : List FoundDefinition :=
  (List.range lines.length).filterMap (foundAt? window lines)

/-- A definition begins on the line at a place: the header of the line names it, and what it calls
and whether it mentions the environment is told by the lines of its region. -/
structure BeginsAt (definition : FoundDefinition) (window : Nat) (lines : List (List Char))
    (place : Nat) (header : Header) (region : List (List Char)) : Prop where
  /-- The line begins the definition, and its region stands below. -/
  stands : ∃ before line behind, lines = before ++ line :: (region ++ behind) ∧
    before.length = place ∧ Begins line header ∧ IsRegion window header.indent region behind
  /-- The name is the one that is defined. -/
  name : definition.name = header.name
  /-- The line is counted from one. -/
  line : definition.line = place + 1
  /-- The signature is put together from the name and the parameters. -/
  signature : definition.signature = "def " ++ header.name ++ header.parameters
  /-- The calls are those of the names that the code of the lines calls. -/
  calls : ∃ names, List.Forall₂ (fun line => Calls (stripComment line)) region names ∧
    definition.calls = names.flatten.map fun callee => ⟨callee, .direct⟩
  /-- The environment is mentioned on one of the lines. -/
  environment : definition.readsEnvironment ↔
    ∃ line ∈ region, "os.environ".toList <:+: stripComment line

theorem foundAt?_eq_some_iff {window place : Nat} {lines : List (List Char)}
    {definition : FoundDefinition} :
    foundAt? window lines place = some definition ↔
      ∃ header region, BeginsAt definition window lines place header region := by
  constructor
  · intro found
    obtain ⟨line, isLine, made⟩ := Option.bind_eq_some_iff.mp found
    obtain ⟨header, begun, rfl⟩ := Option.map_eq_some_iff.mp made
    obtain ⟨bound, same⟩ := List.getElem?_eq_some_iff.mp isLine
    have whole : lines = lines.take place ++ line :: lines.drop (place + 1) := by
      rw [← same, ← List.drop_eq_getElem_cons bound, List.take_append_drop]
    exact ⟨header, region window header.indent (lines.drop (place + 1)), {
      stands := by
        refine ⟨_, line, _, ?_, List.length_take_of_le bound.le, header?_eq_some_iff.mp begun,
          isRegion_region window header.indent (lines.drop (place + 1))⟩
        rwa [region_append_drop]
      name := rfl
      line := rfl
      signature := rfl
      calls := (header.isReadFrom_definition (place + 1) _).calls
      environment := Iff.rfl }⟩
  · rintro ⟨header, region, ⟨before, line, behind, rfl, rfl, begun, isRegion⟩, name, onLine,
      signature, ⟨names, calls, called⟩, environment⟩
    obtain ⟨here, rest⟩ := line_and_below before line (region ++ behind)
    have calledToo : definition.calls = region.flatMap lineCalls := by
      rw [called, forall₂_calls_iff.mp calls, flatMap_lineCalls]
    rw [foundAt?, here, rest, Option.bind_some, header?_eq_some_iff.mpr begun, Option.map_some,
      isRegion.region_eq]
    obtain ⟨_, _, _, _, _⟩ := definition
    dsimp only at name onLine signature calledToo environment
    rw [name, onLine, signature, calledToo, propext environment]

/-- The definitions that are found are those that begin on a line. -/
theorem mem_found_iff {window : Nat} {lines : List (List Char)} {definition : FoundDefinition} :
    definition ∈ found window lines ↔
      ∃ place header region, BeginsAt definition window lines place header region := by
  rw [found, List.mem_filterMap]
  simp only [← foundAt?_eq_some_iff]
  refine exists_congr fun place => and_iff_right_of_imp fun begun => ?_
  rw [List.mem_range]
  by_contra outside
  rw [foundAt?, List.getElem?_eq_none (Nat.le_of_not_lt outside)] at begun
  exact nomatch begun

/-- They are found in the order of their lines, so the first of a name is the one further up. -/
theorem pairwise_found (window : Nat) (lines : List (List Char)) :
    (found window lines).Pairwise fun one other => one.line < other.line := by
  have onLine : ∀ {place definition}, foundAt? window lines place = some definition →
      definition.line = place + 1 := fun begun =>
    have ⟨_, _, begins⟩ := foundAt?_eq_some_iff.mp begun
    begins.line
  refine List.pairwise_filterMap.mpr (List.pairwise_lt_range.imp ?_)
  intro place later before one begun other begunToo
  rw [onLine begun, onLine begunToo]
  exact Nat.succ_lt_succ before

theorem definitionAt?_eq (window : Nat) (lines : List (List Char)) (place : Nat) :
    definitionAt? window lines place =
      (foundAt? window lines place).map FoundDefinition.function := by
  rw [definitionAt?, foundAt?, Option.map_bind]
  refine congrArg (Option.bind _) (funext fun line => ?_)
  rw [definitionOn?, Function.comp_apply, Option.map_map]
  refine congrArg (Option.map · (header? line)) (funext fun header => ?_)
  refine (FoundDefinition.function_eq rfl fun effect => ?_).symm
  rw [Header.definition, EffectSet.contains_unionAll]
  simp only [List.mem_map, exists_exists_and_eq_and, contains_lineEffects, foundOn_iff,
    FoundDefinition.HasEffect, ToldByCalls, List.mem_flatMap, lineCalls]
  grind

theorem functions_extract_eq (window : Nat) (module source : String) :
    (extract window module source).functions =
      mergeFunctions ((found window (Text.lines source.toList)).map FoundDefinition.function) := by
  rw [functions_extract, functionsUpTo, found, List.map_filterMap]
  exact congrArg mergeFunctions (List.filterMap_congr fun place _ => definitionAt?_eq _ _ _)

end LineScanner

end MigrationGuard
