/-
This file holds what is read from one source file: its functions, each with the
calls that it makes and the side effects that it has, and how the definitions of
one name are merged into one record. Both readers of source texts give this, so
the workflow does not depend on which of them read a file. A name that is defined
again keeps the place, the line and the signature of its first definition, and
gathers the calls and effects of all of them.
-/

import MigrationGuard.Workflow.Graph

namespace MigrationGuard

open Data

/-- A call in the text of a function, by the name that stands there and not by what it leads to. -/
structure CallSite where
  /-- The dotted name that is called. -/
  callee : String
  /-- The circumstances of the call. -/
  callType : CallType
  deriving DecidableEq, Repr

/-- A function as it stands in a source file, all of its definitions taken together. -/
structure ExtractedFunction where
  /-- The bare name. -/
  name : String
  /-- The line of the first definition. -/
  line : Nat
  /-- The text of the first signature. -/
  signature : String
  calls : List CallSite
  /-- The side effects. -/
  effects : EffectSet
  deriving DecidableEq, Repr

/-- What is read from one source file, under the name of its module. -/
structure ExtractedModule where
  /-- The name of the module. -/
  module : String
  /-- Its functions, each name once. -/
  functions : List ExtractedFunction
  deriving DecidableEq, Repr

/-- Which reader the record of a file comes from. -/
inductive ExtractorKind where
  /-- The reader of the grammar. -/
  | syntaxTree
  /-- The scanner of lines. -/
  | linePattern
  deriving DecidableEq, Repr

instance : Named ExtractorKind where
  noun := "extractor kind"
  all := [.syntaxTree, .linePattern]
  name
    | .syntaxTree => "tree_sitter"
    | .linePattern => "line_pattern"

/-! ### Merging definitions -/

/-- Adds the calls and effects of a later definition to a record. -/
def ExtractedFunction.absorb (first later : ExtractedFunction) : ExtractedFunction :=
  { first with
    calls := first.calls ++ later.calls
    effects := first.effects.union later.effects }

/-- The functions with one more definition. A known name keeps its place, line and signature. -/
def mergeFunction (functions : List ExtractedFunction) (function : ExtractedFunction) :
    List ExtractedFunction :=
  match functions with
  | [] => [function]
  | first :: rest =>
    if first.name = function.name then first.absorb function :: rest
    else first :: mergeFunction rest function

/-- The functions that a list of definitions makes up. -/
def mergeFunctions (definitions : List ExtractedFunction) : List ExtractedFunction :=
  definitions.foldl mergeFunction []

/-! ### Data files -/

instance : ToValue CallSite := ⟨fun call => .list [toValue call.callee, toValue call.callType]⟩

instance : OfValue CallSite where
  ofValue? value := do
    let (callee, callType) ← ofValue? value
    return ⟨callee, callType⟩

instance : ToValue ExtractedFunction where
  toValue function := .record [("name", toValue function.name), ("line", toValue function.line),
    ("signature", toValue function.signature), ("side_effects", toValue function.effects),
    ("calls", toValue function.calls)]

/-- A signature that is left out is that of a function without parameters. -/
instance : OfValue ExtractedFunction where
  ofValue? value := do
    match ← value.slots? ["name", "line", "signature", "side_effects", "calls"] with
    | [name, line, signature, effects, calls] =>
      let name ← name.required
      return ⟨name, ← line.withDefault 1, ← signature.withDefault ("def " ++ name ++ "()"),
        ← calls.withDefault [], ← effects.withDefault .empty⟩
    | _ => none

instance : ToValue ExtractedModule where
  toValue source := .record [("module", toValue source.module),
    ("functions", toValue source.functions)]

instance : OfValue ExtractedModule where
  ofValue? value := do
    match ← value.slots? ["module", "functions"] with
    | [module, functions] => return ⟨← module.required, ← functions.required⟩
    | _ => none

end MigrationGuard
