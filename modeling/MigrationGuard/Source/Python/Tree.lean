/-
This file holds the syntax tree of Python source as far as a workflow needs it:
names, attributes, calls and function definitions, the loops and branches around
them, and groups for everything else. It then reads a module off the tree. A call
belongs to the innermost definition around it, the nearest loop or branch below
that definition gives its circumstances, and the definitions of one name are one
function. Parts of a node stand in the order of the text, so one walk over the
tree tells the calls in their order. Calls outside of all definitions belong to
none and are left out.
-/

import MigrationGuard.Source.CallEffects
import MigrationGuard.Source.Module

namespace MigrationGuard.Python

/-- A syntax tree. The parts of a node stand in the order of the text. -/
inductive Tree where
  /-- A name. -/
  | identifier (text : String)
  /-- An attribute of an object. -/
  | attribute (object : Tree) (field : String)
  /-- A call: the function part and the arguments. -/
  | call (function : Tree) (arguments : List Tree)
  /-- A function definition: its name, line, signature and parts. -/
  | definition (name : String) (line : Nat) (signature : String) (parts : List Tree)
  /-- A loop or comprehension. -/
  | loop (parts : List Tree)
  /-- A branch, match, try or conditional expression. -/
  | branch (parts : List Tree)
  /-- Any other node. -/
  | group (parts : List Tree)
  deriving Inhabited, Repr

namespace Tree

/-! ### Names -/

/-- The dotted name that a tree spells, if it consists of names only. -/
def dotted? : Tree → Option String
  | .identifier text => some text
  | .attribute object field => (dotted? object).map fun receiver => receiver ++ "." ++ field
  | _ => none

/-- The name under which a function part is called: the dotted name, or the last attribute of a
computed receiver. -/
def callee? : Tree → Option String
  | .identifier text => some text
  | .attribute object field => some (((Tree.attribute object field).dotted?).getD field)
  | _ => none

/-- The tree spells a name that reads the environment. -/
def readsEnvironment (tree : Tree) : Bool :=
  (tree.dotted?.map isEnvironmentName).getD false

/-! ### Definitions, calls and environment reads -/

/-- A definition without its body, as it is told when it is listed. -/
structure Definition where
  /-- The name that is defined. -/
  name : String
  /-- The line of the definition. -/
  line : Nat
  /-- The text of the signature. -/
  signature : String
  deriving DecidableEq, Repr

mutual

/-- The definitions of a tree in the order of the text. -/
def definitions : Tree → List Definition
  | .identifier _ => []
  | .attribute object _ => object.definitions
  | .call function arguments => function.definitions ++ definitionsOf arguments
  | .definition name line signature parts => ⟨name, line, signature⟩ :: definitionsOf parts
  | .loop parts => definitionsOf parts
  | .branch parts => definitionsOf parts
  | .group parts => definitionsOf parts

/-- The definitions of a list of trees, tree by tree. -/
def definitionsOf : List Tree → List Definition
  | [] => []
  | tree :: trees => tree.definitions ++ definitionsOf trees

end

/-- Where a node stands: inside which definition, and in which circumstances below it. -/
structure Place where
  /-- The innermost definition. -/
  owner : Option String
  /-- The nearest loop or branch below the definition. -/
  circumstance : Option CallType
  deriving DecidableEq, Repr

/-- The place outside of everything, where a text begins. -/
def Place.outermost : Place := ⟨none, none⟩

/-- The place inside a definition. Loops and branches around the definition do not count there. -/
def Place.inside (name : String) : Place := ⟨some name, none⟩

/-- The place inside a loop or branch, which is nearer than those around it. -/
def Place.under (place : Place) (circumstance : CallType) : Place :=
  { place with circumstance := some circumstance }

/-- The call of a function part at a place, with the definition that it belongs to. -/
def callAt (place : Place) (function : Tree) : List (String × CallSite) :=
  match place.owner, function.callee? with
  | some owner, some callee => [(owner, ⟨callee, place.circumstance.getD .direct⟩)]
  | _, _ => []

mutual

/-- The calls of a tree, an outer call before the calls in its parts, each with the definition that
it belongs to. -/
def calls (place : Place) : Tree → List (String × CallSite)
  | .identifier _ => []
  | .attribute object _ => object.calls place
  | .call function arguments =>
    callAt place function ++ function.calls place ++ callsOf place arguments
  | .definition name _ _ parts => callsOf (.inside name) parts
  | .loop parts => callsOf (place.under .loop) parts
  | .branch parts => callsOf (place.under .conditional) parts
  | .group parts => callsOf place parts

/-- The calls of a list of trees, tree by tree. -/
def callsOf (place : Place) : List Tree → List (String × CallSite)
  | [] => []
  | tree :: trees => tree.calls place ++ callsOf place trees

end

/-- The owner of an attribute that reads the environment. -/
def readAt (owner : Option String) (tree : Tree) : List String :=
  if tree.readsEnvironment then owner.toList else []

mutual

/-- The definitions in which attributes read the environment. -/
def environmentOwners (owner : Option String) : Tree → List String
  | .identifier _ => []
  | .attribute object field =>
    readAt owner (.attribute object field) ++ object.environmentOwners owner
  | .call function arguments =>
    function.environmentOwners owner ++ environmentOwnersOf owner arguments
  | .definition name _ _ parts => environmentOwnersOf (some name) parts
  | .loop parts => environmentOwnersOf owner parts
  | .branch parts => environmentOwnersOf owner parts
  | .group parts => environmentOwnersOf owner parts

/-- The definitions in which attributes of a list of trees read the environment. -/
def environmentOwnersOf (owner : Option String) : List Tree → List String
  | [] => []
  | tree :: trees => tree.environmentOwners owner ++ environmentOwnersOf owner trees

end

/-! ### The module of a tree -/

/-- The definitions whose name no earlier one bears. -/
def firstDefinitions : List Definition → List Definition
  | [] => []
  | first :: rest =>
    first :: (firstDefinitions rest).filter fun other => other.name != first.name

/-- The function of a name: the first definition's line and signature, and the calls and reads of
all definitions of the name in the order of the text. -/
def functionOf (sites : List (String × CallSite)) (readers : List String)
    (definition : Definition) : ExtractedFunction :=
  let calls := (sites.filter fun site => site.1 == definition.name).map Prod.snd
  let ofCalls := EffectSet.unionAll (calls.map fun call => classifyCall call.callee)
  { name := definition.name
    line := definition.line
    signature := definition.signature
    calls
    effects := if readers.contains definition.name then ofCalls.union environmentRead else ofCalls }

/-- The functions of a tree, each name once and in the order of the text. -/
def functions (tree : Tree) : List ExtractedFunction :=
  (firstDefinitions tree.definitions).map
    (functionOf (tree.calls .outermost) (tree.environmentOwners none))

end Tree

end MigrationGuard.Python
