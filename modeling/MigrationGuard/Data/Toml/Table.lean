/-
This file builds the tables of a TOML document. A table is made by a header, by
the way to a header further inside, or by a key with points; only the first kind
is closed against being made again. A key may be given once in every table. How a
table came to be is kept with it, since whether a later line may add to it depends
on that alone. What a line asks for may be impossible, and then the document is
refused.
-/

import MigrationGuard.Data.Value

namespace MigrationGuard.Data.Toml

/-- How a table came to be. Whether a later line may add to it depends on that. -/
inductive TableOrigin where
  /-- By a header of its own, or as the table of a whole text. -/
  | header
  /-- On the way to another header. -/
  | passage
  | pointedKey
  deriving DecidableEq, Repr

/-- What stands under a key while a document is being read. -/
inductive Node where
  /-- A value that is given as a whole. -/
  | leaf (value : Value)
  /-- A table that later lines may add to. -/
  | table (origin : TableOrigin) (entries : List (String × Node))
  /-- Tables under repeated headers. -/
  | tables (items : List Node)
  deriving Inhabited

namespace Node

/-- The empty table of a text, which keys before any header go to. -/
def blank : Node := .table .header []

/-- The entries with one of them set, in its old place or at the end. -/
def setEntry (name : String) (node : Node) : List (String × Node) → List (String × Node)
  | [] => [(name, node)]
  | entry :: entries =>
    if entry.1 = name then (name, node) :: entries else entry :: setEntry name node entries

/-- A key with points may lead through the node, which a table with a header of its own forbids. -/
def admitsPointedKey : Node → Bool
  | .table origin _ => origin ≠ .header
  | _ => true

/-- Changes the table at the end of a chain of names. Missing tables on the way are made; of
repeated tables the last one is meant. -/
def along (pointed : Bool) (change : Node → Option Node) : List String → Node → Option Node
  | [], node => change node
  | name :: names, .table origin entries =>
    let inner := (entries.lookup name).getD (.table (if pointed then .pointedKey else .passage) [])
    let changed : Option Node := match inner with
      | .leaf _ => none
      | .tables items => items.getLast?.bind fun last =>
        (along pointed change names last).map fun next => .tables (items.dropLast ++ [next])
      | .table _ _ => along pointed change names inner
    if pointed && !inner.admitsPointedKey then none
    else changed.map fun next => .table origin (setEntry name next entries)
  | _ :: _, _ => none

/-- Opens the table of a header. One that was only passed through becomes a table with a header. -/
def openTable (name : String) : Node → Option Node
  | .table origin entries => match entries.lookup name with
    | none => some (.table origin (setEntry name blank entries))
    | some (.table .passage inner) =>
      some (.table origin (setEntry name (.table .header inner) entries))
    | some _ => none
  | _ => none

/-- Opens one more table of a repeated header, behind those that are there. -/
def openRepeated (name : String) : Node → Option Node
  | .table origin entries => match entries.lookup name with
    | none => some (.table origin (setEntry name (.tables [blank]) entries))
    | some (.tables items) =>
      some (.table origin (setEntry name (.tables (items ++ [blank])) entries))
    | some _ => none
  | _ => none

/-- Gives a key its value. Where points led to the table it has to be one that points made. -/
def give (pointed : Bool) (name : String) (value : Value) : Node → Option Node
  | .table origin entries =>
    if pointed && origin ≠ .pointedKey then none
    else if (entries.lookup name).isSome then none
    else some (.table origin (entries ++ [(name, .leaf value)]))
  | _ => none

/-- Gives a key with points its value, seen from the table at the end of a chain of names. -/
def assign (chain : List String) (key : List String) (value : Value) (node : Node) : Option Node :=
  match key.getLast? with
  | none => none
  | some name =>
    along false (along true (give (1 < key.length) name value) key.dropLast) chain node

mutual

/-- The node as a value, with members in the order in which they were given. -/
def toValue : Node → Value
  | .leaf value => value
  | .table _ entries => .record (entryValues entries)
  | .tables items => .list (itemValues items)

/-- The entries as members, each under its own name. -/
def entryValues : List (String × Node) → List (String × Value)
  | [] => []
  | (name, node) :: entries => (name, node.toValue) :: entryValues entries

/-- The items as values, in the order of their headers. -/
def itemValues : List Node → List Value
  | [] => []
  | node :: nodes => node.toValue :: itemValues nodes

end

end Node

end MigrationGuard.Data.Toml
