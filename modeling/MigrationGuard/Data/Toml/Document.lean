/-
This file reads TOML documents as values and writes values as documents. A
document is a list of lines, each empty, a header or a key with its value; lists
may run over several lines, tables between braces may not. Reading keeps the
tables that have been opened so far and the names of the one that keys go to, and
fails at the first line that does not fit. Writing gives every member of a value a
table of its own and every item of a longer list a line of its own, and is used
for settings that people are meant to edit.
-/

import MigrationGuard.Data.Toml.Scalar
import MigrationGuard.Data.Toml.Table

namespace MigrationGuard.Data.Toml

/-! ### Values -/

/-- Lists and tables nest less deeply than this, and a key has fewer parts. -/
def deepest : Nat := 80

mutual

/-- Reads a value, be it a list, a table between braces or a value that is neither. Every step takes
a character, so the length of the text bounds the steps. -/
def value? : Nat → Nat → List Char → Option (Value × List Char)
  | 0, _, _ => none
  | steps + 1, depth, text => match text with
    | '[' :: rest =>
      if depth + 1 < deepest then
        (items? steps (depth + 1) rest).map fun (items, behind) => (.list items, behind)
      else none
    | '\x7b' :: rest =>
      if depth + 1 < deepest then
        match skipBlanks rest with
        | '\x7d' :: behind => some (.record [], behind)
        | others => (members? steps (depth + 1) Node.blank others).map fun (node, behind) =>
          (node.toValue, behind)
      else none
    | _ => scalar? text

/-- Reads the items of a list up to its closing bracket. -/
def items? : Nat → Nat → List Char → Option (List Value × List Char)
  | 0, _, _ => none
  | steps + 1, depth, text =>
    let start := skipLines text.length text
    match start with
    | ']' :: behind => some ([], behind)
    | _ => match value? steps depth start with
      | none => none
      | some (item, rest) => match skipLines rest.length rest with
        | ']' :: behind => some ([item], behind)
        | ',' :: others => (items? steps depth others).map fun (items, behind) =>
          (item :: items, behind)
        | _ => none

/-- Reads the members of a table between braces up to the closing one. -/
def members? : Nat → Nat → Node → List Char → Option (Node × List Char)
  | 0, _, _, _ => none
  | steps + 1, depth, node, text => match key? text.length text with
    | none => none
    | some (key, behindKey) => match behindKey with
      | '=' :: others => match value? steps depth (skipBlanks others) with
        | none => none
        | some (value, behindValue) =>
          if deepest ≤ key.length then none
          else match node.assign [] key value with
            | none => none
            | some changed => match skipBlanks behindValue with
              | '\x7d' :: behind => some (changed, behind)
              | ',' :: more => members? steps depth changed more
              | _ => none
      | _ => none

end

/-! ### Lines -/

/-- What has been read of a document: its tables and the names of the one that keys go to. -/
structure Progress where
  root : Node
  /-- The names that lead to the current table. -/
  current : List String

/-- Reads the parts of a header up to its closing brackets. -/
def header? (closing : List Char) (text : List Char) : Option (List String × List Char) := do
  let (key, rest) ← key? text.length text
  if closing.isPrefixOf rest && key.length < deepest then some (key, rest.drop closing.length)
  else none

/-- Opens the table that a header names. From there on keys go to it. -/
def Progress.openAt (progress : Progress) (open? : String → Node → Option Node)
    (key : List String) : Option Progress := do
  let root ← Node.along false (open? (← key.getLast?)) key.dropLast progress.root
  return ⟨root, key⟩

/-- Reads the expression at the front of a line: a header of either kind, or a key with its value.
-/
def expression? (progress : Progress) (text : List Char) : Option (Progress × List Char) :=
  match text with
  | '[' :: '[' :: rest => do
    let (key, behind) ← header? [']', ']'] rest
    return (← progress.openAt Node.openRepeated key, behind)
  | '[' :: rest => do
    let (key, behind) ← header? [']'] rest
    return (← progress.openAt Node.openTable key, behind)
  | _ => do
    let (key, rest) ← key? text.length text
    match rest with
    | '=' :: others =>
      let (value, behind) ← value? (2 * text.length + 2) 0 (skipBlanks others)
      if deepest ≤ key.length then none
      else
        let root ← progress.root.assign progress.current key value
        return ({ progress with root }, behind)
    | _ => none

/-- Reads the lines of a document one after the other, blank ones and comments in between. -/
def lines? : Nat → Progress → List Char → Option Node
  | 0, _, _ => none
  | steps + 1, progress, text => match skipLines text.length text with
    | [] => some progress.root
    | start => do
      let (next, rest) ← expression? progress start
      lines? steps next (← closeLine? rest)

/-- Drops the mark that may stand before a text to tell its encoding. -/
def skipMark : List Char → List Char
  | '\uFEFF' :: rest => rest
  | text => text

/-- The value of a document, which is a record of its tables and keys. -/
def parse? (text : String) : Option Value :=
  let characters := skipMark text.toList
  (lines? (characters.length + 1) ⟨.blank, []⟩ characters).map Node.toValue

/-! ### Writing -/

/-- A value on the right of a key. A list of several items has a line for each. -/
def inlineText : Value → String
  | .list [] => "[]"
  | .list [item] => "[" ++ Json.compact item ++ "]"
  | .list items =>
    "[\n" ++ String.join (items.map fun item => "    " ++ Json.compact item ++ ",\n") ++ "]"
  | value => Json.compact value

/-- The lines of one table: its header and a line for every member, which may run over several ones.
-/
def tableText (name : String) (table : Value) : String :=
  "[" ++ name ++ "]\n" ++
    String.join (table.members.map fun member => member.1 ++ " = " ++ inlineText member.2 ++ "\n")

/-- A document with one table for every member, with an empty line between tables. -/
def document (value : Value) : String :=
  Text.joined "\n" (value.members.map fun member => tableText member.1 member.2)

end MigrationGuard.Data.Toml
