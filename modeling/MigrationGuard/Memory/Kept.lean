/-
This file says what the file of a store may hold: a store that was kept before, or
a database with the tables of a store. Such a database may have unique indices of
its own. They stay with the store, and no write may break them. A table that is
not there holds no records, one that was made by another statement is refused, and
so is whatever would act by itself. All that a file held and the store knows is
written back in one form.
-/

import MigrationGuard.Data.Json
import MigrationGuard.Data.Sqlite
import MigrationGuard.Decimal.Narrowing
import MigrationGuard.Memory.Store
import MigrationGuard.Text.Blank

namespace MigrationGuard

open Data

/-! ### Tables -/

/-- A table of a database with one kind of the records of a store. -/
structure StoreTable where
  name : String
  /-- What the records are called in the store. -/
  records : String
  columns : List (String × String)
  /-- What else is required of the rows. -/
  constraints : List String

namespace StoreTable

/-- The tables of a store with their columns and constraints, as they are made. -/
def all : List StoreTable := [
  { name := "repos"
    records := "repos"
    columns := [("repo_id", "TEXT PRIMARY KEY"), ("path", "TEXT NOT NULL"),
      ("first_seen", "INTEGER NOT NULL"), ("last_seen", "INTEGER NOT NULL"),
      ("run_count", "INTEGER NOT NULL DEFAULT 0")]
    constraints := [] },
  { name := "pipeline_runs"
    records := "runs"
    columns := [("run_id", "TEXT PRIMARY KEY"),
      ("repo_id", "TEXT NOT NULL REFERENCES repos(repo_id)"), ("session_id", "TEXT NOT NULL"),
      ("ran_at", "INTEGER NOT NULL"), ("verdict", "TEXT"), ("preservation_pct", "REAL"),
      ("critical_drifts", "INTEGER"), ("risk_score", "REAL"),
      ("patch_summary", "TEXT NOT NULL DEFAULT '[]'")]
    constraints := [] },
  { name := "drift_patterns"
    records := "drifts"
    columns := [("repo_id", "TEXT NOT NULL REFERENCES repos(repo_id)"),
      ("function_name", "TEXT NOT NULL"), ("severity", "TEXT NOT NULL"),
      ("description", "TEXT NOT NULL"), ("before_output", "TEXT NOT NULL DEFAULT ''"),
      ("after_output", "TEXT NOT NULL DEFAULT ''"), ("first_seen", "INTEGER NOT NULL"),
      ("last_seen", "INTEGER NOT NULL"), ("times_seen", "INTEGER NOT NULL DEFAULT 1")]
    constraints := ["UNIQUE(repo_id, function_name, description)"] },
  { name := "function_sigs"
    records := "signatures"
    columns := [("repo_id", "TEXT NOT NULL REFERENCES repos(repo_id)"),
      ("function_name", "TEXT NOT NULL"), ("signature", "TEXT NOT NULL"),
      ("return_type", "TEXT NOT NULL DEFAULT ''"), ("side_effects", "TEXT NOT NULL DEFAULT '[]'"),
      ("snapshot_hash", "TEXT NOT NULL"), ("last_seen", "INTEGER NOT NULL")]
    constraints := ["PRIMARY KEY(repo_id, function_name)"] },
  { name := "doc_runs"
    records := "documents"
    columns := [("doc_run_id", "TEXT PRIMARY KEY"),
      ("repo_id", "TEXT NOT NULL REFERENCES repos(repo_id)"), ("session_id", "TEXT NOT NULL"),
      ("ran_at", "INTEGER NOT NULL"), ("qa_score", "REAL"), ("word_count", "INTEGER"),
      ("approval_status", "TEXT NOT NULL DEFAULT 'pending'"), ("reviewer_comment", "TEXT"),
      ("reviewed_at", "INTEGER"), ("final_markdown", "TEXT")]
    constraints := [] },
  { name := "semantic_entries"
    records := "texts"
    columns := [("repo_id", "TEXT NOT NULL"), ("collection", "TEXT NOT NULL"),
      ("entry_id", "TEXT NOT NULL"), ("text", "TEXT NOT NULL"),
      ("metadata_json", "TEXT NOT NULL DEFAULT '\x7b\x7d'"), ("embedding_json", "TEXT NOT NULL"),
      ("updated_at", "INTEGER NOT NULL")]
    constraints := ["PRIMARY KEY(repo_id, collection, entry_id)"] }]

/-- The statement that makes the table, from its columns and constraints. -/
def statement (table : StoreTable) : String :=
  "CREATE TABLE " ++ table.name ++ "(" ++
    Text.joined ", " (table.columns.map (fun column => column.1 ++ " " ++ column.2) ++
      table.constraints) ++ ")"

/-- Two statements are the same but for blanks. -/
def sameStatement (left right : String) : Bool :=
  left.toList.filter (fun character => !Text.isBlank character) ==
    right.toList.filter fun character => !Text.isBlank character

/-- The columns whose values stand in the records as they are. -/
def plainColumns (table : StoreTable) : List String :=
  (table.columns.map Prod.fst).filter fun column =>
    column ∉ ["side_effects", "metadata_json", "embedding_json", "updated_at"]

/-- The member of a record that a value in a column stands for. Some columns hold JSON texts. -/
def member? (column : String) (value : Value) : Option (String × Value) := do
  if column = "side_effects" then return (column, ← Json.parse? (← value.toText?))
  else if column = "metadata_json" then return ("metadata", ← Json.parse? (← value.toText?))
  else if column = "embedding_json" then
    let numbers : List Float ← ofValue? (← Json.parse? (← value.toText?))
    return ("embedding", toValue (numbers.map fun number => (Decimal.narrowed number).toBits.toNat))
  else return (column, value)

/-- The record that a row stands for, if all of its columns can be read. -/
def record? (table : StoreTable) (row : List Value) : Option Value := do
  if row.length = table.columns.length then
    let members ← (table.columns.zip row).mapM fun cell => member? cell.1.1 cell.2
    return .record members
  else none

/-- The records of the table in a database file, none where the table has not been made. A table
that was made otherwise is refused. -/
def records? (table : StoreTable) (file : Sqlite.File) (objects : List Sqlite.Object) :
    Option (List Value) :=
  match objects.find? fun object => object.kind == "table" && object.name == table.name with
  | none => some []
  | some object => do
    if sameStatement (← object.statement) table.statement then
      (← file.table? object.root).mapM table.record?
    else none

end StoreTable

/-! ### Unique indices -/

/-- No two records of a table may agree on some columns, unless one of them is absent there. -/
structure UniqueIndex where
  /-- The name of the table. -/
  table : String
  /-- What the records are called in the store. -/
  records : String
  /-- The columns. -/
  columns : List String
  deriving DecidableEq, Repr

instance : ToValue UniqueIndex where
  toValue index := .record [("table", toValue index.table), ("records", toValue index.records),
    ("columns", toValue index.columns)]

instance : OfValue UniqueIndex where
  ofValue? value := do
    match ← value.slots? ["table", "records", "columns"] with
    | [table, records, columns] =>
      return ⟨← table.required, ← records.required, ← columns.required⟩
    | _ => none

namespace UniqueIndex

/-- The columns that a statement names between its brackets, if they are all known. -/
def columns? (known : List String) (statement : String) : Option (List String) := do
  let (_, inside) ← Text.cutAtFirst '(' statement.toList
  let names := (Text.cutAtEach (· = ',') inside.dropLast).map fun name =>
    String.ofList (Text.trim name)
  if inside.getLast? = some ')' ∧ names.all known.contains then return names
  else none

/-- The unique indices that an object adds to the tables of a store. A unique index that is about
more than columns is refused, and so is a trigger, which would act by itself. -/
def ofObject? (object : Sqlite.Object) : Option (List UniqueIndex) :=
  match object.statement, StoreTable.all.find? fun table => table.name == object.table with
  | some statement, some table =>
    if object.kind == "trigger" then none
    else if Text.beginsWith statement "CREATE UNIQUE INDEX " then
      (columns? table.plainColumns statement).map fun columns =>
        [⟨table.name, table.records, columns⟩]
    else some []
  | _, _ => some []

/-- What a record has in the columns. Nothing is the same as an absent value. -/
def key? (index : UniqueIndex) (record : Value) : Option (List String) :=
  index.columns.mapM fun column => match record.get? column with
    | none | some .null => none
    | some value => some (Json.compact value)

/-- No two records of a store have the same in the columns. -/
def holdsIn (index : UniqueIndex) (store : Store) : Bool :=
  let records := (((toValue store).get? index.records).bind Value.toList?).getD []
  (records.filterMap index.key?).Nodup

/-- The columns in full, each behind the name of its table, as a failure names them. -/
def fullColumns (index : UniqueIndex) : String :=
  Text.joined ", " (index.columns.map fun column => index.table ++ "." ++ column)

end UniqueIndex

/-! ### Kept stores -/

/-- A store as it is kept, with the unique indices of the database that it came from. -/
structure KeptStore where
  store : Store
  indices : List UniqueIndex

instance : ToValue KeptStore where
  toValue kept := .record [("store", toValue kept.store), ("indices", toValue kept.indices)]

instance : OfValue KeptStore where
  ofValue? value := do
    match ← value.slots? ["store", "indices"] with
    | [store, indices] => return ⟨← store.required, ← indices.required⟩
    | _ => none

namespace KeptStore

/-- The store without records and without indices, which an empty file holds. -/
def empty : KeptStore := ⟨.empty, []⟩

/-- The store in a database file, with the unique indices that the file adds. -/
def ofDatabase? (file : Sqlite.File) : Option KeptStore := do
  let objects ← file.objects?
  let tables ← StoreTable.all.mapM fun table => do
    return (table.records, Value.list (← table.records? file objects))
  return ⟨← ofValue? (.record tables), (← objects.mapM UniqueIndex.ofObject?).flatten⟩

/-- The store that the content of a file holds. An empty file holds the empty store. -/
def ofContent? (content : List UInt8) : Option KeptStore :=
  if content.isEmpty then some .empty
  else match Sqlite.File.ofBytes? content with
    | some file => ofDatabase? file
    | none => ((Text.decodeStrict content).bind Json.parse?).bind ofValue?

/-- The content of a file that holds the store, from which it can be read again. -/
def content (kept : KeptStore) : String :=
  Json.compact (toValue kept)

/-- Another store with the same indices, none of which it may break. -/
def replace (kept : KeptStore) (store : Store) : Except StoreFailure KeptStore :=
  match kept.indices.find? fun index => !index.holdsIn store with
  | some index => .error (.duplicate index.fullColumns)
  | none => .ok { kept with store }

end KeptStore

end MigrationGuard
