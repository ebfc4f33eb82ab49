/-
This file reads database files in the SQLite format. A file is a row of pages of
one size. The rows of a table lie in the leaves of a tree of pages, and the table
of all tables and indices has its root at the first page. Indices are not read:
they repeat what the tables hold. Every step is bounded by the bytes that are
there or by the depth of a tree, so reading ends on every file, also on a broken
one.
-/

import MigrationGuard.Data.Value
import MigrationGuard.Text.Utf8

namespace MigrationGuard.Data.Sqlite

/-! ### Numbers -/

/-- The number that bytes stand for, the most significant byte first, as all numbers of the format
are written. -/
def number (bytes : List UInt8) : Nat :=
  bytes.foldl (fun value byte => 256 * value + byte.toNat) 0

/-- The number that bytes stand for as a two's complement. Its highest bit is the sign. -/
def signed (bytes : List UInt8) : Int :=
  let bound := Nat.pow 256 bytes.length
  if 2 * number bytes < bound then number bytes else (number bytes : Int) - bound

/-- Reads on in a number of variable length. At most so many bytes come before the last one, and
each of them has its highest bit set. -/
def readOn? (value : Nat) : Nat → List UInt8 → Option (Nat × List UInt8)
  | _, [] => none
  | 0, byte :: rest => some (256 * value + byte.toNat, rest)
  | before + 1, byte :: rest =>
    if byte < 0x80 then some (128 * value + byte.toNat, rest)
    else readOn? (128 * value + (byte.toNat - 128)) before rest

/-- The number of variable length at the front. It has nine bytes at most, and all bits of a ninth
one count. -/
def varint? : List UInt8 → Option (Nat × List UInt8) :=
  readOn? 0 8

/-! ### Records -/

/-- The number of bytes of a value of a kind. Constants take none. -/
def width (kind : Nat) : Nat :=
  if kind ≤ 4 then kind
  else if kind = 5 then 6
  else if kind ≤ 7 then 8
  else (kind - 12) / 2

/-- The value of a kind that bytes stand for. Bytes that are no text cannot be read. -/
def ofBytes? (kind : Nat) (bytes : List UInt8) : Option Value :=
  if kind = 0 then some .null
  else if kind ≤ 6 then some (.integer (signed bytes))
  else if kind = 7 then some (.float (Float.ofBits (UInt64.ofNat (number bytes))))
  else if kind ≤ 9 then some (.integer (kind - 8))
  else if kind ≤ 11 then none
  else if kind % 2 = 0 then some .unreadable
  else (Text.decodeStrict bytes).map .text

/-- The kinds that the head of a record lists. Each takes a byte at least. -/
def kinds? : Nat → List UInt8 → Option (List Nat)
  | _, [] => some []
  | 0, _ => none
  | steps + 1, head => do
    let (kind, rest) ← varint? head
    return kind :: (← kinds? steps rest)

/-- The values of the given kinds that stand one behind the other. A record that ends too early
cannot be read. -/
def values? : List Nat → List UInt8 → Option (List Value)
  | [], _ => some []
  | kind :: kinds, body => do
    let bytes := body.take (width kind)
    if bytes.length < width kind then none
    else return (← ofBytes? kind bytes) :: (← values? kinds (body.drop (width kind)))

/-- The values of a record. Its head gives its own length and the kinds of the values. -/
def record? (bytes : List UInt8) : Option (List Value) := do
  let (length, rest) ← varint? bytes
  let head := (bytes.take length).drop (bytes.length - rest.length)
  values? (← kinds? head.length head) (bytes.drop length)

/-! ### Pages -/

/-- A database file, with the sizes that its head tells. -/
structure File where
  bytes : Array UInt8
  pageSize : Nat
  /-- The part of it that is in use. -/
  usable : Nat

namespace File

/-- The bytes that every such file begins with, the closing zero included. -/
def signature : List UInt8 :=
  Text.encode "SQLite format 3\x00"

/-- The file with the given bytes, if it begins as one. Texts are in UTF-8. -/
def ofBytes? (content : List UInt8) : Option File := do
  let size := number ((content.drop 16).take 2)
  let pageSize := if size = 1 then 65536 else size
  let reserved := number ((content.drop 20).take 1)
  if content.take 16 = signature ∧ 512 ≤ pageSize ∧ number ((content.drop 56).take 4) ≤ 1 then
    return ⟨content.toArray, pageSize, pageSize - reserved⟩
  else none

variable (file : File)

/-- The bytes of a page. The first page has the number one, and a page beyond the file is empty. -/
def page (index : Nat) : List UInt8 :=
  (file.bytes.extract ((index - 1) * file.pageSize) (index * file.pageSize)).toList

/-- The number of whole pages in the file. -/
def pages : Nat :=
  file.bytes.size / file.pageSize

/-- So many bytes that begin at a page and go on at the page that its first four bytes name. -/
def chain : Nat → Nat → Nat → List UInt8
  | 0, _, _ => []
  | steps + 1, index, size =>
    let bytes := file.page index
    if size ≤ file.usable - 4 then (bytes.drop 4).take size
    else (bytes.drop 4).take (file.usable - 4) ++
      chain steps (number (bytes.take 4)) (size - (file.usable - 4))

/-- The record in a cell of a leaf. The length and the number of the row stand before it. What is
too long for the cell goes on at other pages. -/
def cellRecord? (cell : List UInt8) : Option (List UInt8) := do
  let (size, numbered) ← varint? cell
  let (_, body) ← varint? numbered
  let most := file.usable - 35
  let least := (file.usable - 12) * 32 / 255 - 23
  let fitting := least + (size - least) % (file.usable - 4)
  let here := if size ≤ most then size else if fitting ≤ most then fitting else least
  let record := body.take here ++
    if here < size then file.chain file.pages (number ((body.drop here).take 4)) (size - here)
    else []
  if record.length = size then some record else none

/-- The cells of a page, whose places are listed behind its head. A cell is given with all that
follows it. -/
def cells (bytes list : List UInt8) : Nat → List (List UInt8)
  | 0 => []
  | count + 1 => bytes.drop (number (list.take 2)) :: cells bytes (list.drop 2) count

/-- The rows in the tree of a table, which has a limited depth. Inner pages only lead to others. -/
def rows? : Nat → Nat → Option (List (List Value))
  | 0, _ => none
  | depth + 1, index => do
    let bytes := file.page index
    let head := bytes.drop (if index = 1 then 100 else 0)
    let count := number ((head.drop 3).take 2)
    if head.take 1 = [0x0D] then
      (cells bytes (head.drop 8) count).mapM fun cell => do record? (← file.cellRecord? cell)
    else if head.take 1 = [0x05] then
      let children := (cells bytes (head.drop 12) count).map fun cell => number (cell.take 4)
      let below ← (children ++ [number ((head.drop 8).take 4)]).mapM (rows? depth)
      return below.flatten
    else none

/-- No tree is deeper than this, however large the file. -/
def deepest : Nat := 20

/-- The rows of the table with its root at a page, in the order of their keys. -/
def table? (root : Nat) : Option (List (List Value)) :=
  file.rows? deepest root

end File

/-! ### Objects -/

/-- A table, an index or something else that a database holds, as the table of all objects tells it.
-/
structure Object where
  /-- What it is, in the word of the format. -/
  kind : String
  name : String
  /-- The table that it belongs to. -/
  table : String
  /-- The page of its root. -/
  root : Nat
  /-- The statement that made it. What a table brings along has none. -/
  statement : Option String

/-- The object that a row of the table of all objects tells of. -/
def Object.ofRow? (row : List Value) : Option Object := do
  match row with
  | [kind, name, table, root, statement] =>
    return ⟨← ofValue? kind, ← ofValue? name, ← ofValue? table, ← ofValue? root,
      ← ofValue? statement⟩
  | _ => none

/-- All objects of a file, from the table that has its root at the first page. -/
def File.objects? (file : File) : Option (List Object) := do
  (← file.table? 1).mapM Object.ofRow?

end MigrationGuard.Data.Sqlite
