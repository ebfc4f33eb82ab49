/-
This file reads and writes JSON text. Reading takes one value with blanks around
it and nothing else. Some well-formed values may be passed over but not read: a
number beyond the doubles, a text with half a surrogate pair, and what lies deeper
than 127 lists or records. These are kept as marked values, so that a reader that
does not look at them is not disturbed by them. Writing is total: what has no text
of its own, such as a double that is not finite, is written as null. A value may
be written on one line or over several ones, and numbers are written with as few
digits as tell them apart. What a reader of one field says about a value of
another kind, with its line and column, is here too.
-/

import MigrationGuard.Data.Value
import MigrationGuard.Decimal.Layout
import MigrationGuard.Decimal.Parse
import MigrationGuard.Hash.Hex

namespace MigrationGuard.Data.Json

/-! ### Reading: blanks, literals and numbers -/

/-- A blank between the parts of a JSON text. Other blanks of the alphabet are none. -/
def isBlank (character : Char) : Bool :=
  character = ' ' || character = '\n' || character = '\t' || character = '\r'

/-- Drops the blanks at the front, which may stand between any two parts. -/
def skipBlanks (text : List Char) : List Char :=
  text.dropWhile isBlank

/-- The digits of a whole part: a single zero, or digits that begin with another one. A zero before
other digits is refused. -/
def wholePart? (text : List Char) : Option (List Char × List Char) :=
  match text with
  | '0' :: rest => match rest with
    | next :: _ => if next.isDigit then none else some (['0'], rest)
    | [] => some (['0'], rest)
  | _ =>
    let digits := text.takeWhile Char.isDigit
    if digits = [] then none else some (digits, text.dropWhile Char.isDigit)

/-- The digits behind a point, if a point follows. A point without digits is refused. -/
def places? (text : List Char) : Option (Option (List Char) × List Char) :=
  match text with
  | '.' :: rest =>
    let digits := rest.takeWhile Char.isDigit
    if digits = [] then none else some (some digits, rest.dropWhile Char.isDigit)
  | rest => some (none, rest)

/-- The sign at the front of an exponent, and what follows. Without one the exponent is not
negative. -/
def exponentSign (text : List Char) : Bool × List Char :=
  match text with
  | '-' :: others => (true, others)
  | '+' :: others => (false, others)
  | others => (false, others)

/-- The exponent, if one follows. A letter for it without digits is refused. -/
def exponentPart? (text : List Char) : Option (Option Int × List Char) :=
  match text with
  | mark :: rest =>
    if mark = 'e' ∨ mark = 'E' then
      let (negative, others) := exponentSign rest
      let digits := others.takeWhile Char.isDigit
      let value : Int := Decimal.digitsValue digits
      if digits = [] then none
      else some (some (if negative then -value else value), others.dropWhile Char.isDigit)
    else some (none, text)
  | [] => some (none, text)

/-- A finite double, or the mark that it is out of range and may only be passed over. -/
def ofFloat (value : Float) : Value :=
  if value.isFinite then .float value else .unreadable

/-- The value of an integer literal. One that no word of sixty-four bits holds counts as a
floating-point number, and so does minus zero. -/
def ofInteger (negative : Bool) (digits : Nat) : Value :=
  if negative then
    if digits = 0 ∨ Nat.pow 2 63 < digits then ofFloat (-(Decimal.toFloat digits 0))
    else .integer (-digits)
  else if digits < Nat.pow 2 64 then .integer digits
  else ofFloat (Decimal.toFloat digits 0)

/-- Reads a number whose sign is already known, as an integer if it has neither point nor exponent.
-/
def readNumber? (negative : Bool) (text : List Char) : Option (Value × List Char) := do
  let (whole, rest) ← wholePart? text
  let (places, rest) ← places? rest
  let (exponent, rest) ← exponentPart? rest
  match places, exponent with
  | none, none => return (ofInteger negative (Decimal.digitsValue whole), rest)
  | _, _ =>
    let behind := places.getD []
    let numeral : Decimal.Numeral :=
      ⟨Decimal.digitsValue (whole ++ behind), exponent.getD 0 - behind.length⟩
    return (ofFloat (numeral.toFloat negative), rest)

/-! ### Reading: texts -/

/-- The value of a hexadecimal digit in either letter case. -/
def hexValue? (character : Char) : Option Nat :=
  if character.isDigit then some (character.toNat - 48)
  else if 'a' ≤ character ∧ character ≤ 'f' then some (character.toNat - 87)
  else if 'A' ≤ character ∧ character ≤ 'F' then some (character.toNat - 55)
  else none

/-- The number of four hexadecimal digits, as an escape spells it. -/
def fourHex? : List Char → Option (Nat × List Char)
  | a :: b :: c :: d :: rest => do
    let high := (← hexValue? a) * 16 + (← hexValue? b)
    let value := high * 256 + (← hexValue? c) * 16 + (← hexValue? d)
    return (value, rest)
  | _ => none

/-- The character of a one-letter escape. Other letters make no escape. -/
def shortEscape? : Char → Option Char
  | '"' => some '"'
  | '\\' => some '\\'
  | '/' => some '/'
  | 'b' => some '\x08'
  | 'f' => some '\x0c'
  | 'n' => some '\n'
  | 'r' => some '\r'
  | 't' => some '\t'
  | _ => none

/-- One step of a text: its end, a character or half a pair, and what follows. -/
inductive TextStep where
  /-- The closing quote. -/
  | finish (rest : List Char)
  | character (value : Char) (rest : List Char)
  /-- An escape that is half a surrogate pair. -/
  | broken (rest : List Char)

/-- The step that an escape of four digits makes. Two halves of a pair make one character. -/
def unicodeStep? (text : List Char) : Option TextStep := do
  let (first, rest) ← fourHex? text
  if 0xD800 ≤ first ∧ first < 0xDC00 then
    match rest with
    | '\\' :: 'u' :: others =>
      let (second, behind) ← fourHex? others
      if 0xDC00 ≤ second ∧ second < 0xE000 then
        let code := 0x10000 + (first - 0xD800) * 0x400 + (second - 0xDC00)
        return .character (Char.ofNat code) behind
      else return .broken rest
    | _ => return .broken rest
  else if 0xDC00 ≤ first ∧ first < 0xE000 then return .broken rest
  else return .character (Char.ofNat first) rest

/-- The next step of a text behind its opening quote. Control characters may stand there only as
escapes. -/
def textStep? : List Char → Option TextStep
  | [] => none
  | '"' :: rest => some (.finish rest)
  | '\\' :: 'u' :: rest => unicodeStep? rest
  | '\\' :: letter :: rest => (shortEscape? letter).map fun character => .character character rest
  | ['\\'] => none
  | character :: rest => if character.toNat < 0x20 then none else some (.character character rest)

/-- Reads a text behind its opening quote. The flag tells whether every step was a character. Each
step takes a character, so the length of the input bounds the steps. -/
def readText? : Nat → List Char → List Char → Bool → Option (List Char × Bool × List Char)
  | 0, _, _, _ => none
  | steps + 1, text, reversed, whole => match textStep? text with
    | none => none
    | some (.finish rest) => some (reversed.reverse, whole, rest)
    | some (.character character rest) => readText? steps rest (character :: reversed) whole
    | some (.broken rest) => readText? steps rest reversed false

/-! ### Reading: values -/

/-- The deepest nesting that can be read. What lies deeper may only be passed over. -/
def deepest : Nat := 127

/-- The value, or the mark for what lies too deep or holds an unreadable name. -/
def within (depth : Nat) (names : Bool) (value : Value) : Value :=
  if depth ≤ deepest ∧ names then value else .unreadable

mutual

/-- Reads one value behind its blanks. Two calls together take at least one character, so twice the
length of the input bounds the steps. -/
def readValue? : Nat → Nat → List Char → Option (Value × List Char)
  | 0, _, _ => none
  | steps + 1, depth, text => match text with
    | 'n' :: 'u' :: 'l' :: 'l' :: rest => some (.null, rest)
    | 't' :: 'r' :: 'u' :: 'e' :: rest => some (.bool true, rest)
    | 'f' :: 'a' :: 'l' :: 's' :: 'e' :: rest => some (.bool false, rest)
    | '"' :: rest => (readText? steps rest [] true).map fun (characters, whole, behind) =>
      (if whole then .text (String.ofList characters) else .unreadable, behind)
    | '[' :: rest => match skipBlanks rest with
      | ']' :: behind => some (within (depth + 1) true (.list []), behind)
      | others => (readItems? steps (depth + 1) others).map fun (items, behind) =>
        (within (depth + 1) true (.list items), behind)
    | '\x7b' :: rest => match skipBlanks rest with
      | '\x7d' :: behind => some (within (depth + 1) true (.record []), behind)
      | others => (readMembers? steps (depth + 1) others).map fun (members, names, behind) =>
        (within (depth + 1) names (.record members), behind)
    | '-' :: rest => readNumber? true rest
    | _ => readNumber? false text

/-- Reads the items of a list up to its closing bracket. No comma may stand before it. -/
def readItems? : Nat → Nat → List Char → Option (List Value × List Char)
  | 0, _, _ => none
  | steps + 1, depth, text => match readValue? steps depth (skipBlanks text) with
    | none => none
    | some (item, rest) => match skipBlanks rest with
      | ']' :: behind => some ([item], behind)
      | ',' :: others => (readItems? steps depth others).map fun (items, behind) =>
        (item :: items, behind)
      | _ => none

/-- Reads the members of a record up to its closing brace. The flag tells whether all names can be
read. -/
def readMembers? : Nat → Nat → List Char → Option (List (String × Value) × Bool × List Char)
  | 0, _, _ => none
  | steps + 1, depth, text => match skipBlanks text with
    | '"' :: rest => match readText? steps rest [] true with
      | none => none
      | some (name, whole, behindName) => match skipBlanks behindName with
        | ':' :: others => match readValue? steps depth (skipBlanks others) with
          | none => none
          | some (value, behindValue) => match skipBlanks behindValue with
            | '\x7d' :: behind => some ([(String.ofList name, value)], whole, behind)
            | ',' :: more => (readMembers? steps depth more).map fun (members, names, behind) =>
              ((String.ofList name, value) :: members, whole && names, behind)
            | _ => none
        | _ => none
    | _ => none

end

/-- The value of a JSON text, if it is one value with blanks around it. -/
def parse? (text : String) : Option Value :=
  let characters := text.toList
  match readValue? (2 * characters.length + 2) 0 (skipBlanks characters) with
  | some (value, rest) => if (skipBlanks rest).isEmpty then some value else none
  | none => none

/-- The value of a JSON text that can be read in all its parts, also in those that nobody asks for.
-/
def parseWhole? (text : String) : Option Value :=
  (parse? text).filter Value.isReadable

/-! ### Writing -/

/-- The characters that stand for one character inside a text. Only what has to be escaped is. -/
def escape (character : Char) : List Char :=
  match character with
  | '"' => ['\\', '"']
  | '\\' => ['\\', '\\']
  | '\x08' => ['\\', 'b']
  | '\t' => ['\\', 't']
  | '\n' => ['\\', 'n']
  | '\x0c' => ['\\', 'f']
  | '\r' => ['\\', 'r']
  | _ =>
    if character.toNat < 0x20 then
      ['\\', 'u', '0', '0', Hash.hexDigit (character.toNat / 16),
        Hash.hexDigit (character.toNat % 16)]
    else [character]

/-- The text between quotes, as it stands in a JSON text. -/
def quoted (text : String) : String :=
  "\"" ++ String.ofList (text.toList.flatMap escape) ++ "\""

/-- The text of a double. What is not finite has no text of its own and is written as null. -/
def floatText (value : Float) : String :=
  ((Decimal.readDouble value).compact? .ofDouble).getD "null"

/-- The text of a single. Its digits are those that tell it from all other singles. -/
def singleText (value : Float32) : String :=
  ((Decimal.readSingle value).compact? .ofSingle).getD "null"

mutual

/-- The value on one line without blanks. Members keep the order in which they were given. -/
def compact : Value → String
  | .null => "null"
  | .bool value => if value then "true" else "false"
  | .integer value => toString value
  | .float value => floatText value
  | .text value => quoted value
  | .list items => "[" ++ compactItems items ++ "]"
  | .record members => "\x7b" ++ compactMembers members ++ "\x7d"
  | .unreadable => "null"

/-- The items with commas between them, as they stand between brackets. -/
def compactItems : List Value → String
  | [] => ""
  | [item] => compact item
  | item :: items => compact item ++ "," ++ compactItems items

/-- The members with commas between them, as they stand between braces. -/
def compactMembers : List (String × Value) → String
  | [] => ""
  | [member] => quoted member.1 ++ ":" ++ compact member.2
  | member :: members => quoted member.1 ++ ":" ++ compact member.2 ++ "," ++ compactMembers members

end

/-- A new line, indented by two blanks for every level. -/
def newLine (level : Nat) : String :=
  "\n" ++ String.ofList (List.replicate (2 * level) ' ')

mutual

/-- The value over several lines, every item and member on its own. Empty lists and records stay on
one line. -/
def indented (level : Nat) : Value → String
  | .list (item :: items) =>
    "[" ++ indentedItems (level + 1) (item :: items) ++ newLine level ++ "]"
  | .record (member :: members) =>
    "\x7b" ++ indentedMembers (level + 1) (member :: members) ++ newLine level ++ "\x7d"
  | value => compact value

/-- The items, each on a line of its own at the level of the list. -/
def indentedItems (level : Nat) : List Value → String
  | [] => ""
  | [item] => newLine level ++ indented level item
  | item :: items => newLine level ++ indented level item ++ "," ++ indentedItems level items

/-- The members, each on a line of its own at the level of the record. -/
def indentedMembers (level : Nat) : List (String × Value) → String
  | [] => ""
  | [member] => newLine level ++ quoted member.1 ++ ": " ++ indented level member.2
  | member :: members =>
    newLine level ++ quoted member.1 ++ ": " ++ indented level member.2 ++ "," ++
      indentedMembers level members

end

/-- The value over several lines, as it is written into files that people read. -/
def pretty (value : Value) : String :=
  indented 0 value

/-! ### Complaints of a reader -/

/-- What a reader says when a value is of another kind than the one it is asked for. Lines and
columns are counted from one, and the column is that of the last character of the value. -/
structure Mismatch where
  /-- The kind of value that stands there. -/
  found : String
  /-- The kind of value that was asked for. -/
  expected : String
  /-- The line of the value. -/
  line : Nat
  /-- The column where the value ends. -/
  column : Nat
  deriving DecidableEq, Repr

/-- The complaint in words: what was found, what was expected and where. -/
def Mismatch.message (mismatch : Mismatch) : String :=
  "invalid type: " ++ mismatch.found ++ ", expected " ++ mismatch.expected ++ " at line " ++
    toString mismatch.line ++ " column " ++ toString mismatch.column

end MigrationGuard.Data.Json
