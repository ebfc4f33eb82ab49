/-
This file reads the words of a TOML document: blanks and comments, keys, texts in
their four forms, numbers, truth values and dates. Each reader takes what stands
at the front of the text and gives back the rest. What is not of the form that a
reader asks for gives nothing, and so does a value that is out of range, as such a
document is refused as a whole. Dates are recognized, as they may stand in a
document, but nothing of the program reads them.
-/

import MigrationGuard.Data.Value
import MigrationGuard.Data.Json

namespace MigrationGuard.Data.Toml

/-! ### Blanks, comments and ends of lines -/

/-- A blank inside a line. Ends of lines are not among them, as they end an expression. -/
def isBlank (character : Char) : Bool :=
  character = ' ' || character = '\t'

/-- Drops the blanks at the front, up to something else or the end of the line. -/
def skipBlanks (text : List Char) : List Char :=
  text.dropWhile isBlank

/-- A character that may stand in a comment, and in a text between single quotes. -/
def isPlain (character : Char) : Bool :=
  character = '\t' || (0x20 ≤ character.toNat && character.toNat ≠ 0x7F)

/-- Takes the end of a line in either of its two spellings. -/
def lineEnd? : List Char → Option (List Char)
  | '\n' :: rest => some rest
  | '\r' :: '\n' :: rest => some rest
  | _ => none

/-- Drops a comment, if one stands at the front. The end of its line stays. -/
def skipComment : List Char → List Char
  | '#' :: rest => rest.dropWhile isPlain
  | text => text

/-- Takes what may stand behind an expression: blanks, a comment and the end of the line or text. -/
def closeLine? (text : List Char) : Option (List Char) :=
  match skipComment (skipBlanks text) with
  | [] => some []
  | rest => lineEnd? rest

/-- Drops blanks, comments and ends of lines. Every step takes a character, so the length of the
text bounds the steps. -/
def skipLines : Nat → List Char → List Char
  | 0, text => text
  | steps + 1, text =>
    let rest := skipComment (skipBlanks text)
    match lineEnd? rest with
    | some behind => skipLines steps behind
    | none => rest

/-! ### Texts -/

/-- A character that stands for itself between double quotes, which no quote and no backslash does.
-/
def isUnescaped (character : Char) : Bool :=
  isPlain character && character ≠ '"' && character ≠ '\\'

/-- The number of a run of hexadecimal digits of the given length. -/
def hexDigits? (count : Nat) (text : List Char) : Option (Nat × List Char) := do
  let digits := text.take count
  let values ← digits.mapM Json.hexValue?
  if values.length = count then
    some (values.foldl (fun value digit => 16 * value + digit) 0, text.drop count)
  else none

/-- The character with a code, unless the code belongs to no character. -/
def characterOf? (code : Nat) : Option Char :=
  if code < 0xD800 ∨ (0xE000 ≤ code ∧ code < 0x110000) then some (Char.ofNat code) else none

/-- The character of an escape behind its backslash, be it one letter or a code. -/
def escape? : List Char → Option (Char × List Char)
  | 'b' :: rest => some ('\x08', rest)
  | 't' :: rest => some ('\t', rest)
  | 'n' :: rest => some ('\n', rest)
  | 'f' :: rest => some ('\x0c', rest)
  | 'r' :: rest => some ('\r', rest)
  | '"' :: rest => some ('"', rest)
  | '\\' :: rest => some ('\\', rest)
  | 'u' :: rest => do
    let (code, behind) ← hexDigits? 4 rest
    return (← characterOf? code, behind)
  | 'U' :: rest => do
    let (code, behind) ← hexDigits? 8 rest
    return (← characterOf? code, behind)
  | _ => none

/-- Drops what a backslash at the end of a line swallows: blanks and ends of lines. -/
def skipSwallowed : Nat → List Char → List Char
  | 0, text => text
  | steps + 1, text =>
    let rest := skipBlanks text
    match lineEnd? rest with
    | some behind => skipSwallowed steps behind
    | none => rest

/-- Reads a text between double quotes, behind the opening one. It has to end on its line. -/
def basicText? : Nat → List Char → List Char → Option (String × List Char)
  | 0, _, _ => none
  | steps + 1, reversed, text => match text with
    | '"' :: rest => some (String.ofList reversed.reverse, rest)
    | '\\' :: rest => (escape? rest).bind fun (character, behind) =>
      basicText? steps (character :: reversed) behind
    | character :: rest =>
      if isUnescaped character then basicText? steps (character :: reversed) rest else none
    | [] => none

/-- Reads a text between single quotes, behind the opening one. Nothing is an escape in it. -/
def literalText? (text : List Char) : Option (String × List Char) :=
  let plain := fun character => isPlain character && character ≠ '\''
  match text.dropWhile plain with
  | '\'' :: rest => some (String.ofList (text.takeWhile plain), rest)
  | _ => none

/-- Drops an end of line directly behind the opening quotes of a text over several lines. -/
def skipFirstLineEnd (text : List Char) : List Char :=
  (lineEnd? text).getD text

/-- The quotes that end a text over several lines: three of them close it, up to two more before
these belong to it. Fewer than three close nothing. -/
def closingQuotes? (quote : Char) (text : List Char) : Option (List Char × List Char) :=
  let count := (text.takeWhile (· == quote)).length
  if count < 3 then none
  else some (List.replicate (min count 5 - 3) quote, text.drop (min count 5))

/-- Reads a text over several lines between double quotes, behind the opening ones. -/
def basicLines? : Nat → List Char → List Char → Option (String × List Char)
  | 0, _, _ => none
  | steps + 1, reversed, text => match closingQuotes? '"' text with
    | some (quotes, rest) => some (String.ofList (reversed.reverse ++ quotes), rest)
    | none => match lineEnd? text, text with
      | some rest, _ => basicLines? steps ('\n' :: reversed) rest
      | none, '"' :: rest => basicLines? steps ('"' :: reversed) rest
      | none, '\\' :: rest => match lineEnd? (skipBlanks rest) with
        | some behind => basicLines? steps reversed (skipSwallowed steps behind)
        | none => (escape? rest).bind fun (character, behind) =>
          basicLines? steps (character :: reversed) behind
      | none, character :: rest =>
        if isUnescaped character then basicLines? steps (character :: reversed) rest else none
      | none, [] => none

/-- Reads a text over several lines between single quotes, behind the opening ones. -/
def literalLines? : Nat → List Char → List Char → Option (String × List Char)
  | 0, _, _ => none
  | steps + 1, reversed, text => match closingQuotes? '\'' text with
    | some (quotes, rest) => some (String.ofList (reversed.reverse ++ quotes), rest)
    | none => match lineEnd? text, text with
      | some rest, _ => literalLines? steps ('\n' :: reversed) rest
      | none, character :: rest =>
        if isPlain character then literalLines? steps (character :: reversed) rest else none
      | none, [] => none

/-- Reads a text in any of its forms. Three quotes are looked for before single ones, as an empty
text has two. -/
def text? (text : List Char) : Option (String × List Char) :=
  match text with
  | '"' :: '"' :: '"' :: rest => basicLines? (text.length + 1) [] (skipFirstLineEnd rest)
  | '\'' :: '\'' :: '\'' :: rest => literalLines? (text.length + 1) [] (skipFirstLineEnd rest)
  | '"' :: rest => basicText? (text.length + 1) [] rest
  | '\'' :: rest => literalText? rest
  | _ => none

/-! ### Keys -/

/-- A character of a bare key, which needs no quotes around it. -/
def isBare (character : Char) : Bool :=
  character.isAlphanum || character = '_' || character = '-'

/-- Reads one part of a key, bare or between quotes. -/
def keyPart? (text : List Char) : Option (String × List Char) :=
  match text with
  | '"' :: rest => basicText? (text.length + 1) [] rest
  | '\'' :: rest => literalText? rest
  | _ =>
    let bare := text.takeWhile isBare
    if bare = [] then none else some (String.ofList bare, text.dropWhile isBare)

/-- Reads a key of one or more parts with points between them. -/
def key? : Nat → List Char → Option (List String × List Char)
  | 0, _ => none
  | steps + 1, text => do
    let (part, rest) ← keyPart? (skipBlanks text)
    match skipBlanks rest with
    | '.' :: others =>
      let (parts, behind) ← key? steps others
      return (part :: parts, behind)
    | behind => return ([part], behind)

/-! ### Numbers -/

/-- Reads digits with single underscores between them, which are dropped. -/
def digits? (isDigit : Char → Bool) : List Char → Option (List Char × List Char)
  | [] => none
  | character :: rest =>
    if isDigit character then
      match rest with
      | '_' :: others => (digits? isDigit others).map fun (digits, behind) =>
        (character :: digits, behind)
      | others => match digits? isDigit others with
        | some (digits, behind) => some (character :: digits, behind)
        | none => some ([character], others)
    else none

/-- Reads an integer with a mark for its base. It has no sign and has to fit into sixty-four bits
with one. -/
def marked? (base : Nat) (text : List Char) : Option (Value × List Char) := do
  let inBase := fun character => ((Json.hexValue? character).getD 16) < base
  let (digits, rest) ← digits? inBase text
  let value := digits.foldl (fun value digit => base * value + (Json.hexValue? digit).getD 0) 0
  if value < Nat.pow 2 63 then some (.integer value, rest) else none

/-- Reads the digits of a decimal whole number: no zero stands before other digits. -/
def whole? (text : List Char) : Option (List Char × List Char) :=
  match text with
  | '0' :: rest => some (['0'], rest)
  | _ => digits? Char.isDigit text

/-- Reads an exponent, if one stands at the front. Its digits may begin with zeros. -/
def exponent? (text : List Char) : Option (Option Int × List Char) :=
  match text with
  | mark :: rest =>
    if mark = 'e' ∨ mark = 'E' then do
      let (negative, others) := Json.exponentSign rest
      let (digits, behind) ← digits? Char.isDigit others
      let value : Int := Decimal.digitsValue digits
      return (some (if negative then -value else value), behind)
    else some (none, text)
  | [] => some (none, text)

/-- Reads the digits behind a point, if a point stands at the front. -/
def places? (text : List Char) : Option (Option (List Char) × List Char) :=
  match text with
  | '.' :: rest => (digits? Char.isDigit rest).map fun (digits, behind) => (some digits, behind)
  | _ => some (none, text)

/-- Reads a decimal number whose sign is known. An integer has to fit into sixty-four bits with a
sign, and no positive number may be beyond the doubles. -/
def decimal? (negative : Bool) (text : List Char) : Option (Value × List Char) := do
  let (whole, rest) ← whole? text
  let (places, rest) ← places? rest
  let (exponent, rest) ← exponent? rest
  match places, exponent with
  | none, none =>
    let value := Decimal.digitsValue whole
    if negative then
      if value ≤ Nat.pow 2 63 then some (.integer (-value), rest) else none
    else if value < Nat.pow 2 63 then some (.integer value, rest) else none
  | _, _ =>
    let behind := places.getD []
    let numeral : Decimal.Numeral :=
      ⟨Decimal.digitsValue (whole ++ behind), exponent.getD 0 - behind.length⟩
    let value := numeral.toFloat negative
    if value.isInf ∧ !negative then none else some (.float value, rest)

/-- Reads a number behind its sign, words for the special values included. -/
def signed? (negative : Bool) (text : List Char) : Option (Value × List Char) :=
  match text with
  | 'i' :: 'n' :: 'f' :: rest =>
    some (.float (if negative then -1.0 / 0.0 else 1.0 / 0.0), rest)
  | 'n' :: 'a' :: 'n' :: rest => some (.float (0.0 / 0.0), rest)
  | _ => decimal? negative text

/-! ### Dates and times -/

/-- Reads a number of exactly the given count of digits within bounds. -/
def bounded? (count low high : Nat) (text : List Char) : Option (Nat × List Char) :=
  (Decimal.natural? (text.take count)).bind fun value =>
    if (text.take count).length = count ∧ low ≤ value ∧ value ≤ high then
      some (value, text.drop count)
    else none

/-- Takes one given character, or nothing. -/
def exactly? (character : Char) : List Char → Option (List Char)
  | first :: rest => if first = character then some rest else none
  | [] => none

/-- The year has a 29th of February by the rule of the calendar in use. -/
def isLeapYear (year : Nat) : Bool :=
  year % 4 == 0 && (year % 100 != 0 || year % 400 == 0)

/-- The number of days of a month, which for one of them depends on the year. -/
def monthLength (year month : Nat) : Nat :=
  if month = 2 then (if isLeapYear year then 29 else 28)
  else if month = 4 ∨ month = 6 ∨ month = 9 ∨ month = 11 then 30
  else 31

/-- Takes a date whose day is in the calendar. -/
def date? (text : List Char) : Option (List Char) := do
  let (year, rest) ← bounded? 4 0 9999 text
  let (month, rest) ← bounded? 2 1 12 (← exactly? '-' rest)
  let (_, rest) ← bounded? 2 1 (monthLength year month) (← exactly? '-' rest)
  return rest

/-- Takes the fraction of a second, if one stands at the front. -/
def skipFraction (text : List Char) : List Char :=
  match text with
  | '.' :: rest => if (rest.takeWhile Char.isDigit) = [] then text else rest.dropWhile Char.isDigit
  | _ => text

/-- Takes a time of day. A minute may have one second more than usual. -/
def time? (text : List Char) : Option (List Char) := do
  let (_, rest) ← bounded? 2 0 23 text
  let (_, rest) ← bounded? 2 0 59 (← exactly? ':' rest)
  let (_, rest) ← bounded? 2 0 60 (← exactly? ':' rest)
  return skipFraction rest

/-- Takes the distance from universal time, if one stands at the front. -/
def skipOffset (text : List Char) : List Char :=
  let distance? := fun rest => do
    let (_, rest) ← bounded? 2 0 23 rest
    let (_, rest) ← bounded? 2 0 59 (← exactly? ':' rest)
    some rest
  match text with
  | 'Z' :: rest => rest
  | 'z' :: rest => rest
  | '+' :: rest => (distance? rest).getD text
  | '-' :: rest => (distance? rest).getD text
  | _ => text

/-- Takes a date, a time of day or both, with a distance from universal time behind both. -/
def moment? (text : List Char) : Option (List Char) :=
  match date? text with
  | none => time? text
  | some rest => match rest with
    | separator :: others =>
      if separator = 'T' ∨ separator = 't' ∨ separator = ' ' then
        some ((time? others).elim rest skipOffset)
      else some rest
    | [] => some rest

/-! ### Scalars -/

/-- Reads a value that is no list and no table. Dates are recognized but hold nothing that is
read. -/
def scalar? (text : List Char) : Option (Value × List Char) :=
  match text with
  | 't' :: 'r' :: 'u' :: 'e' :: rest => some (.bool true, rest)
  | 'f' :: 'a' :: 'l' :: 's' :: 'e' :: rest => some (.bool false, rest)
  | '0' :: 'x' :: rest => marked? 16 rest
  | '0' :: 'o' :: rest => marked? 8 rest
  | '0' :: 'b' :: rest => marked? 2 rest
  | '+' :: rest => signed? false rest
  | '-' :: rest => signed? true rest
  | first :: _ =>
    if first = '"' ∨ first = '\'' then (text? text).map fun (value, rest) => (.text value, rest)
    else match moment? text with
      | some rest => some (.unreadable, rest)
      | none => signed? false text
  | [] => none

end MigrationGuard.Data.Toml
