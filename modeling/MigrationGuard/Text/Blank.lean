/-
This file fixes which characters are blank and what it means to trim a text, to
cut it into words and to cut it into lines. Every other module that speaks of
surrounding white space uses these definitions, so that one table decides. Lines
end at line feeds, with or without a carriage return before them, and a line feed
at the very end begins no further line.
-/

namespace MigrationGuard.Text

/-! ### Blank characters -/

/-- A character with the Unicode property White_Space. -/
def isBlank (character : Char) : Bool :=
  let code := character.toNat
  (9 ≤ code && code ≤ 13) || code == 0x20 || code == 0x85 || code == 0xA0 || code == 0x1680 ||
    (0x2000 ≤ code && code ≤ 0x200A) || code == 0x2028 || code == 0x2029 || code == 0x202F ||
    code == 0x205F || code == 0x3000

/-! ### Trimming -/

/-- Drops the blanks at the front, so that a text that is left begins with something else. -/
def trimStart (text : List Char) : List Char :=
  text.dropWhile isBlank

/-- Drops the blanks at the back, so that a text that is left ends with something else. -/
def trimEnd (text : List Char) : List Char :=
  (text.reverse.dropWhile isBlank).reverse

/-- Drops the blanks at both ends. Those inside of the text stay. -/
def trim (text : List Char) : List Char :=
  trimEnd (trimStart text)

/-- Drops the blanks at both ends of a string. -/
def trimmed (text : String) : String :=
  String.ofList (trim text.toList)

/-- A text without any character that is not blank. -/
def allBlank (text : String) : Bool :=
  text.toList.all isBlank

/-! ### Words and lines -/

/-- The maximal runs of characters that fail the test, the empty ones left out. -/
def pieces (separates : Char → Bool) : List Char → List (List Char)
  | [] => []
  | character :: rest =>
    if separates character then pieces separates rest
    else match rest, pieces separates rest with
      | next :: _, word :: words =>
        if separates next then [character] :: word :: words else (character :: word) :: words
      | _, words => [character] :: words

/-- The maximal runs of characters that are not blank. -/
def words (text : List Char) : List (List Char) :=
  pieces isBlank text

/-- Joins the words of a text by single spaces. -/
def collapse (text : String) : String :=
  String.ofList (List.intercalate [' '] (words text.toList))

/-- Cuts at every line feed. The text behind the last line feed is a piece too, be it empty. -/
def cutAtLineFeeds : List Char → List (List Char)
  | [] => [[]]
  | '\n' :: rest => [] :: cutAtLineFeeds rest
  | character :: rest => match cutAtLineFeeds rest with
    | [] => [[character]]
    | line :: lines => (character :: line) :: lines

/-- Drops one carriage return at the end of a line. -/
def dropCarriageReturn (line : List Char) : List Char :=
  if line.getLast? = some '\r' then line.dropLast else line

/-- Drops the last piece if it is empty: a final line feed opens no further line. The last piece
has no line feed behind it, so its carriage return stays. -/
def closeLines : List (List Char) → List (List Char)
  | [] => []
  | [last] => if last.isEmpty then [] else [last]
  | line :: lines => dropCarriageReturn line :: closeLines lines

/-- The lines of a text. A line ends at a line feed, with or without a carriage return before it. -/
def lines (text : List Char) : List (List Char) :=
  closeLines (cutAtLineFeeds text)

/-- The lines of a string, as the strings that stand between its line ends. -/
def linesOf (text : String) : List String :=
  (lines text.toList).map String.ofList

end MigrationGuard.Text
