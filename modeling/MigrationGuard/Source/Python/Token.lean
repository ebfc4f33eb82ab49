/-
This file cuts Python source text into tokens. Every token knows its line, its
place in the text, and whether it is the first one of its line, with the width of
the indentation there; the grammar decides where a line end has a meaning. Strings
with replacement fields are cut into their fields, so that the expressions inside
are read like all others. What begins no token becomes a token of its own kind, so
cutting never fails and the grammar refuses the text. Blanks, comments and
continued lines stand between tokens and are only measured.
-/

import MigrationGuard.Text.Identifier
import MigrationGuard.Text.Search

namespace MigrationGuard.Python

/-! ### Characters with their places -/

/-- A character of the source text with the place that it stands at. -/
structure Located where
  /-- The character. -/
  value : Char
  /-- Its line, counted from one. -/
  line : Nat
  /-- The number of characters before it. -/
  offset : Nat

/-- The characters of a text from the given line and place on. -/
def locate (line offset : Nat) : List Char → List Located
  | [] => []
  | character :: rest =>
    ⟨character, line, offset⟩ ::
      locate (if character = '\n' then line + 1 else line) (offset + 1) rest

/-- The text begins with the given characters. -/
def startsWith (word : List Char) (text : List Located) : Bool :=
  word.isPrefixOf ((text.take word.length).map Located.value)

/-- The first character is there and passes the test. -/
def headIs (test : Char → Bool) (text : List Located) : Bool :=
  (text.head?.map fun first => test first.value).getD false

/-! ### Tokens -/

/-- The kind of a token, which is all that the grammar looks at besides its characters. -/
inductive TokenKind where
  /-- A name or a keyword. -/
  | word
  | number
  /-- A string without replacement fields. -/
  | string
  /-- The beginning of a string that may hold replacement fields. -/
  | formatOpen
  /-- The end of such a string. -/
  | formatClose
  /-- The brace that opens a replacement field. -/
  | fieldOpen
  /-- The brace that closes it. -/
  | fieldClose
  /-- A conversion inside a field. -/
  | conversion
  /-- The colon before a format. -/
  | format
  /-- An operator, a bracket or another sign. -/
  | symbol
  /-- A character that begins no token, or a string without end. -/
  | illegal
  /-- The end of the text. -/
  | finish
  deriving DecidableEq, Repr

/-- A token with all that the grammar needs to know of its surroundings. -/
structure Token where
  kind : TokenKind
  /-- Its characters. Strings are not kept. -/
  text : String
  /-- Its line, counted from one. -/
  line : Nat
  /-- The number of characters before it. -/
  start : Nat
  /-- The number of characters before what follows it. -/
  stop : Nat
  /-- It is the first token of a line. -/
  fresh : Bool
  /-- The width of the indentation before it, if it is the first one of its line. -/
  indent : Nat
  deriving DecidableEq, Repr

instance : Inhabited Token := ⟨⟨.finish, "", 1, 0, 0, true, 0⟩⟩

/-! ### Blanks between tokens -/

/-- What stands before a token: whether a line ended there, how wide the indentation is, and whether
further blanks still widen it. -/
structure Margin where
  /-- A line ended. -/
  fresh : Bool
  /-- The width of the indentation. -/
  indent : Nat
  /-- Blanks still widen it. -/
  counting : Bool

/-- A blank that no indentation counts, although it stands between tokens. -/
def isFurtherBlank (character : Char) : Bool :=
  Text.isBlank character || character == '\uFEFF' || character == '\u2060' || character == '\u200B'

/-- The margin behind one blank. A tab counts for eight blanks. -/
def Margin.behind (margin : Margin) (character : Char) : Margin :=
  if character = '\n' then ⟨true, 0, true⟩
  else if !margin.counting then margin
  else if character = ' ' then ⟨margin.fresh, margin.indent + 1, true⟩
  else if character = '\t' then ⟨margin.fresh, margin.indent + 8, true⟩
  else if character = '\r' ∨ character = '\x0c' then ⟨margin.fresh, 0, true⟩
  else ⟨margin.fresh, margin.indent, false⟩

/-- What follows a backslash that continues a line. -/
def behindContinuation? (text : List Located) : Option (List Located) :=
  if startsWith ['\n'] text then some (text.drop 1)
  else if startsWith ['\r', '\n'] text then some (text.drop 2)
  else if text.isEmpty then some []
  else none

/-- Skips blanks, comments and continued line ends. Every step takes a character, so the length of
the text bounds the steps. -/
def skipMargin : Nat → Margin → List Located → Margin × List Located
  | 0, margin, text => (margin, text)
  | _, margin, [] => (margin, [])
  | steps + 1, margin, first :: rest =>
    if first.value = '#' then
      skipMargin steps margin (rest.dropWhile fun next => next.value != '\n')
    else if first.value = '\\' then match behindContinuation? rest with
      | some behind => skipMargin steps margin behind
      | none => (margin, first :: rest)
    else if isFurtherBlank first.value then skipMargin steps (margin.behind first.value) rest
    else (margin, first :: rest)

/-! ### Strings -/

/-- How a string is written, which decides what its characters mean. -/
structure Quote where
  /-- The quote. -/
  mark : Char
  /-- The quote stands three times. -/
  triple : Bool
  /-- Backslashes stand for themselves. -/
  raw : Bool
  /-- The string may hold replacement fields. -/
  format : Bool
  deriving DecidableEq, Repr

/-- The quotes that a string can begin with. -/
def isQuote (character : Char) : Bool :=
  character = '"' || character = '\'' || character.toNat == 0x60

/-- The beginning of a string at the front of a text, with what follows it. -/
def openString? (text : List Located) : Option (Quote × List Located) :=
  let isFlag := fun character => ['f', 'F', 'r', 'R', 'b', 'B', 'u', 'U'].contains character
  let flags := (text.takeWhile fun next => isFlag next.value).map Located.value
  match text.dropWhile fun next => isFlag next.value with
  | first :: rest =>
    if isQuote first.value then
      let triple := startsWith [first.value, first.value] rest && first.value.toNat != 0x60
      some (⟨first.value, triple, flags.contains 'r' || flags.contains 'R',
        flags.contains 'f' || flags.contains 'F'⟩, if triple then rest.drop 2 else rest)
    else none
  | [] => none

/-- Where the characters of a string stop, and what follows there. -/
inductive ContentEnd where
  /-- At the closing quote. -/
  | closed (rest : List Located)
  /-- At a replacement field. -/
  | field (rest : List Located)
  /-- Nowhere: the string has no end. -/
  | broken (rest : List Located)

/-- The hexadecimal digits of an escape follow. -/
def hexDigits (count : Nat) (text : List Located) : Bool :=
  let digits := text.take count
  digits.length == count && digits.all fun next =>
    next.value.isDigit || ('a' ≤ next.value.toLower && next.value.toLower ≤ 'f')

/-- What follows the escape behind a backslash. What is no escape is left in place. -/
def behindEscape (text : List Located) : List Located :=
  match text with
  | [] => []
  | first :: rest =>
    if first.value = 'u' ∧ hexDigits 4 rest then rest.drop 4
    else if first.value = 'U' ∧ hexDigits 8 rest then rest.drop 8
    else if first.value = 'x' ∧ hexDigits 2 rest then rest.drop 2
    else if first.value.isDigit then
      let digits := ((first :: rest).take 3).takeWhile fun next => next.value.isDigit
      (first :: rest).drop digits.length
    else if first.value = '\r' ∧ startsWith ['\n'] rest then rest.drop 1
    else if ['\n', '\'', '"', '\\', 'a', 'b', 'f', 'r', 'n', 't', 'v'].contains first.value then
      rest
    else if first.value = 'N' ∧ startsWith ['\x7b'] rest then
      let inside := (rest.drop 1).takeWhile fun next => next.value != '\x7d'
      let behind := (rest.drop 1).drop inside.length
      if inside.isEmpty || behind.isEmpty then first :: rest else behind.drop 1
    else first :: rest

/-- What follows a backslash that stands for itself: a quote or backslash behind it is skipped, and
so is a line end. -/
def behindRawBackslash (mark : Char) (text : List Located) : List Located :=
  let behind := if headIs (fun next => next == mark || next == '\\') text then text.drop 1 else text
  if startsWith ['\r', '\n'] behind then behind.drop 2
  else if headIs (fun next => next == '\r' || next == '\n') behind then behind.drop 1
  else behind

/-- Reads the characters of a string. The flag tells whether a plain character was read since the
last escape or field; only then a line end breaks a string with single quotes. Every step takes a
character, so the length of the text bounds the steps. -/
def content (quote : Quote) : Nat → Bool → List Located → ContentEnd
  | 0, _, text => .broken text
  | _, _, [] => .broken []
  | steps + 1, started, first :: rest =>
    if quote.format && first.value = '\x7b' then
      if startsWith ['\x7b'] rest then content quote steps false (rest.drop 1) else .field rest
    else if quote.format && first.value = '\x7d' then
      if startsWith ['\x7d'] rest then content quote steps false (rest.drop 1)
      else .broken (first :: rest)
    else if first.value = '\\' then
      if quote.raw then content quote steps started (behindRawBackslash quote.mark rest)
      else content quote steps false (behindEscape rest)
    else if first.value = quote.mark then
      if !quote.triple then .closed rest
      else if startsWith [quote.mark, quote.mark] rest then .closed (rest.drop 2)
      else content quote steps true rest
    else if first.value = '\n' && started && !quote.triple then .broken (first :: rest)
    else content quote steps true rest

/-! ### Numbers -/

/-- The characters at the front that pass a test or separate digits. -/
def digitRun (test : Char → Bool) (text : List Located) : Nat :=
  if headIs test text then (text.takeWhile fun next => test next.value || next.value == '_').length
  else 0

/-- The length of an exponent, or zero. -/
def exponentLength (text : List Located) : Nat :=
  if headIs (fun next => next == 'e' || next == 'E') text then
    let sign := if headIs (fun next => next == '+' || next == '-') (text.drop 1) then 1 else 0
    let digits := digitRun Char.isDigit (text.drop (1 + sign))
    if digits = 0 then 0 else 1 + sign + digits
  else 0

/-- One more character if it passes the test. -/
def suffixLength (test : Char → Bool) (text : List Located) : Nat :=
  if headIs test text then 1 else 0

/-- The letter of an imaginary number. -/
def isImaginary (character : Char) : Bool :=
  character = 'j' || character = 'J'

/-- The letter of a long integer. -/
def isLong (character : Char) : Bool :=
  character = 'l' || character = 'L'

/-- The length of digits with a letter behind the leading zero that names their base. -/
def basedLength (text : List Located) : Nat :=
  let digits := fun test =>
    let count := digitRun test (text.drop 2)
    if count = 0 then 0 else 2 + count + suffixLength isLong (text.drop (2 + count))
  if startsWith ['0', 'x'] text || startsWith ['0', 'X'] text then
    digits fun next => next.isDigit || ('a' ≤ next.toLower && next.toLower ≤ 'f')
  else if startsWith ['0', 'o'] text || startsWith ['0', 'O'] text then
    digits fun next => '0' ≤ next && next ≤ '7'
  else if startsWith ['0', 'b'] text || startsWith ['0', 'B'] text then
    digits fun next => next == '0' || next == '1'
  else 0

/-- The length of the number at the front of a text, or zero. -/
def numberLength (text : List Located) : Nat :=
  let based := basedLength text
  let whole := digitRun Char.isDigit text
  if based ≠ 0 then based
  else if headIs (· == '.') (text.drop whole) then
    let places := digitRun Char.isDigit (text.drop (whole + 1))
    if whole = 0 ∧ places = 0 then 0
    else
      let length := whole + 1 + places
      let length := length + exponentLength (text.drop length)
      length + suffixLength isImaginary (text.drop length)
  else if whole = 0 then 0
  else
    let exponent := exponentLength (text.drop whole)
    let length := whole + exponent
    if exponent = 0 then
      length + suffixLength (fun next => isImaginary next || isLong next) (text.drop length)
    else length + suffixLength isImaginary (text.drop length)

/-! ### Signs -/

/-- The signs of more than one character, longer ones first. -/
def longSymbols : List String :=
  ["**=", "//=", ">>=", "<<=", "...", "**", "//", ">>", "<<", "<=", ">=", "==", "!=", "<>", "->",
    ":=", "+=", "-=", "*=", "/=", "%=", "&=", "|=", "^=", "@="]

/-- The signs of one character. -/
def shortSymbols : List Char :=
  ['+', '-', '*', '/', '%', '@', '&', '|', '^', '~', '<', '>', '(', ')', '[', ']', '\x7b', '\x7d',
    ',', ':', '.', ';', '=']

/-- The length of the sign at the front of a text, or zero. -/
def symbolLength (text : List Located) : Nat :=
  match longSymbols.find? fun symbol => startsWith symbol.toList text with
  | some symbol => symbol.length
  | none => if headIs (fun next => shortSymbols.contains next) text then 1 else 0

/-! ### The scanner -/

/-- What the scanner is inside of. -/
inductive Mode where
  /-- A string that may hold fields. -/
  | inFormat (quote : Quote)
  /-- A replacement field, below a number of open brackets. -/
  | inField (depth : Nat)
  /-- The format of a field. -/
  | inSpecification
  deriving DecidableEq, Repr

/-- The place of the first character of a text, or of its end. -/
def placeOf (total : Nat) (text : List Located) : Nat :=
  (text.head?.map Located.offset).getD total

/-- The line of the first character of a text, or of its end. -/
def lineOf (last : Nat) (text : List Located) : Nat :=
  (text.head?.map Located.line).getD last

/-- The token between two places of a text. -/
def makeToken (total last : Nat) (kind : TokenKind) (margin : Margin) (text rest : List Located) :
    Token :=
  let start := placeOf total text
  let stop := placeOf total rest
  let keep := kind == .word || kind == .symbol || kind == .conversion
  { kind
    text := if keep then String.ofList ((text.take (stop - start)).map Located.value) else ""
    line := lineOf last text
    start
    stop
    fresh := margin.fresh
    indent := margin.indent }

/-- What the token at the front of plain text is, and what follows it. -/
def plainToken (text : List Located) : TokenKind × List Located :=
  match openString? text with
  | some (quote, behind) =>
    if quote.format then (.formatOpen, behind)
    else match content quote behind.length false behind with
      | .closed rest => (.string, rest)
      | .field rest => (.illegal, rest)
      | .broken rest => (.illegal, rest)
  | none =>
    if headIs Text.beginsIdentifier text then
      (.word, text.dropWhile fun next => Text.continuesIdentifier next.value)
    else
      let number := numberLength text
      let symbol := symbolLength text
      if number ≠ 0 then (.number, text.drop number)
      else if symbol ≠ 0 then (.symbol, text.drop symbol)
      else (.illegal, text.drop 1)

/-- The kind of a sign inside a replacement field, and the modes behind it. -/
def fieldSymbol (symbol : String) (depth : Nat) (modes : List Mode) : TokenKind × List Mode :=
  if symbol = "(" ∨ symbol = "[" ∨ symbol = "\x7b" then (.symbol, .inField (depth + 1) :: modes)
  else if symbol = ")" ∨ symbol = "]" then (.symbol, .inField (depth - 1) :: modes)
  else if symbol = "\x7d" then
    if depth = 0 then (.fieldClose, modes) else (.symbol, .inField (depth - 1) :: modes)
  else if symbol = ":" ∧ depth = 0 then (.format, .inSpecification :: .inField 0 :: modes)
  else (.symbol, .inField depth :: modes)

/-- A conversion stands at the front of a text. -/
def atConversion (text : List Located) : Bool :=
  startsWith ['!'] text && headIs (fun next => 'a' ≤ next && next ≤ 'z') (text.drop 1)

/-- Cuts a text into tokens. Every step takes a character or closes a mode, so the length of the
text bounds the steps twice over. -/
def scan (total last : Nat) : Nat → List Mode → List Located → Margin → List Token
  | 0, _, text, margin =>
    [makeToken total last .finish { margin with fresh := true, indent := 0 } text text]
  | steps + 1, modes, text, margin =>
    let emit := fun kind start rest modes margin =>
      makeToken total last kind margin start rest ::
        scan total last steps modes rest ⟨false, 0, true⟩
    match modes with
    | .inFormat quote :: outer => match content quote text.length false text with
      | .closed rest => emit .formatClose rest rest outer ⟨false, 0, true⟩
      | .field rest => emit .fieldOpen text rest (.inField 0 :: modes) ⟨false, 0, true⟩
      | .broken rest => emit .illegal text rest [] ⟨false, 0, true⟩
    | .inSpecification :: outer =>
      let rest := text.dropWhile fun next => next.value != '\x7b' && next.value != '\x7d'
      if startsWith ['\x7b'] rest then
        emit .fieldOpen rest (rest.drop 1) (.inField 0 :: modes) ⟨false, 0, true⟩
      else if rest.isEmpty then emit .illegal rest rest [] ⟨false, 0, true⟩
      else emit .fieldClose rest (rest.drop 1) (outer.drop 1) ⟨false, 0, true⟩
    | _ =>
      let (margin, start) := skipMargin text.length margin text
      if start.isEmpty then
        [makeToken total last .finish { margin with fresh := true, indent := 0 } start start]
      else
        let (kind, rest) := plainToken start
        match modes with
        | .inField depth :: outer =>
          if depth = 0 ∧ atConversion start ∧ !startsWith ['!', '='] start then
            emit .conversion start (start.drop 2) modes margin
          else match kind with
            | .symbol =>
              let token := makeToken total last .symbol margin start rest
              let (kind, modes) := fieldSymbol token.text depth outer
              emit kind start rest modes margin
            | .formatOpen => match openString? start with
              | some (quote, behind) =>
                emit .formatOpen start behind (.inFormat quote :: modes) margin
              | none => emit .illegal start rest modes margin
            | _ => emit kind start rest modes margin
        | _ => match kind with
          | .formatOpen => match openString? start with
            | some (quote, behind) =>
              emit .formatOpen start behind (.inFormat quote :: modes) margin
            | none => emit .illegal start rest modes margin
          | _ => emit kind start rest modes margin

/-- The tokens of a source text. The last one marks the end. -/
def tokens (source : String) : List Token :=
  let characters := source.toList
  let last := 1 + characters.count '\n'
  scan characters.length last (2 * characters.length + 2) [] (locate 1 0 characters) ⟨true, 0, true⟩

end MigrationGuard.Python
