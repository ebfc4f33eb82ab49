/-
This file reads source text line by line, for files that do not follow the
grammar. A line that begins a definition opens a region: the lines below it that
are indented deeper, within a window. The calls and effects on the lines of the
region are those of the function. Comments are cut off first, and a number sign
inside quotes begins no comment. Regions may lie inside of one another, and then a
line belongs to all of them. Nothing but ASCII letters, digits and underscores
makes a name here, and a name counts as called if a parenthesis stands behind it.
-/

import MigrationGuard.Source.CallEffects
import MigrationGuard.Source.Module

namespace MigrationGuard.LineScanner

/-! ### Comments -/

/-- The part of a line before its comment. The first argument is the quote that is open, if any,
the second tells whether the character before was a backslash inside quotes. -/
def codeFrom : Option Char → Bool → List Char → List Char
  | _, _, [] => []
  | some quote, true, character :: rest => character :: codeFrom (some quote) false rest
  | some quote, false, character :: rest =>
    if character = '\\' then character :: codeFrom (some quote) true rest
    else if character = quote then character :: codeFrom none false rest
    else character :: codeFrom (some quote) false rest
  | none, _, character :: rest =>
    if character = '"' ∨ character = '\'' then character :: codeFrom (some character) false rest
    else if character = '#' then []
    else character :: codeFrom none false rest

/-- The part of a line before its comment. The line stays as it is if it has none. -/
def stripComment (line : List Char) : List Char :=
  codeFrom none false line

/-! ### Indentation -/

/-- A blank that indents a line, and the only kind of blank between names and parentheses. -/
def isIndent (character : Char) : Bool :=
  character = ' ' || character = '\t'

/-- The width of the indentation. A tab is four wide. -/
def indentation (line : List Char) : Nat :=
  (line.takeWhile isIndent).foldl
    (fun width character => if character = '\t' then width + 4 else width + 1) 0

/-! ### Names and calls -/

/-- A character that a name can begin with. Names are ASCII here. -/
def beginsName (character : Char) : Bool :=
  character.isAlpha || character = '_'

/-- A character that a name can go on with, behind one that it can begin with. -/
def continuesName (character : Char) : Bool :=
  character.isAlphanum || character = '_'

/-- The longest dotted name at the front of a text, given backwards, and what follows. The part of the
name that has been read comes first. A dot goes on with it only where a name begins behind the
dot. -/
def dottedName : List Char → List Char → List Char × List Char
  | reversed, [] => (reversed, [])
  | reversed, [character] =>
    if continuesName character then (character :: reversed, []) else (reversed, [character])
  | reversed, character :: next :: rest =>
    if continuesName character then dottedName (character :: reversed) (next :: rest)
    else if character = '.' ∧ beginsName next then dottedName (next :: '.' :: reversed) rest
    else (reversed, character :: next :: rest)

/-- The dotted names that stand before an opening parenthesis, in order. Every step takes a
character, so the length of the text bounds the steps. -/
def calleesWithin : Nat → List Char → List String
  | 0, _ => []
  | _, [] => []
  | steps + 1, character :: rest =>
    if beginsName character then
      let (reversed, behind) := dottedName [character] rest
      match behind.dropWhile isIndent with
      | '(' :: others => String.ofList reversed.reverse :: calleesWithin steps others
      | _ => calleesWithin steps behind
    else calleesWithin steps rest

/-- The words that are no calls, although a parenthesis may follow them. -/
def keywords : List String :=
  ["and", "assert", "await", "class", "def", "del", "elif", "except", "exec", "for", "from", "if",
    "import", "in", "is", "lambda", "not", "or", "print", "raise", "return", "while", "with",
    "yield"]

/-! ### Definitions -/

/-- The beginning of a definition, as far as one line shows it. -/
structure Header where
  /-- The width of its indentation. -/
  indent : Nat
  /-- The name that is defined. -/
  name : String
  /-- The text of the parameters as far as the line shows them. -/
  parameters : String
  deriving DecidableEq, Repr

/-- What follows a word with at least one blank behind it. -/
def behindWord? (word : String) (text : List Char) : Option (List Char) :=
  if word.toList.isPrefixOf text then
    let rest := text.drop word.length
    if (rest.head?.map isIndent).getD false then some (rest.dropWhile isIndent) else none
  else none

/-- The parameters at the front of a text: up to the first closing parenthesis, or to the end of the
line where there is none. -/
def parameterText (text : List Char) : String :=
  match text with
  | '(' :: rest =>
    let inside := rest.takeWhile (· ≠ ')')
    let close := (rest.dropWhile (· ≠ ')')).take 1
    Text.collapse (String.ofList ('(' :: inside ++ close))
  | _ => "()"

/-- The definition that a line begins, if it begins one. It may be marked as asynchronous. -/
def header? (line : List Char) : Option Header := do
  let text := line.dropWhile isIndent
  let afterAsync := (behindWord? "async" text).getD text
  let afterDef ← behindWord? "def" afterAsync
  let first ← afterDef.head?
  if beginsName first then
    let name := afterDef.takeWhile continuesName
    let rest := (afterDef.dropWhile continuesName).dropWhile isIndent
    some ⟨indentation (line.takeWhile isIndent), String.ofList name, parameterText rest⟩
  else none

/-! ### Regions -/

/-- What has been read of a region, on top of which the next line is read. -/
structure Body where
  /-- The calls, in the order of the text. -/
  calls : List CallSite
  /-- The side effects that a call or a mention told. -/
  effects : EffectSet

namespace Body

/-- Nothing has been read, as it is before the first line of a region. -/
def empty : Body := ⟨[], .empty⟩

/-- Adds a name that stands before a parenthesis, unless it is no call. -/
def addCall (body : Body) (callee : String) : Body :=
  if keywords.contains callee then body
  else ⟨body.calls ++ [⟨callee, .direct⟩], body.effects.union (classifyCall callee)⟩

/-- Notes that the environment is read, if a line mentions it. -/
def addMention (body : Body) (code : List Char) : Body :=
  if Text.occursIn "os.environ".toList code then
    { body with effects := body.effects.union environmentRead }
  else body

/-- Adds what the code of a line holds: the mention of the environment and the calls. -/
def addLine (body : Body) (code : List Char) : Body :=
  (calleesWithin code.length code).foldl addCall (body.addMention code)

/-- Reads on, as many lines as the window has left. A line without code is passed over, and one that
is indented no deeper than the definition ends the region. -/
def readLines (indent : Nat) : Nat → Body → List (List Char) → Body
  | 0, body, _ => body
  | _, body, [] => body
  | left + 1, body, line :: below =>
    let code := stripComment line
    if code.all Text.isBlank then readLines indent left body below
    else if indentation code ≤ indent then body
    else readLines indent left (body.addLine code) below

end Body

/-- The definitions of a list of lines, the first of which has the given number. -/
def definitions (window : Nat) : Nat → List (List Char) → List ExtractedFunction
  | _, [] => []
  | number, line :: below => match header? line with
    | some header =>
      let body := Body.readLines header.indent (max window 1) .empty below
      { name := header.name
        line := number
        signature := "def " ++ header.name ++ header.parameters
        calls := body.calls
        effects := body.effects } ::
        definitions window (number + 1) below
    | none => definitions window (number + 1) below

/-- Reads the functions of a source text. The definitions of one name are one function. -/
def extract (window : Nat) (module source : String) : ExtractedModule :=
  ⟨module, mergeFunctions (definitions window 1 (Text.lines source.toList))⟩

end MigrationGuard.LineScanner
