/-
This file holds the machinery of the Python grammar: a cursor over the tokens, the
fault that a text without a reading is refused with, and the ways in which rules
are put together. A line end outside brackets has a meaning only where a statement
may end; elsewhere it is a blank, as long as the next line is not indented less
than its block. A rule that is tried and fails leaves the cursor where it was.
Every repetition is bounded by the tokens that are left, so every text is read or
refused.
-/

import MigrationGuard.Source.Python.Token
import MigrationGuard.Source.Python.Tree

namespace MigrationGuard.Python

/-! ### Cursor and faults -/

/-- The line near which the source text follows the grammar no more. -/
structure SyntaxFault where
  /-- The line, counted from one. -/
  line : Nat
  deriving DecidableEq, Repr

/-- The report of a fault, with the line near which it lies. -/
def SyntaxFault.message (fault : SyntaxFault) : String :=
  "syntax error near line " ++ toString fault.line

/-- Where the grammar stands in the text, and what it has to remember there. -/
structure Cursor where
  /-- The characters of the text. -/
  source : Array Char
  /-- The tokens ahead. -/
  tokens : List Token
  /-- The place behind the last token that was taken. -/
  behind : Nat
  /-- The indentation of the innermost block. -/
  indent : Nat
  /-- The number of open brackets. -/
  enclosed : Nat
  statementLine : Nat

/-- A rule of the grammar reads what it stands for and moves on, or finds a fault. -/
abbrev Rule (α : Type) := StateT Cursor (Except SyntaxFault) α

/-- The token ahead, which at the end of the text is its mark. -/
def Cursor.head (cursor : Cursor) : Token :=
  cursor.tokens.headD default

/-- The bracket around the cursor is closed further on: going through the tokens, brackets are
counted until one closes that was not opened. -/
def closesLater : Nat → List Token → Bool
  | _, [] => false
  | depth, token :: rest =>
    if token.kind = .fieldOpen ∨
        (token.kind = .symbol ∧ ["(", "[", "\x7b"].contains token.text) then
      closesLater (depth + 1) rest
    else if token.kind = .fieldClose ∨
        (token.kind = .symbol ∧ [")", "]", "\x7d"].contains token.text) then
      if depth = 0 then true else closesLater (depth - 1) rest
    else closesLater depth rest

/-- The fault at the cursor. Inside brackets that are closed further on it is reported at the token
ahead, elsewhere at the statement. -/
def Cursor.fault (cursor : Cursor) : SyntaxFault :=
  if 0 < cursor.enclosed ∧ closesLater 0 cursor.tokens then ⟨cursor.head.line⟩
  else ⟨cursor.statementLine⟩

/-- No reading goes on from here, so the fault at the cursor is found. -/
def refuse {α : Type} : Rule α :=
  fun cursor => .error cursor.fault

/-- The token ahead, which stays where it is. -/
def peek : Rule Token :=
  fun cursor => .ok (cursor.head, cursor)

/-- Takes the token ahead and notes where it ended. -/
def take : Rule Token :=
  fun cursor => .ok (cursor.head,
    { cursor with tokens := cursor.tokens.drop 1, behind := cursor.head.stop })

/-- Reads a rule and gives the text that it took, its blanks collapsed. -/
def textOf {α : Type} (rule : Rule α) : Rule (α × String) := do
  let start := (← peek).start
  let result ← rule
  let cursor ← get
  return (result, Text.collapse (String.ofList (cursor.source.extract start cursor.behind).toList))

/-- A statement or clause begins with the token ahead: its line becomes that of the innermost
statement, and the line end before it has had its meaning. -/
def beginStatement : Rule Unit :=
  modify fun cursor =>
    { cursor with
      statementLine := cursor.head.line
      tokens := { cursor.head with fresh := false } :: cursor.tokens.drop 1 }

/-- A line ended before the token ahead, and no bracket is open. -/
def atLineEnd : Rule Bool :=
  fun cursor =>
    .ok (cursor.enclosed = 0 && (cursor.head.fresh || cursor.head.kind == .finish), cursor)

/-- The token ahead stands where a block has to end first. -/
def atBlockEnd : Rule Bool :=
  fun cursor => .ok (cursor.enclosed = 0 && cursor.head.fresh && cursor.head.indent < cursor.indent,
    cursor)

/-! ### Single tokens -/

/-- The token ahead is the given sign, on the same line. -/
def atSymbol (symbol : String) : Rule Bool := do
  if ← atLineEnd then return false
  let token ← peek
  return token.kind == .symbol && token.text == symbol

/-- The token ahead is the given word, on the same line. -/
def atWord (word : String) : Rule Bool := do
  if ← atLineEnd then return false
  let token ← peek
  return token.kind == .word && token.text == word

/-- The token ahead is of the given kind, on the same line. -/
def atKind (kind : TokenKind) : Rule Bool := do
  if ← atLineEnd then return false
  let token ← peek
  return token.kind == kind

/-- Takes the given sign if it is ahead. -/
def trySymbol (symbol : String) : Rule Bool := do
  if ← atSymbol symbol then
    let _ ← take
    return true
  else return false

/-- Takes the given word if it is ahead. -/
def tryWord (word : String) : Rule Bool := do
  if ← atWord word then
    let _ ← take
    return true
  else return false

/-- Takes the given sign, which has to be ahead. -/
def symbol (text : String) : Rule Unit := do
  if ← trySymbol text then return () else refuse

/-- Takes the given word, which has to be ahead. -/
def word (text : String) : Rule Unit := do
  if ← tryWord text then return () else refuse

/-- The token behind the one ahead is the given sign. -/
def secondIsSymbol (text : String) : Rule Bool :=
  fun cursor =>
    let second := (cursor.tokens.drop 1).headD default
    .ok (second.kind == .symbol && second.text == text, cursor)

/-- The token behind the one ahead is one of the given words. -/
def secondIsWord (words : List String) : Rule Bool :=
  fun cursor =>
    let second := (cursor.tokens.drop 1).headD default
    .ok (second.kind == .word && words.contains second.text, cursor)

/-- Takes the first of the given signs that is ahead. -/
def tryAnySymbol (texts : List String) : Rule Bool := do
  if ← atLineEnd then return false
  let token ← peek
  if token.kind == .symbol && texts.contains token.text then
    let _ ← take
    return true
  else return false

/-- The token ahead where an operand has to follow. A line end is a blank here, unless the block
ends with it. -/
def peekOperand : Rule Token := do
  if ← atBlockEnd then refuse else peek

/-- Takes a word where a name has to follow. -/
def name : Rule String := do
  let token ← peekOperand
  if token.kind = .word then
    let token ← take
    return token.text
  else refuse

/-- Reads the inside of brackets: the opening sign is ahead, and the closing one has to follow. -/
def enclosedBy {α : Type} (opening closing : String) (inside : Rule α) : Rule α := do
  symbol opening
  modify fun cursor => { cursor with enclosed := cursor.enclosed + 1 }
  let result ← inside
  symbol closing
  modify fun cursor => { cursor with enclosed := cursor.enclosed - 1 }
  return result

/-! ### Choice and repetition -/

/-- Reads the first rule, or the second one where the first finds a fault. -/
def orElse {α : Type} (first second : Rule α) : Rule α :=
  fun cursor => match first cursor with
    | .ok result => .ok result
    | .error _ => second cursor

/-- The rule would find no fault here. The cursor stays where it is. -/
def wouldRead {α : Type} (rule : Rule α) : Rule Bool :=
  fun cursor => match rule cursor with
    | .ok _ => .ok (true, cursor)
    | .error _ => .ok (false, cursor)

/-- Repeats a rule within a number of steps, until it reads nothing more. -/
def repeatWithin {α : Type} (rule : Rule (Option α)) : Nat → Rule (List α)
  | 0 => return []
  | steps + 1 => do
    match ← rule with
    | some result => return result :: (← repeatWithin rule steps)
    | none => return []

/-- Repeats a rule until it reads nothing more. A rule that reads something takes a token, so the
tokens ahead bound the steps. -/
def repeated {α : Type} (rule : Rule (Option α)) : Rule (List α) :=
  fun cursor => repeatWithin rule (cursor.tokens.length + 1) cursor

/-- Items with commas between them. A comma may stand behind the last one. -/
def separated {α : Type} (continues : Rule Bool) (item : Rule α) : Rule (List α) := do
  let first ← item
  let rest ← repeated do
    if ← trySymbol "," then
      if ← continues then return some (← item) else return none
    else return none
  return first :: rest

/-- Items with commas between them and none behind the last one. -/
def commaSeparated {α : Type} (item : Rule α) : Rule (List α) := do
  let first ← item
  let rest ← repeated do
    if ← trySymbol "," then return some (← item) else return none
  return first :: rest

end MigrationGuard.Python
