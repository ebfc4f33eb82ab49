/-
This file holds the statements of the Python grammar, ties all rules together and
reads whole source texts. Reading is generous where no structure depends on it: an
empty block is a block, and a keyword out of place is a name. Statements of older
programs are read as well. A block belongs to the statement that is indented less,
and its trees become parts of the tree of that statement, as a loop, a branch, a
definition or a group. The rules are tied together level by level, and since
whatever contains itself takes a token, there are as many levels as tokens.
-/

import MigrationGuard.Source.Python.Expression

namespace MigrationGuard.Python

/-! ### Patterns of a match -/

/-- Patterns with commas between them, up to a closing sign. -/
def patternsUpTo (inner : Rules) (closing : String) : Rule Unit := do
  if ← atSymbol closing then return ()
  let _ ← separated (do return !(← atSymbol closing)) inner.pattern

/-- A name with dots in it, as modules have them. -/
def dottedName : Rule Unit := do
  let _ ← name
  let _ ← repeated do
    if ← trySymbol "." then return some (← name) else return none

/-- A number with an optional sign, or the sum of two. -/
def numberPattern : Rule Unit := do
  let _ ← trySymbol "-"
  if ← atKind .number then
    let _ ← take
  else refuse
  if ← tryAnySymbol ["+", "-"] then
    if ← atKind .number then
      let _ ← take
    else refuse

/-- One entry of a dictionary pattern. -/
def entryPattern (inner : Rules) : Rule Unit := do
  inner.pattern
  if ← trySymbol ":" then inner.pattern

/-- A pattern without alternatives: a value, a name, or patterns inside brackets. -/
def plainPattern (inner : Rules) : Rule Unit := do
  let token ← peekOperand
  match token.kind with
  | .number => numberPattern
  | .string =>
    let _ ← strings inner
  | .formatOpen =>
    let _ ← strings inner
  | .word =>
    dottedName
    if ← atSymbol "(" then enclosedBy "(" ")" (patternsUpTo inner ")")
  | .symbol =>
    match token.text with
    | "-" => numberPattern
    | "(" => enclosedBy "(" ")" (patternsUpTo inner ")")
    | "[" => enclosedBy "[" "]" (patternsUpTo inner "]")
    | "\x7b" => enclosedBy "\x7b" "\x7d" do
      if ← atSymbol "\x7d" then return ()
      let _ ← separated (do return !(← atSymbol "\x7d")) (entryPattern inner)
    | "*" =>
      let _ ← take
      let _ ← name
    | "**" =>
      let _ ← take
      let _ ← name
    | _ => refuse
  | _ => refuse

/-- A pattern: alternatives, possibly with a name, or a keyword with its pattern. -/
def pattern (inner : Rules) : Rule Unit := do
  let token ← peekOperand
  if token.kind = .word && (← secondIsSymbol "=") then
    let _ ← take
    symbol "="
    plainPattern inner
  else
    plainPattern inner
    let _ ← repeated do
      if ← trySymbol "|" then
        plainPattern inner
        return some ()
      else return none
    if ← tryWord "as" then
      let _ ← name

/-! ### Imports -/

/-- A name with dots in it, possibly with another name. -/
def importedName : Rule Unit := do
  dottedName
  if ← tryWord "as" then
    let _ ← name

/-- Imported names with commas between them. -/
def importedNames : Rule Unit := do
  let _ ← separated (operandAhead []) importedName

/-- An import: the first word is ahead. -/
def importStatement : Rule Unit := do
  word "import"
  importedNames

/-- An import out of a module: the first word is ahead. -/
def importFromStatement : Rule Unit := do
  word "from"
  let dots ← repeated do
    if ← tryAnySymbol [".", "..."] then return some () else return none
  if dots.isEmpty || !(← atWord "import") then dottedName
  word "import"
  if ← trySymbol "*" then return ()
  if ← atSymbol "(" then enclosedBy "(" ")" importedNames else importedNames

/-! ### Simple statements -/

/-- The operators that assign the result of an operation. -/
def assigningSymbols : List String :=
  ["+=", "-=", "*=", "/=", "@=", "//=", "%=", "**=", ">>=", "<<=", "&=", "^=", "|="]

/-- The assignments behind a first target, as long as further ones follow. Every value but the last
is a target itself. Every assignment takes a sign, so the tokens ahead bound the steps. -/
def assignments (inner : Rules) : Nat → Piece → Rule (List Piece)
  | 0, target => return [target]
  | steps + 1, target => do
    let isAssigned := (← atSymbol "=") || (← atSymbol ":")
    if isAssigned && !target.assignable then refuse
    if ← trySymbol "=" then
      return target :: (← assignments inner steps (← valueList inner))
    else if ← trySymbol ":" then
      let annotation ← starred inner
      if ← trySymbol "=" then
        return target :: annotation :: (← assignments inner steps (← valueList inner))
      else return [target, annotation]
    else if ← tryAnySymbol assigningSymbols then
      if target.assignable then
        return target :: (← assignments inner steps (← valueList inner))
      else refuse
    else return [target]

/-- An expression or an assignment, of which there may be several in a chain. -/
def expressionStatement (inner : Rules) : Rule (List Tree) := do
  let first ← valueList inner
  let steps := (← get).tokens.length
  return (← assignments inner steps first).map Piece.tree

/-- A simple statement ends here, at a line end or before a semicolon. -/
def statementEnd : Rule Unit := do
  if (← atLineEnd) || (← atSymbol ";") then return () else refuse

/-- A statement that prints, as older programs write it: the word is ahead. -/
def printStatement (inner : Rules) : Rule (List Tree) := do
  let _ ← take
  if ← trySymbol ">>" then
    let first ← inner.expression
    let rest ← repeated do
      if ← trySymbol "," then
        if ← operandAhead [] then return some (← inner.expression) else return none
      else return none
    return (first :: rest).map Piece.tree
  else return (← separated (operandAhead []) inner.expression).map Piece.tree

/-- A statement that runs a text, as older programs write it: the word is ahead. -/
def execStatement (inner : Rules) : Rule (List Tree) := do
  let _ ← take
  let code ← if (← atKind .string) || (← atKind .formatOpen) then strings inner else do
    let _ ← name
    pure Piece.leaf
  let scopes ← if ← tryWord "in" then commaSeparated inner.expression else pure []
  return (code :: scopes).map Piece.tree

/-- The name of a type: the word is ahead, and a name behind it. -/
def typeStatement (inner : Rules) : Rule (List Tree) := do
  let _ ← take
  let left ← inner.primary
  symbol "="
  return [left.tree, (← inner.expression).tree]

/-- Values that may be left out, behind the word of a statement. -/
def optionalValues (inner : Rules) (others : List String) : Rule (List Tree) := do
  if ← operandAhead others then return [(← expressionList inner).tree] else return []

/-- A statement without a block, told by its first word if it has one. -/
def simpleStatement (inner : Rules) : Rule (List Tree) := do
  let token ← peek
  let ended := do
    let trees ← expressionStatement inner
    statementEnd
    return trees
  if token.kind = .word then
    match token.text with
    | "import" =>
      importStatement
      return []
    | "from" =>
      importFromStatement
      return []
    | "return" =>
      let _ ← take
      optionalValues inner []
    | "del" =>
      let _ ← take
      return [(← expressionList inner).tree]
    | "raise" =>
      let _ ← take
      let values ← optionalValues inner ["from"]
      if ← tryWord "from" then return values ++ [(← inner.expression).tree] else return values
    | "pass" =>
      let _ ← take
      return []
    | "break" =>
      let _ ← take
      return []
    | "continue" =>
      let _ ← take
      return []
    | "global" =>
      let _ ← take
      let _ ← commaSeparated name
      return []
    | "nonlocal" =>
      let _ ← take
      let _ ← commaSeparated name
      return []
    | "assert" =>
      let _ ← take
      return (← commaSeparated inner.expression).map Piece.tree
    | "print" => orElse ended (printStatement inner)
    | "exec" => orElse ended (execStatement inner)
    | "type" => orElse ended (typeStatement inner)
    | _ => expressionStatement inner
  else expressionStatement inner

/-- The statements on one line, with semicolons between them. -/
def simpleStatements (inner : Rules) : Rule (List Tree) := do
  beginStatement
  let first ← simpleStatement inner
  let rest ← repeated do
    if ← trySymbol ";" then
      if ← atLineEnd then return none
      beginStatement
      return some (← simpleStatement inner)
    else return none
  if ← atLineEnd then return first ++ rest.flatten else refuse

/-! ### Blocks and clauses -/

/-- Reads a block with its own indentation, which is forgotten behind the block. -/
def indentedBy {α : Type} (indent : Nat) (rule : Rule α) : Rule α := do
  let outer := (← get).indent
  modify fun cursor => { cursor with indent }
  let result ← rule
  modify fun cursor => { cursor with indent := outer }
  return result

/-- What follows a colon: statements on the same line, an indented block, or nothing. -/
def suite (inner : Rules) : Rule (List Tree) := do
  symbol ":"
  if ← atLineEnd then
    let token ← peek
    if (← get).indent < token.indent then indentedBy token.indent inner.block else return []
  else simpleStatements inner

/-- Takes the word of a clause that goes on with the statement before. -/
def tryClause (word : String) : Rule Bool := do
  if ← atBlockEnd then return false
  let token ← peek
  if token.kind = .word && token.text == word then
    beginStatement
    let _ ← take
    return true
  else return false

/-- The block behind a clause without further parts, if the clause follows. -/
def optionalClause (inner : Rules) (word : String) : Rule (List Tree) := do
  if ← tryClause word then suite inner else return []

/-! ### Compound statements -/

/-- A condition with its blocks: the first word is ahead. -/
def ifStatement (inner : Rules) : Rule Tree := do
  let _ ← take
  let condition ← inner.expression
  let body ← suite inner
  let others ← repeated do
    if ← tryClause "elif" then
      let condition ← inner.expression
      return some (condition.tree :: (← suite inner))
    else return none
  let otherwise ← optionalClause inner "else"
  return .branch (condition.tree :: body ++ others.flatten ++ otherwise)

/-- A loop over a condition: the first word is ahead. -/
def whileStatement (inner : Rules) : Rule Tree := do
  let _ ← take
  let condition ← inner.expression
  let body ← suite inner
  let otherwise ← optionalClause inner "else"
  return .loop (condition.tree :: body ++ otherwise)

/-- A loop over values: the first word is ahead. -/
def forStatement (inner : Rules) : Rule Tree := do
  let _ ← take
  let target ← targets inner
  word "in"
  let values ← expressionList inner
  let body ← suite inner
  let otherwise ← optionalClause inner "else"
  return .loop (target.tree :: values.tree :: body ++ otherwise)

/-- One handler of a try statement, with what it handles and its name. -/
def handler (inner : Rules) : Rule (List Tree) := do
  let _ ← trySymbol "*"
  let first ← if ← atSymbol ":" then pure [] else do
    let piece ← inner.expression
    pure [piece.tree]
  let second ← if ← trySymbol "," then do
      let piece ← inner.expression
      pure [piece.tree]
    else pure []
  return first ++ second ++ (← suite inner)

/-- Statements with handlers: the first word is ahead. A handler or a final block has to follow. -/
def tryStatement (inner : Rules) : Rule Tree := do
  let _ ← take
  let body ← suite inner
  let handlers ← repeated do
    if ← tryClause "except" then return some (← handler inner) else return none
  let otherwise ← if handlers.isEmpty then pure [] else optionalClause inner "else"
  if ← tryClause "finally" then
    return .branch (body ++ handlers.flatten ++ otherwise ++ (← suite inner))
  else if handlers.isEmpty then refuse
  else return .branch (body ++ handlers.flatten ++ otherwise)

/-- Statements with open resources: the first word is ahead. -/
def withStatement (inner : Rules) : Rule Tree := do
  let _ ← take
  let items ← separated (operandAhead []) inner.expression
  return .group (items.map Piece.tree ++ (← suite inner))

/-- The types between the brackets behind a name. -/
def typeParameters (inner : Rules) : Rule (List Piece) := do
  let one := do
    let _ ← tryAnySymbol ["*", "**"]
    let first ← inner.expression
    let constraint ← if ← trySymbol ":" then do
        let piece ← inner.expression
        pure [piece]
      else pure []
    return first :: constraint ++ (← defaultValue inner)
  if ← atSymbol "[" then
    enclosedBy "[" "]" do return (← separated (operandAhead []) one).flatten
  else return []

/-- A function definition: the first word is ahead. -/
def functionDefinition (inner : Rules) : Rule Tree := do
  let line := (← peek).line
  let _ ← tryWord "async"
  word "def"
  let title ← name
  let types ← typeParameters inner
  let (given, givenText) ← textOf (enclosedBy "(" ")" (parameters inner true))
  let (result, resultText) ← if ← trySymbol "->" then do
      let (piece, text) ← textOf (starred inner)
      pure ([piece], " -> " ++ text)
    else pure ([], "")
  let body ← suite inner
  return .definition title line ("def " ++ title ++ givenText ++ resultText)
    ((types ++ given ++ result).map Piece.tree ++ body)

/-- A class definition: the first word is ahead. -/
def classDefinition (inner : Rules) : Rule Tree := do
  let _ ← take
  let _ ← name
  let types ← typeParameters inner
  let bases ← if ← atSymbol "(" then arguments inner else pure []
  return .group ((types ++ bases).map Piece.tree ++ (← suite inner))

/-- A definition behind its decorators, which belong to what is around it. -/
def decorated (inner : Rules) : Rule Tree := do
  let decorators ← repeated do
    let token ← peek
    if token.kind = .symbol && token.text == "@" && !(← atBlockEnd) then
      beginStatement
      let _ ← take
      let piece ← inner.expression
      if ← atLineEnd then return some piece.tree else refuse
    else return none
  if ← atBlockEnd then refuse
  beginStatement
  let token ← peek
  if token.kind = .word then
    let definition ← match token.text with
      | "class" => classDefinition inner
      | "def" => functionDefinition inner
      | "async" => functionDefinition inner
      | _ => refuse
    return .group (decorators ++ [definition])
  else refuse

/-- The line that opens a match: the first word is ahead. -/
def matchHeader (inner : Rules) : Rule (List Piece) := do
  let _ ← take
  let subjects ← separated (operandAhead []) inner.expression
  symbol ":"
  if ← atLineEnd then return subjects else refuse

/-- One case of a match: its patterns, its guard and its block. -/
def caseClause (inner : Rules) : Rule (List Tree) := do
  let _ ← separated (do return !((← atSymbol ":") || (← atWord "if"))) inner.pattern
  let guard ← if ← tryWord "if" then do
      let piece ← inner.unconditional
      pure [piece.tree]
    else pure []
  return guard ++ (← suite inner)

/-- A match with its cases: the first word is ahead. -/
def matchStatement (inner : Rules) : Rule Tree := do
  let subjects ← matchHeader inner
  let token ← peek
  let cases ← if (← get).indent < token.indent then
      indentedBy token.indent do
        let found ← repeated do
          if ← tryClause "case" then return some (← caseClause inner) else return none
        if ← atBlockEnd then return found.flatten else refuse
    else pure []
  return .branch (subjects.map Piece.tree ++ cases)

/-- A statement, with or without a block, told by its first word. -/
def statement (inner : Rules) : Rule Tree := do
  beginStatement
  let token ← peek
  let simple := do return Tree.group (← simpleStatements inner)
  if token.kind = .word then
    match token.text with
    | "if" => ifStatement inner
    | "while" => whileStatement inner
    | "for" => forStatement inner
    | "try" => tryStatement inner
    | "with" => withStatement inner
    | "def" => functionDefinition inner
    | "class" => classDefinition inner
    | "async" =>
      if ← secondIsWord ["def"] then functionDefinition inner
      else if ← secondIsWord ["for"] then
        let _ ← take
        forStatement inner
      else if ← secondIsWord ["with"] then
        let _ ← take
        withStatement inner
      else simple
    | "match" => if ← wouldRead (matchHeader inner) then matchStatement inner else simple
    | _ => simple
  else if token.kind = .symbol && token.text == "@" then decorated inner
  else simple

/-- The statements of a block, up to a line that is indented less. -/
def block (inner : Rules) : Rule (List Tree) :=
  repeated do
    if ← atBlockEnd then return none else return some (← statement inner)

/-- The statements of a whole text, up to its end. -/
def wholeText (inner : Rules) : Rule (List Tree) :=
  repeated do
    if (← peek).kind = .finish then return none else return some (← statement inner)

/-! ### Tying the rules together -/

/-- The rules within a number of levels, each given the rules of the level below. -/
def rulesWithin : Nat → Rules
  | 0 => Rules.none
  | levels + 1 =>
    let inner := rulesWithin levels
    ⟨expression inner, unconditional inner, primary inner, pattern inner, block inner⟩

/-- The tree of a source text. Whatever contains itself takes a token first, so the number of tokens
bounds the levels. -/
def parse (source : String) : Except SyntaxFault Tree :=
  let found := tokens source
  let cursor : Cursor := ⟨source.toList.toArray, found, 0, 0, 0, 1⟩
  match wholeText (rulesWithin (found.length + 2)) cursor with
  | .ok (trees, _) => .ok (.group trees)
  | .error fault => .error fault

/-- Reads the functions of a source text that follows the grammar. -/
def extract (module source : String) : Except SyntaxFault ExtractedModule :=
  (parse source).map fun tree => ⟨module, tree.functions⟩

end MigrationGuard.Python
