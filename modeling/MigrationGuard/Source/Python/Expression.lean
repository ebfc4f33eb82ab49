/-
This file holds the expressions of the Python grammar. Rules that contain
themselves are tied together at the end of the grammar: each rule is given the
rules for what stands inside it. An expression is read into the tree that a
workflow needs, together with whether a value can be assigned to it, as the
grammar refuses an assignment to anything else. Precedence of operators has no
part in it, since operands keep their order in the tree whatever binds them.
-/

import MigrationGuard.Source.Python.Parse

namespace MigrationGuard.Python

/-! ### Pieces -/

/-- What an expression was read as: its tree, and whether it can stand on the left of an assignment.
-/
structure Piece where
  tree : Tree
  /-- A value can be assigned to it. -/
  assignable : Bool
  deriving Inhabited

/-- An expression without parts, such as a number. -/
def Piece.leaf : Piece := ⟨.group [], false⟩

/-- An expression with parts that nothing can be assigned to. -/
def Piece.ofParts (parts : List Piece) : Piece :=
  ⟨.group (parts.map Piece.tree), false⟩

/-- A list of targets, if all its parts are targets. -/
def Piece.ofTargets (parts : List Piece) : Piece :=
  ⟨.group (parts.map Piece.tree), parts.all Piece.assignable⟩

/-- The rules for what stands inside a rule. -/
structure Rules where
  expression : Rule Piece
  /-- An expression that no condition may follow. -/
  unconditional : Rule Piece
  /-- An operand with its attributes, calls and subscripts. -/
  primary : Rule Piece
  /-- A pattern of a match. -/
  pattern : Rule Unit
  /-- The statements of a block. -/
  block : Rule (List Tree)

/-- The rules that read nothing, at the level that no text can reach. -/
def Rules.none : Rules := ⟨refuse, refuse, refuse, refuse, refuse⟩

/-! ### What may follow -/

/-- The signs that an operand can begin with. -/
def operandSymbols : List String :=
  ["(", "[", "\x7b", "...", "*", "+", "-", "~"]

/-- An operand is ahead on the same line. The given words begin none. -/
def operandAhead (others : List String) : Rule Bool := do
  if ← atLineEnd then return false
  let token ← peek
  match token.kind with
  | .number => return true
  | .string => return true
  | .formatOpen => return true
  | .word => return !others.contains token.text
  | .symbol => return operandSymbols.contains token.text
  | _ => return false

/-- A comprehension clause is ahead, be it asynchronous or not. -/
def atFor : Rule Bool := do
  if ← atWord "for" then return true
  if ← atWord "async" then secondIsWord ["for"] else return false

/-! ### Lists -/

/-- A value behind a star, or any other expression. A target stays one behind a star. -/
def starred (inner : Rules) : Rule Piece := do
  if ← trySymbol "*" then
    let piece ← inner.expression
    return ⟨.group [piece.tree], piece.assignable⟩
  else inner.expression

/-- Expressions with commas between them. A single one stands for itself. -/
def expressionList (inner : Rules) : Rule Piece := do
  let first ← inner.expression
  if ← atSymbol "," then
    let rest ← repeated do
      if ← trySymbol "," then
        if ← operandAhead [] then return some (← inner.expression) else return none
      else return none
    return Piece.ofTargets (first :: rest)
  else return first

/-- Targets of an assignment in a loop header, with commas between them. -/
def targets (inner : Rules) : Rule Piece := do
  let target := do
    let piece ← inner.primary
    if piece.assignable then return piece else refuse
  return Piece.ofTargets (← separated (operandAhead ["in"]) target)

/-- A yield expression: the word is ahead, and a value may be left out. -/
def yieldExpression (inner : Rules) : Rule Piece := do
  word "yield"
  if ← tryWord "from" then return Piece.ofParts [← inner.expression]
  if ← operandAhead [] then return Piece.ofParts [← expressionList inner] else return Piece.leaf

/-- A yield expression or a list of expressions. -/
def valueList (inner : Rules) : Rule Piece := do
  if ← atWord "yield" then yieldExpression inner else expressionList inner

/-! ### Comprehensions -/

/-- The clauses of a comprehension: loops, and conditions behind them. -/
def clauses (inner : Rules) : Rule (List Piece) := do
  let found ← repeated do
    if ← atFor then
      let _ ← tryWord "async"
      word "for"
      let target ← targets inner
      word "in"
      let sources ← separated (operandAhead ["for", "if", "async"]) inner.unconditional
      return some (target :: sources)
    else if ← tryWord "if" then return some [← inner.unconditional]
    else return none
  return found.flatten

/-- The loop of a comprehension whose body was read. -/
def comprehension (inner : Rules) (body : List Piece) : Rule Piece := do
  let rest ← clauses inner
  return ⟨.loop ((body ++ rest).map Piece.tree), false⟩

/-! ### Strings -/

/-- A replacement field. The format may hold fields itself, one level deep. -/
def field (inner : Rules) (formats : Rule (List Piece)) : Rule (List Piece) := do
  let _ ← take
  modify fun cursor => { cursor with enclosed := cursor.enclosed + 1 }
  let value ← valueList inner
  let _ ← trySymbol "="
  if ← atKind .conversion then
    let _ ← take
  let rest ← if ← atKind .format then do
      let _ ← take
      formats
    else pure []
  if ← atKind .fieldClose then
    let _ ← take
    modify fun cursor => { cursor with enclosed := cursor.enclosed - 1 }
    return value :: rest
  else refuse

/-- The fields within a number of levels of formats. -/
def fieldsWithin (inner : Rules) : Nat → Rule (List Piece)
  | 0 => return []
  | levels + 1 => do
    let found ← repeated do
      if ← atKind .fieldOpen then return some (← field inner (fieldsWithin inner levels))
      else return none
    return found.flatten

/-- One string with the expressions in its replacement fields. -/
def oneString (inner : Rules) : Rule (List Piece) := do
  let token ← take
  if token.kind = .string then return []
  let parts ← fieldsWithin inner 4
  if ← atKind .formatClose then
    let _ ← take
    return parts
  else refuse

/-- Strings that follow each other, which are one value. -/
def strings (inner : Rules) : Rule Piece := do
  let first ← oneString inner
  let rest ← repeated do
    if (← atKind .string) || (← atKind .formatOpen) then return some (← oneString inner)
    else return none
  return Piece.ofParts (first ++ rest.flatten)

/-! ### Brackets -/

/-- One element of a tuple, list or set, possibly spread out by a star. -/
def element (inner : Rules) : Rule Piece := do
  if ← atWord "yield" then yieldExpression inner else starred inner

/-- The elements behind a first one, each behind a comma. -/
def furtherElements (inner : Rules) : Rule (List Piece) :=
  repeated do
    if ← trySymbol "," then
      if ← operandAhead [] then return some (← element inner) else return none
    else return none

/-- What stands inside the brackets of a list or the parentheses of a tuple. -/
def elements (inner : Rules) (closing : String) : Rule Piece := do
  if ← atSymbol closing then return Piece.ofTargets []
  let first ← element inner
  if ← atFor then comprehension inner [first]
  else return Piece.ofTargets (first :: (← furtherElements inner))

/-- A pair of a dictionary or a spread dictionary. -/
def pair (inner : Rules) : Rule (List Piece) := do
  if ← trySymbol "**" then return [← inner.expression]
  let key ← inner.expression
  symbol ":"
  return [key, ← inner.expression]

/-- The entries of a dictionary behind a first one. -/
def furtherPairs (inner : Rules) : Rule (List Piece) := do
  let found ← repeated do
    if ← trySymbol "," then
      if (← operandAhead []) || (← atSymbol "**") then return some (← pair inner) else return none
    else return none
  return found.flatten

/-- What stands inside the braces of a dictionary or set. -/
def braced (inner : Rules) : Rule Piece := do
  if ← atSymbol "\x7d" then return Piece.leaf
  if ← atSymbol "**" then
    let first ← pair inner
    return Piece.ofParts (first ++ (← furtherPairs inner))
  let first ← element inner
  if ← trySymbol ":" then
    let value ← inner.expression
    if ← atFor then comprehension inner [first, value]
    else return Piece.ofParts (first :: value :: (← furtherPairs inner))
  else if ← atFor then comprehension inner [first]
  else return Piece.ofParts (first :: (← furtherElements inner))

/-! ### Calls and subscripts -/

/-- The words that are never the name of a keyword argument. -/
def expressionWords : List String :=
  ["None", "True", "False", "not", "lambda", "await"]

/-- One argument of a call, possibly with its name or spread out. -/
def argument (inner : Rules) : Rule Piece := do
  if ← tryAnySymbol ["*", "**"] then return Piece.ofParts [← inner.expression]
  let token ← peek
  if token.kind = .word && !expressionWords.contains token.text && (← secondIsSymbol "=") then
    let _ ← take
    symbol "="
    inner.expression
  else inner.expression

/-- The arguments of a call. A comprehension may stand alone. -/
def arguments (inner : Rules) : Rule (List Piece) :=
  enclosedBy "(" ")" do
    if ← atSymbol ")" then return []
    let first ← argument inner
    if ← atFor then return [← comprehension inner [first]]
    let rest ← repeated do
      if ← trySymbol "," then
        if (← operandAhead []) || (← atSymbol "**") then return some (← argument inner)
        else return none
      else return none
    return first :: rest

/-- A bound of a slice, if it is given. Every bound may be left out. -/
def bound (inner : Rules) : Rule (List Piece) := do
  if (← atSymbol ":") || (← atSymbol ",") || (← atSymbol "]") then return []
  else return [← inner.expression]

/-- One subscript: an expression or a slice. -/
def subscript (inner : Rules) : Rule (List Piece) := do
  let first ← if ← atSymbol ":" then pure [] else do
    let piece ← inner.expression
    pure [piece]
  if ← trySymbol ":" then
    let second ← bound inner
    let third ← if ← trySymbol ":" then bound inner else pure []
    return first ++ second ++ third
  else return first

/-- The subscripts between brackets, one of them at least. -/
def subscripts (inner : Rules) : Rule (List Piece) :=
  enclosedBy "[" "]" do
    let continues := do
      if ← atSymbol ":" then return true else operandAhead []
    return (← separated continues (subscript inner)).flatten

/-! ### Parameters -/

/-- The end of a parameter list is ahead. -/
def atParametersEnd : Rule Bool := do
  return (← atSymbol ")") || (← atSymbol ":")

/-- The type behind a colon, where types are allowed. -/
def typeBehindColon (inner : Rules) (typed : Bool) : Rule (List Piece) := do
  if !typed then return []
  if ← trySymbol ":" then return [← starred inner] else return []

/-- The default behind an equals sign. -/
def defaultValue (inner : Rules) : Rule (List Piece) := do
  if ← trySymbol "=" then return [← inner.expression] else return []

/-- One parameter with its type and its default, as far as they are given. -/
def parameter (inner : Rules) (typed : Bool) : Rule (List Piece) := do
  if ← trySymbol "/" then return []
  if ← tryAnySymbol ["*", "**"] then
    if (← atSymbol ",") || (← atParametersEnd) then return []
    let target ← inner.primary
    if target.assignable then return target :: (← typeBehindColon inner typed) else refuse
  if ← atSymbol "(" then
    let parts ← enclosedBy "(" ")" (elements inner ")")
    if parts.assignable then return parts :: (← defaultValue inner) else refuse
  let _ ← name
  let annotation ← typeBehindColon inner typed
  return annotation ++ (← defaultValue inner)

/-- The parameters up to their end, which depends on what they belong to. -/
def parameters (inner : Rules) (typed : Bool) : Rule (List Piece) := do
  if ← atParametersEnd then return []
  let continues := do return !(← atParametersEnd)
  return (← separated continues (parameter inner typed)).flatten

/-! ### Operands and operators -/

/-- An operand without what may follow it: a name, a constant, a string or brackets. -/
def atom (inner : Rules) : Rule Piece := do
  let token ← peekOperand
  match token.kind with
  | .number =>
    let _ ← take
    return Piece.leaf
  | .string => strings inner
  | .formatOpen => strings inner
  | .word =>
    let _ ← take
    if ["None", "True", "False"].contains token.text then return Piece.leaf
    else return ⟨.identifier token.text, true⟩
  | .symbol =>
    match token.text with
    | "(" =>
      modify fun cursor => { cursor with enclosed := cursor.enclosed + 1 }
      let _ ← take
      let inside ← elements inner ")"
      symbol ")"
      modify fun cursor => { cursor with enclosed := cursor.enclosed - 1 }
      return ⟨.group [inside.tree], inside.assignable⟩
    | "[" =>
      modify fun cursor => { cursor with enclosed := cursor.enclosed + 1 }
      let _ ← take
      let inside ← elements inner "]"
      symbol "]"
      modify fun cursor => { cursor with enclosed := cursor.enclosed - 1 }
      return inside
    | "\x7b" =>
      modify fun cursor => { cursor with enclosed := cursor.enclosed + 1 }
      let _ ← take
      let inside ← braced inner
      symbol "\x7d"
      modify fun cursor => { cursor with enclosed := cursor.enclosed - 1 }
      return inside
    | "..." =>
      let _ ← take
      return Piece.leaf
    | "*" =>
      let _ ← take
      let target ← inner.primary
      if target.assignable then return ⟨.group [target.tree], true⟩ else refuse
    | _ => refuse
  | _ => refuse

/-- What may follow an operand: an attribute, a call or a subscript. -/
def suffix (inner : Rules) : Rule (Option (Piece → Piece)) := do
  if ← trySymbol "." then
    let title ← name
    return some fun object => ⟨.attribute object.tree title, true⟩
  else if ← atSymbol "(" then
    let given ← arguments inner
    return some fun function => ⟨.call function.tree (given.map Piece.tree), false⟩
  else if ← atSymbol "[" then
    let given ← subscripts inner
    return some fun object => ⟨.group (object.tree :: given.map Piece.tree), true⟩
  else return none

/-- The words that are operators behind an operand. -/
def operatorWords : List String :=
  ["and", "or", "not", "in", "is", "if", "else", "for", "as", "async", "from"]

/-- The word for waiting is ahead, and an operand behind it. -/
def atAwait : Rule Bool := do
  let token ← peekOperand
  if token.kind = .word && token.text == "await" then
    wouldRead do
      let _ ← take
      if ← operandAhead operatorWords then return () else refuse
  else return false

/-- An operand with all that follows it: attributes, calls and subscripts. -/
def primary (inner : Rules) : Rule Piece := do
  if ← atAwait then
    let _ ← take
    return ⟨.group [(← inner.primary).tree], false⟩
  else
    let first ← atom inner
    let suffixes ← repeated (suffix inner)
    return suffixes.foldl (fun piece follow => follow piece) first

/-- An operand with the signs before it, which change nothing in its tree. -/
def operand (inner : Rules) : Rule Piece := do
  let signs ← repeated do
    let token ← peekOperand
    if token.kind = .symbol && ["+", "-", "~"].contains token.text then return some (← take)
    else return none
  let piece ← primary inner
  if signs.isEmpty then return piece else return Piece.ofParts [piece]

/-- Operands with operators between them. A single one stands for itself. -/
def chain (operand : Rule Piece) (operator : Rule Bool) : Rule Piece := do
  let first ← operand
  let rest ← repeated do
    if ← operator then return some (← operand) else return none
  if rest.isEmpty then return first else return Piece.ofParts (first :: rest)

/-- The operators of arithmetic and of bits. -/
def arithmeticSymbols : List String :=
  ["+", "-", "*", "/", "%", "//", "**", "|", "&", "^", "<<", ">>", "@"]

/-- Takes an operator that compares, which may consist of two words. -/
def comparison : Rule Bool := do
  if ← tryAnySymbol ["<", "<=", "==", "!=", ">=", ">", "<>"] then return true
  if ← tryWord "in" then return true
  if ← tryWord "is" then
    let _ ← tryWord "not"
    return true
  if (← atWord "not") && (← secondIsWord ["in"]) then
    let _ ← take
    let _ ← take
    return true
  return false

/-- A function without a name: the word is ahead. The rule is that of its body. -/
def anonymous (inner : Rules) (body : Rule Piece) : Rule Piece := do
  let _ ← take
  let given ← parameters inner false
  symbol ":"
  return Piece.ofParts (given ++ [← body])

/-- A negation, a comparison or a function without a name. -/
def negation (inner : Rules) (body : Rule Piece) : Rule Piece := do
  let signs ← repeated do
    let token ← peekOperand
    if token.kind = .word && token.text == "not" then return some (← take) else return none
  let token ← peekOperand
  let piece ← if token.kind = .word && token.text == "lambda" then anonymous inner body
    else chain (chain (operand inner) (tryAnySymbol arithmeticSymbols)) comparison
  if signs.isEmpty then return piece else return Piece.ofParts [piece]

/-- An expression without a condition behind it, the body of a nameless function included. -/
def simpleExpression (inner : Rules) (body : Rule Piece) : Rule Piece := do
  let token ← peekOperand
  if token.kind = .word && !(["None", "True", "False"].contains token.text) &&
      (← secondIsSymbol ":=") then
    let _ ← take
    symbol ":="
    return Piece.ofParts [← body]
  else
    chain (negation inner body) do
      if ← tryWord "and" then return true else tryWord "or"

/-- The name behind an expression, if one follows, as in the head of a block. -/
def withAlias (inner : Rules) (piece : Piece) : Rule Piece := do
  let aliases ← repeated do
    if ← tryWord "as" then return some (← inner.unconditional) else return none
  if aliases.isEmpty then return piece else return Piece.ofParts (piece :: aliases)

/-- An expression that no condition may follow. -/
def unconditional (inner : Rules) : Rule Piece := do
  withAlias inner (← simpleExpression inner inner.unconditional)

/-- An expression, with the condition and the other value behind it if they follow. -/
def expression (inner : Rules) : Rule Piece := do
  let piece ← simpleExpression inner inner.expression
  if ← tryWord "if" then
    let condition ← inner.expression
    word "else"
    let other ← inner.expression
    withAlias inner ⟨.branch [piece.tree, condition.tree, other.tree], false⟩
  else withAlias inner piece

end MigrationGuard.Python
