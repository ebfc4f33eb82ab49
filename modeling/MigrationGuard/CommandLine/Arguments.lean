/-
This file reads the arguments of a command line. A command has options, operands
or subcommands; the options for all commands may stand before and behind the
subcommand, and the innermost one counts. The value of an option is looked at only
when the next argument of the same command has been seen, so an unknown argument
behind a bad value is what is complained of. What a command needs is checked at
the end, the innermost command first. Asking for help or for the version wins over
what comes behind it, and is no mistake.
-/

import MigrationGuard.CommandLine.Command
import MigrationGuard.Decimal.Parse

namespace MigrationGuard

open Data

/-! ### Failures -/

/-- Why a command line is not obeyed. The first two ask for help or for the version, so they end
well. -/
inductive UsageFailure where
  | displayHelp
  | displayVersion
  | nothingGiven
  | missingSubcommand
  | invalidSubcommand
  /-- There is no such option, or no room for the operand. -/
  | unknownArgument
  /-- A needed option or operand is missing. -/
  | missingArgument
  /-- An option is given twice. -/
  | repeated
  /-- An option has no value, or a word that it does not know. -/
  | invalidValue
  /-- The value of an option cannot be read. -/
  | unreadableValue
  /-- A value is given to an option that takes none. -/
  | unneededValue
  deriving DecidableEq, Repr

instance : Named UsageFailure where
  noun := "usage failure"
  all := [.displayHelp, .displayVersion, .nothingGiven, .missingSubcommand, .invalidSubcommand,
    .unknownArgument, .missingArgument, .repeated, .invalidValue, .unreadableValue, .unneededValue]
  name
    | .displayHelp => "DisplayHelp"
    | .displayVersion => "DisplayVersion"
    | .nothingGiven => "DisplayHelpOnMissingArgumentOrSubcommand"
    | .missingSubcommand => "MissingSubcommand"
    | .invalidSubcommand => "InvalidSubcommand"
    | .unknownArgument => "UnknownArgument"
    | .missingArgument => "MissingRequiredArgument"
    | .repeated => "ArgumentConflict"
    | .invalidValue => "InvalidValue"
    | .unreadableValue => "ValueValidation"
    | .unneededValue => "TooManyValues"

/-- The exit code: asking for help or the version is no mistake, everything else is one. -/
def UsageFailure.exitCode : UsageFailure → Nat
  | .displayHelp => 0
  | .displayVersion => 0
  | _ => 2

/-! ### Values -/

/-- What an option takes. It decides which values are refused, and for what reason. -/
inductive OptionKind where
  /-- A path, which may not be empty. -/
  | path
  | text
  | logFormat
  | number
  /-- A count of thirty-two bits. -/
  | count
  /-- A collection of texts. -/
  | collection
  deriving DecidableEq, Repr

/-- The count that a text spells, with an optional sign, if it fits into thirty-two bits. -/
def shortCount? (text : String) : Option Nat :=
  match text.toList with
  | '+' :: digits => (Decimal.natural? digits).filter (· < Nat.pow 2 32)
  | '-' :: digits => (Decimal.natural? digits).filter (· == 0)
  | digits => (Decimal.natural? digits).filter (· < Nat.pow 2 32)

/-- The words for collections on the command line, each with the collection that it stands for. -/
def collectionWords : List (String × TextCollection) :=
  [("functions", .functions), ("drifts", .drifts), ("biz-logic", .rules), ("docs", .documents)]

/-- The fault of a value for an option, if it has one. Values without a fault are read later by what
uses them. -/
def OptionKind.fault? (kind : OptionKind) (value : String) : Option UsageFailure :=
  match kind with
  | .path => if value = "" then some .invalidValue else none
  | .text => none
  | .logFormat => if (LogFormat.read value).toBool then none else some .unreadableValue
  | .number => if (Decimal.float? value).isSome then none else some .unreadableValue
  | .count => if (shortCount? value).isSome then none else some .unreadableValue
  | .collection => if (collectionWords.lookup value).isSome then none else some .invalidValue

/-! ### Commands -/

/-- How many operands a command takes. One too many is complained of. -/
inductive Operands where
  | none
  | one
  | several
  deriving DecidableEq, Repr

/-- What a command understands: its options, operands and subcommands. -/
structure CommandShape where
  options : List (String × OptionKind) := []
  /-- The options that have to be given. -/
  required : List String := []
  operands : Operands := .none
  /-- Its subcommands. One of them has to be given. -/
  subcommands : List String := []
  tellsVersion : Bool := false

/-- The options for all commands, which any of them may be given. -/
def sharedOptions : List (String × OptionKind) :=
  [("workspace", .path), ("target-module", .text), ("log-format", .logFormat),
    ("risk-threshold", .number)]

/-- The shape of the command that a path of subcommands leads to. Paths that are not listed have
nothing of their own. -/
def CommandShape.at : List String → CommandShape
  | [] =>
    { subcommands := ["mine", "dead-code", "run", "resume", "diff", "memory"]
      tellsVersion := true }
  | ["run"] =>
    { options := [("suite", .path), ("patch", .path), ("migrated", .path)], required := ["suite"] }
  | ["resume"] => { options := [("state", .path), ("migrated", .path)], required := ["state"] }
  | ["diff"] =>
    { options := [("baseline", .path), ("migrated", .path)], required := ["baseline", "migrated"] }
  | ["memory"] => { subcommands := ["history", "drifts", "search", "stats", "hint", "context"] }
  | ["memory", "history"] => { options := [("limit", .count)] }
  | ["memory", "search"] =>
    { options := [("collection", .collection), ("limit", .count)], operands := .one }
  | ["memory", "hint"] => { operands := .several }
  | ["memory", "context"] => { operands := .one }
  | _ => {}

namespace CommandShape

/-- The kind of an option, be it one of the command or one that all commands share. -/
def kind? (shape : CommandShape) (name : String) : Option OptionKind :=
  (shape.options ++ sharedOptions).lookup name

/-- There is a subcommand of this name. Where there are subcommands, one gives help. -/
def knows (shape : CommandShape) (name : String) : Bool :=
  !shape.subcommands.isEmpty && (shape.subcommands.contains name || name == "help")

end CommandShape

/-! ### Arguments of one command -/

/-- What has been seen of the arguments of a command. At most one option is pending, and its value
is not judged before it is settled. -/
structure Scan where
  /-- The options that are settled, with their values. -/
  given : List (String × String) := []
  operands : List String := []
  /-- The option that is still to be settled, with its value if that has been seen. -/
  pending : Option (String × Option String) := none
  /-- Only operands follow, as two dashes have been seen. -/
  operandsOnly : Bool := false

namespace Scan

/-- The next argument is the value of an option, so it does not name a subcommand. -/
def awaitsValue (scan : Scan) : Bool :=
  !scan.operandsOnly && scan.pending.any fun pending => pending.2.isNone

/-- Settles the option that is pending. Only now its value is judged, and an option that was given
before is a mistake. -/
def settle (shape : CommandShape) (scan : Scan) : Except UsageFailure Scan :=
  match scan.pending with
  | none => .ok scan
  | some (_, none) => .error .invalidValue
  | some (name, some value) =>
    if scan.given.any fun given => given.1 == name then .error .repeated
    else match (shape.kind? name).bind fun kind => kind.fault? value with
      | some fault => .error fault
      | none => .ok { scan with given := scan.given ++ [(name, value)], pending := none }

/-- Adds an operand, if there is room for it. Otherwise it is unknown, or taken for a subcommand
that does not exist. -/
def addOperand (shape : CommandShape) (scan : Scan) (operand : String) : Except UsageFailure Scan :=
  let hasRoom := match shape.operands with
    | .none => false
    | .one => scan.operands.isEmpty
    | .several => true
  if hasRoom then
    (scan.settle shape).map fun settled =>
      { settled with operands := settled.operands ++ [operand] }
  else if shape.subcommands.isEmpty || (scan.operandsOnly && shape.knows operand) then
    .error .unknownArgument
  else .error .invalidSubcommand

/-- Reads an option with a name, and a value if one is attached to it. What was pending before is
settled first. -/
def addOption (shape : CommandShape) (scan : Scan) (name : String) (attached : Option String) :
    Except UsageFailure Scan :=
  if (shape.kind? name).isSome then do
    let settled ← scan.settle shape
    match attached with
    | none => return { settled with pending := some (name, none) }
    | some value => settle shape { settled with pending := some (name, some value) }
  else if name = "help" ∨ (shape.tellsVersion ∧ name = "version") then
    if attached.isSome then .error .unneededValue
    else do
      let _ ← scan.settle shape
      .error (if name = "help" then .displayHelp else .displayVersion)
  else .error .unknownArgument

/-- The name that the letter of a short option stands for. Other letters stand for nothing. -/
def shortName : Char → String
  | 'h' => "help"
  | 'V' => "version"
  | _ => ""

/-- The name and the attached value of an option behind its dashes. They are parted by the first
equals sign. -/
def optionParts (text : List Char) : String × Option String :=
  match Text.cutAtFirst '=' text with
  | some (name, value) => (String.ofList name, some (String.ofList value))
  | none => (String.ofList text, none)

/-- Reads an argument that is no subcommand: an option, the value of one, or an operand. -/
def add (shape : CommandShape) (scan : Scan) (argument : String) : Except UsageFailure Scan :=
  if scan.operandsOnly then scan.addOperand shape argument
  else match argument.toList with
    | ['-', '-'] => .ok { scan with operandsOnly := true }
    | '-' :: '-' :: text =>
      let (name, attached) := optionParts text
      scan.addOption shape name attached
    | '-' :: letter :: _ => scan.addOption shape (shortName letter) none
    | _ => match scan.pending with
      | some (name, none) => .ok { scan with pending := some (name, some argument) }
      | _ => scan.addOperand shape argument

/-- Looks whether all that has to be given is there, once the arguments of a command have come to
their end. -/
def finish (shape : CommandShape) (scan : Scan) (hasSubcommand : Bool) :
    Except UsageFailure Scan := do
  let settled ← scan.settle shape
  if !shape.subcommands.isEmpty && !hasSubcommand then
    if settled.given.isEmpty then .error .nothingGiven else .error .missingSubcommand
  else if shape.required.all (fun name => settled.given.any fun given => given.1 == name) &&
      (shape.operands == .none || !settled.operands.isEmpty) then return settled
  else .error .missingArgument

end Scan

/-! ### Whole command lines -/

/-- What asking for help on a path of subcommands leads to: help on the last one, or a complaint
about the first that is not there. -/
def helpOn (path : List String) : List String → UsageFailure
  | [] => .displayHelp
  | name :: names =>
    if (CommandShape.at path).subcommands.contains name then helpOn (path ++ [name]) names
    else if (CommandShape.at path).knows name && names.isEmpty then .displayHelp
    else .invalidSubcommand

/-- Finishes commands from the innermost to the outermost. An outer command has had its subcommand.
-/
def finishAll : List (List String × Scan) → Bool → Except UsageFailure (List Scan)
  | [], _ => .ok []
  | (path, scan) :: outer, hasSubcommand => do
    let settled ← scan.finish (.at path) hasSubcommand
    return settled :: (← finishAll outer true)

/-- Reads arguments. A subcommand opens a scan of its own; the outer commands wait for the end, the
innermost of them first. -/
def readArguments (path : List String) (scan : Scan) (outer : List (List String × Scan)) :
    List String → Except UsageFailure (List String × List Scan)
  | [] => (finishAll ((path, scan) :: outer) false).map fun scans => (path, scans)
  | argument :: arguments =>
    let shape := CommandShape.at path
    if !scan.operandsOnly && !scan.awaitsValue && shape.knows argument then
      if shape.subcommands.contains argument then
        readArguments (path ++ [argument]) {} ((path, scan) :: outer) arguments
      else .error (helpOn path arguments)
    else match scan.add shape argument with
      | .ok next => readArguments path next outer arguments
      | .error failure => .error failure

/-- What the arguments of a command gave, once everything that had to be there has been checked. -/
structure Given where
  /-- The options with their values, those of inner commands first. -/
  options : List (String × String)
  /-- The operands of the innermost command. -/
  operands : List String

namespace Given

/-- The value of an option. That of the innermost command counts. -/
def value? (given : Given) (name : String) : Option String :=
  given.options.lookup name

/-- The value of an option that has been looked for, so it is known to be there. -/
def value (given : Given) (name : String) : String :=
  (given.value? name).getD ""

/-- The count of an option, or the usual one where it is not given. -/
def count (given : Given) (name : String) (usual : Nat) : Nat :=
  ((given.value? name).bind shortCount?).getD usual

/-- The collection to search in, which is that of the drifts unless another one is given. -/
def collection (given : Given) : TextCollection :=
  ((given.value? "collection").bind fun word => collectionWords.lookup word).getD .drifts

/-- The one operand, which has been looked for. -/
def operand (given : Given) : String :=
  given.operands.headD ""

/-- What is asked of memory, told by the name of the innermost subcommand. -/
def memoryCommand (given : Given) : String → MemoryCommand
  | "history" => .history (given.count "limit" 10)
  | "search" => .search given.operand given.collection (given.count "limit" 5)
  | "stats" => .stats
  | "hint" => .hint given.operands
  | "context" => .context given.operand
  | _ => .drifts

/-- What is asked for, told by the names that lead to the innermost subcommand. -/
def command (given : Given) : List String → Command
  | ["dead-code"] => .deadCode
  | ["run"] => .run (given.value "suite") (given.value? "patch") (given.value? "migrated")
  | ["resume"] => .resume (given.value "state") (given.value? "migrated")
  | ["diff"] => .diff (given.value "baseline") (given.value "migrated")
  | ["memory", name] => .memory (given.memoryCommand name)
  | _ => .mine

end Given

/-- Reads a command line. It gives what is asked for, or the first reason not to obey. -/
def Invocation.ofArguments (arguments : List String) : Except UsageFailure Invocation :=
  (readArguments [] {} [] arguments).map fun (path, scans) =>
    let given : Given := ⟨scans.flatMap Scan.given, (scans.head?.map Scan.operands).getD []⟩
    { command := given.command path
      workspace := (given.value? "workspace").getD "."
      targetModule := given.value? "target-module"
      logFormat := ((given.value? "log-format").bind fun word =>
        (LogFormat.read word).toOption).getD .human
      riskThreshold := (given.value? "risk-threshold").bind Decimal.float? }

end MigrationGuard
