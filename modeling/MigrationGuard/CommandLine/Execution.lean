/-
This file does what the command line asks for. All that is printed is collected:
the text for programs, the lines for people and the exit code. What lies outside
the program, which is the files, the runner of tests, the model that embeds texts,
the receiver of notices, the environment and the clock, is one record that every
command is given. Settings are read before a command is performed, and the
threshold of the gate may be overridden by the command line or, if it says
nothing, by the environment.
-/

import MigrationGuard.CommandLine.Arguments
import MigrationGuard.CommandLine.Complaint
import MigrationGuard.Memory.Open
import MigrationGuard.Session.Run
import MigrationGuard.Session.Summary

namespace MigrationGuard

open Data

/-! ### The outside -/

/-- What the program finds outside itself. Nothing else can be seen or touched by a command. -/
structure Station (m : Type → Type) where
  files : FileAccess m
  runner : TestRunner m
  /-- Asks the model at an address. -/
  ask : String → String → m (Option String)
  /-- Sends a text to an address. -/
  send : String → String → m Unit
  /-- The variables of the environment. -/
  environment? : String → Option String
  /-- The time, in milliseconds since the beginning of 1970. -/
  clock : m Int

/-- What a command leaves behind: what is printed for programs and for people, and the exit code. -/
structure CommandResult where
  exitCode : Nat := 0
  /-- The text for programs. -/
  output : String := ""
  /-- The lines for people. -/
  messages : List String := []
  deriving DecidableEq, Repr

/-- The result that prints a value as a text, and is a success. -/
def CommandResult.ofValue (value : Value) : CommandResult :=
  { output := Json.pretty value ++ "\n" }

/-- The result of a complaint: its lines and the exit code of a failure. -/
def Complaint.result (complaint : Complaint) : CommandResult :=
  { exitCode := 1, messages := complaint.lines }

/-- The result with lines before its own, such as warnings about settings. -/
def CommandResult.behind (result : CommandResult) (lines : List String) : CommandResult :=
  { result with messages := lines ++ result.messages }

/-- The result of what may have failed. A failure gives its complaint. -/
def CommandResult.ofExcept : Except Complaint CommandResult → CommandResult
  | .ok result => result
  | .error complaint => complaint.result

namespace Station

variable {m : Type → Type} [Monad m]

/-! ### Sessions -/

/-- The address that notices are sent to, if the environment names one. -/
def noticeAddress? (station : Station m) (settings : NoticeSettings) : Option String :=
  trimmedOption (station.environment? settings.webhookVariable)

/-- The memory of a workspace. It is opened with what the settings say and the environment adds. -/
def memoryOf (station : Station m) (settings : MemorySettings) (workspace : String) :
    m (RepositoryMemory m) :=
  RepositoryMemory.ofWorkspace station.files workspace settings station.ask

/-- The surroundings of a session over a workspace, with or without memory. -/
def surroundings (station : Station m) (settings : Settings) (workspace : String)
    (usesMemory : Bool) : m (Surroundings m) := do
  let memory ← station.memoryOf settings.memory workspace
  return {
    settings
    files := station.files
    runner := station.runner
    memory := if usesMemory && settings.memory.enabled then
        some (.ofRepository memory station.clock)
      else none
    notify := (station.noticeAddress? settings.notices).map fun address notice =>
      station.send address (Json.compact (notice.payload settings.notices.dashboardUrl))
    clock := station.clock }

/-- A new session with an identity that is made of the repository and the time. -/
def newSession (station : Station m) (workspace : String) (target : Option String) : m Session := do
  return { id := sessionId (repositoryId workspace) (← station.clock)
           repository := workspace
           targetModule := target }

/-- The absolute path of a workspace, or a complaint if it is not there. -/
def resolveWorkspace (station : Station m) (path : String) : m (Except Complaint String) := do
  return (← station.files.resolve path).mapError (.ofWorkspace path)

/-- The absolute path of a workspace, if one is given. -/
def resolveIfGiven (station : Station m) : Option String → m (Except Complaint (Option String))
  | none => return .ok none
  | some path => return (← station.resolveWorkspace path).map some

/-- Reads a document, if one is given. Without one there is nothing that could fail. -/
def readIfGiven (Result : Type) [OfValue Result] (station : Station m) (kind : String) :
    Option String → m (Except Complaint (Option Result))
  | none => return .ok none
  | some path =>
    return ((← readRecord Result station.files kind path).mapError .ofDocument).map some

/-- Saves a session and tells how it ended. It is saved also after a failure, so that it can be
looked at. -/
def conclude (station : Station m) (session : Session) : m CommandResult := do
  match ← saveSession station.files session with
  | .error failure => return (Complaint.ofDocument failure).result
  | .ok path =>
    return { CommandResult.ofValue (session.outcome path) with
      exitCode := session.exitCode
      messages := session.summary.map ("BLOC: " ++ ·) }

/-! ### Commands -/

/-- The result of some first stages: a value, or the reason why they failed. -/
def partialResult (session : Session) (value : Session → Value) : CommandResult :=
  match session.error with
  | some reason => (Complaint.mk reason []).result
  | none => .ofValue (value session)

/-- Mines the workflow of a workspace and prints its graph. -/
def mine (station : Station m) (settings : Settings) (workspace : String) (target : Option String) :
    m CommandResult := do
  let session ← station.newSession workspace target
  let around ← station.surroundings settings workspace true
  let session ← runStages around false [.ingest, .mine] session
  return partialResult session fun session =>
    .record [("graph", toValue session.graph),
      ("changed_functions", toValue session.changedFunctions)]

/-- Looks for dead code. Memory takes no part in it. -/
def deadCode (station : Station m) (settings : Settings) (workspace : String)
    (target : Option String) : m CommandResult := do
  let session ← station.newSession workspace target
  let around ← station.surroundings settings workspace false
  let session ← runStages around false [.ingest, .mine, .deadCode] session
  return partialResult session fun session => toValue session.deadCode

/-- Runs a session from its beginning until it is complete or has to rest. -/
def run (station : Station m) (settings : Settings) (workspace : String) (target : Option String)
    (suite : String) (patch migrated : Option String) : m CommandResult := do
  match ← readRecord TestSuite station.files "test suite" suite with
  | .error failure => return (Complaint.ofDocument failure).result
  | .ok suite => match ← station.readIfGiven MigrationPatch "patch" patch with
    | .error complaint => return complaint.result
    | .ok patch => match ← station.resolveIfGiven migrated with
      | .error complaint => return complaint.result
      | .ok migratedPath =>
        let session ← station.newSession workspace target
        let around ← station.surroundings settings workspace true
        station.conclude
          (← runSession around { session with suite := some suite, patch, migratedPath })

/-- Takes a saved session up again, with a workspace after the migration if one is given. -/
def resume (station : Station m) (settings : Settings) (state : String) (migrated : Option String) :
    m CommandResult := do
  match ← loadSession station.files state with
  | .error failure => return (Complaint.ofDocument failure).result
  | .ok session => match ← station.resolveIfGiven migrated with
    | .error complaint => return complaint.result
    | .ok migrated =>
      let around ← station.surroundings settings session.repository true
      match ← resumeSession around session migrated with
      | .error progress => return (Complaint.mk progress.refusal []).result
      | .ok session => station.conclude session

/-- Compares stored runs. A critical drift is a failure. -/
def diff (station : Station m) (baseline migrated : String) : m CommandResult := do
  match ← readRun station.files baseline .baseline with
  | .error failure => return (Complaint.ofDocument failure).result
  | .ok baseline => match ← readRun station.files migrated .migrated with
    | .error failure => return (Complaint.ofDocument failure).result
    | .ok migrated =>
      let validation : ValidationResult Float := classifyDrift baseline migrated
      let report := confidenceReport validation none none
      return { CommandResult.ofValue (.record [("validation", toValue validation),
          ("confidence_report", toValue report)]) with
        exitCode := if report.criticalDrifts > 0 then 1 else 0 }

/-! ### Memory -/

/-- The largest number of things that a list shows, whatever is asked for. -/
def listLimit : Nat := 100

/-- A number of things to list, brought into its range. At least one is listed. -/
def inListRange (limit : Nat) : Nat :=
  max 1 (min limit listLimit)

/-- The double whose shortest text is that of a single, so that a similarity is printed as it was
computed. -/
def doubleOfSingle (value : Float32) : Float :=
  (Decimal.float? (Decimal.plainTextSingle value)).getD value.toFloat

/-- A hit as it is listed: the entry and how similar it is. -/
def listedHit (hit : TextHit) : Value :=
  .record [("entry_id", toValue hit.id), ("text", toValue hit.text), ("metadata", hit.metadata),
    ("similarity", toValue (doubleOfSingle hit.similarity))]

/-- The result that an answer of memory gives. A failure is a complaint. -/
def memoryResult {Answer : Type} (show? : Answer → CommandResult)
    (answer : Except MemoryFailure Answer) : CommandResult :=
  .ofExcept ((answer.mapError .ofMemory).map show?)

/-- The result that lists an answer of memory as a value. -/
def listed {Answer : Type} [ToValue Answer] (answer : Except MemoryFailure Answer) :
    CommandResult :=
  memoryResult (fun answer => .ofValue (toValue answer)) answer

/-- What memory answers to a command, as the result that is printed. -/
def answerFrom (memory : RepositoryMemory m) : MemoryCommand → m CommandResult
  | .history limit => return listed (← memory.pastRuns (inListRange limit))
  | .drifts => return listed (← memory.knownDrifts)
  | .search question collection limit => do
    let hits ← memory.search collection question (inListRange limit)
    return memoryResult (fun hits => .ofValue (.list (hits.map listedHit))) hits
  | .stats => return listed (← memory.stats)
  | .hint hints => do
    let indexed ← memory.recordRules hints
    return memoryResult (fun count => .ofValue (.record [("indexed", toValue count)])) indexed
  | .context topic => do
    let text ← memory.context topic
    return memoryResult (fun text => { output := text ++ "\n" }) text

/-! ### The whole program -/

/-- Does what a command asks for in a workspace with the given settings. The first failure ends it.
-/
def perform (station : Station m) (settings : Settings) (workspace : String)
    (target : Option String) : Command → m CommandResult
  | .mine => station.mine settings workspace target
  | .deadCode => station.deadCode settings workspace target
  | .run suite patch migrated => station.run settings workspace target suite patch migrated
  | .resume state migrated => station.resume settings state migrated
  | .diff baseline migrated => station.diff baseline migrated
  | .memory command => do
    answerFrom (← station.memoryOf settings.memory workspace) command

/-- The variable of the environment that may override the threshold. -/
def thresholdVariable : String := "BLOC_RISK_THRESHOLD"

/-- A warning about settings as a line for people. -/
def warningLine (warning : String × String) : String :=
  "BLOC config warning [" ++ warning.1 ++ "]: " ++ warning.2

/-- Performs a command that works on a workspace: resolves it, reads its settings and overrides the
threshold. -/
def performIn (station : Station m) (invocation : Invocation) : m CommandResult := do
  match ← station.resolveWorkspace invocation.workspace with
  | .error complaint => return complaint.result
  | .ok workspace =>
    match ← Settings.ensure station.files workspace (station.environment? thresholdVariable) with
    | .error failure => return (Complaint.ofSettings workspace failure).result
    | .ok loaded =>
      let settings := loaded.withThreshold (invocation.riskThreshold.map Decimal.plainText)
      let result ← station.perform settings workspace invocation.targetModule invocation.command
      return result.behind (settings.warnings.map warningLine)

/-- The arguments without a separator at their beginning, which a launcher may have put there. -/
def dropSeparator : List String → List String
  | "--" :: arguments => arguments
  | arguments => arguments

/-- Obeys a command line. A line that cannot be read is told so with its own exit code. -/
def obey (station : Station m) (arguments : List String) : m CommandResult :=
  match Invocation.ofArguments (dropSeparator arguments) with
  | .error failure => return { exitCode := failure.exitCode }
  | .ok invocation => match invocation.command with
    | .diff baseline migrated => station.diff baseline migrated
    | _ => station.performIn invocation

end Station

end MigrationGuard
