/-
This file holds the settings of a workspace with their default values, and how
they are written and read. A setting that a file leaves out has its default, and
so has a table of settings that is left out as a whole; one that has the wrong
shape makes the file unreadable. Settings that may be absent are written only
where they are there. What a value means for the program is said by the rules for
settings, not here.
-/

import MigrationGuard.Data.Word

namespace MigrationGuard

open Data

/-! ### Words -/

/-- Which embedding of texts is used. Texts of different embeddings cannot be compared. -/
inductive EmbeddingKind where
  /-- Words are hashed. -/
  | hashed
  /-- A model behind an address is asked. -/
  | ollama
  deriving DecidableEq, Repr

instance : Named EmbeddingKind where
  noun := "embedding provider"
  all := [.hashed, .ollama]
  name
    | .hashed => "hashed"
    | .ollama => "ollama"

/-- The embedding that a text names, with blanks around it. -/
def EmbeddingKind.read (text : String) : Except UnknownWord EmbeddingKind :=
  Named.read [] (Text.trimmed text)

instance : OfValue EmbeddingKind := ⟨ofWord? Named.table⟩

/-- The form of log lines, for whoever reads them. -/
inductive LogFormat where
  /-- For people. -/
  | human
  /-- For programs. -/
  | json
  deriving DecidableEq, Repr

instance : Named LogFormat where
  noun := "log format"
  all := [.human, .json]
  name
    | .human => "human"
    | .json => "json"

/-- The log format that a text names, with blanks around it. -/
def LogFormat.read (text : String) : Except UnknownWord LogFormat :=
  Named.read [] (Text.trimmed text)

/-! ### Sections -/

/-- How workflows are mined: which files count as sources and how far paths are followed. -/
structure MinerSettings where
  /-- The extensions of source files. -/
  extensions : List String := ["py"]
  /-- How many lines the scanner of lines reads behind a definition. -/
  fallbackWindow : Nat := 30
  /-- The longest path to a side effect, in calls. -/
  maxPathHops : Nat := 8
  /-- How many paths to side effects are kept. -/
  maxPaths : Nat := 20
  /-- How many files are read at the same time. Results do not depend on it. -/
  parallelism : Nat := 0
  deriving DecidableEq, Repr

/-- How dead code is looked for in comments. -/
structure DeadCodeSettings where
  /-- The shortest run of comment lines that counts. -/
  minCommentedRun : Nat := 6
  deriving DecidableEq, Repr

/-- How suites are run: by which program, in which places and for how long. -/
structure HarnessSettings where
  /-- The program that runs tests, and its first arguments. -/
  command : List String := ["python3", "-m", "pytest"]
  /-- The directory of the tests inside a workspace. -/
  testDirectory : String := "_bloc_tests"
  /-- The file of the report inside a workspace. -/
  reportFile : String := "_bloc_report.json"
  /-- How long a suite may run, in seconds. -/
  timeoutSeconds : Nat := 120
  /-- How long one test may run, in seconds. -/
  testTimeoutSeconds : Nat := 30
  deriving DecidableEq, Repr

/-- How risk is judged, and from which score on it has consequences. -/
structure RiskSettings where
  /-- The score from which a migration is blocked. -/
  blockThreshold : Float := 0.8
  /-- The score above which a notice is sent. -/
  notifyThreshold : Float := 0.5
  /-- How many past runs count. -/
  historyWindow : Nat := 10
  deriving DecidableEq, Repr

/-- How memory is kept, and how texts are compared in it. -/
structure MemorySettings where
  /-- Whether memory is used. -/
  enabled : Bool := true
  /-- The name of its file. -/
  databaseFile : String := "memory.sqlite"
  /-- The similarity that a remembered text has to reach. -/
  minSimilarity : Float := 0.35
  /-- The embedding of texts. -/
  embedding : EmbeddingKind := .hashed
  /-- The address of the embedding model. -/
  endpoint : Option String := none
  /-- The name of the embedding model. -/
  model : Option String := none
  deriving DecidableEq, Repr

/-- Where notices go, and where they point to. -/
structure NoticeSettings where
  /-- The environment variable that holds the address of the webhook. -/
  webhookVariable : String := "DISCORD_WEBHOOK_URL"
  /-- The address of the dashboard that notices point to. -/
  dashboardUrl : String := "http://localhost:8000"
  deriving DecidableEq, Repr

/-- The settings of a workspace, each part of which belongs to one part of the program. -/
structure Settings where
  /-- How workflows are mined. -/
  miner : MinerSettings := {}
  deadCode : DeadCodeSettings := {}
  /-- How suites are run. -/
  harness : HarnessSettings := {}
  /-- How risk is judged. -/
  risk : RiskSettings := {}
  /-- How memory is kept. -/
  memory : MemorySettings := {}
  /-- Where notices go. -/
  notices : NoticeSettings := {}
  deriving DecidableEq, Repr

instance : Inhabited Settings := ⟨{}⟩

/-! ### Writing -/

instance : ToValue MinerSettings where
  toValue miner := .record [("extensions", toValue miner.extensions),
    ("fallback_window_lines", toValue miner.fallbackWindow),
    ("max_path_hops", toValue miner.maxPathHops), ("max_side_effect_paths", toValue miner.maxPaths),
    ("parallelism", toValue miner.parallelism)]

instance : ToValue DeadCodeSettings where
  toValue deadCode := .record [("min_commented_run", toValue deadCode.minCommentedRun)]

instance : ToValue HarnessSettings where
  toValue harness := .record [("command", toValue harness.command),
    ("test_dir", toValue harness.testDirectory), ("report_file", toValue harness.reportFile),
    ("timeout_secs", toValue harness.timeoutSeconds),
    ("per_test_timeout_secs", toValue harness.testTimeoutSeconds)]

instance : ToValue RiskSettings where
  toValue risk := .record [("block_threshold", toValue risk.blockThreshold),
    ("notify_threshold", toValue risk.notifyThreshold),
    ("history_window", toValue risk.historyWindow)]

/-- A member for a value that is there. -/
def memberIfSome (name : String) (value : Option String) : List (String × Value) :=
  value.toList.map fun text => (name, toValue text)

instance : ToValue MemorySettings where
  toValue memory := .record ([("enabled", toValue memory.enabled),
    ("db_file", toValue memory.databaseFile), ("min_similarity", toValue memory.minSimilarity),
    ("embedding_provider", toValue memory.embedding)] ++
    memberIfSome "embedding_endpoint" memory.endpoint ++
    memberIfSome "embedding_model" memory.model)

instance : ToValue NoticeSettings where
  toValue notices := .record [("webhook_url_env", toValue notices.webhookVariable),
    ("dashboard_url", toValue notices.dashboardUrl)]

instance : ToValue Settings where
  toValue settings := .record [("miner", toValue settings.miner),
    ("dead_code", toValue settings.deadCode), ("harness", toValue settings.harness),
    ("risk", toValue settings.risk), ("memory", toValue settings.memory),
    ("notify", toValue settings.notices)]

/-! ### Reading -/

instance : OfValue MinerSettings where
  ofValue? value := do
    let usual : MinerSettings := {}
    match ← value.slots? ["extensions", "fallback_window_lines", "max_path_hops",
      "max_side_effect_paths", "parallelism"] with
    | [extensions, window, hops, paths, parallelism] =>
      return ⟨← extensions.withDefault usual.extensions, ← window.withDefault usual.fallbackWindow,
        ← hops.withDefault usual.maxPathHops, ← paths.withDefault usual.maxPaths,
        ← parallelism.withDefault usual.parallelism⟩
    | _ => none

instance : OfValue DeadCodeSettings where
  ofValue? value := do
    let usual : DeadCodeSettings := {}
    match ← value.slots? ["min_commented_run"] with
    | [run] => return ⟨← run.withDefault usual.minCommentedRun⟩
    | _ => none

instance : OfValue HarnessSettings where
  ofValue? value := do
    let usual : HarnessSettings := {}
    match ← value.slots? ["command", "test_dir", "report_file", "timeout_secs",
      "per_test_timeout_secs"] with
    | [command, directory, report, timeout, testTimeout] =>
      return ⟨← command.withDefault usual.command, ← directory.withDefault usual.testDirectory,
        ← report.withDefault usual.reportFile, ← timeout.withDefault usual.timeoutSeconds,
        ← testTimeout.withDefault usual.testTimeoutSeconds⟩
    | _ => none

instance : OfValue RiskSettings where
  ofValue? value := do
    let usual : RiskSettings := {}
    match ← value.slots? ["block_threshold", "notify_threshold", "history_window"] with
    | [block, notify, window] =>
      return ⟨← block.withDefault usual.blockThreshold, ← notify.withDefault usual.notifyThreshold,
        ← window.withDefault usual.historyWindow⟩
    | _ => none

instance : OfValue MemorySettings where
  ofValue? value := do
    let usual : MemorySettings := {}
    match ← value.slots? ["enabled", "db_file", "min_similarity", "embedding_provider",
      "embedding_endpoint", "embedding_model"] with
    | [enabled, database, similarity, embedding, endpoint, model] =>
      return ⟨← enabled.withDefault usual.enabled, ← database.withDefault usual.databaseFile,
        ← similarity.withDefault usual.minSimilarity, ← embedding.withDefault usual.embedding,
        ← endpoint.withDefault usual.endpoint, ← model.withDefault usual.model⟩
    | _ => none

instance : OfValue NoticeSettings where
  ofValue? value := do
    let usual : NoticeSettings := {}
    match ← value.slots? ["webhook_url_env", "dashboard_url"] with
    | [hook, dashboard] =>
      return ⟨← hook.withDefault usual.webhookVariable, ← dashboard.withDefault usual.dashboardUrl⟩
    | _ => none

instance : OfValue Settings where
  ofValue? value := do
    match ← value.slots? ["miner", "dead_code", "harness", "risk", "memory", "notify"] with
    | [miner, deadCode, harness, risk, memory, notices] =>
      return ⟨← miner.withDefault {}, ← deadCode.withDefault {}, ← harness.withDefault {},
        ← risk.withDefault {}, ← memory.withDefault {}, ← notices.withDefault {}⟩
    | _ => none

end MigrationGuard
