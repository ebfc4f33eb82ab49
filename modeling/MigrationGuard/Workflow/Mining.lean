/-
This file mines a directory: it lists the source files, reads them and builds the
workflow graph, and it looks for dead code in the graph and in comments. Mining
fails only where there is no directory or no source file at all. A file that
cannot be read is skipped and named, one that does not follow the grammar is read
by lines and named as well, and a target that keeps no file gives an empty graph.
Directories that hold no sources of their own are passed over wherever they lie.
-/

import MigrationGuard.Settings.Basic
import MigrationGuard.Source.CommentedCode
import MigrationGuard.Source.Discovery
import MigrationGuard.Source.Reading
import MigrationGuard.Workflow.DeadCode

namespace MigrationGuard

open Data

/-! ### Failures -/

/-- Why a directory cannot be mined. What goes wrong with a single file is no reason. -/
inductive MiningFailure where
  /-- Nothing stands at the path. -/
  | missingWorkspace (path : String)
  /-- Something else than a directory stands there. -/
  | notADirectory (path : String)
  /-- The directory holds no source file. -/
  | noSourceFiles (path : String)
  deriving DecidableEq, Repr

/-- The failure in words, with the path that was to be mined. -/
def MiningFailure.message : MiningFailure → String
  | .missingWorkspace path => "repository path does not exist: " ++ path
  | .notADirectory path => "repository path is not a directory: " ++ path
  | .noSourceFiles path => "no source files found under " ++ path

/-! ### Miners -/

/-- Names of directories that hold no sources of their own. -/
def excludedByDefault : List String :=
  [".git", ".bloc", "target", "__pycache__", "venv", ".venv", "node_modules"]

/-- What is mined, and how, before anything is looked at. -/
structure Miner where
  /-- The path of the directory. -/
  root : String
  settings : MinerSettings
  /-- The names of directories that are passed over. -/
  excluded : List String

namespace Miner

/-- The miner of a directory with the usual names excluded. -/
def ofRoot (root : String) (settings : MinerSettings) : Miner :=
  ⟨root, settings, excludedByDefault⟩

/-- The miner with one more excluded name, unless the name is empty or excluded already. -/
def excluding (miner : Miner) (name : String) : Miner :=
  if name = "" || miner.excluded.contains name then miner
  else { miner with excluded := miner.excluded ++ [name] }

/-- The source files of what stands at the root. A target that keeps none of them is no failure. -/
def sources (miner : Miner) (found : Except FileFailure FileTree) (target : Option String) :
    Except MiningFailure (List SourceFile) :=
  match found with
  | .error _ => .error (.missingWorkspace miner.root)
  | .ok tree =>
    if !tree.isDirectory then .error (.notADirectory miner.root)
    else
      let files := discoverSources miner.root tree miner.settings.extensions miner.excluded
      if files.isEmpty then .error (.noSourceFiles miner.root)
      else .ok (filterSources target files)

end Miner

/-! ### Outcomes -/

/-- What mining found, with the files that it could not make use of. -/
structure MiningOutcome where
  /-- The workflow graph. -/
  graph : WorkflowGraph
  /-- The number of files. -/
  scanned : Nat
  /-- The files that could not be read, each with the reason. -/
  skipped : List (String × String)
  /-- The files that only the scanner of lines could read. -/
  fallbacks : List String

/-- Mines a list of source files. Which files they are has been settled before. -/
def mineFiles (settings : MinerSettings) (files : List SourceFile) : MiningOutcome :=
  let readings := files.map fun file =>
    (file, file.text.map fun text => readModule true settings.fallbackWindow file.module text)
  let modules := readings.filterMap fun reading => reading.2.toOption
  { graph := buildWorkflowGraph (modules.map Prod.fst) settings.maxPathHops settings.maxPaths
    scanned := files.length
    skipped := readings.filterMap fun reading => match reading.2 with
      | .error failure => some (reading.1.path, failure.message)
      | .ok _ => none
    fallbacks := readings.filterMap fun reading => match reading.2 with
      | .ok (_, .linePattern) => some reading.1.path
      | _ => none }

/-- Mines what stands at the root of a miner. -/
def Miner.mine (miner : Miner) (found : Except FileFailure FileTree) (target : Option String) :
    Except MiningFailure MiningOutcome :=
  (miner.sources found target).map (mineFiles miner.settings)

/-- The dead code of a graph and of the comments in source files. -/
def analyzeDeadCode (graph : WorkflowGraph) (files : List SourceFile) (minimum : Nat) :
    DeadCodeReport :=
  .ofItems (graph.deadCode ++ files.flatMap fun file => match file.text with
    | .ok text => commentedBlocks file.module text minimum
    | .error _ => [])

instance : ToValue MiningOutcome where
  toValue outcome := .record [("graph", toValue outcome.graph),
    ("files_scanned", toValue outcome.scanned),
    ("skipped", .list (outcome.skipped.map fun file =>
      .record [("path", toValue file.1), ("reason", toValue file.2)])),
    ("fallback_files", toValue outcome.fallbacks)]

end MigrationGuard
