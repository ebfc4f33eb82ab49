/-
This file brings settings into their normal form, applies a threshold that an
operator gives, and warns about settings that are likely mistakes. The normal form
fills in what is blank or zero, trims what is a text and drops what has no
meaning, so that the rest of the program need not look at such settings. A warning
never changes a setting. The threshold of an operator has to be a number between
zero and one, and one that is not leaves the setting as it was.
-/

import MigrationGuard.Decimal.Arithmetic
import MigrationGuard.Decimal.Layout
import MigrationGuard.Decimal.Parse
import MigrationGuard.Settings.Basic

namespace MigrationGuard

/-! ### Normal form -/

/-- The text, or a default where it is blank. A text that is not blank stays as it is. -/
def unlessBlank (usual text : String) : String :=
  if Text.allBlank text then usual else text

/-- The number, or a default where it is zero, as a zero would switch off what it bounds. -/
def unlessZero (usual value : Nat) : Nat :=
  if value = 0 then usual else value

/-- The trimmed text, if anything is left of it. -/
def trimmedOption (text : Option String) : Option String :=
  (text.map Text.trimmed).filter (· != "")

/-- An extension without blanks around it and points before it, in small letters. -/
def normalExtension (extension : String) : String :=
  Text.lowered (String.ofList ((Text.trim extension.toList).dropWhile (· == '.')))

/-- The extensions that are left in their normal form, or the default where none is. -/
def normalExtensions (extensions : List String) : List String :=
  let kept := (extensions.map normalExtension).filter (· != "")
  if kept.isEmpty then ({} : MinerSettings).extensions else kept

/-- A text without slashes at its end, so that places can be put behind it. -/
def dropSlashes (text : String) : String :=
  String.ofList (text.toList.reverse.dropWhile (· == '/')).reverse

namespace Settings

/-- The normal form of settings. What is left as it was has no form to be brought into. -/
def normalize (settings : Settings) : Settings :=
  let usual : Settings := {}
  { miner := { settings.miner with
      extensions := normalExtensions settings.miner.extensions
      maxPathHops := unlessZero usual.miner.maxPathHops settings.miner.maxPathHops }
    deadCode := ⟨unlessZero usual.deadCode.minCommentedRun settings.deadCode.minCommentedRun⟩
    harness := { settings.harness with
      command := (settings.harness.command.map Text.trimmed).filter (· != "")
      testDirectory := unlessBlank usual.harness.testDirectory settings.harness.testDirectory
      reportFile := unlessBlank usual.harness.reportFile settings.harness.reportFile }
    risk := settings.risk
    memory := { settings.memory with
      databaseFile := unlessBlank usual.memory.databaseFile settings.memory.databaseFile
      endpoint := trimmedOption settings.memory.endpoint
      model := trimmedOption settings.memory.model }
    notices :=
      { webhookVariable :=
          unlessBlank usual.notices.webhookVariable (Text.trimmed settings.notices.webhookVariable)
        dashboardUrl := dropSlashes (Text.trimmed settings.notices.dashboardUrl) } }

/-! ### Thresholds -/

/-- The threshold that a text gives, if it is a number between zero and one. -/
def threshold? (text : String) : Option Float :=
  (Decimal.float? (Text.trimmed text)).filter fun value => 0.0 ≤ value && value ≤ 1.0

/-- The settings with the threshold that an operator gives. A text that gives none changes
nothing. -/
def withThreshold (settings : Settings) (text : Option String) : Settings :=
  match text.bind threshold? with
  | some value => { settings with risk := { settings.risk with blockThreshold := value } }
  | none => settings

/-! ### Warnings -/

/-- The distance from the usual threshold is more than a rounding error. -/
def isCustomThreshold {α : Type} [Arithmetic α] (threshold : α) : Bool :=
  let usual := Arithmetic.decimal 8 1
  let tolerance := Arithmetic.count 1 / Arithmetic.count (Nat.pow 2 52)
  Arithmetic.less tolerance (threshold - usual) || Arithmetic.less tolerance (usual - threshold)

/-- The address of the embedding model where none is set. -/
def usualEndpoint : String := "http://127.0.0.1:11434/api/embeddings"

/-- The name of the embedding model where none is set. -/
def usualModel : String := "nomic-embed-text"

/-- Warnings about settings that are likely mistakes, each with a short name. -/
def warnings (settings : Settings) : List (String × String) :=
  let usual : Settings := {}
  let onlyIf := fun (holds : Bool) code message => if holds then [(code, message)] else []
  onlyIf settings.harness.command.isEmpty "harness_command_empty"
      "harness.command is empty; baseline and validation stages cannot run" ++
    onlyIf (settings.harness.timeoutSeconds == 0) "harness_timeout_zero"
      "harness.timeout_secs is 0; every suite execution will time out" ++
    onlyIf (isCustomThreshold settings.risk.blockThreshold) "risk_threshold_custom"
      ("risk.block_threshold is " ++ Decimal.fixedText 2 settings.risk.blockThreshold ++
        "; the BLOCKED risk level label still starts at " ++
        Decimal.fixedText 2 usual.risk.blockThreshold) ++
    onlyIf (settings.risk.notifyThreshold > settings.risk.blockThreshold) "notify_above_block"
      "risk.notify_threshold exceeds risk.block_threshold; blocked runs may not notify" ++
    onlyIf (settings.risk.historyWindow == 0) "history_window_zero"
      "risk.history_window is 0; run history never contributes to risk" ++
    onlyIf (!(0.0 ≤ settings.memory.minSimilarity && settings.memory.minSimilarity ≤ 1.0))
      "min_similarity_range"
      ("memory.min_similarity " ++ Decimal.plainText settings.memory.minSimilarity ++
        " is outside 0..=1") ++
    onlyIf (settings.memory.embedding == .ollama && settings.memory.endpoint.isNone)
      "embedding_endpoint_default" ("memory.embedding_endpoint not set; using " ++ usualEndpoint)

end Settings

end MigrationGuard
