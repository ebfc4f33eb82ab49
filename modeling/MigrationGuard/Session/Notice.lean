/-
This file writes the notice that is sent when a migration is risky. It tells the
workspace and the session, the score with its label, how much memory knows and the
first of the warnings, each cut to a length that can be read at a glance, and it
points to the dashboard where the rest can be seen. Whoever receives notices gets
this text and nothing else.
-/

import MigrationGuard.Decimal.Layout
import MigrationGuard.Risk.Assessment
import MigrationGuard.Settings.Rules

namespace MigrationGuard

open Data

/-- A notice about the risk of a migration, before it is written as a text. -/
structure Notice where
  session : String
  /-- The path of the workspace. -/
  repository : String
  /-- Whether the migration is blocked. -/
  blocked : Bool
  /-- The assessment of the risk. -/
  assessment : RiskAssessment Float
  deriving DecidableEq, Repr

namespace Notice

/-- How many warnings a notice lists. It tells the number of all of them. -/
def listedWarnings : Nat := 5

/-- The part of a warning that a notice shows, in characters. -/
def warningLength : Nat := 120

/-- The line of a warning: how bad it is, the function and the beginning of the message. -/
def warningLine (warning : RiskWarning) : String :=
  "- [" ++ Named.name warning.severity ++ "] " ++ warning.function ++ ": " ++
    Text.truncate warning.message warningLength

/-- The lines about warnings, none at all where there are none. -/
def warningLines (warnings : List RiskWarning) : List String :=
  if warnings.isEmpty then []
  else ("**Warnings (" ++ toString warnings.length ++ "):**") ::
    (warnings.take listedWarnings).map warningLine

/-- A label in bold type with a text in code type. -/
def coded (label text : String) : String :=
  "**" ++ label ++ ":** \x60" ++ text ++ "\x60"

/-- The text of a notice. It ends with the place of the session on the dashboard. -/
def text (notice : Notice) (dashboard : String) : String :=
  let risk := notice.assessment
  Text.joined "\n" (
    ["**BehaviorLock risk alert" ++ (if notice.blocked then ": migration blocked" else "") ++ "**",
      coded "Repo" notice.repository,
      coded "Session" notice.session,
      "**Risk score:** " ++ Decimal.fixedText 2 risk.score ++ " (" ++ Named.name risk.level ++ ")",
      "**Known drifts:** " ++ toString risk.knownDriftCount ++ " | **Past runs:** " ++
        toString risk.pastRunCount] ++
    warningLines risk.warnings ++
    [dropSlashes dashboard ++ "/runs/" ++ notice.session])

/-- What is sent: the text of the notice under the name that a receiver expects. -/
def payload (notice : Notice) (dashboard : String) : Value :=
  .record [("content", .text (notice.text dashboard))]

end Notice

end MigrationGuard
