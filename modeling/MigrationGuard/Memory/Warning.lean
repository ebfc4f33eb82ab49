/-
This file turns what memory knows into warnings about changes. A stored drift
matches a change if its function is named in the description, or if it contains
the name of what is changed. Similar drifts that a search found add warnings on
functions that carry none yet. Of warnings on one function that begin alike only
the first is kept; what is compared is the function and the beginning of the
message, joined into one text.
-/

import MigrationGuard.Memory.Record
import MigrationGuard.Risk.Patch

namespace MigrationGuard

open Data

/-- The name of what a change is about: the last part of its path, without the extension of a
source file. -/
def PatchChange.subject (change : PatchChange) : String :=
  let parts := Text.cutAtEach (fun character => character == '/' || character == '\\')
    (Text.trim change.file.toList)
  let last := String.ofList (parts.getLast?.getD [])
  (Text.dropFinish ".py" last).getD last

/-- The severity that a stored name means. One that is not known counts as the lesser. -/
def storedSeverity (name : String) : DriftSeverity :=
  (DriftSeverity.read name).toOption.getD .nonCritical

/-- The largest count that a warning holds. Larger ones are cut down to it. -/
def largestCount : Nat := Nat.pow 2 32 - 1

/-! ### Stored drifts -/

/-- A stored drift matches a change: the change names its function, or its function names what is
changed. -/
def DriftRecord.concerns (drift : DriftRecord) (change : PatchChange) : Bool :=
  (drift.function != "" && Text.contains change.description drift.function) ||
    Text.contains drift.function change.subject

/-- The warning that a stored drift gives, with how often it was seen. -/
def DriftRecord.warning (drift : DriftRecord) : RiskWarning :=
  ⟨.memory, drift.function, storedSeverity drift.severity,
    "Previously caused drift: " ++ drift.description, min drift.timesSeen.toNat largestCount⟩

/-- The warnings that stored drifts give on changes, change by change. A change of nothing matches
no drift. -/
def memoryWarnings (changes : List PatchChange) (known : List DriftRecord) : List RiskWarning :=
  changes.flatMap fun change =>
    if change.subject = "" then []
    else (known.filter fun drift => drift.concerns change).map DriftRecord.warning

/-! ### Similar texts -/

/-- The text of a similar drift that is shown, in characters. -/
def similarTextLength : Nat := 200

/-- The function that a hit is about, or the usual one where the hit names none. -/
def TextHit.function (hit : TextHit) (usual : String) : String :=
  match ((hit.metadata.get? "function_name").bind Value.toText?).filter (· != "") with
  | some name => name
  | none => usual

/-- The warning that a similar drift gives, with the text that was found. -/
def TextHit.warning (hit : TextHit) (usual : String) : RiskWarning :=
  { source := .semantic
    function := hit.function usual
    severity := (((hit.metadata.get? "severity").bind Value.toText?).map storedSeverity).getD
      .nonCritical
    message := Text.truncate hit.text similarTextLength
    timesSeen := ((hit.metadata.get? "times_seen").bind
      fun value => value.toNatBelow? (largestCount + 1)).getD 0 }

/-- The warnings of similar drifts on functions that carry none yet. -/
def similarityWarnings (usual : String) (warned : List String) : List TextHit → List RiskWarning
  | [] => []
  | hit :: hits =>
    if warned.contains (hit.function usual) then similarityWarnings usual warned hits
    else hit.warning usual :: similarityWarnings usual (hit.function usual :: warned) hits

/-! ### Repeated warnings -/

/-- The beginning of a message by which repeated warnings are told, in characters. -/
def dedupeLength : Nat := 50

/-- What repeated warnings have in common: the function and the beginning of the message. -/
def RiskWarning.dedupeKey (warning : RiskWarning) : String :=
  warning.function ++ "_" ++ Text.truncate warning.message dedupeLength

/-- The warnings whose key is not among the given ones, the first of each key. -/
def dedupeAfter (seen : List String) : List RiskWarning → List RiskWarning
  | [] => []
  | warning :: warnings =>
    if seen.contains warning.dedupeKey then dedupeAfter seen warnings
    else warning :: dedupeAfter (warning.dedupeKey :: seen) warnings

/-- The warnings without repetitions, the first of each kind in its place. -/
def dedupeWarnings (warnings : List RiskWarning) : List RiskWarning :=
  dedupeAfter [] warnings

end MigrationGuard
