/-
This file holds the verdicts on a migration and the rule that passes one: a share
of preserved behaviour below 85 percent or more than two critical drifts block the
migration, 98 percent without any critical drift make it safe, and everything in
between is risky. The rule is stated for every kind of number that can be
compared. Verdicts are ordered by how bad they are, so that the worst of several
can be told when past migrations are looked at.
-/

import MigrationGuard.Data.Word
import MigrationGuard.Decimal.Arithmetic

namespace MigrationGuard

open Data

/-- The verdict on a migration, which is passed once both of its runs have been compared. -/
inductive Verdict where
  /-- Behaviour is preserved. -/
  | safe
  /-- Some behaviour changed. -/
  | risky
  /-- Too much behaviour changed. -/
  | blocked
  deriving DecidableEq, Repr

instance : Named Verdict where
  noun := "verdict"
  all := [.safe, .risky, .blocked]
  name
    | .safe => "SAFE"
    | .risky => "RISKY"
    | .blocked => "BLOCKED"

instance : OfValue Verdict := ⟨ofWord? Named.table⟩

namespace Verdict

/-- The verdict that a text names in any letter case, with blanks around it. Texts that name none
are told apart from verdicts that were not passed. -/
def read (text : String) : Except UnknownWord Verdict :=
  Named.read [] (Text.raised (Text.trimmed text))

/-- How bad a verdict is, as a number for comparing verdicts. -/
def priority : Verdict → Nat
  | .safe => 1
  | .risky => 2
  | .blocked => 3

/-- The verdict on a percentage of preserved behaviour and a number of critical drifts. What blocks
is looked at first, so it outweighs a high percentage. -/
def ofPreservation {α : Type} [Arithmetic α] (percentage : α) (criticalDrifts : Nat) : Verdict :=
  if Arithmetic.less percentage (Arithmetic.count 85) || 2 < criticalDrifts then .blocked
  else if Arithmetic.atMost (Arithmetic.count 98) percentage && criticalDrifts == 0 then .safe
  else .risky

/-- The worse of two verdicts, the second one if they are equally bad. As equally bad verdicts are
the same, that choice cannot be seen. -/
def worse (left right : Verdict) : Verdict :=
  if right.priority < left.priority then left else right

/-- The worst of the verdicts that were passed, or none if no verdict was. -/
def worst? (verdicts : List (Option Verdict)) : Option Verdict :=
  verdicts.foldl
    (fun worst verdict => match worst, verdict with
      | some left, some right => some (worse left right)
      | none, verdict => verdict
      | worst, none => worst)
    none

end Verdict

end MigrationGuard
