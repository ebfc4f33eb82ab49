/-
This file reads source files by the grammar and falls back to the line scanner
where a text does not follow it. The scanner reads every text, so reading never
fails; which of the two read a file is told, as the scanner sees less.
-/

import MigrationGuard.Source.LineScanner
import MigrationGuard.Source.Python.Statement

namespace MigrationGuard

/-- Reads a source text, by the grammar first where that is wanted. -/
def readModule (byGrammar : Bool) (window : Nat) (module source : String) :
    ExtractedModule × ExtractorKind :=
  let scanned := (LineScanner.extract window module source, ExtractorKind.linePattern)
  if byGrammar then
    match Python.extract module source with
    | .ok found => (found, .syntaxTree)
    | .error _ => scanned
  else scanned

end MigrationGuard
