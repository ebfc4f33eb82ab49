/-
This file decides from the dotted name of a call which side effects it has. A kind
of effect is present when one of its words occurs anywhere in the name. That errs
on the side of caution: a function whose own name holds such a word counts as
having the effect, and nothing is known of what it really does. Reading the
environment needs no call, so the names that do it are told apart.
-/

import MigrationGuard.Workflow.Effect

namespace MigrationGuard

/-- The words that tell of a kind of side effect. -/
def SideEffect.keywords : SideEffect → List String
  | .fileIo => ["open", "read", "write", "readline", "readlines", "writelines"]
  | .envRead => ["os.environ", "os.getenv", "environ.get", "getenv"]
  | .network => ["requests", "urllib", "httpx", "aiohttp", "socket"]
  | .database => ["execute", "cursor", "commit", "rollback", "session.add", "session.query"]
  | .subprocess => ["subprocess", "os.system", "Popen"]

/-- The side effects of a call, as far as its name tells. -/
def classifyCall (callee : String) : EffectSet :=
  EffectSet.ofTest fun effect => effect.keywords.any fun keyword => Text.contains callee keyword

/-- A dotted name that reads the environment without a call. -/
def isEnvironmentName (dotted : String) : Bool :=
  dotted == "os.environ" || Text.beginsWith dotted "os.environ."

/-- The set that holds environment reads only, for names that read it without a call. -/
def environmentRead : EffectSet :=
  EffectSet.ofList [.envRead]

theorem contains_environmentRead (effect : SideEffect) :
    environmentRead.contains effect ↔ effect = .envRead := by
  cases effect <;> decide

end MigrationGuard
