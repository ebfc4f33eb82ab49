/-
This file runs the stages of a session in order until one fails or the gate
closes. Without a migrated workspace a session rests behind the gate; it can be
taken up again from there, also past a closed gate or a failure behind it. A
session that is taken up again forgets why it stopped and goes on with the stages
behind the gate, and it does not pause there again. Every other session is refused
with the word for how far it has come.
-/

import MigrationGuard.Session.Stages

namespace MigrationGuard

variable {m : Type → Type} [Monad m]

/-- Performs a stage. A failure leaves the session as it was and is noted. -/
def advance (around : Surroundings m) (stage : Stage) (session : Session) : m Session := do
  match ← stage.perform around session with
  | .ok next => return next
  | .error failure => return session.failedAt stage failure.message

/-- Runs stages in order. A session that pauses does not enter validation without a migrated
workspace. -/
def runStages (around : Surroundings m) (pauses : Bool) : List Stage → Session → m Session
  | [], session => return session
  | stage :: stages, session =>
    if session.isStopped then return session
    else if pauses && stage == .validate && session.migratedPath.isNone then return session
    else do runStages around pauses stages (← advance around stage session)

/-- Runs a session from its beginning. It pauses behind the gate if no migrated workspace is known.
-/
def runSession (around : Surroundings m) (session : Session) : m Session :=
  runStages around true Stage.inOrder session

/-- A session rests where it can be taken up again. -/
def Progress.isResumable : Progress → Bool
  | .riskAnalyzed => true
  | .riskBlocked => true
  | .failed .validate => true
  | .failed .report => true
  | _ => false

/-- The message for a session that cannot be taken up again, with how far it has come. -/
def Progress.refusal (progress : Progress) : String :=
  "a run at stage '" ++ progress.label ++ "' cannot be resumed"

/-- The session as it passes the gate again, with another migrated workspace if one is given. -/
def Session.reopened (session : Session) (migrated : Option String) : Session :=
  { session with
    migratedPath := migrated.orElse fun _ => session.migratedPath
    error := none
    progress := .riskAnalyzed }

/-- Takes a session up again. The progress tells why that may be refused. -/
def resumeSession (around : Surroundings m) (session : Session) (migrated : Option String) :
    m (Except Progress Session) :=
  if session.progress.isResumable then do
    return .ok (← runStages around false Stage.behindGate (session.reopened migrated))
  else return .error session.progress

end MigrationGuard
