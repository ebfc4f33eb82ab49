/-
This file saves sessions and loads them again. Where a file that is written can be
read, loading gives what the text of the saved session stands for. So a session
that paused behind the gate may be taken up again from its file instead, just if
all its numbers can be read. Of the files it is asked only that what was written
to the path of the session, once the directory for it was made, can be read from
there; on a disk this holds of every path that can be followed, and other stores
of files may promise it in their own way. What the text stands for was settled
before, so nothing about its layout is needed here. Loading a file with any other
text fails and says that the state is malformed.
-/

import MigrationGuard.Proofs.Files.Disk
import MigrationGuard.Proofs.Session.Stored
import MigrationGuard.Proofs.Text.Utf8
import MigrationGuard.Session.Documents

namespace MigrationGuard

section
variable {World : Type} {files : FileAccess (StateM World)} {session : Session} {path : String}
  {world saved : World}

/-- The file that a session is saved in can be read again, once the directory of saved sessions was
made in the world. -/
def FileAccess.KeepsSaved (files : FileAccess (StateM World)) (session : Session)
    (world : World) : Prop :=
  files.Keeps session.savedPath
    (files.makeDirectories (WorkspacePlaces.of session.repository).runs world).2

/-- A session that is saved can be read at its place, which its identity tells. -/
theorem read_of_saveSession (keeps : files.KeepsSaved session world)
    (written : saveSession files session world = (.ok path, saved)) :
    path = session.savedPath ∧ (files.read path saved).1 = .ok (Text.encode session.toText) := by
  unfold saveSession at written
  unfold FileAccess.KeepsSaved at keeps
  rcases made : files.makeDirectories (WorkspacePlaces.of session.repository).runs world with
    ⟨failure | _, before⟩
  · simp only [bind_apply, made] at written
    exact nomatch written
  rw [made] at keeps
  rcases wrote : files.write session.savedPath (Text.encode session.toText) before with
    ⟨failure | _, after⟩
  · simp only [bind_apply, made, FileAccess.writeText, wrote] at written
    exact nomatch written
  · simp only [bind_apply, made, FileAccess.writeText, wrote] at written
    obtain ⟨place, left⟩ := Prod.mk.inj written
    obtain rfl : session.savedPath = path := Except.ok.inj place
    exact ⟨rfl, keeps _ saved (wrote.trans (congrArg _ left))⟩

/-- Reading a document reads the file and nothing else, and fails if its text cannot be parsed. -/
theorem readDocument_of_read {Result : Type} {parse : String → Option Result} {kind text : String}
    (holds : (files.read path world).1 = .ok (Text.encode text)) :
    readDocument parse files kind path world = (match parse text with
      | some document => .ok document
      | none => .error (.malformed kind path), (files.read path world).2) := by
  rw [readDocument, bind_apply, FileAccess.readText, bind_apply, holds]
  rcases parsed : parse text with _ | document
  · simp only [Text.decodeStrict_encode, pure_apply, parsed]
  · simp only [Text.decodeStrict_encode, pure_apply, parsed]

/-- Loading a text gives the session that it stands for, or a failure that names the path. -/
theorem loadSession_of_read {text : String}
    (holds : (files.read path world).1 = .ok (Text.encode text)) :
    (loadSession files path world).1 = match Session.ofText? text with
      | some session => .ok session
      | none => .error (.malformed "run state" path) := by
  rw [loadSession, readDocument_of_read holds]
  cases Session.ofText? text <;> rfl

/-- A session that is saved and loaded comes back, up to the risk score of its report, just if it
is legible. Otherwise loading fails. -/
theorem loadSession_of_saved {loaded : Session} (keeps : files.KeepsSaved session world)
    (written : saveSession files session world = (.ok path, saved)) :
    (loadSession files path saved).1 = .ok loaded ↔ session.Legible ∧ session.reread = loaded := by
  obtain ⟨-, holds⟩ := read_of_saveSession keeps written
  rw [loadSession_of_read holds, ← Session.ofText?_toText_iff]
  cases Session.ofText? session.toText with
  | none => exact ⟨nofun, nofun⟩
  | some again => simp

end

end MigrationGuard
