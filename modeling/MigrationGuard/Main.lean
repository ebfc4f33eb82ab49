/-
This file is the program. It works on the files whose paths stand on standard
input, one a line, as a version control system lists them; a path that ends in a
slash is a directory. A command is performed on a disk in memory that holds these
files, and what it changes there is written back afterwards. Test runners, models
and webhooks lie outside its reach and count as failing. The text for programs
goes to standard output, the lines for people go to standard error.
-/

import MigrationGuard.CommandLine.Execution
import Std.Time.DateTime.Timestamp

namespace MigrationGuard.Program

/-- The disk with a listed path on it. A file that cannot be read is passed over. -/
def addListed (disk : Disk) (path : String) : IO Disk := do
  if Text.endsWith path "/" then return (disk.makeDirectories path).1
  else
    try
      let content ← IO.FS.readBinFile path
      let ready := match (Path.parent? path).filter (· != "") with
        | some directory => (disk.makeDirectories directory).1
        | none => disk
      return (ready.write path content.toList).toOption.getD ready
    catch _ => return disk

/-- The disk that holds the working directory and the listed paths. -/
def readListed (working : String) (paths : List String) : IO Disk := do
  let empty : Disk := ⟨.directory [], []⟩
  let names := Path.names working
  paths.foldlM addListed { (empty.makeDirectories working).1 with working := names }

/-- The files of a disk by their absolute paths. Those that cannot be read are left out. -/
def contents (disk : Disk) : List (String × List UInt8) :=
  (disk.tree.filesBelow (fun _ => false) "/").filterMap fun file =>
    file.2.toOption.map fun content => (file.1, content)

/-- Writes a file and makes the directories above it, so that it can lie anywhere. -/
def writeBack (path : String) (content : List UInt8) : IO Unit := do
  match (Path.parent? path).filter (· != "") with
  | some directory => IO.FS.createDirAll directory
  | none => pure ()
  IO.FS.writeBinFile path ⟨content.toArray⟩

/-- Brings the files outside from one state of the disk to the next. -/
def save (before after : Disk) : IO Unit := do
  let old := contents before
  let new := contents after
  for (path, content) in new do
    if old.lookup path != some content then writeBack path content
  for (path, _) in old do
    if (new.lookup path).isNone then IO.FS.removeFile path

/-- The outside of the program at a time, with the threshold that the environment names. -/
def station (threshold : Option String) (now : Int) : Station (StateM Disk) where
  files := Disk.access
  runner _ := return .failed (.other "test runners cannot be started from here")
  ask _ _ := return none
  send _ _ := return ()
  environment? name := if name = Station.thresholdVariable then threshold else none
  clock := return now

end MigrationGuard.Program

open MigrationGuard Program in
/-- Obeys the command line, writes back what changed and prints what the command left. -/
def main (arguments : List String) : IO UInt32 := do
  let working := (← IO.getEnv "PWD").getD "/"
  let lines := (← (← IO.getStdin).lines).toList.filter (· != "")
  let disk ← readListed working lines
  let now := (← Std.Time.Timestamp.now).toMillisecondsSinceUnixEpoch.val
  let threshold ← IO.getEnv Station.thresholdVariable
  let (result, after) := ((station threshold now).obey arguments).run disk
  save disk after
  for line in result.messages do IO.eprintln line
  IO.print result.output
  return result.exitCode.toUInt32
