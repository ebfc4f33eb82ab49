/-
This file holds trees of files and the disk that a program sees: a tree together
with the directory that relative paths start from. Every operation either succeeds
or says why it cannot be done; one that fails leaves the disk as it was, except
that directories made on the way to a failing one stay. Paths are walked component
by component, so that two dots lead out of the directory that has been reached and
a file on the way is noticed. The files below a directory are listed with their
paths, in the order in which the tree holds them.
-/

import MigrationGuard.Path
import MigrationGuard.Text.Utf8

namespace MigrationGuard

/-! ### Failures -/

/-- Why a file operation cannot be done, as far as the program tells the reasons apart. -/
inductive FileFailure where
  /-- Nothing has this name. -/
  | notFound
  /-- Something has this name already. -/
  | alreadyExists
  /-- The path leads through something that is no directory. -/
  | notADirectory
  /-- A directory stands where a file was wanted. -/
  | isADirectory
  /-- A name is longer than file systems allow. -/
  | nameTooLong
  /-- A name holds the character that ends names. -/
  | nameHoldsNul
  /-- The content of the file is no text. -/
  | notText
  /-- Another reason, in words. -/
  | other (text : String)
  deriving DecidableEq, Repr

/-- The failure in the words of the operating system, which messages of the program repeat. -/
def FileFailure.message : FileFailure → String
  | .notFound => "No such file or directory (os error 2)"
  | .alreadyExists => "File exists (os error 17)"
  | .notADirectory => "Not a directory (os error 20)"
  | .isADirectory => "Is a directory (os error 21)"
  | .nameTooLong => "File name too long (os error 36)"
  | .nameHoldsNul => "file name contained an unexpected NUL byte"
  | .notText => "stream did not contain valid UTF-8"
  | .other text => text

/-! ### Trees -/

/-- What a name in a directory stands for. -/
inductive FileTree where
  /-- A regular file. -/
  | file (content : List UInt8)
  /-- A regular file that cannot be read, and why. -/
  | locked (failure : FileFailure)
  /-- A directory with its entries by name. -/
  | directory (entries : List (String × FileTree))
  /-- Anything else, such as a link or a device. -/
  | special
  deriving Inhabited

namespace FileTree

/-- The entries of a directory. What is no directory has none. -/
def entries : FileTree → List (String × FileTree)
  | .directory entries => entries
  | _ => []

/-- The tree is a directory, which files can be put into. -/
def isDirectory : FileTree → Bool
  | .directory _ => true
  | _ => false

/-- What stands under a chain of names, each looked up in the directory before it. -/
def at? (tree : FileTree) : List String → Option FileTree
  | [] => some tree
  | name :: names => (tree.entries.lookup name).bind fun inner => inner.at? names

/-- The entries with one of them set, in its old place or at the end. -/
def setEntry (name : String) (tree : FileTree) :
    List (String × FileTree) → List (String × FileTree)
  | [] => [(name, tree)]
  | entry :: entries =>
    if entry.1 = name then (name, tree) :: entries else entry :: setEntry name tree entries

/-- The tree with something new under a chain of names. Where the chain leads through no directory
nothing changes. -/
def put (tree new : FileTree) : List String → FileTree
  | [] => new
  | name :: names => match tree with
    | .directory entries => match names, entries.lookup name with
      | [], _ => .directory (setEntry name new entries)
      | _, some inner => .directory (setEntry name (inner.put new names) entries)
      | _, none => tree
    | _ => tree

/-- The tree without what stands under a chain of names. Nothing changes where nothing stands there.
-/
def remove (tree : FileTree) : List String → FileTree
  | [] => tree
  | [name] => match tree with
    | .directory entries => .directory (entries.filter fun entry => entry.1 != name)
    | _ => tree
  | name :: names => match tree with
    | .directory entries => match entries.lookup name with
      | some inner => .directory (setEntry name (inner.remove names) entries)
      | none => tree
    | _ => tree

mutual

/-- The regular files of a tree by their paths, given the path of the tree. Directories whose names
the test excludes are passed over. -/
def filesBelow (excluded : String → Bool) (path : String) :
    FileTree → List (String × Except FileFailure (List UInt8))
  | .file content => [(path, .ok content)]
  | .locked failure => [(path, .error failure)]
  | .directory entries => filesOfEntries excluded path entries
  | .special => []

/-- The regular files below the entries of a directory, entry by entry. -/
def filesOfEntries (excluded : String → Bool) (path : String) :
    List (String × FileTree) → List (String × Except FileFailure (List UInt8))
  | [] => []
  | (name, tree) :: entries =>
    (if tree.isDirectory && excluded name then []
      else tree.filesBelow excluded (Path.join path name)) ++ filesOfEntries excluded path entries

end

end FileTree

/-! ### Disks -/

/-- A tree of files and the directory that relative paths start from. Both are all that an operation
depends on. -/
structure Disk where
  tree : FileTree
  /-- The names that lead to the working directory. -/
  working : List String
  deriving Inhabited

namespace Disk

/-- The length of the longest name that a file may have, in bytes. -/
def longestName : Nat := 255

/-- Takes one more component of a path. Whatever a name is looked up in has to be a directory. -/
def step (disk : Disk) (names : List String) (component : PathComponent) :
    Except FileFailure (List String) :=
  match component with
  | .root => .ok []
  | .current => .ok names
  | .parent => match disk.tree.at? names with
    | some (.directory _) => .ok names.dropLast
    | some _ => .error .notADirectory
    | none => .error .notFound
  | .normal name => match disk.tree.at? names with
    | some (.directory _) =>
      if longestName < name.utf8ByteSize then .error .nameTooLong else .ok (names ++ [name])
    | some _ => .error .notADirectory
    | none => .error .notFound

/-- The names that a path leads to. The last one need not exist. -/
def locate (disk : Disk) (path : String) : Except FileFailure (List String) :=
  if path = "" then .error .notFound
  else if path.toList.contains '\x00' then .error .nameHoldsNul
  else (Path.components path).foldlM disk.step disk.working

/-- What stands at a path, be it a file, a directory or something else. -/
def find (disk : Disk) (path : String) : Except FileFailure FileTree := do
  match disk.tree.at? (← disk.locate path) with
  | some tree => return tree
  | none => throw .notFound

/-- The content of a file, which is bytes and need not be a text. -/
def read (disk : Disk) (path : String) : Except FileFailure (List UInt8) := do
  match ← disk.find path with
  | .file content => return content
  | .locked failure => throw failure
  | .directory _ => throw .isADirectory
  | .special => throw (.other "unreadable")

/-- The disk with a file of the given content, which is made or replaced. -/
def write (disk : Disk) (path : String) (content : List UInt8) : Except FileFailure Disk := do
  let names ← disk.locate path
  match disk.tree.at? names with
  | some (.directory _) => throw .isADirectory
  | _ => return { disk with tree := disk.tree.put (.file content) names }

/-- Makes sure that a chain of names is a directory whose parent is one. The flag tells whether the
path goes on. -/
def makeDirectory (disk : Disk) (names : List String) (goesOn : Bool) : Disk × Option FileFailure :=
  match disk.tree.at? names with
  | some (.directory _) => (disk, none)
  | some _ => (disk, some (if goesOn then .notADirectory else .alreadyExists))
  | none => ({ disk with tree := disk.tree.put (.directory []) names }, none)

/-- Makes the missing directories along the components of a path. -/
def makeAlong (disk : Disk) (names : List String) :
    List PathComponent → Disk × Option FileFailure
  | [] => (disk, none)
  | component :: components => match disk.step names component with
    | .error failure => (disk, some failure)
    | .ok next => match disk.makeDirectory next (!components.isEmpty) with
      | (made, none) => made.makeAlong next components
      | (made, some failure) => (made, some failure)

/-- Makes a directory and those above it, as far as they are missing. -/
def makeDirectories (disk : Disk) (path : String) : Disk × Option FileFailure :=
  if path.toList.contains '\x00' then (disk, some .nameHoldsNul)
  else disk.makeAlong disk.working (Path.components path)

/-- The disk without a directory and all that it holds. A file is not removed so. -/
def removeDirectory (disk : Disk) (path : String) : Except FileFailure Disk := do
  let names ← disk.locate path
  match disk.tree.at? names with
  | some (.directory _) => return { disk with tree := disk.tree.remove names }
  | some _ => throw .notADirectory
  | none => throw .notFound

/-- The disk without a file. A directory is not removed so. -/
def removeFile (disk : Disk) (path : String) : Except FileFailure Disk := do
  let names ← disk.locate path
  match disk.tree.at? names with
  | some (.directory _) => throw .isADirectory
  | some _ => return { disk with tree := disk.tree.remove names }
  | none => throw .notFound

/-- The absolute path of what stands at a path, without dots and repeated slashes. -/
def resolve (disk : Disk) (path : String) : Except FileFailure String := do
  let names ← disk.locate path
  match disk.tree.at? names with
  | some _ => return Path.ofNames names
  | none => throw .notFound

end Disk

end MigrationGuard
