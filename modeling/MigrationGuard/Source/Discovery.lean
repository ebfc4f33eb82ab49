/-
This file finds the source files of a tree: the regular files with a known
extension, except those below a directory with an excluded name. The name of the
root itself never counts. Files stand in the order of their paths, component by
component, whatever the order in which the tree lists them. The name of a module
is that of the path from the root to its file, without the extension, and a file
that stands for its directory gives the name of the directory. A target keeps the
modules whose names contain it.
-/

import MigrationGuard.Files.Tree

namespace MigrationGuard

/-! ### Module names -/

/-- The name of the module of files at the very root. -/
def rootModuleName : String := "root"

/-- The stem of a file that stands for its directory. -/
def packageStem : String := "__init__"

/-- The names that a module name joins: the directories and the stem of the file, unless the file
stands for its directory. -/
def moduleParts (names : List String) : List String :=
  match names.getLast? with
  | none => []
  | some last =>
    let stem := (Path.splitExtension last).1
    if stem = packageStem then names.dropLast else names.dropLast ++ [stem]

/-- The name of the module of a file, seen from a root. A file elsewhere is named by its own
path. -/
def moduleName (root file : String) : String :=
  let components := Path.components file
  let relative := (Path.below? (Path.components root) components).getD components
  let names := relative.filterMap fun
    | .normal name => some name
    | _ => none
  let parts := moduleParts names
  if parts.isEmpty then rootModuleName else Text.joined "." parts

/-! ### Source files -/

/-- A source file that was found, with its content as far as it can be read. -/
structure SourceFile where
  path : String
  /-- The name of its module. -/
  module : String
  /-- Its bytes, or why they cannot be read. -/
  content : Except FileFailure (List UInt8)

/-- The text of a source file. Bytes that are no text are replaced. -/
def SourceFile.text (file : SourceFile) : Except FileFailure String :=
  file.content.map Text.decodeLenient

/-- The path has one of the extensions, in the same letter case. -/
def hasExtension (extensions : List String) (path : String) : Bool :=
  match Path.extension? path with
  | some extension => extensions.contains extension
  | none => false

/-- The source files of a tree that stands at a path. -/
def discoverSources (root : String) (tree : FileTree) (extensions excluded : List String) :
    List SourceFile :=
  let files := tree.filesBelow excluded.contains root
  let wanted := (files.filter fun file => hasExtension extensions file.1).map fun file =>
    SourceFile.mk file.1 (moduleName root file.1) file.2
  wanted.mergeSort fun left right => Path.atMost left.path right.path

/-- The text that module names are filtered by, if it is not blank. -/
def targetText? (target : Option String) : Option String :=
  (target.map Text.trimmed).filter (· != "")

/-- The module is kept by a target. Without a target every module is. -/
def keepsModule (target : Option String) (module : String) : Bool :=
  match targetText? target with
  | some text => Text.contains module text
  | none => true

/-- The files whose modules a target keeps, in the same order. -/
def filterSources (target : Option String) (files : List SourceFile) : List SourceFile :=
  files.filter fun file => keepsModule target file.module

end MigrationGuard
