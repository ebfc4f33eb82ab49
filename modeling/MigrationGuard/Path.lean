/-
This file reads slash-separated paths. A path is kept as the string that was
given, because messages show it so; its components are what file names, module
names and the order of files are computed from. Repeated slashes and dots inside
of a path make no difference to its components, and two dots stay what they are,
as only a walk through a tree can take back a name. The order of paths is that of
their components, so a directory stands before what lies below it.
-/

import MigrationGuard.Text.Search

namespace MigrationGuard

/-- One component of a path. Every list of components is that of some path. -/
inductive PathComponent where
  /-- The leading slash of an absolute path. -/
  | root
  /-- A leading dot. Dots further inside are dropped. -/
  | current
  /-- Two dots. -/
  | parent
  /-- The name of a file or a directory. -/
  | normal (name : String)
  deriving DecidableEq, Repr

namespace Path

open Text

/-! ### Components -/

/-- The names between the slashes of a path, empty ones included. Where a slash ends the path, the
last one is empty. -/
def segments (path : String) : List String :=
  (cutAtEach (· == '/') path.toList).map String.ofList

/-- The component that a segment behind the first one gives, if any. Empty segments and single dots
give none. -/
def component? (segment : String) : Option PathComponent :=
  if segment = "" || segment = "." then none
  else if segment = ".." then some .parent
  else some (.normal segment)

/-- The path begins at the root, so it means the same from everywhere. -/
def isAbsolute (path : String) : Bool :=
  beginsWith path "/"

/-- The components of a path: repeated slashes and inner dots vanish. Paths with the same components
lead to the same place. -/
def components (path : String) : List PathComponent :=
  let rest := (segments path).filterMap component?
  if isAbsolute path then .root :: rest
  else if (segments path).head? = some "." then .current :: rest
  else rest

/-- The names among the components of a path, without the root and without dots. -/
def names (path : String) : List String :=
  (components path).filterMap fun
    | .normal name => some name
    | _ => none

/-- The last component of a path, if it is a name. Roots and dots name no file. -/
def fileName? (path : String) : Option String :=
  match (components path).getLast? with
  | some (.normal name) => some name
  | _ => none

/-! ### Stems and extensions -/

/-- What stands before and behind the last dot of a file name. A dot at the very front begins no
extension. -/
def splitExtension (name : String) : String × Option String :=
  match cutAtLast '.' name.toList with
  | some (stem, extension) =>
    if stem.isEmpty then (name, none) else (String.ofList stem, some (String.ofList extension))
  | none => (name, none)

/-- The extension of a path's file name, or nothing if it has none. -/
def extension? (path : String) : Option String :=
  (fileName? path).bind fun name => (splitExtension name).2

/-! ### Joining -/

/-- The path of a name below a directory. An absolute name stands for itself. -/
def join (directory name : String) : String :=
  if isAbsolute name then name
  else if directory = "" || endsWith directory "/" then directory ++ name
  else directory ++ "/" ++ name

/-- The text of a list of components, with single slashes between them. -/
def ofComponents : List PathComponent → String
  | [] => ""
  | .root :: rest => "/" ++ joined "/" (rest.map componentText)
  | first :: rest => joined "/" ((first :: rest).map componentText)
where
  componentText : PathComponent → String
    | .root => ""
    | .current => "."
    | .parent => ".."
    | .normal name => name

/-- The path of the directory that a path stands in. A single name stands in the empty path. -/
def parent? (path : String) : Option String :=
  match (components path).getLast? with
  | none => none
  | some .root => none
  | some _ => some (ofComponents (components path).dropLast)

/-- The components of a path behind those of a directory, if the path lies there. -/
def below? (directory path : List PathComponent) : Option (List PathComponent) :=
  if directory.isPrefixOf path then some (path.drop directory.length) else none

/-- Writes both kinds of slash as the same one, so that paths of other systems can be compared. -/
def normalizeSlashes (path : String) : String :=
  String.ofList (path.toList.map fun character => if character = '\\' then '/' else character)

/-! ### Order -/

/-- The rank of a component's kind: names come last. It orders components of different kinds. -/
def PathComponent.rank : PathComponent → Nat
  | .root => 0
  | .current => 1
  | .parent => 2
  | .normal _ => 3

/-- The order of components. Names are ordered by their code points, the others by their kind. -/
def componentBefore : PathComponent → PathComponent → Bool
  | .normal left, .normal right => decide (left < right)
  | left, right => PathComponent.rank left < PathComponent.rank right

/-- The order of component lists, one component after the other. A list stands before those that go
on behind it. -/
def componentsAtMost : List PathComponent → List PathComponent → Bool
  | [], _ => true
  | _ :: _, [] => false
  | left :: lefts, right :: rights =>
    if componentBefore left right then true
    else if componentBefore right left then false
    else componentsAtMost lefts rights

/-- The order of paths, component by component. It is not that of their texts, as slashes have no
part in it. -/
def atMost (left right : String) : Bool :=
  componentsAtMost (components left) (components right)

/-! ### Lexical resolution -/

/-- The names that lead from the root to a path seen from a directory. Two dots take back the
name before them. -/
def resolveNames (directory : List String) (path : String) : List String :=
  (components path).foldl
    (fun names component => match component with
      | .root => []
      | .current => names
      | .parent => names.dropLast
      | .normal name => names ++ [name])
    directory

/-- The absolute path of a list of names, which leads from the root to the last one. -/
def ofNames (names : List String) : String :=
  "/" ++ joined "/" names

end Path

end MigrationGuard
