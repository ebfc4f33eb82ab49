/-
This file treats types with finitely many named alternatives. A text that names
one of them is read word for word; a text that names none is refused with the list
of words that would have been understood. Such a type may know further spellings,
which are read but never written, so what is written can always be read again.
-/

import MigrationGuard.Data.Value
import MigrationGuard.Text.Search

namespace MigrationGuard.Data

/-- A type whose alternatives have names. All of it that is read and written follows from the list
of alternatives and their names. -/
class Named (α : Type) where
  /-- What an alternative is called as a kind of thing. -/
  noun : String
  all : List α
  name : α → String

/-- A text that names no alternative, with what is needed to say what would have been right. -/
structure UnknownWord where
  /-- What kind of thing was looked for. -/
  noun : String
  word : String
  /-- The names that would have been understood. -/
  known : List String
  deriving DecidableEq, Repr

/-- The report of an unknown word: what was looked for, what was given and what is known. -/
def UnknownWord.message (unknown : UnknownWord) : String :=
  "invalid " ++ unknown.noun ++ " '" ++ unknown.word ++ "', expected one of: " ++
    Text.joined ", " unknown.known

namespace Named

variable {α : Type} [Named α]

/-- The alternative with a name, in the letter case of the name. -/
def find? (word : String) : Option α :=
  (all : List α).find? fun alternative => name alternative == word

/-- The names of all alternatives, each with its alternative. -/
def table : List (String × α) :=
  (all : List α).map fun alternative => (name alternative, alternative)

/-- The alternative that a word names, further spellings included. -/
def read (further : List (String × α)) (word : String) : Except UnknownWord α :=
  match (find? word).orElse fun _ => further.lookup word with
  | some alternative => .ok alternative
  | none => .error ⟨noun α, word, (all : List α).map name⟩

/-- Named alternatives are written by their names. -/
instance : ToValue α := ⟨fun alternative => .text (name alternative)⟩

end Named

end MigrationGuard.Data
