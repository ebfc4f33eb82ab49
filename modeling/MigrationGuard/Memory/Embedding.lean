/-
This file embeds texts. The hashed embedding counts words in sixty-four places,
with a sign that the hash of the word gives, and brings the counts to length one,
so equal texts have equal vectors everywhere. The other embedding asks a model and
reads the vector from its answer, at the first of several places that holds one. A
vector is kept as a text, in which a number that is not finite has no spelling, so
not every vector that is kept can be read again. What the reader of such a vector
says, with the place of the first number that is none, follows from how the
numbers before it are spelled.
-/

import MigrationGuard.Data.Json
import MigrationGuard.Decimal.Narrowing
import MigrationGuard.Memory.Similarity

namespace MigrationGuard

open Data

/-! ### Hashed embedding -/

/-- The number of places of a hashed embedding, whatever the text. -/
def hashedPlaces : Nat := 64

/-- The words of a text: runs of ASCII letters and digits, in small letters. -/
def embeddedWords (text : String) : List (List Char) :=
  (Text.pieces (fun character => !character.isAlphanum) text.toList).map (·.map Char.toLower)

/-- The hash of a word: every byte is mixed in and the result multiplied by a prime. -/
def wordHash (word : List Char) : UInt64 :=
  word.foldl (fun hash character => (hash ^^^ character.val.toUInt64) * 0x100000001b3)
    0xcbf29ce484222325

/-- The place of a word and the number that it adds there. -/
def wordWeight (word : List Char) : Nat × Float32 :=
  let hash := wordHash word
  (hash.toNat % hashedPlaces, if (hash >>> 8) &&& 1 = 0 then 1.0 else -1.0)

/-- The vector without direction, which a text without words has. -/
def blankEmbedding : Embedding :=
  List.replicate hashedPlaces 0.0

/-- The hashed embedding of a text: the signed counts of its words, brought to length one. -/
def hashedEmbedding (text : String) : Embedding :=
  let counts := (embeddedWords text).foldl
    (fun vector word =>
      let (place, weight) := wordWeight word
      vector.modify place (· + weight))
    blankEmbedding
  (unit? counts).getD blankEmbedding

/-! ### Answers of a model -/

/-- Why an answer holds no vector that could be used. -/
inductive EmbeddingFault where
  /-- An item at the given place is no number. -/
  | notANumber (place : String)
  /-- No place holds a vector with a direction. -/
  | missing
  deriving DecidableEq, Repr

/-- The fault in words, which the failure of memory repeats. -/
def EmbeddingFault.message : EmbeddingFault → String
  | .notANumber place => "non-numeric value at " ++ place
  | .missing => "missing embedding vector in response body"

/-- What stands under zero: the first item of a list, or the member with this name. -/
def firstItem? : Value → Option Value
  | .list items => items.head?
  | value => value.get? "0"

/-- The places of an answer that may hold a vector, each with what stands there. -/
def vectorPlaces (answer : Value) : List (String × Option Value) :=
  [("/embedding", answer.get? "embedding"),
    ("/embeddings/0", (answer.get? "embeddings").bind firstItem?),
    ("/data/0/embedding",
      ((answer.get? "data").bind firstItem?).bind fun item => item.get? "embedding")]

/-- The finite numbers that a list of items spells. -/
def finiteNumbers? (items : List Value) : Option (List Float) :=
  items.mapM fun item => item.toFloat?.filter Float.isFinite

/-- The vector that a list of items spells. Its numbers are narrowed after they are checked. -/
def numbersAt (place : String) (items : List Value) : Except EmbeddingFault Embedding :=
  match finiteNumbers? items with
  | some numbers => .ok (numbers.map Decimal.narrowed)
  | none => .error (.notANumber place)

/-- The first vector with a direction at a list of places. -/
def vectorAmong : List (String × Option Value) → Except EmbeddingFault Embedding
  | [] => .error .missing
  | (place, found) :: places => match found.bind Value.toList? with
    | none => vectorAmong places
    | some items => match numbersAt place items with
      | .error fault => .error fault
      | .ok vector => match unit? vector with
        | some unit => .ok unit
        | none => vectorAmong places

/-- The vector of length one that an answer gives, at the first place with a direction. -/
def embeddingOfAnswer (answer : Value) : Except EmbeddingFault Embedding :=
  vectorAmong (vectorPlaces answer)

/-- The question that is put to a model. -/
def embeddingQuestion (model text : String) : Value :=
  .record [("model", .text model), ("prompt", .text text)]

/-! ### Kept vectors -/

/-- The place behind the first null among the spelled numbers of a vector, if there is one. Each of
the numbers before it is followed by a comma. -/
def nullEnd? : Embedding → Option Nat
  | [] => none
  | number :: numbers =>
    let spelled := (Json.singleText number).length
    if number.isFinite then (nullEnd? numbers).map (spelled + 1 + ·) else some spelled

/-- What the reader of a kept vector complains about, if it does. The numbers stand on one line
behind a bracket. -/
def Embedding.mismatch? (vector : Embedding) : Option Json.Mismatch :=
  (nullEnd? vector).map fun place => ⟨"null", "f32", 1, 1 + place⟩

end MigrationGuard
