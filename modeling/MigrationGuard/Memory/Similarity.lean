/-
This file measures how similar two embeddings are: by the cosine of the angle
between them, computed in the order of their numbers. Singles are added one after
the other, so the same vectors give the same similarity everywhere. A vector
without a direction, or one of another length, is similar to nothing.
-/

import MigrationGuard.Memory.Record

namespace MigrationGuard

/-- The distance from one to the next number. A squared length up to it counts as none. -/
def shortestSquare : Float32 := Float32.ofBits 0x34000000

/-- The sum of the products of the numbers of two vectors, added from the first to the last. -/
def dotProduct (left right : Embedding) : Float32 :=
  (left.zip right).foldl (fun sum pair => sum + pair.1 * pair.2) 0.0

/-- The cosine of the angle between two vectors, unless one has no direction or their lengths
differ. -/
def cosine? (left right : Embedding) : Option Float32 :=
  if left.length ≠ right.length ∨ left = [] then none
  else
    let leftSquare := dotProduct left left
    let rightSquare := dotProduct right right
    if leftSquare ≤ shortestSquare || rightSquare ≤ shortestSquare then none
    else some (dotProduct left right / (leftSquare.sqrt * rightSquare.sqrt))

/-- A vector of length one with the same direction, if the vector has a direction. -/
def unit? (vector : Embedding) : Option Embedding :=
  let square := dotProduct vector vector
  if square ≤ shortestSquare then none else some (vector.map fun number => number / square.sqrt)

end MigrationGuard
