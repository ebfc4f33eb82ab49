/-
This file narrows doubles to singles. A finite double gives the nearest single,
the even one of two that are as near, and an infinity if it lies beyond all
singles. Narrowing rounds the number once more, so a vector that was read as
doubles may hold singles that are not finite although all of its numbers were.
-/

namespace MigrationGuard.Decimal

open Float.Model

/-- A number rounded to the bits of a single. What is not finite stays what it is. -/
def roundedToSingle : UnpackedFloat → UnpackedFloat
  | .finite sign significand exponent _ =>
    UnpackedFloat.round Format.binary32 sign significand exponent
  | other => other

/-- The single nearest to a double, as the numbers of a vector are kept. -/
def narrowed (value : Float) : Float32 :=
  .ofModel (.pack (roundedToSingle value.toModel.unpack))

end MigrationGuard.Decimal
