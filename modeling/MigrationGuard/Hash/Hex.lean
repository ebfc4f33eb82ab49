/-
This file writes bytes as hexadecimal digits and cuts byte strings into words,
which both hash functions of the library need. Words are read and written in
either order of bytes, as the two functions differ in that. A list is cut into
pieces within a number of steps that its own length bounds.
-/

namespace MigrationGuard.Hash

/-- The small hexadecimal digit of a number below sixteen. -/
def hexDigit (value : Nat) : Char :=
  if value < 10 then Char.ofNat (48 + value) else Char.ofNat (87 + value)

/-- The two digits of a byte, the higher one first. -/
def hexByte (byte : UInt8) : List Char :=
  [hexDigit (byte.toNat / 16), hexDigit (byte.toNat % 16)]

/-- The digits of a byte string, two for each byte and none between. -/
def hexText (bytes : List UInt8) : String :=
  String.ofList (bytes.flatMap hexByte)

/-- The four bytes of a word, the lowest first. -/
def littleEndianBytes (word : UInt32) : List UInt8 :=
  [word.toUInt8, (word >>> 8).toUInt8, (word >>> 16).toUInt8, (word >>> 24).toUInt8]

/-- The words of a byte string, each with its lowest byte first. A missing byte counts as zero. -/
def littleEndianWords : List UInt8 → List UInt32
  | [] => []
  | a :: b :: c :: d :: rest =>
    (a.toUInt32 ||| (b.toUInt32 <<< 8) ||| (c.toUInt32 <<< 16) ||| (d.toUInt32 <<< 24)) ::
      littleEndianWords rest
  | [a, b, c] => [a.toUInt32 ||| (b.toUInt32 <<< 8) ||| (c.toUInt32 <<< 16)]
  | [a, b] => [a.toUInt32 ||| (b.toUInt32 <<< 8)]
  | [a] => [a.toUInt32]

/-- The four bytes of a word, the highest first. -/
def bigEndianBytes (word : UInt32) : List UInt8 :=
  (littleEndianBytes word).reverse

/-- The words of a byte string whose length is a multiple of four, each with its highest byte
first. -/
def bigEndianWords : List UInt8 → List UInt32
  | a :: b :: c :: d :: rest =>
    ((a.toUInt32 <<< 24) ||| (b.toUInt32 <<< 16) ||| (c.toUInt32 <<< 8) ||| d.toUInt32) ::
      bigEndianWords rest
  | _ => []

/-- The word turned right by a number of bits between one and thirty-one. -/
def rotateRight (word : UInt32) (bits : UInt32) : UInt32 :=
  (word >>> bits) ||| (word <<< (32 - bits))

/-- Cuts a list into pieces of the given length. The last piece may be shorter. The number of steps
bounds the number of pieces. -/
def chunksWithin (size : Nat) : Nat → List α → List (List α)
  | 0, _ => []
  | _, [] => []
  | steps + 1, items => items.take size :: chunksWithin size steps (items.drop size)

/-- Cuts a list into consecutive pieces of the given length, the last of which may be shorter. -/
def chunksOf (size : Nat) (items : List α) : List (List α) :=
  chunksWithin size items.length items

end MigrationGuard.Hash
