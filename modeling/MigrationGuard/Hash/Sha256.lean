/-
This file holds the hash function SHA-256. A message is padded to a multiple of
sixty-four bytes and folded block by block into eight words. Each block is spread
into a schedule of sixty-four words, one for each round, and the rounds mix them
into the words of the block before. Repositories are known by the beginning of
such a hash.
-/

import MigrationGuard.Hash.Hex
import MigrationGuard.Text.Utf8

namespace MigrationGuard.Hash.Sha256

/-- The words that the function starts from, before the first block. -/
def initialValue : List UInt32 :=
  [0x6A09E667, 0xBB67AE85, 0x3C6EF372, 0xA54FF53A, 0x510E527F, 0x9B05688C, 0x1F83D9AB, 0x5BE0CD19]

/-- The constant of each round, which the word of the schedule is added to. -/
def roundConstants : List UInt32 :=
  [0x428a2f98, 0x71374491, 0xb5c0fbcf, 0xe9b5dba5, 0x3956c25b, 0x59f111f1, 0x923f82a4, 0xab1c5ed5,
   0xd807aa98, 0x12835b01, 0x243185be, 0x550c7dc3, 0x72be5d74, 0x80deb1fe, 0x9bdc06a7, 0xc19bf174,
   0xe49b69c1, 0xefbe4786, 0x0fc19dc6, 0x240ca1cc, 0x2de92c6f, 0x4a7484aa, 0x5cb0a9dc, 0x76f988da,
   0x983e5152, 0xa831c66d, 0xb00327c8, 0xbf597fc7, 0xc6e00bf3, 0xd5a79147, 0x06ca6351, 0x14292967,
   0x27b70a85, 0x2e1b2138, 0x4d2c6dfc, 0x53380d13, 0x650a7354, 0x766a0abb, 0x81c2c92e, 0x92722c85,
   0xa2bfe8a1, 0xa81a664b, 0xc24b8b70, 0xc76c51a3, 0xd192e819, 0xd6990624, 0xf40e3585, 0x106aa070,
   0x19a4c116, 0x1e376c08, 0x2748774c, 0x34b0bcb5, 0x391c0cb3, 0x4ed8aa4a, 0x5b9cca4f, 0x682e6ff3,
   0x748f82ee, 0x78a5636f, 0x84c87814, 0x8cc70208, 0x90befffa, 0xa4506ceb, 0xbef9a3f7, 0xc67178f2]

/-! ### One block -/

/-- Adds the next word of the schedule, computed from the last sixteen. -/
def extendSchedule (schedule : Array UInt32) : Array UInt32 :=
  let size := schedule.size
  let back := fun distance => schedule.getD (size - distance) 0
  let low := rotateRight (back 15) 7 ^^^ rotateRight (back 15) 18 ^^^ (back 15 >>> 3)
  let high := rotateRight (back 2) 17 ^^^ rotateRight (back 2) 19 ^^^ (back 2 >>> 10)
  schedule.push (back 16 + low + back 7 + high)

/-- The sixty-four words of a block's schedule, the first sixteen of which are the block itself. -/
def schedule (block : List UInt8) : Array UInt32 :=
  (List.range 48).foldl (fun words _ => extendSchedule words) (bigEndianWords block).toArray

/-- The eight working words that the rounds of a block mix. -/
structure Working where
  a : UInt32
  b : UInt32
  c : UInt32
  d : UInt32
  e : UInt32
  f : UInt32
  g : UInt32
  h : UInt32

/-- The working words of a list of eight. -/
def Working.ofList (words : List UInt32) : Working :=
  let word := fun index => words.getD index 0
  ⟨word 0, word 1, word 2, word 3, word 4, word 5, word 6, word 7⟩

/-- The working words as a list. -/
def Working.toList (words : Working) : List UInt32 :=
  [words.a, words.b, words.c, words.d, words.e, words.f, words.g, words.h]

/-- One round with its constant and its word of the schedule. -/
def Working.step (words : Working) (input : UInt32 × UInt32) : Working :=
  let mixE := rotateRight words.e 6 ^^^ rotateRight words.e 11 ^^^ rotateRight words.e 25
  let choice := (words.e &&& words.f) ^^^ ((~~~words.e) &&& words.g)
  let first := words.h + mixE + choice + input.1 + input.2
  let mixA := rotateRight words.a 2 ^^^ rotateRight words.a 13 ^^^ rotateRight words.a 22
  let majority := (words.a &&& words.b) ^^^ (words.a &&& words.c) ^^^ (words.b &&& words.c)
  ⟨first + (mixA + majority), words.a, words.b, words.c, words.d + first, words.e, words.f, words.g⟩

/-- Folds one block of sixty-four bytes into the eight words. -/
def foldBlock (words : List UInt32) (block : List UInt8) : List UInt32 :=
  let mixed :=
    (roundConstants.zip (schedule block).toList).foldl Working.step (Working.ofList words)
  List.zipWith (· + ·) words mixed.toList

/-! ### The whole message -/

/-- The message with its padding: a one bit, zeros, and the number of bits in eight bytes. -/
def padded (bytes : List UInt8) : List UInt8 :=
  let bits := bytes.length * 8
  let zeros := (119 - bytes.length % 64) % 64
  bytes ++ [0x80] ++ List.replicate zeros 0 ++ bigEndianBytes (bits / Nat.pow 2 32).toUInt32 ++
    bigEndianBytes bits.toUInt32

/-- The thirty-two bytes of the hash: the eight words behind the last block. -/
def hash (bytes : List UInt8) : List UInt8 :=
  ((chunksOf 64 (padded bytes)).foldl foldBlock initialValue).flatMap bigEndianBytes

/-- The hexadecimal digits of the hash of a text. -/
def hashText (text : String) : String :=
  hexText (hash (Text.encode text))

end MigrationGuard.Hash.Sha256
