/-
This file holds the hash function BLAKE3 in its plain mode. A message is cut into
chunks of 1024 bytes, every chunk is compressed block by block, and the chaining
values meet in a binary tree whose left part is always a full power of two. The
tree is built level by level from its leaves, which gives the same shape. All
sizes are counted by the bytes of the message, so hashing ends on every message.
The digits of the hash of a text are its fingerprint in the library.
-/

import MigrationGuard.Hash.Hex
import MigrationGuard.Text.Utf8

namespace MigrationGuard.Hash.Blake3

/-- The constants that the function starts from, the same as those of SHA-256. -/
def initialValue : List UInt32 :=
  [0x6A09E667, 0xBB67AE85, 0x3C6EF372, 0xA54FF53A, 0x510E527F, 0x9B05688C, 0x1F83D9AB, 0x5BE0CD19]

/-- Marks the first block of a chunk, so that blocks at different places are not the same. -/
def chunkStart : UInt32 := 1
/-- Marks the last block of a chunk. -/
def chunkEnd : UInt32 := 2
/-- Marks an inner node of the tree. -/
def parentNode : UInt32 := 4
/-- Marks the node whose output is the hash. -/
def rootNode : UInt32 := 8

/-- Where each message word comes from in the next round. -/
def messageOrder : List Nat :=
  [2, 6, 3, 10, 7, 0, 4, 13, 1, 11, 12, 5, 9, 14, 15, 8]

/-! ### Compression -/

/-- Mixes two message words into four words of the state. -/
def quarter (state : Array UInt32) (a b c d : Nat) (first second : UInt32) : Array UInt32 :=
  let wordA := state.getD a 0 + state.getD b 0 + first
  let wordD := rotateRight (state.getD d 0 ^^^ wordA) 16
  let wordC := state.getD c 0 + wordD
  let wordB := rotateRight (state.getD b 0 ^^^ wordC) 12
  let wordA := wordA + wordB + second
  let wordD := rotateRight (wordD ^^^ wordA) 8
  let wordC := wordC + wordD
  let wordB := rotateRight (wordB ^^^ wordC) 7
  let left := (state.setIfInBounds a wordA).setIfInBounds b wordB
  (left.setIfInBounds c wordC).setIfInBounds d wordD

/-- One round: the columns, then the diagonals. -/
def round (state message : Array UInt32) : Array UInt32 :=
  let word := fun index => message.getD index 0
  let state := quarter state 0 4 8 12 (word 0) (word 1)
  let state := quarter state 1 5 9 13 (word 2) (word 3)
  let state := quarter state 2 6 10 14 (word 4) (word 5)
  let state := quarter state 3 7 11 15 (word 6) (word 7)
  let state := quarter state 0 5 10 15 (word 8) (word 9)
  let state := quarter state 1 6 11 12 (word 10) (word 11)
  let state := quarter state 2 7 8 13 (word 12) (word 13)
  quarter state 3 4 9 14 (word 14) (word 15)

/-- The message words in the order of the next round. -/
def reorder (message : Array UInt32) : Array UInt32 :=
  (messageOrder.map fun index => message.getD index 0).toArray

/-- A number of rounds, the message words reordered after each. -/
def rounds : Nat → Array UInt32 → Array UInt32 → Array UInt32
  | 0, state, _ => state
  | count + 1, state, message => rounds count (round state message) (reorder message)

/-- What one application of the compression function takes in. The node of the tree that it stands
for is told by its flags. -/
structure Block where
  /-- The eight words of the chaining value. -/
  chaining : List UInt32
  /-- At most sixty-four bytes of message. -/
  bytes : List UInt8
  counter : Nat
  /-- What kind of block this is. -/
  flags : UInt32

/-- The eight words that a block is compressed to. -/
def Block.compress (block : Block) : List UInt32 :=
  let padded := block.bytes ++ List.replicate (64 - block.bytes.length) 0
  let state := block.chaining ++ initialValue.take 4 ++
    [block.counter.toUInt32, (block.counter / Nat.pow 2 32).toUInt32,
      block.bytes.length.toUInt32, block.flags]
  let mixed := rounds 7 state.toArray (littleEndianWords padded).toArray
  (List.range 8).map fun index => mixed.getD index 0 ^^^ mixed.getD (index + 8) 0

/-! ### Chunks and the tree -/

/-- The last block of a chunk, reached by compressing the ones before it. The flag is the start
mark for the first block and zero for later ones. -/
def lastBlock (counter : Nat) : List UInt32 → UInt32 → List (List UInt8) → Block
  | chaining, flag, [] => ⟨chaining, [], counter, flag ||| chunkEnd⟩
  | chaining, flag, [bytes] => ⟨chaining, bytes, counter, flag ||| chunkEnd⟩
  | chaining, flag, bytes :: blocks =>
    lastBlock counter (Block.compress ⟨chaining, bytes, counter, flag⟩) 0 blocks

/-- The block that stands for a whole chunk, in the place that the chunk has in the message. -/
def chunkBlock (counter : Nat) (bytes : List UInt8) : Block :=
  lastBlock counter initialValue chunkStart (chunksOf 64 bytes)

/-- The block that joins two subtrees by their chaining values. -/
def joinBlock (left right : Block) : Block :=
  ⟨initialValue, (left.compress ++ right.compress).flatMap littleEndianBytes, 0, parentNode⟩

/-- Joins neighbours pairwise. A block without a neighbour goes up unchanged, which gives the same
tree as a left part that is a full power of two. -/
def joinPairs : List Block → List Block
  | left :: right :: rest => joinBlock left right :: joinPairs rest
  | blocks => blocks

/-- Joins the blocks level by level. The number of levels is bounded by the number of blocks. -/
def treeRoot : Nat → List Block → Option Block
  | _, [] => none
  | _, [block] => some block
  | 0, block :: _ => some block
  | levels + 1, blocks => treeRoot levels (joinPairs blocks)

/-- The blocks of the message's chunks. The empty message has one empty chunk. -/
def chunkBlocks (bytes : List UInt8) : List Block :=
  match chunksOf 1024 bytes with
  | [] => [chunkBlock 0 []]
  | chunks => chunks.mapIdx chunkBlock

/-- The thirty-two bytes of the hash. The root of the tree is compressed once more with its own
mark. -/
def hash (bytes : List UInt8) : List UInt8 :=
  let blocks := chunkBlocks bytes
  match treeRoot blocks.length blocks with
  | some block =>
    (Block.compress { block with flags := block.flags ||| rootNode }).flatMap littleEndianBytes
  | none => []

end MigrationGuard.Hash.Blake3

namespace MigrationGuard

/-- The fingerprint of a text: the sixty-four hexadecimal digits of its hash. -/
def contentHash (text : String) : String :=
  Hash.hexText (Hash.Blake3.hash (Text.encode text))

end MigrationGuard
