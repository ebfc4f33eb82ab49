/-
This file reads bytes as UTF-8. Strict reading refuses any fault. Lenient reading
puts one replacement character for every maximal faulty sequence: a start byte
with the continuation bytes that could still have led to a character, or a single
byte that can start nothing. Both readings are one walk over the bytes, which
marks every character by whether it was written there, so they agree wherever
there is no fault. Writing a text gives bytes that are read as the same text.
-/

namespace MigrationGuard.Text

/-- The character that stands for bytes that are no UTF-8. -/
def replacement : Char := '\uFFFD'

/-- A byte that may follow in a sequence without a narrower bound. -/
def isContinuation (byte : UInt8) : Bool :=
  0x80 ≤ byte && byte ≤ 0xBF

/-- The length of the sequence that a byte starts and the bounds of its second byte, which rule
out overlong forms, surrogates and codes above the last character. -/
def sequenceStart (byte : UInt8) : Option (Nat × UInt8 × UInt8) :=
  if byte < 0x80 then some (1, 0, 0)
  else if 0xC2 ≤ byte && byte ≤ 0xDF then some (2, 0x80, 0xBF)
  else if byte == 0xE0 then some (3, 0xA0, 0xBF)
  else if byte == 0xED then some (3, 0x80, 0x9F)
  else if 0xE1 ≤ byte && byte ≤ 0xEF then some (3, 0x80, 0xBF)
  else if byte == 0xF0 then some (4, 0x90, 0xBF)
  else if 0xF1 ≤ byte && byte ≤ 0xF3 then some (4, 0x80, 0xBF)
  else if byte == 0xF4 then some (4, 0x80, 0x8F)
  else none

/-- The bytes of the sequence that stands at the front, and whether it is complete. An incomplete
sequence holds at least the first byte. -/
def frontSequence (bytes : List UInt8) : Nat × Bool :=
  match bytes with
  | [] => (0, false)
  | first :: rest => match sequenceStart first with
    | none => (1, false)
    | some (length, low, high) =>
      if length = 1 then (1, true)
      else match rest with
        | [] => (1, false)
        | second :: others =>
          if low ≤ second && second ≤ high then
            let more := (others.take (length - 2)).takeWhile isContinuation
            (2 + more.length, more.length == length - 2)
          else (1, false)

/-- The character of a complete sequence, from the bits that its bytes carry. -/
def sequenceCharacter (bytes : List UInt8) : Char :=
  match bytes.map UInt8.toNat with
  | [a] => Char.ofNat a
  | [a, b] => Char.ofNat (a % 0x20 * 0x40 + b % 0x40)
  | [a, b, c] => Char.ofNat ((a % 0x10 * 0x40 + b % 0x40) * 0x40 + c % 0x40)
  | [a, b, c, d] => Char.ofNat (((a % 8 * 0x40 + b % 0x40) * 0x40 + c % 0x40) * 0x40 + d % 0x40)
  | _ => replacement

/-- The characters of the bytes, each with the sign whether it was written there. A sequence has
at least one byte, so the number of bytes bounds the steps. -/
def decodeSteps : Nat → List UInt8 → List (Char × Bool)
  | 0, _ => []
  | _, [] => []
  | steps + 1, byte :: rest =>
    let (length, complete) := frontSequence (byte :: rest)
    let character :=
      if complete then sequenceCharacter ((byte :: rest).take length) else replacement
    (character, complete) :: decodeSteps steps ((byte :: rest).drop length)

/-- The text of the bytes, with a replacement character for each faulty sequence. -/
def decodeLenient (bytes : List UInt8) : String :=
  String.ofList ((decodeSteps bytes.length bytes).map Prod.fst)

/-- The text of the bytes, if they are UTF-8 throughout. -/
def decodeStrict (bytes : List UInt8) : Option String :=
  let characters := decodeSteps bytes.length bytes
  if characters.all Prod.snd then some (String.ofList (characters.map Prod.fst)) else none

/-- The UTF-8 bytes of a string. Every string has them. -/
def encode (text : String) : List UInt8 :=
  text.toUTF8.toList

end MigrationGuard.Text
