/-
This file shows that a text is read back from its UTF-8 bytes. The bytes of a
character begin with a byte that tells their number and the bounds of the second
byte, and the bytes of every character keep those bounds. So where a character was
encoded, a complete sequence is found in front, which spells this character, and
the rest is decoded in the same way. Files hold bytes and programs read texts:
that a session or a configuration which was written is the one that is read rests
on this. Characters with one, two, three or four bytes are looked at one after the
other, and in each case the bits that are taken apart are put together again.
-/

import Mathlib.Tactic.SplitIfs
import MigrationGuard.Text.Utf8

namespace MigrationGuard.Text

/-! ### Bytes of a text -/

theorem toList_loop (bytes : ByteArray) (start : Nat) (collected : List UInt8) :
    ByteArray.toList.loop bytes start collected =
      collected.reverse ++ bytes.data.toList.drop start := by
  induction start, collected using ByteArray.toList.loop.induct bytes with
  | case1 start collected inside inductionHypothesis =>
    have next : bytes.data.toList.drop start =
        bytes.get! start :: bytes.data.toList.drop (start + 1) := by
      have byte : bytes.get! start = bytes.data.toList[start] :=
        getElem!_pos bytes.data start inside
      rw [byte]
      exact List.drop_eq_getElem_cons inside
    rw [ByteArray.toList.loop, if_pos inside, inductionHypothesis, next, List.reverse_cons,
      List.append_assoc]
    rfl
  | case2 start collected outside =>
    rw [ByteArray.toList.loop, if_neg outside, List.drop_of_length_le (Nat.le_of_not_lt outside),
      List.append_nil]

theorem encode_eq (text : String) : encode text = text.toList.flatMap String.utf8EncodeChar := by
  have bytes : text.toUTF8.data.toList = text.toList.flatMap String.utf8EncodeChar := by
    rw [String.toUTF8_eq_toByteArray, ← String.utf8Encode_toList]
    exact List.toList_data_toByteArray
  exact (toList_loop text.toUTF8 0 []).trans bytes

/-! ### Bytes of a character -/

theorem sequenceStart_one : ∀ first < 0x80,
    sequenceStart (UInt8.ofNat first) = some (1, 0, 0) := by
  decide +kernel

theorem sequenceStart_two : ∀ first < 0xE0, 0xC2 ≤ first →
    sequenceStart (UInt8.ofNat first) = some (2, 0x80, 0xBF) := by
  decide +kernel

theorem sequenceStart_three : ∀ first < 0xF0, 0xE0 ≤ first →
    sequenceStart (UInt8.ofNat first) =
      some (3, if first = 0xE0 then 0xA0 else 0x80, if first = 0xED then 0x9F else 0xBF) := by
  decide +kernel

theorem sequenceStart_four : ∀ first < 0xF5, 0xF0 ≤ first →
    sequenceStart (UInt8.ofNat first) =
      some (4, if first = 0xF0 then 0x90 else 0x80, if first = 0xF4 then 0x8F else 0xBF) := by
  decide +kernel

theorem isContinuation_ofNat : ∀ part < 0x40, isContinuation (UInt8.ofNat (part + 0x80)) := by
  decide +kernel

theorem toNat_ofNat_byte {value : Nat} (small : value < 256) :
    (UInt8.ofNat value).toNat = value := by
  rw [UInt8.toNat_ofNat']
  exact Nat.mod_eq_of_lt small

/-- The bounds of a second byte as numbers, which can be compared by arithmetic. -/
theorem ofNat_le_ofNat {left right : Nat} (leftSmall : left < 256) (rightSmall : right < 256)
    (atMost : left ≤ right) : UInt8.ofNat left ≤ UInt8.ofNat right := by
  rw [UInt8.le_iff_toNat_le, toNat_ofNat_byte leftSmall, toNat_ofNat_byte rightSmall]
  exact atMost

section
variable {first : Nat} (rest : List UInt8)

theorem frontSequence_one (small : first < 0x80) :
    frontSequence (UInt8.ofNat first :: rest) = (1, true) := by
  simp only [frontSequence, sequenceStart_one first small, if_true]

theorem frontSequence_two (small : first < 0xE0) (large : 0xC2 ≤ first) {second : Nat}
    (part : second < 0x40) :
    frontSequence (UInt8.ofNat first :: UInt8.ofNat (second + 0x80) :: rest) = (2, true) := by
  have low : (0x80 : UInt8) ≤ UInt8.ofNat (second + 0x80) :=
    @ofNat_le_ofNat 0x80 _ (by omega) (by omega) (by omega)
  have high : UInt8.ofNat (second + 0x80) ≤ 0xBF :=
    @ofNat_le_ofNat _ 0xBF (by omega) (by omega) (by omega)
  simp only [frontSequence, sequenceStart_two first small large, low, high, decide_true,
    Bool.and_self, if_true]
  rfl

theorem frontSequence_three (small : first < 0xF0) (large : 0xE0 ≤ first) {second third : Nat}
    (part : second < 0x40) (last : third < 0x40) (notOverlong : first = 0xE0 → 0x20 ≤ second)
    (noSurrogate : first = 0xED → second < 0x20) :
    frontSequence (UInt8.ofNat first :: UInt8.ofNat (second + 0x80) ::
      UInt8.ofNat (third + 0x80) :: rest) = (3, true) := by
  have low : (if first = 0xE0 then 0xA0 else 0x80) ≤ UInt8.ofNat (second + 0x80) := by
    split_ifs with least
    · exact @ofNat_le_ofNat 0xA0 _ (by omega) (by omega) (by have := notOverlong least; omega)
    · exact @ofNat_le_ofNat 0x80 _ (by omega) (by omega) (by omega)
  have high : UInt8.ofNat (second + 0x80) ≤ if first = 0xED then 0x9F else 0xBF := by
    split_ifs with special
    · exact @ofNat_le_ofNat _ 0x9F (by omega) (by omega) (by have := noSurrogate special; omega)
    · exact @ofNat_le_ofNat _ 0xBF (by omega) (by omega) (by omega)
  simp only [frontSequence, sequenceStart_three first small large, low, high, decide_true,
    Bool.and_self, if_true, List.take_succ_cons, List.take_zero, List.takeWhile_cons,
    isContinuation_ofNat third last, List.takeWhile_nil]
  rfl

theorem frontSequence_four (small : first < 0xF5) (large : 0xF0 ≤ first)
    {second third fourth : Nat} (part : second < 0x40) (next : third < 0x40) (last : fourth < 0x40)
    (notOverlong : first = 0xF0 → 0x10 ≤ second) (noLarger : first = 0xF4 → second < 0x10) :
    frontSequence (UInt8.ofNat first :: UInt8.ofNat (second + 0x80) ::
      UInt8.ofNat (third + 0x80) :: UInt8.ofNat (fourth + 0x80) :: rest) = (4, true) := by
  have low : (if first = 0xF0 then 0x90 else 0x80) ≤ UInt8.ofNat (second + 0x80) := by
    split_ifs with least
    · exact @ofNat_le_ofNat 0x90 _ (by omega) (by omega) (by have := notOverlong least; omega)
    · exact @ofNat_le_ofNat 0x80 _ (by omega) (by omega) (by omega)
  have high : UInt8.ofNat (second + 0x80) ≤ if first = 0xF4 then 0x8F else 0xBF := by
    split_ifs with special
    · exact @ofNat_le_ofNat _ 0x8F (by omega) (by omega) (by have := noLarger special; omega)
    · exact @ofNat_le_ofNat _ 0xBF (by omega) (by omega) (by omega)
  simp only [frontSequence, sequenceStart_four first small large, low, high, decide_true,
    Bool.and_self, if_true, List.take_succ_cons, List.take_zero, List.takeWhile_cons,
    isContinuation_ofNat third next, isContinuation_ofNat fourth last, List.takeWhile_nil]
  rfl

end

/-- The bytes of a character are a complete sequence, and they spell the character. -/
theorem frontSequence_utf8EncodeChar (character : Char) (rest : List UInt8) :
    frontSequence (String.utf8EncodeChar character ++ rest) =
        ((String.utf8EncodeChar character).length, true) ∧
      sequenceCharacter (String.utf8EncodeChar character) = character := by
  have valid : character.val.toNat < 0xD800 ∨
      0xDFFF < character.val.toNat ∧ character.val.toNat < 0x110000 := character.valid
  have same : Char.ofNat character.val.toNat = character := Char.ofNat_toNat character
  unfold String.utf8EncodeChar
  dsimp only
  generalize character.val.toNat = code at valid same
  split_ifs with one two three
  · refine ⟨frontSequence_one rest (by omega), ?_⟩
    rw [← same]
    simp only [sequenceCharacter, List.map_cons, List.map_nil]
    rw [toNat_ofNat_byte (by omega)]
  · refine ⟨frontSequence_two rest (by omega) (by omega) (by omega), ?_⟩
    rw [← same]
    simp only [sequenceCharacter, List.map_cons, List.map_nil]
    rw [toNat_ofNat_byte (by omega), toNat_ofNat_byte (by omega)]
    congr 1
    omega
  · refine ⟨frontSequence_three rest (by omega) (by omega) (by omega) (by omega) (by omega)
      (by omega), ?_⟩
    rw [← same]
    simp only [sequenceCharacter, List.map_cons, List.map_nil]
    rw [toNat_ofNat_byte (by omega), toNat_ofNat_byte (by omega), toNat_ofNat_byte (by omega)]
    congr 1
    omega
  · refine ⟨frontSequence_four rest (by omega) (by omega) (by omega) (by omega) (by omega)
      (by omega) (by omega), ?_⟩
    rw [← same]
    simp only [sequenceCharacter, List.map_cons, List.map_nil]
    rw [toNat_ofNat_byte (by omega), toNat_ofNat_byte (by omega), toNat_ofNat_byte (by omega),
      toNat_ofNat_byte (by omega)]
    congr 1
    omega

/-! ### Texts -/

/-- The characters of a text are decoded one by one. -/
theorem decodeSteps_flatMap : ∀ (characters : List Char) {steps : Nat},
    (characters.flatMap String.utf8EncodeChar).length ≤ steps →
      decodeSteps steps (characters.flatMap String.utf8EncodeChar) =
        characters.map fun character => (character, true)
  | [], steps, _ => by
    cases steps <;> rfl
  | character :: characters, steps, enough => by
    rw [List.flatMap_cons] at enough ⊢
    obtain ⟨front, spelled⟩ := frontSequence_utf8EncodeChar character
      (characters.flatMap String.utf8EncodeChar)
    have present : 0 < (String.utf8EncodeChar character).length := by
      rw [String.length_utf8EncodeChar]
      exact Char.utf8Size_pos character
    generalize String.utf8EncodeChar character = bytes at enough front spelled present ⊢
    obtain ⟨byte, others, rfl⟩ := List.exists_cons_of_length_pos present
    rw [List.length_append, List.length_cons] at enough
    obtain ⟨steps, rfl⟩ : ∃ count, steps = count + 1 := ⟨steps - 1, by omega⟩
    rw [List.cons_append] at front ⊢
    rw [decodeSteps, front]
    dsimp only
    rw [← List.cons_append, List.take_left, List.drop_left, spelled, if_pos rfl,
      decodeSteps_flatMap characters (by omega), List.map_cons]

/-- A text is read back from its bytes, whatever characters are in it. -/
theorem decodeStrict_encode (text : String) : decodeStrict (encode text) = some text := by
  have characters := @decodeSteps_flatMap text.toList _ (Nat.le_refl _)
  unfold decodeStrict
  rw [encode_eq]
  dsimp only
  rw [characters, List.map_map, if_pos]
  · exact congrArg some (by rw [Function.comp_def, List.map_id', String.ofList_toList])
  · simp

end MigrationGuard.Text
