/-
This file shows that texts are read as they are written. Every character is
written as itself, as a short escape or as the four digits of its number, and is
read back from the characters that stand for it; none of those is taken for the
closing quote. So whatever is in a text, a quote, a backslash or a line break, it
cannot end the text before its end, and two texts that are written alike are the
same. Control characters are the only ones that are written by their number, which
therefore has two leading zeros and no second half, so the pairs that stand for
one character need not be followed here.
-/

import MigrationGuard.Data.Json

namespace MigrationGuard.Data.Json

/-! ### Characters -/

theorem hexValue?_hexDigit : ∀ digit < 16, hexValue? (Hash.hexDigit digit) = some digit := by
  decide

/-- A control character is read from its four digits, which never begin a pair. -/
theorem unicodeStep?_control {character : Char} (control : character.toNat < 0x20)
    (rest : List Char) :
    unicodeStep? ('0' :: '0' :: Hash.hexDigit (character.toNat / 16) ::
      Hash.hexDigit (character.toNat % 16) :: rest) = some (.character character rest) := by
  have zero : hexValue? '0' = some 0 := by decide
  have high := hexValue?_hexDigit (character.toNat / 16) (by omega)
  have low := hexValue?_hexDigit (character.toNat % 16) (by omega)
  have value : (0 * 16 + 0) * 256 + character.toNat / 16 * 16 + character.toNat % 16 =
      character.toNat := by omega
  have read : fourHex? ('0' :: '0' :: Hash.hexDigit (character.toNat / 16) ::
      Hash.hexDigit (character.toNat % 16) :: rest) = some (character.toNat, rest) := by
    simp only [fourHex?, zero, high, low, Option.bind_eq_bind, Option.bind_some]
    rw [value]
    rfl
  unfold unicodeStep?
  rw [read]
  dsimp only [Option.bind_eq_bind, Option.bind_some]
  rw [if_neg (by omega), if_neg (by omega), Char.ofNat_toNat]
  rfl

/-- A character that is written as it is stands for itself when it is read. -/
theorem textStep?_plain {character : Char} (noQuote : character ≠ '"') (noSlash : character ≠ '\\')
    (plain : ¬character.toNat < 0x20) (rest : List Char) :
    textStep? (character :: rest) = some (.character character rest) := by
  unfold textStep?
  split
  · rename_i same
    exact nomatch same
  · rename_i same
    exact absurd (List.cons.inj same).1 noQuote
  · rename_i same
    exact absurd (List.cons.inj same).1 noSlash
  · rename_i same
    exact absurd (List.cons.inj same).1 noSlash
  · rename_i same
    exact absurd (List.cons.inj same).1 noSlash
  · rename_i same
    obtain ⟨rfl, rfl⟩ := List.cons.inj same
    rw [if_neg plain]

/-- A character is read from the characters that stand for it, whatever follows them. -/
theorem textStep?_escape (character : Char) (rest : List Char) :
    textStep? (escape character ++ rest) = some (.character character rest) := by
  unfold escape
  split
  · rfl
  · rfl
  · rfl
  · rfl
  · rfl
  · rfl
  · rfl
  · rename_i noQuote noSlash _ _ _ _ _
    by_cases control : character.toNat < 0x20
    · rw [if_pos control]
      exact unicodeStep?_control control rest
    · rw [if_neg control]
      exact textStep?_plain noQuote noSlash control rest

/-! ### Texts -/

theorem readText?_flatMap (rest : List Char) : ∀ (characters : List Char) {steps : Nat}
    (reversed : List Char) (whole : Bool), characters.length < steps →
      readText? steps (characters.flatMap escape ++ '"' :: rest) reversed whole =
        some (reversed.reverse ++ characters, whole, rest)
  | [], steps + 1, reversed, whole, _ => by
    rw [List.append_nil]
    rfl
  | character :: characters, steps + 1, reversed, whole, enough => by
    rw [List.flatMap_cons, List.append_assoc]
    unfold readText?
    rw [textStep?_escape]
    dsimp only
    rw [readText?_flatMap rest characters (character :: reversed) whole
      (Nat.lt_of_succ_lt_succ enough), List.reverse_cons, List.append_assoc]
    rfl

end MigrationGuard.Data.Json
