/-
This file connects the fields of a double with what they are read as. A double is
a pattern of bits with a sign, an exponent and a mantissa, and it is read as zero,
as a number with a significand and an exponent, as infinite or as no number. The
fields determine the double, so one that is finite can be put together again from
its sign, its significand and its exponent, and what is packed from them is read
as the same. Both ways of looking at a double, by its bits and as a number that
has been unpacked, are shown to agree here, so that the theorems about written
numbers can speak of numbers and the definitions can work on bits.
-/

import Mathlib.Data.Nat.Log
import Mathlib.Tactic.NormNum
import MigrationGuard.Decimal.Shortest
import MigrationGuard.Proofs.Decimal.Rounding

namespace MigrationGuard.Decimal

open Float.Model Float.Model.UnpackedFloat

/-! ### Fields -/

theorem toNat_packComponents (sign : Sign) (exponent : BitVec 11) (mantissa : BitVec 52) :
    (packComponents Format.binary64 sign exponent mantissa).toNat =
      (sign.toBitVec.toNat * 2 ^ 11 + exponent.toNat) * 2 ^ 52 + mantissa.toNat := by
  have exponentSmall := exponent.isLt
  have mantissaSmall := mantissa.isLt
  show (sign.toBitVec ++ exponent ++ mantissa).toNat = _
  rw [BitVec.toNat_append, BitVec.toNat_append, ← Nat.shiftLeft_add_eq_or_of_lt exponentSmall,
    ← Nat.shiftLeft_add_eq_or_of_lt mantissaSmall, Nat.shiftLeft_eq, Nat.shiftLeft_eq]

section
variable (bits : BitVec 64)

theorem toNat_unpackMantissa :
    (@unpackMantissa Format.binary64 bits).toNat = bits.toNat % 2 ^ 52 := by
  simp [unpackMantissa]

theorem toNat_unpackExponent :
    (@unpackExponent Format.binary64 bits).toNat = bits.toNat / 2 ^ 52 % 2 ^ 11 := by
  simp [unpackExponent, Nat.shiftRight_eq_div_pow]

theorem toNat_unpackSign :
    (@unpackSign Format.binary64 bits).toNat = bits.toNat / 2 ^ 63 % 2 := by
  have sign : @unpackSign Format.binary64 bits = bits.extractLsb 63 63 := rfl
  rw [sign, BitVec.extractLsb_toNat, Nat.shiftRight_eq_div_pow]

end

/-- The sign that a flag tells, as the arithmetic of unpacked numbers names it. -/
def signOf (negative : Bool) : Sign :=
  if negative then .negative else .positive

theorem toNat_signOf (negative : Bool) : (signOf negative).toBitVec.toNat = negative.toNat := by
  cases negative <;> rfl

theorem signOf_unpackSign (bits : BitVec 64) :
    Sign.ofBitVec (@unpackSign Format.binary64 bits) = signOf (bits.toNat / 2 ^ 63 % 2 == 1) := by
  have bit := toNat_unpackSign bits
  obtain zero | one := Nat.mod_two_eq_zero_or_one (bits.toNat / 2 ^ 63)
  · rw [zero] at bit ⊢
    have same : @unpackSign Format.binary64 bits = 0#1 := BitVec.eq_of_toNat_eq bit
    rw [same]
    rfl
  · rw [one] at bit ⊢
    have same : @unpackSign Format.binary64 bits = 1#1 := BitVec.eq_of_toNat_eq bit
    rw [same]
    rfl

/-! ### Readings -/

/-- When the fields are read as a finite number that is not zero, and as which one. -/
theorem readFields_eq_finite_iff {bits : ℕ} {negative : Bool} {magnitude : Binary} :
    readFields 52 11 (-1074) bits = .finite negative magnitude ↔
      negative = (bits / 2 ^ 63 % 2 == 1) ∧ bits / 2 ^ 52 % 2 ^ 11 ≠ 2 ^ 11 - 1 ∧
        (bits / 2 ^ 52 % 2 ^ 11 = 0 ∧ bits % 2 ^ 52 ≠ 0 ∧
            magnitude = ⟨bits % 2 ^ 52, -1074, false⟩ ∨
          bits / 2 ^ 52 % 2 ^ 11 ≠ 0 ∧
            magnitude = ⟨2 ^ 52 + bits % 2 ^ 52, -1074 + (bits / 2 ^ 52 % 2 ^ 11 - 1 : ℕ),
              bits % 2 ^ 52 == 0 && bits / 2 ^ 52 % 2 ^ 11 != 1⟩) := by
  simp only [readFields, Nat.pow_eq, beq_iff_eq]
  generalize bits % 2 ^ 52 = fraction
  generalize bits / 2 ^ 52 % 2 ^ 11 = field
  by_cases top : field = 2 ^ 11 - 1
  · by_cases empty : fraction = 0 <;> simp [top, empty]
  by_cases low : field = 0
  · by_cases empty : fraction = 0 <;> simp [low, empty, eq_comm]
  · rw [if_neg top, if_neg low, Reading.finite.injEq]
    simp only [ne_eq, top, low, not_false_eq_true, true_and, false_and, false_or]
    exact and_congr eq_comm eq_comm

/-- The fields of a finite number that is not zero make up a double. -/
theorem isDouble_of_read {bits : ℕ} {negative : Bool} {magnitude : Binary}
    (read : readFields 52 11 (-1074) bits = .finite negative magnitude) :
    IsDouble magnitude.significand magnitude.exponent ∧ magnitude.exponent ≤ 971 ∧
      (magnitude.narrowBelow ↔ magnitude.significand = 2 ^ 52 ∧ magnitude.exponent ≠ -1074) := by
  obtain ⟨-, finite, ⟨low, present, rfl⟩ | ⟨high, rfl⟩⟩ := readFields_eq_finite_iff.mp read
  · refine ⟨⟨Nat.pos_of_ne_zero present, ?_, le_refl _, .inl rfl⟩, by norm_num, ?_⟩
    · dsimp only
      omega
    · simp
  · refine ⟨⟨?_, ?_, ?_, .inr ?_⟩, ?_, ?_⟩ <;> dsimp only
    · omega
    · omega
    · omega
    · omega
    · omega
    · simp only [Bool.and_eq_true, beq_iff_eq, bne_iff_ne]
      omega

/-! ### Finite doubles -/

theorem unpack_of_read {bits : BitVec 64} {negative : Bool} {magnitude : Binary}
    (read : readFields 52 11 (-1074) bits.toNat = .finite negative magnitude)
    (pos : 0 < magnitude.significand) :
    UnpackedFloat.unpack Format.binary64 bits =
      .finite (signOf negative) magnitude.significand magnitude.exponent pos := by
  have mantissa := toNat_unpackMantissa bits
  have exponent := toNat_unpackExponent bits
  have bias : (Format.binary64.exponentBias : ℤ) = 1023 := by
    norm_num [Format.exponentBias]
  have top : ∀ field : BitVec 11, field = -1#11 → field.toNat = 2 ^ 11 - 1 := by
    rintro field rfl
    rfl
  have zero : ∀ field : BitVec 11, field = 0#11 ↔ field.toNat = 0 := fun field =>
    ⟨fun same => by rw [same]; rfl, fun same => BitVec.eq_of_toNat_eq same⟩
  obtain ⟨rfl, finite, ⟨low, present, rfl⟩ | ⟨high, rfl⟩⟩ := readFields_eq_finite_iff.mp read
  · unfold UnpackedFloat.unpack
    dsimp only
    rw [signOf_unpackSign, if_neg fun same => finite (exponent ▸ top _ same),
      if_pos ((zero _).mpr (exponent.trans low)),
      dif_neg fun same => present (by rw [← mantissa, same]; rfl), UnpackedFloat.finite.injEq]
    refine ⟨rfl, mantissa, ?_⟩
    rw [exponent, low, bias]
    rfl
  · unfold UnpackedFloat.unpack
    dsimp only
    rw [signOf_unpackSign, if_neg fun same => finite (exponent ▸ top _ same),
      if_neg fun same => high (exponent ▸ (zero _).mp same), UnpackedFloat.finite.injEq]
    refine ⟨rfl, ?_, ?_⟩
    · rw [BitVec.toNat_append, ← Nat.shiftLeft_add_eq_or_of_lt (BitVec.isLt _), mantissa]
      rfl
    · rw [exponent, bias]
      omega

section
variable {significand : ℕ} {exponent : ℤ} (double : IsDouble significand exponent)
  (small : exponent ≤ 971)
include double small

/-- The bits into which a double is packed, as a number: fewer fields are filled where the leading
bit is missing. -/
theorem toNat_pack (negative : Bool) :
    (UnpackedFloat.pack Format.binary64
        (.finite (signOf negative) significand exponent double.pos)).toNat =
      if 2 ^ 52 ≤ significand then
        (negative.toNat * 2 ^ 11 + (exponent + 1075).toNat) * 2 ^ 52 + (significand - 2 ^ 52)
      else negative.toNat * 2 ^ 63 + significand := by
  have lowest := double.lowest
  have bounded := double.small
  have bias : exponent + Format.binary64.exponentBias + (52 : ℕ) = exponent + 1075 := by
    have : (Format.binary64.exponentBias : ℤ) = 1023 := by norm_num [Format.exponentBias]
    omega
  have bits : Format.binary64.mantissaBits = 53 := rfl
  unfold UnpackedFloat.pack
  dsimp only
  rw [bits, if_neg (by rw [bias]; omega), bias]
  split_ifs with long full full
  · rw [toNat_packComponents, toNat_signOf, BitVec.toNat_ofNat, BitVec.toNat_ofNat]
    omega
  · have : 52 ≤ significand.log2 := by omega
    exact absurd ((Nat.le_log2 double.pos.ne').mp this) full
  · have atLeast := (Nat.le_log2 double.pos.ne').mpr full
    have atMost := (Nat.log2_lt double.pos.ne').mpr bounded
    omega
  · rw [toNat_packComponents, toNat_signOf, BitVec.toNat_ofNat, BitVec.toNat_ofNat]
    omega

/-- What was packed is read again, with its sign, its significand and its exponent. -/
theorem readFields_pack (negative : Bool) :
    ∃ narrow, readFields 52 11 (-1074) (UnpackedFloat.pack Format.binary64
      (.finite (signOf negative) significand exponent double.pos)).toNat =
        .finite negative ⟨significand, exponent, narrow⟩ := by
  have packed := toNat_pack double small negative
  have lowest := double.lowest
  have bounded := double.small
  have positive := double.pos
  generalize (UnpackedFloat.pack Format.binary64
    (.finite (signOf negative) significand exponent double.pos)).toNat = bits at packed ⊢
  have sign : negative.toNat ≤ 1 := Bool.toNat_le negative
  have flag : negative = (negative.toNat == 1) := by cases negative <;> rfl
  split_ifs at packed with full
  · refine ⟨bits % 2 ^ 52 == 0 && bits / 2 ^ 52 % 2 ^ 11 != 1,
      readFields_eq_finite_iff.mpr ⟨?_, ?_, .inr ⟨?_, ?_⟩⟩⟩
    · rw [show bits / 2 ^ 63 % 2 = negative.toNat by omega]
      exact flag
    · omega
    · omega
    · rw [Binary.mk.injEq]
      exact ⟨by omega, by omega, rfl⟩
  · have low : exponent = -1074 := double.full.resolve_right full
    refine ⟨false, readFields_eq_finite_iff.mpr ⟨?_, ?_, .inl ⟨?_, ?_, ?_⟩⟩⟩
    · rw [show bits / 2 ^ 63 % 2 = negative.toNat by omega]
      exact flag
    · omega
    · omega
    · omega
    · rw [Binary.mk.injEq]
      exact ⟨by omega, low, rfl⟩

/-- What was packed is unpacked again, so nothing is lost between the bits and the number. -/
theorem unpack_pack (negative : Bool) :
    (Float.Model.pack (.finite (signOf negative) significand exponent double.pos)).unpack =
      .finite (signOf negative) significand exponent double.pos := by
  obtain ⟨narrow, read⟩ := readFields_pack double small negative
  exact unpack_of_read read double.pos

end

/-- A finite double that is not zero is put together again from what it is read as. -/
theorem pack_of_read {bits : BitVec 64} {negative : Bool} {magnitude : Binary}
    (read : readFields 52 11 (-1074) bits.toNat = .finite negative magnitude)
    (pos : 0 < magnitude.significand) :
    UnpackedFloat.pack Format.binary64
      (.finite (signOf negative) magnitude.significand magnitude.exponent pos) = bits := by
  have whole := bits.isLt
  obtain ⟨double, small, -⟩ := isDouble_of_read read
  refine BitVec.eq_of_toNat_eq ((toNat_pack double small negative).trans ?_)
  have flag : (bits.toNat / 2 ^ 63 % 2 == 1).toNat = bits.toNat / 2 ^ 63 % 2 := by
    obtain zero | one := Nat.mod_two_eq_zero_or_one (bits.toNat / 2 ^ 63)
    · rw [zero]
      rfl
    · rw [one]
      rfl
  obtain ⟨rfl, finite, ⟨low, present, rfl⟩ | ⟨high, rfl⟩⟩ := readFields_eq_finite_iff.mp read
  · dsimp only
    rw [flag, if_neg (by omega)]
    omega
  · dsimp only
    rw [flag, if_pos (by omega)]
    omega

/-! ### Doubles -/

theorem float_eq_of_toBits {left right : Float} (same : left.toBits = right.toBits) :
    left = right := by
  obtain ⟨⟨leftBits, leftValid⟩⟩ := left
  obtain ⟨⟨rightBits, rightValid⟩⟩ := right
  obtain rfl : leftBits = rightBits := same
  rfl

/-- A double that is read as a finite number other than zero is that number packed. -/
theorem eq_of_readDouble_finite {value : Float} {negative : Bool} {magnitude : Binary}
    (read : readDouble value = .finite negative magnitude) (pos : 0 < magnitude.significand) :
    Float.ofModel (.pack (.finite (signOf negative) magnitude.significand magnitude.exponent pos)) =
      value :=
  float_eq_of_toBits (congrArg UInt64.ofBitVec (pack_of_read read pos))

theorem readFields_eq_zero_iff {bits : ℕ} {negative : Bool} :
    readFields 52 11 (-1074) bits = .zero negative ↔
      negative = (bits / 2 ^ 63 % 2 == 1) ∧ bits / 2 ^ 52 % 2 ^ 11 = 0 ∧ bits % 2 ^ 52 = 0 := by
  simp only [readFields, Nat.pow_eq, beq_iff_eq]
  generalize bits % 2 ^ 52 = fraction
  generalize bits / 2 ^ 52 % 2 ^ 11 = field
  by_cases top : field = 2 ^ 11 - 1
  · by_cases empty : fraction = 0 <;> simp [top, empty]
  by_cases low : field = 0
  · by_cases empty : fraction = 0 <;> simp [low, empty, eq_comm]
  · rw [if_neg top, if_neg low]
    simp [low]

/-- A double that is read as zero is zero with a sign. These are the two zeros. -/
theorem eq_of_readDouble_zero {value : Float} {negative : Bool}
    (read : readDouble value = .zero negative) : (if negative then -0.0 else 0.0) = value := by
  obtain ⟨rfl, field, fraction⟩ := readFields_eq_zero_iff.mp read
  have whole := value.toBits.toNat_lt
  have zero : (0.0 : Float).toBits = 0 := by decide +kernel
  have minusZero : (-0.0 : Float).toBits = 9223372036854775808 := by decide +kernel
  refine float_eq_of_toBits (UInt64.toNat_inj.mp ?_)
  obtain plus | minus := Nat.mod_two_eq_zero_or_one (value.toBits.toNat / 2 ^ 63)
  · rw [plus, if_neg (by decide), zero]
    show 0 = _
    omega
  · rw [minus, if_pos (beq_self_eq_true 1), minusZero]
    show 9223372036854775808 = _
    omega

theorem isFinite_eq (value : Float) :
    value.isFinite = decide (value.toBits.toNat / 2 ^ 52 % 2 ^ 11 ≠ 2 ^ 11 - 1) := by
  have exponent := toNat_unpackExponent value.toBits.toBitVec
  show (UnpackedFloat.unpack Format.binary64 value.toBits.toBitVec).isFinite = _
  unfold UnpackedFloat.unpack
  dsimp only
  by_cases top : value.toBits.toNat / 2 ^ 52 % 2 ^ 11 = 2 ^ 11 - 1
  · have full : @unpackExponent Format.binary64 value.toBits.toBitVec = -1#11 := by
      refine BitVec.eq_of_toNat_eq ?_
      rw [exponent]
      exact top
    rw [if_pos full, decide_eq_false fun different => different top]
    split <;> rfl
  · rw [if_neg fun same => top (exponent.symm.trans (congrArg BitVec.toNat same)),
      decide_eq_true top]
    by_cases low : @unpackExponent Format.binary64 value.toBits.toBitVec = 0#11
    · rw [if_pos low]
      by_cases empty : @unpackMantissa Format.binary64 value.toBits.toBitVec = 0#52
      · rw [dif_pos empty]
        rfl
      · rw [dif_neg empty]
        rfl
    · rw [if_neg low]
      rfl

/-- A double is finite if it is read as zero or as another number. -/
theorem isFinite_iff (value : Float) : value.isFinite ↔
    (∃ negative, readDouble value = .zero negative) ∨
      ∃ negative magnitude, readDouble value = .finite negative magnitude := by
  rw [isFinite_eq, decide_eq_true_eq]
  constructor
  · intro low
    by_cases least : value.toBits.toNat / 2 ^ 52 % 2 ^ 11 = 0
    · by_cases empty : value.toBits.toNat % 2 ^ 52 = 0
      · exact .inl ⟨_, readFields_eq_zero_iff.mpr ⟨rfl, least, empty⟩⟩
      · exact .inr ⟨_, _, readFields_eq_finite_iff.mpr ⟨rfl, low, .inl ⟨least, empty, rfl⟩⟩⟩
    · exact .inr ⟨_, _, readFields_eq_finite_iff.mpr ⟨rfl, low, .inr ⟨least, rfl⟩⟩⟩
  · rintro (⟨negative, read⟩ | ⟨negative, magnitude, read⟩)
    · rw [(readFields_eq_zero_iff.mp read).2.1]
      decide
    · exact (readFields_eq_finite_iff.mp read).2.1

end MigrationGuard.Decimal
