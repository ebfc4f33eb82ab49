/-
This file follows singles through their bits. Every result of an operation is a
rounded number, which is packed into the fields of a single and is unpacked again
when it is used next, unless its exponent is too high: then it comes back as an
infinity. What comes back is called settled, so singles are what rounded numbers
settle to, and from then on the arithmetic of singles is that of settled numbers.
The lemmas follow the layout of the fields: a leading bit that is not stored where
the exponent field is not zero, significands of the lowest exponent where it is,
and a full exponent field for infinities and for what is no number.
-/

import MigrationGuard.Proofs.Decimal.SingleRounding

namespace MigrationGuard.Decimal

open Float.Model Float.Model.UnpackedFloat

/-! ### Rounded and settled numbers -/

/-- The number has been rounded to the bits of a single. Its exponent may be too high. -/
def IsRounded : UnpackedFloat → Prop
  | .finite _ significand exponent _ => IsSingle significand exponent
  | _ => True

/-- The number is one that a single can be, so packing and unpacking leave it as it is. -/
def IsSettled : UnpackedFloat → Prop
  | .finite _ significand exponent _ => IsSingle significand exponent ∧ exponent ≤ 104
  | _ => True

/-- What a rounded number becomes as a single: an infinity, if its exponent is too high. -/
def settled : UnpackedFloat → UnpackedFloat
  | .finite sign significand exponent pos =>
    if exponent ≤ 104 then .finite sign significand exponent pos else .infinity sign
  | other => other

section
variable {sign : Sign} {significand : ℕ} {exponent : ℤ} {pos : 0 < significand}

theorem settled_of_le (fits : exponent ≤ 104) :
    settled (.finite sign significand exponent pos) = .finite sign significand exponent pos :=
  if_pos fits

theorem settled_of_not_le (large : ¬exponent ≤ 104) :
    settled (.finite sign significand exponent pos) = .infinity sign :=
  if_neg large

end

theorem IsSettled.isRounded {value : UnpackedFloat} (single : IsSettled value) :
    IsRounded value := by
  cases value with
  | finite => exact single.1
  | _ => trivial

theorem IsSettled.settled_eq {value : UnpackedFloat} (single : IsSettled value) :
    settled value = value := by
  cases value with
  | finite => exact settled_of_le single.2
  | _ => rfl

/-! ### Fields -/

theorem sign_packComponents (sign : Sign) (exponent : BitVec 8) (mantissa : BitVec 23) :
    Sign.ofBitVec (unpackSign (packComponents Format.binary32 sign exponent mantissa)) = sign := by
  have bit : unpackSign (packComponents Format.binary32 sign exponent mantissa) =
      sign.toBitVec := by
    have mantissaSmall := mantissa.isLt
    have exponentSmall := exponent.isLt
    have signSmall := sign.toBitVec.isLt
    refine BitVec.eq_of_toNat_eq ?_
    change ((sign.toBitVec ++ exponent ++ mantissa).extractLsb 31 31).toNat = _
    rw [BitVec.extractLsb_toNat, BitVec.toNat_append, BitVec.toNat_append,
      ← Nat.shiftLeft_add_eq_or_of_lt exponentSmall, ← Nat.shiftLeft_add_eq_or_of_lt mantissaSmall,
      Nat.shiftRight_eq_div_pow, Nat.shiftLeft_eq, Nat.shiftLeft_eq]
    omega
  rw [bit]
  cases sign <;> rfl

/-- A mantissa with its leading bit, which is not stored. -/
theorem toNat_implicit (mantissa : BitVec 23) :
    (1#1 ++ mantissa).toNat = 2 ^ 23 + mantissa.toNat := by
  rw [BitVec.toNat_append, ← Nat.shiftLeft_add_eq_or_of_lt mantissa.isLt]
  rfl

theorem exponentBias_binary32 : Format.binary32.exponentBias = 127 :=
  rfl

/-- A single whose exponent field is not full is finite, whatever its mantissa is. -/
theorem isFinite_of_field {value : Float32}
    (notFull : value.toBits.toNat / 2 ^ 23 % 2 ^ 8 ≠ 2 ^ 8 - 1) : value.isFinite := by
  have exponent : (@unpackExponent Format.binary32 value.toBits.toBitVec).toNat =
      value.toBits.toNat / 2 ^ 23 % 2 ^ 8 := by
    simp [unpackExponent, Nat.shiftRight_eq_div_pow]
  show (UnpackedFloat.unpack Format.binary32 value.toBits.toBitVec).isFinite
  unfold UnpackedFloat.unpack
  dsimp only
  rw [if_neg fun same => notFull (exponent.symm.trans (congrArg BitVec.toNat same))]
  by_cases low : @unpackExponent Format.binary32 value.toBits.toBitVec = 0#8
  · rw [if_pos low]
    by_cases empty : @unpackMantissa Format.binary32 value.toBits.toBitVec = 0#23
    · rw [dif_pos empty]
      rfl
    · rw [dif_neg empty]
      rfl
  · rw [if_neg low]
    rfl

/-- What is unpacked is what a single can be, so every single may be taken as a settled number. -/
theorem isSettled_unpack (value : Float32) : IsSettled value.toModel.unpack := by
  change IsSettled (UnpackedFloat.unpack Format.binary32 value.toModel.toBits.toBitVec)
  generalize value.toModel.toBits.toBitVec = bits
  have small := (@unpackMantissa Format.binary32 bits).isLt
  have below := (@unpackExponent Format.binary32 bits).isLt
  unfold UnpackedFloat.unpack
  dsimp only at small below ⊢
  by_cases top : @unpackExponent Format.binary32 bits = -1#8
  · rw [if_pos top]
    split <;> trivial
  · rw [if_neg top, exponentBias_binary32]
    by_cases low : @unpackExponent Format.binary32 bits = 0#8
    · rw [if_pos low]
      by_cases none : @unpackMantissa Format.binary32 bits = 0#23
      · rw [dif_pos none]
        trivial
      · have present : (@unpackMantissa Format.binary32 bits).toNat ≠ 0 :=
          fun same => none (BitVec.eq_of_toNat_eq same)
        have least : (@unpackExponent Format.binary32 bits).toNat = 0 := congrArg BitVec.toNat low
        rw [dif_neg none, least]
        exact ⟨⟨by omega, by omega, by omega, .inl (by omega)⟩, by omega⟩
    · have notLeast : (@unpackExponent Format.binary32 bits).toNat ≠ 0 :=
        fun same => low (BitVec.eq_of_toNat_eq same)
      have notTop : (@unpackExponent Format.binary32 bits).toNat ≠ 255 :=
        fun same => top (BitVec.eq_of_toNat_eq same)
      have whole := toNat_implicit (@unpackMantissa Format.binary32 bits)
      rw [if_neg low]
      exact ⟨⟨by omega, by omega, by omega, .inr (by omega)⟩, by omega⟩

/-- Packed fields with a leading bit are unpacked to a full significand. -/
theorem unpack_normal (sign : Sign) {field significand : ℕ} (low : 0 < field) (high : field < 255)
    (full : 2 ^ 23 ≤ significand) (small : significand < 2 ^ 24) :
    UnpackedFloat.unpack Format.binary32 (packComponents Format.binary32 sign
        (BitVec.ofNat _ field) (BitVec.ofNat _ significand)) =
      .finite sign significand (field - 150) (by omega) := by
  have sameSign := sign_packComponents sign (BitVec.ofNat _ field) (BitVec.ofNat _ significand)
  have toNat_field : (@unpackExponent Format.binary32 (packComponents Format.binary32 sign
      (BitVec.ofNat _ field) (BitVec.ofNat _ significand))).toNat = field := by
    rw [unpackExponent_packComponents, BitVec.toNat_ofNat]
    exact Nat.mod_eq_of_lt (show field < 2 ^ 8 by omega)
  have whole : (1#1 ++ @unpackMantissa Format.binary32 (packComponents Format.binary32 sign
      (BitVec.ofNat _ field) (BitVec.ofNat _ significand))).toNat = significand := by
    rw [unpackMantissa_packComponents]
    refine (toNat_implicit _).trans ?_
    rw [BitVec.toNat_ofNat]
    omega
  generalize packComponents Format.binary32 sign (BitVec.ofNat _ field)
    (BitVec.ofNat _ significand) = bits at sameSign toNat_field whole
  have notTop : @unpackExponent Format.binary32 bits ≠ -1#8 := fun same => by
    have top : (-1#8).toNat = 255 := rfl
    rw [← same, toNat_field] at top
    omega
  have notLeast : @unpackExponent Format.binary32 bits ≠ 0#8 := fun same => by
    have least : (0#8).toNat = 0 := rfl
    rw [← same, toNat_field] at least
    omega
  unfold UnpackedFloat.unpack
  dsimp only
  rw [if_neg notTop, if_neg notLeast, UnpackedFloat.finite.injEq, toNat_field,
    exponentBias_binary32]
  exact ⟨sameSign, whole, by omega⟩

/-- Packed fields without a leading bit are unpacked to a significand of the lowest exponent. -/
theorem unpack_subnormal (sign : Sign) {significand : ℕ} (pos : 0 < significand)
    (small : significand < 2 ^ 23) :
    UnpackedFloat.unpack Format.binary32 (packComponents Format.binary32 sign
        0#_ (BitVec.ofNat _ significand)) = .finite sign significand (-149) pos := by
  have sameSign := sign_packComponents sign 0#_ (BitVec.ofNat _ significand)
  have field : @unpackExponent Format.binary32 (packComponents Format.binary32 sign
      0#_ (BitVec.ofNat _ significand)) = 0#8 := unpackExponent_packComponents
  have whole : (@unpackMantissa Format.binary32 (packComponents Format.binary32 sign
      0#_ (BitVec.ofNat _ significand))).toNat = significand := by
    rw [unpackMantissa_packComponents, BitVec.toNat_ofNat]
    exact Nat.mod_eq_of_lt small
  generalize packComponents Format.binary32 sign 0#_ (BitVec.ofNat _ significand) = bits
    at sameSign field whole
  have notTop : @unpackExponent Format.binary32 bits ≠ -1#8 := by
    rw [field]
    decide
  have present : @unpackMantissa Format.binary32 bits ≠ 0#23 := fun same => by
    have none : (0#23).toNat = 0 := rfl
    rw [← same, whole] at none
    omega
  unfold UnpackedFloat.unpack
  dsimp only
  rw [if_neg notTop, if_pos field, dif_neg present, UnpackedFloat.finite.injEq,
    exponentBias_binary32]
  exact ⟨sameSign, whole, by rw [field]; rfl⟩

/-- The fields into which a rounded number is packed, with an infinity where the exponent does not
fit. -/
theorem pack_single (sign : Sign) {significand : ℕ} (exponent : ℤ) (pos : 0 < significand) :
    UnpackedFloat.pack Format.binary32 (.finite sign significand exponent pos) =
      if 2 ^ 8 ≤ (exponent + 127 + 23).toNat + 1 then packedInfinity Format.binary32 sign
      else if significand.log2 + 1 = 24 then
        packComponents Format.binary32 sign (BitVec.ofNat _ (exponent + 127 + 23).toNat)
          (BitVec.ofNat _ significand)
      else packComponents Format.binary32 sign 0#_ (BitVec.ofNat _ significand) :=
  rfl

/-- What was packed as a single comes back, or an infinity if the exponent was too high. -/
theorem unpack_pack_single {value : UnpackedFloat} (rounded : IsRounded value) :
    (Float32.Model.pack value).unpack = settled value := by
  cases value with
  | infinity sign => cases sign <;> rfl
  | notANumber => rfl
  | zero sign => cases sign <;> rfl
  | finite sign significand exponent pos =>
    change UnpackedFloat.unpack Format.binary32 (UnpackedFloat.pack Format.binary32 _) = _
    obtain ⟨-, small, lowest, full⟩ := rounded
    rw [pack_single]
    by_cases fits : exponent ≤ 104
    · rw [settled_of_le fits, if_neg (by omega)]
      by_cases long : significand.log2 + 1 = 24
      · have atLeast : 2 ^ 23 ≤ significand := (Nat.le_log2 pos.ne').mp (by omega)
        rw [if_pos long]
        refine (unpack_normal sign (by omega) (by omega) atLeast small).trans ?_
        rw [UnpackedFloat.finite.injEq]
        exact ⟨rfl, rfl, by omega⟩
      · have less : significand < 2 ^ 23 := by
          refine not_le.mp fun atLeast => ?_
          have atLeast := (Nat.le_log2 pos.ne').mpr atLeast
          have atMost := (Nat.log2_lt pos.ne').mpr small
          omega
        obtain rfl : exponent = -149 := full.resolve_right (by omega)
        rw [if_neg long]
        exact unpack_subnormal sign pos less
    · rw [settled_of_not_le fits, if_pos (by omega)]
      cases sign <;> rfl

end MigrationGuard.Decimal
