import TensorLang.Proofs.Decimal.Doubles
import TensorLang.Proofs.Decimal.Positional

/-!
# Numbers read back

The text of a finite double without a sign reads back as the same double.
-/

namespace TensorLang

open Float.Model (Format UnpackedFloat)
open Float.Model.UnpackedFloat (Sign unpackSign unpackExponent unpackMantissa packComponents)

namespace DoubleBits

variable {bits : DoubleBits}

private theorem toBitVec_ofBitVec (sign : BitVec 1) : (Sign.ofBitVec sign).toBitVec = sign := by
  revert sign
  decide

theorem packComponents_parts {exponent : BitVec 11} {fraction : BitVec 52}
    (exponent_eq : unpackExponent bits = exponent) (fraction_eq : unpackMantissa bits = fraction) :
    packComponents Format.binary64 (Sign.ofBitVec (unpackSign bits)) exponent fraction = bits := by
  subst exponent_eq fraction_eq
  rw [packComponents, toBitVec_ofBitVec]
  exact append_parts bits

private theorem log2_eq_of_between {number exponent : ℕ} (lower : 2 ^ exponent ≤ number)
    (upper : number < 2 ^ (exponent + 1)) : number.log2 = exponent := by
  have positive : number ≠ 0 := (Nat.lt_of_lt_of_le (Nat.two_pow_pos _) lower).ne'
  have at_least := (Nat.le_log2 positive).mpr lower
  have below := (Nat.log2_lt positive).mpr upper
  omega

theorem pack_unpack (finite : unpackExponent bits ≠ -1) :
    UnpackedFloat.pack Format.binary64 (UnpackedFloat.unpack _ bits) = bits := by
  have fraction_lt : (unpackMantissa bits).toNat < 2 ^ 52 := (unpackMantissa bits).isLt
  have exponent_lt : (unpackExponent bits).toNat < 2 ^ 11 := (unpackExponent bits).isLt
  have bias : ((Format.binary64.exponentBias : ℕ) : ℤ) = 1023 := rfl
  have width : Format.binary64.mantissaBits = 53 := rfl
  rw [UnpackedFloat.unpack]
  split
  · rename_i infinite
    exact absurd infinite finite
  split
  · rename_i least
    split
    · rename_i zero
      exact packComponents_parts least zero
    · rename_i nonzero
      have positive : (unpackMantissa bits).toNat ≠ 0 := fun zero =>
        nonzero (BitVec.toNat_inj.mp zero)
      have short : (unpackMantissa bits).toNat.log2 + 1 ≠ 53 := by
        have := (Nat.log2_lt positive).mpr fraction_lt
        omega
      have exponent_eq : (unpackExponent bits).toNat = 0 := by rw [least]; rfl
      rw [UnpackedFloat.pack]
      simp only [bias, width, exponent_eq]
      rw [if_neg (by decide), if_neg short]
      apply packComponents_parts least
      rw [BitVec.ofNat_toNat, BitVec.setWidth_eq]
  · rename_i normal
    have exponent_ne : (unpackExponent bits).toNat ≠ 2047 := fun full =>
      finite (BitVec.toNat_inj.mp full)
    have leading : (1#1 ++ unpackMantissa bits).toNat.log2 = 52 := by
      have sum_eq := toNat_append (unpackMantissa bits)
      exact log2_eq_of_between (by omega) (by omega)
    rw [UnpackedFloat.pack]
    have stored : ((unpackExponent bits).toNat - (1023 + 52) + 1023 + 52 : ℤ).toNat =
        (unpackExponent bits).toNat := by omega
    simp only [bias, width, leading, Nat.cast_ofNat, stored]
    rw [if_neg (by omega), if_pos trivial]
    apply packComponents_parts
    · rw [BitVec.ofNat_toNat, BitVec.setWidth_eq]
    · apply BitVec.toNat_inj.mp
      rw [BitVec.toNat_ofNat, toNat_append]
      change _ = (2 ^ 52 + (unpackMantissa bits).toNat) % 2 ^ 52
      omega

private theorem toNat_unpackExponent (bits : DoubleBits) :
    (unpackExponent bits).toNat = bits.toNat / 2 ^ 52 % 2048 := by
  simp only [unpackExponent, BitVec.extractLsb, BitVec.toNat_cast, BitVec.extractLsb'_toNat,
    Nat.shiftRight_eq_div_pow]

end DoubleBits

open Magnitude in
/-- Apart from the sign, the bits of a finite number are read off its significand and exponent. -/
theorem lowBits_of_magnitude {value : Float} {significand : ℕ} {exponent : ℤ}
    (finite : magnitude value = .finite significand exponent) :
    value.toBits.toNat % 2 ^ 63 = doubleBits significand exponent ∧
      value.toBits.toNat / 2 ^ 52 % 2048 ≠ 2047 ∧
      (significand = 0 ∧ exponent = -1074 ∨ IsDouble significand exponent) := by
  have power : leastNormal = 2 ^ 52 := rfl
  rw [magnitude, Magnitude.ofBits] at finite
  simp only [power] at finite
  generalize value.toBits.toNat = bits at *
  split at finite
  · split at finite <;> cases finite
  · rename_i bounded
    split at finite
    · rename_i least
      obtain ⟨rfl, rfl⟩ := finite
      refine ⟨?_, bounded, ?_⟩
      · rw [doubleBits, leastExponent]
        omega
      · rcases Nat.eq_zero_or_pos (bits % 2 ^ 52) with zero | positive
        · exact .inl ⟨zero, rfl⟩
        · exact .inr ⟨positive, by omega, le_rfl, by decide, .inl rfl⟩
    · rename_i normal
      obtain ⟨rfl, rfl⟩ := finite
      refine ⟨?_, bounded, .inr ⟨by omega, by omega, ?_, ?_, .inr (by omega)⟩⟩
      · rw [doubleBits, leastExponent]
        omega
      · rw [leastExponent]
        omega
      · rw [leastExponent]
        omega

theorem toNat_of_unsigned {value : Float} (unsigned : signBit value = false) :
    value.toBits.toNat = value.toBits.toNat % 2 ^ 63 := by
  have word : value.toBits.toNat < 2 ^ 64 := value.toBits.toNat_lt
  rw [signBit, Nat.testBit_eq_decide_div_mod_eq, decide_eq_false_iff_not] at unsigned
  omega

private theorem ofBits_toBits {value : Float} (finite : value.toBits.toNat / 2 ^ 52 % 2048 ≠ 2047) :
    Float.ofBits value.toBits = value := by
  let bits : DoubleBits := value.toBits.toBitVec
  have exponent_ne : unpackExponent bits ≠ -1 := by
    intro full
    apply finite
    have same := congrArg BitVec.toNat full
    rw [DoubleBits.toNat_unpackExponent] at same
    exact same
  have packed := DoubleBits.pack_unpack exponent_ne
  obtain ⟨⟨word, valid⟩⟩ := value
  change Float.ofModel (Float.Model.ofBits word) = _
  congr 1
  simp only [Float.Model.ofBits, Float.Model.pack]
  congr 1
  exact congrArg UInt64.ofBitVec packed

theorem nearestDouble_eq {value : Float} {numerator denominator : ℕ}
    (finite : value.toBits.toNat / 2 ^ 52 % 2048 ≠ 2047)
    (rounded : Magnitude.roundQuotient numerator denominator = value.toBits.toNat) :
    nearestDouble numerator denominator = value := by
  have word : value.toBits.toNat.toUInt64 = value.toBits := UInt64.ofNat_toNat
  rw [nearestDouble, rounded, word, ofBits_toBits finite]

/-! ### Texts of numbers -/

/-- The text of a finite number, its sign apart. -/
def unsignedText (significand : ℕ) (exponent : ℤ) : String :=
  if significand = 0 then "0" else (RoundingInterval.ofFinite significand exponent).shortest.text

section Finite

variable {value : Float} {significand : ℕ} {exponent : ℤ}

theorem numberText_eq (finite : magnitude value = .finite significand exponent) :
    numberText value = (if signBit value then "-" else "") ++
      unsignedText significand exponent := by
  rw [numberText, finite, unsignedText]
  cases significand with
  | zero => rfl
  | succ smaller =>
      rw [if_neg (Nat.succ_ne_zero smaller)]
      rfl

open Magnitude in
/-- A finite number is written with digits and at most one point, and what they spell is rounded to
the bits of the number. -/
theorem exists_isNumeral_unsignedText
    (kind : significand = 0 ∧ exponent = -1074 ∨ IsDouble significand exponent) :
    ∃ whole fraction, IsNumeral (unsignedText significand exponent) whole fraction ∧
      roundQuotient (digitsValue (whole ++ fraction)) (powerOfTen fraction.length) =
        doubleBits significand exponent := by
  rcases kind with ⟨rfl, rfl⟩ | double
  · exact ⟨_, _, isNumeral_zero, rfl⟩
  · rw [unsignedText, if_neg double.positive.ne']
    generalize decimal_eq : (RoundingInterval.ofFinite significand exponent).shortest = decimal
    have nearest := RoundingInterval.nearest_shortest double
    have spelled_eq : (digitsValue (decimal.parts.1 ++ decimal.parts.2) : ℚ) /
        powerOfTen decimal.parts.2.length = decimal.value := by
      rw [cast_powerOfTen, ← decimal.spelling_parts.value, spelled]
    rw [decimal_eq, ← spelled_eq] at nearest
    have positive : 0 < digitsValue (decimal.parts.1 ++ decimal.parts.2) := by
      by_contra zero
      rw [Nat.eq_zero_of_not_pos zero] at nearest
      have lower := nearest.lower
      have reach := reachDown_le significand
      have at_least : (1 : ℚ) ≤ significand := by exact_mod_cast double.positive
      norm_num at lower
      linarith
    exact ⟨_, _, decimal.isNumeral_text,
      roundQuotient_eq_doubleBits positive (Nat.pow_pos (by norm_num)) double nearest⟩

end Finite

/-- The double is finite and has no sign. -/
structure IsPlain (value : Float) : Prop where
  /-- It has no sign. -/
  unsigned : signBit value = false
  /-- It is finite. -/
  finite : ∃ significand exponent, magnitude value = .finite significand exponent

namespace IsPlain

variable {value : Float}

theorem exists_isNumeral (plain : IsPlain value) :
    ∃ whole fraction, IsNumeral (numberText value) whole fraction ∧
      Magnitude.roundQuotient (digitsValue (whole ++ fraction)) (powerOfTen fraction.length) =
        value.toBits.toNat ∧ value.toBits.toNat / 2 ^ 52 % 2048 ≠ 2047 := by
  obtain ⟨significand, exponent, finite⟩ := plain.finite
  obtain ⟨bits_eq, bounded, kind⟩ := lowBits_of_magnitude finite
  obtain ⟨whole, fraction, numeral, rounded⟩ := exists_isNumeral_unsignedText kind
  have text_eq : numberText value = unsignedText significand exponent := by
    rw [numberText_eq finite, plain.unsigned]
    exact String.empty_append
  rw [text_eq]
  exact ⟨whole, fraction, numeral,
    rounded.trans (bits_eq.symm.trans (toNat_of_unsigned plain.unsigned).symm), bounded⟩

theorem parseDouble?_numberText (plain : IsPlain value) :
    parseDouble? (numberText value) = some value := by
  obtain ⟨whole, fraction, numeral, rounded, bounded⟩ := plain.exists_isNumeral
  rw [numeral.parseDouble?_eq, nearestDouble_eq bounded rounded]

end IsPlain

end TensorLang
