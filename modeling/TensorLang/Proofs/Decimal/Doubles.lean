import Mathlib
import TensorLang.Decimal.Positional

/-!
# Equal doubles

Doubles that compare as equal are the same up to the sign of a zero.  A number that is read from
digits has no sign, and for such numbers equality is identity.
-/

namespace TensorLang

open Float.Model (Format UnpackedFloat)
open Float.Model.UnpackedFloat (Sign unpackSign unpackExponent unpackMantissa)

/-- The 64 bits of a double. -/
abbrev DoubleBits : Type := BitVec Format.binary64.numBits

namespace DoubleBits

variable {bits left right : DoubleBits}

/-- The bits are the sign, the exponent and the fraction in a row. -/
theorem append_parts (bits : DoubleBits) :
    unpackSign bits ++ unpackExponent bits ++ unpackMantissa bits = bits := by
  simp only [unpackSign, unpackExponent, unpackMantissa, BitVec.extractLsb]
  ext position inside
  grind

theorem toNat_append (fraction : BitVec 52) :
    (1#1 ++ fraction).toNat = 2 ^ 52 + fraction.toNat := by
  change 2 ^ 52 ||| fraction.toNat = _
  rw [Nat.or_comm, Nat.or_two_pow_eq_add_of_lt fraction.isLt, Nat.add_comm]

/-- What bits without a sign hold. -/
inductive Reading (bits : DoubleBits) : UnpackedFloat → Prop where
  /-- No number is equal to this one. -/
  | notANumber : Reading bits .notANumber
  /-- All bits of the exponent are set. -/
  | infinite (exponent : unpackExponent bits = -1) (fraction : unpackMantissa bits = 0) :
      Reading bits (.infinity .positive)
  /-- No bit is set. -/
  | zero (exponent : unpackExponent bits = 0) (fraction : unpackMantissa bits = 0) :
      Reading bits (.zero .positive)
  /-- The fraction alone counts. -/
  | subnormal (exponent : unpackExponent bits = 0) (positive : 0 < (unpackMantissa bits).toNat) :
      Reading bits (.finite .positive (unpackMantissa bits).toNat (-1074) positive)
  /-- The leading bit is not stored. -/
  | normal (positive : 0 < 2 ^ 52 + (unpackMantissa bits).toNat) :
      Reading bits (.finite .positive (2 ^ 52 + (unpackMantissa bits).toNat)
        ((unpackExponent bits).toNat - 1075) positive)

theorem reading_unpack (unsigned : unpackSign bits = 0) :
    Reading bits (UnpackedFloat.unpack _ bits) := by
  have sign_eq : Sign.ofBitVec (unpackSign bits) = .positive := if_pos unsigned
  rw [UnpackedFloat.unpack, sign_eq]
  split
  · rename_i exponent
    split
    · exact .infinite exponent (by assumption)
    · exact .notANumber
  · split
    · rename_i exponent
      split
      · exact .zero exponent (by assumption)
      · simp only [exponent]
        exact .subnormal exponent _
    · have normal : Reading bits (.finite .positive (2 ^ 52 + (unpackMantissa bits).toNat)
          ((unpackExponent bits).toNat - 1075) (by omega)) := .normal _
      simp only [← toNat_append] at normal
      exact normal

theorem eq_of_compare (left_unsigned : unpackSign left = 0) (right_unsigned : unpackSign right = 0)
    (equal : (UnpackedFloat.unpack _ left).compare (UnpackedFloat.unpack _ right) = some .eq) :
    left = right := by
  have parts : unpackExponent left = unpackExponent right ∧
      unpackMantissa left = unpackMantissa right := by
    have left_reading := reading_unpack left_unsigned
    have right_reading := reading_unpack right_unsigned
    generalize UnpackedFloat.unpack _ left = first at left_reading equal
    generalize UnpackedFloat.unpack _ right = second at right_reading equal
    cases left_reading <;> cases right_reading <;>
      simp only [UnpackedFloat.compare, reduceCtorEq, Option.some.injEq, Ordering.then_eq_eq,
        Int.compare_eq_eq, Nat.compare_eq_eq] at equal
    case infinite.infinite left_exponent left_fraction right_exponent right_fraction =>
      rw [left_exponent, left_fraction, right_exponent, right_fraction]
      exact ⟨rfl, rfl⟩
    case zero.zero left_exponent left_fraction right_exponent right_fraction =>
      rw [left_exponent, left_fraction, right_exponent, right_fraction]
      exact ⟨rfl, rfl⟩
    case subnormal.subnormal left_exponent _ right_exponent _ =>
      rw [left_exponent, right_exponent]
      exact ⟨rfl, BitVec.toNat_inj.mp equal.2⟩
    case subnormal.normal =>
      have inside := (unpackMantissa left).isLt
      simp only [Format.binary64] at inside
      omega
    case normal.subnormal =>
      have inside := (unpackMantissa right).isLt
      simp only [Format.binary64] at inside
      omega
    case normal.normal =>
      exact ⟨BitVec.toNat_inj.mp (by omega), BitVec.toNat_inj.mp (by omega)⟩
  rw [← append_parts left, ← append_parts right, left_unsigned, right_unsigned, parts.1, parts.2]

private theorem compare_eq_comm {first second : UnpackedFloat}
    (equal : first.compare second = some .eq) :
    second.compare first = some .eq := by
  cases first with
  | notANumber => cases equal
  | infinity sign =>
      cases second with
      | infinity other => cases sign <;> cases other <;> first | rfl | cases equal
      | _ => cases sign <;> cases equal
  | zero =>
      cases second with
      | notANumber => cases equal
      | zero => rfl
      | infinity other | finite other => cases other <;> cases equal
  | finite sign =>
      cases second with
      | notANumber => cases equal
      | infinity other | zero other => cases other <;> cases sign <;> cases equal
      | finite other =>
          cases sign <;> cases other <;>
            simp only [UnpackedFloat.compare, reduceCtorEq, Option.some.injEq,
              Ordering.swap_eq_eq, Ordering.then_eq_eq, Int.compare_eq_eq,
              Nat.compare_eq_eq] at equal ⊢ <;>
            exact ⟨equal.1.symm, equal.2.symm⟩

theorem unpackSign_packComponents {sign : Sign} {exponent : BitVec 11} {fraction : BitVec 52} :
    unpackSign (UnpackedFloat.packComponents Format.binary64 sign exponent fraction) =
      sign.toBitVec := by
  ext position inside
  simp only [unpackSign, UnpackedFloat.packComponents, BitVec.extractLsb]
  grind

private theorem unpackSign_pack {number : UnpackedFloat} (reading : Reading bits number) :
    unpackSign (UnpackedFloat.pack Format.binary64 number) = 0 := by
  cases reading with
  | notANumber | infinite | zero => exact unpackSign_packComponents
  | subnormal | normal =>
      rw [UnpackedFloat.pack]
      split
      · exact unpackSign_packComponents
      · split <;> exact unpackSign_packComponents

theorem unpackSign_eq_zero_iff : unpackSign bits = 0 ↔ bits.toNat.testBit 63 = false := by
  rw [← BitVec.toNat_inj]
  simp only [unpackSign, BitVec.extractLsb, BitVec.toNat_cast, BitVec.extractLsb'_toNat,
    Nat.testBit, Nat.one_and_eq_mod_two]
  simp

end DoubleBits

/-- Equality of doubles is symmetric. -/
theorem double_beq_symm {left right : Float} (equal : (left == right) = true) :
    (right == left) = true := by
  have compared : right.toModel.unpack.compare left.toModel.unpack = some .eq :=
    DoubleBits.compare_eq_comm (beq_iff_eq.mp equal)
  change (right.toModel.unpack.compare left.toModel.unpack == some .eq) = true
  exact beq_iff_eq.mpr compared

/-- Doubles with the same bits are the same. -/
theorem eq_of_toBits {left right : Float} (same : left.toBits = right.toBits) : left = right := by
  obtain ⟨⟨left_bits, _⟩⟩ := left
  obtain ⟨⟨right_bits, _⟩⟩ := right
  obtain rfl : left_bits = right_bits := same
  rfl

/-! ### Numbers without a sign -/

/-- Numbers without a sign that compare as equal are the same. -/
theorem eq_of_beq_of_unsigned {left right : Float} (left_unsigned : signBit left = false)
    (right_unsigned : signBit right = false) (equal : (left == right) = true) : left = right := by
  have same_bits : left.toBits.toBitVec = right.toBits.toBitVec :=
    DoubleBits.eq_of_compare (DoubleBits.unpackSign_eq_zero_iff.mpr left_unsigned)
      (DoubleBits.unpackSign_eq_zero_iff.mpr right_unsigned) (beq_iff_eq.mp equal)
  exact eq_of_toBits (UInt64.toBitVec_inj.mp same_bits)

private theorem roundQuotient_le (numerator denominator : Nat) :
    Magnitude.roundQuotient numerator denominator ≤ Magnitude.infinityBits := by
  rw [Magnitude.roundQuotient]
  split
  · exact Nat.zero_le _
  · exact Nat.min_le_right _ _

private theorem signBit_nearestDouble (numerator denominator : Nat) :
    signBit (nearestDouble numerator denominator) = false := by
  have bounded := roundQuotient_le numerator denominator
  have room : Magnitude.infinityBits < 2 ^ 63 := by decide
  rw [nearestDouble]
  generalize Magnitude.roundQuotient numerator denominator = bits at bounded
  let word : DoubleBits := bits.toUInt64.toBitVec
  have unsigned : unpackSign word = 0 := by
    rw [DoubleBits.unpackSign_eq_zero_iff]
    apply Nat.testBit_lt_two_pow
    exact Nat.lt_of_le_of_lt (Nat.mod_le _ _) (Nat.lt_of_le_of_lt bounded room)
  exact DoubleBits.unpackSign_eq_zero_iff.mp
    (DoubleBits.unpackSign_pack (DoubleBits.reading_unpack unsigned))

/-- A number that is read from digits has no sign. -/
theorem signBit_of_parseDouble? {text : String} {value : Float}
    (found : parseDouble? text = some value) : signBit value = false := by
  rw [parseDouble?] at found
  split at found
  · cases found
  · split at found
    · cases found
    · obtain rfl := Option.some.inj found
      exact signBit_nearestDouble _ _

end TensorLang
