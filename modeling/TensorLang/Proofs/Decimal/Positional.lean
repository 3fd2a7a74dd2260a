import Mathlib
import TensorLang.Decimal.Positional
import TensorLang.Proofs.Decimal.Shortest

/-!
# Positional notation reads back

The text of a decimal is made of digits with at most one point, and the digits around the point
spell the decimal.
-/

namespace TensorLang

/-! ### Digits as numbers -/

theorem digitsValue_eq (digits : List Char) : digitsValue digits = Nat.ofDigitChars 10 digits 0 :=
  rfl

theorem digitsValue_append (front back : List Char) :
    digitsValue (front ++ back) = 10 ^ back.length * digitsValue front + digitsValue back := by
  rw [digitsValue_eq, Nat.ofDigitChars_append, Nat.ofDigitChars_eq_ofDigitChars_zero]
  rfl

theorem digitsValue_zeros (count : ℕ) : digitsValue (List.replicate count '0') = 0 := by
  rw [digitsValue_eq, Nat.ofDigitChars_replicate_zero, Nat.mul_zero]

theorem digitsValue_toDigits (number : ℕ) : digitsValue (Nat.toDigits 10 number) = number :=
  Nat.ofDigitChars_ten_toDigits

/-- The number that digits around a point spell. -/
def spelled (whole fraction : List Char) : ℚ :=
  digitsValue (whole ++ fraction) / 10 ^ fraction.length

theorem spelled_whole (whole : List Char) : spelled whole [] = digitsValue whole := by
  rw [spelled, List.append_nil, List.length_nil, pow_zero, div_one]

private theorem spelled_append_zeros (whole fraction : List Char) (count : ℕ) :
    spelled whole (fraction ++ List.replicate count '0') = spelled whole fraction := by
  have nonzero : (10 : ℚ) ^ count ≠ 0 := by positivity
  rw [spelled, spelled, ← List.append_assoc, digitsValue_append, digitsValue_zeros, Nat.add_zero,
    List.length_append, List.length_replicate, pow_add]
  push_cast
  rw [mul_comm (10 ^ fraction.length), mul_div_mul_left _ _ nonzero]

namespace Decimal

private theorem exists_trimmed (fraction : List Char) :
    ∃ count, fraction = trimZeros fraction ++ List.replicate count '0' := by
  have zeros : ∀ digit ∈ fraction.reverse.takeWhile (· == '0'), digit = '0' := by
    intro digit member
    simpa using List.mem_takeWhile_imp member
  refine ⟨(fraction.reverse.takeWhile (· == '0')).length, ?_⟩
  have split_eq := List.takeWhile_append_dropWhile (p := (· == '0')) (l := fraction.reverse)
  rw [List.eq_replicate_of_mem zeros] at split_eq
  have reversed := congrArg List.reverse split_eq
  rw [List.reverse_append, List.reverse_replicate, List.reverse_reverse] at reversed
  exact reversed.symm

theorem isDigit_of_mem_zeros {count : ℕ} {digit : Char}
    (member : digit ∈ List.replicate count '0') : digit.isDigit := by
  rw [List.eq_of_mem_replicate member]
  decide

theorem isDigit_of_mem_toDigits {number : ℕ} {digit : Char}
    (member : digit ∈ Nat.toDigits 10 number) : digit.isDigit :=
  Nat.isDigit_of_mem_toDigits (by norm_num) le_rfl member

/-- The parts of a decimal spell it: a fraction before the zeros at its end are trimmed. -/
structure Spelling (decimal : Decimal) (whole fraction : List Char) : Prop where
  /-- There is a digit before the point. -/
  nonempty : whole ≠ []
  /-- All characters are digits. -/
  digits : ∀ digit ∈ whole ++ fraction, digit.isDigit
  /-- The digits spell the decimal. -/
  value : spelled whole fraction = decimal.value

private theorem Spelling.trim {decimal : Decimal} {whole fraction : List Char}
    (spelling : Spelling decimal whole fraction) :
    Spelling decimal whole (trimZeros fraction) := by
  obtain ⟨count, fraction_eq⟩ := exists_trimmed fraction
  rw [fraction_eq] at spelling
  constructor
  · exact spelling.nonempty
  · intro digit member
    apply spelling.digits
    rw [← List.append_assoc]
    exact List.mem_append_left _ member
  · rw [← spelling.value, spelled_append_zeros]

private theorem spelling_whole {decimal : Decimal} (whole : 0 ≤ decimal.exponent) :
    Spelling decimal (Nat.toDigits 10 decimal.digits ++ List.replicate decimal.exponent.toNat '0')
      [] where
  nonempty := List.append_ne_nil_of_left_ne_nil Nat.toDigits_ne_nil _
  digits := by
    intro digit member
    rw [List.append_nil, List.mem_append] at member
    exact member.elim isDigit_of_mem_toDigits isDigit_of_mem_zeros
  value := by
    rw [spelled_whole, digitsValue_append, digitsValue_zeros, digitsValue_toDigits,
      List.length_replicate, Nat.add_zero, value]
    have exponent_eq : (decimal.exponent.toNat : ℤ) = decimal.exponent := Int.toNat_of_nonneg whole
    rw [← exponent_eq, zpow_natCast, exponent_eq]
    push_cast
    ring

private theorem spelling_pointed {decimal : Decimal} (pointed : decimal.exponent < 0)
    {padded : List Char}
    (padded_eq : padded = List.replicate
      ((-decimal.exponent).toNat + 1 - (Nat.toDigits 10 decimal.digits).length) '0' ++
        Nat.toDigits 10 decimal.digits) :
    Spelling decimal (padded.take (padded.length - (-decimal.exponent).toNat))
      (padded.drop (padded.length - (-decimal.exponent).toNat)) where
  nonempty := by
    have longer : (-decimal.exponent).toNat < padded.length := by
      rw [padded_eq, List.length_append, List.length_replicate]
      omega
    rw [← List.length_pos_iff_ne_nil, List.length_take]
    omega
  digits := by
    intro digit member
    rw [List.take_append_drop, padded_eq, List.mem_append] at member
    exact member.elim isDigit_of_mem_zeros isDigit_of_mem_toDigits
  value := by
    have longer : (-decimal.exponent).toNat < padded.length := by
      rw [padded_eq, List.length_append, List.length_replicate]
      omega
    have places_eq : (padded.drop (padded.length - (-decimal.exponent).toNat)).length =
        (-decimal.exponent).toNat := by
      rw [List.length_drop]
      omega
    have digits_eq : digitsValue padded = decimal.digits := by
      rw [padded_eq, digitsValue_append, digitsValue_zeros, digitsValue_toDigits, Nat.mul_zero,
        Nat.zero_add]
    have exponent_eq : ((-decimal.exponent).toNat : ℤ) = -decimal.exponent :=
      Int.toNat_of_nonneg (by omega)
    rw [spelled, List.take_append_drop, places_eq, digits_eq, value, ← zpow_natCast, exponent_eq,
      zpow_neg, div_inv_eq_mul]

/-- The digits before the point, and those after it without the zeros at their end. -/
theorem spelling_parts (decimal : Decimal) :
    Spelling decimal decimal.parts.1 decimal.parts.2 := by
  rw [parts]
  by_cases whole : 0 ≤ decimal.exponent
  · rw [if_pos whole]
    by_cases zero : decimal.digits = 0
    · rw [if_pos zero]
      refine ⟨by simp, by simp, ?_⟩
      rw [spelled_whole, value, zero]
      norm_num
      decide
    · rw [if_neg zero]
      exact spelling_whole whole
  · rw [if_neg whole]
    exact (spelling_pointed (not_le.mp whole) rfl).trim

end Decimal

/-- A text of digits, with at most one point among them. -/
structure IsNumeral (text : String) (whole fraction : List Char) : Prop where
  /-- The fraction follows a point. -/
  characters : text.toList = whole ∧ fraction = [] ∨ text.toList = whole ++ '.' :: fraction
  /-- There is a digit before the point. -/
  nonempty : whole ≠ []
  /-- All characters but the point are digits. -/
  digits : ∀ digit ∈ whole ++ fraction, digit.isDigit

theorem isNumeral_zero : IsNumeral "0" ['0'] [] :=
  ⟨.inl ⟨rfl, rfl⟩, by decide, by simp⟩

theorem Decimal.isNumeral_text (decimal : Decimal) :
    IsNumeral decimal.text decimal.parts.1 decimal.parts.2 := by
  have spelling := decimal.spelling_parts
  refine ⟨?_, spelling.nonempty, spelling.digits⟩
  rw [text]
  split
  · rename_i whole parts_eq
    rw [parts_eq]
    exact .inl ⟨String.toList_ofList, rfl⟩
  · rename_i parts_eq
    rw [parts_eq]
    exact .inr String.toList_ofList

namespace IsNumeral

variable {text : String} {whole fraction : List Char}

/-- The text starts with a digit. -/
theorem exists_cons (numeral : IsNumeral text whole fraction) :
    ∃ first rest, text.toList = first :: rest ∧ first.isDigit = true := by
  obtain ⟨first, rest, rfl⟩ := List.exists_cons_of_ne_nil numeral.nonempty
  have digit : first.isDigit = true := numeral.digits first (by simp)
  rcases numeral.characters with ⟨text_eq, -⟩ | text_eq
  · exact ⟨first, rest, text_eq, digit⟩
  · exact ⟨first, _, text_eq, digit⟩

/-- The digits before the point come first, and what is left are those after it. -/
theorem cut (numeral : IsNumeral text whole fraction) :
    text.toList.takeWhile Char.isDigit = whole ∧
      (text.toList.dropWhile Char.isDigit = [] ∧ fraction = [] ∨
        text.toList.dropWhile Char.isDigit = '.' :: fraction) := by
  have whole_digits : ∀ digit ∈ whole, digit.isDigit = true :=
    fun digit member => numeral.digits digit (List.mem_append_left _ member)
  rcases numeral.characters with ⟨text_eq, rfl⟩ | text_eq
  · rw [text_eq]
    exact ⟨List.takeWhile_eq_self_iff.mpr whole_digits,
      .inl ⟨List.dropWhile_eq_nil_iff.mpr whole_digits, rfl⟩⟩
  · rw [text_eq, List.takeWhile_append_of_pos whole_digits,
      List.dropWhile_append_of_pos whole_digits]
    exact ⟨by simp, .inr (by simp)⟩

/-- The digits can be told from the text. -/
theorem unique {other others : List Char} (numeral : IsNumeral text whole fraction)
    (another : IsNumeral text other others) : whole = other ∧ fraction = others := by
  obtain ⟨whole_eq, tail⟩ := numeral.cut
  obtain ⟨other_eq, tails⟩ := another.cut
  refine ⟨whole_eq.symm.trans other_eq, ?_⟩
  rcases tail with ⟨tail_eq, rfl⟩ | tail_eq <;> rcases tails with ⟨tails_eq, rfl⟩ | tails_eq <;>
    rw [tail_eq] at tails_eq
  · cases tails_eq
  · cases tails_eq
  · exact (List.cons.inj tails_eq).2

/-- Reading digits around a point gives the double nearest to what they spell. -/
theorem parseDouble?_eq (numeral : IsNumeral text whole fraction) :
    parseDouble? text =
      some (nearestDouble (digitsValue (whole ++ fraction)) (powerOfTen fraction.length)) := by
  have fraction_digits : fraction.all Char.isDigit = true :=
    List.all_eq_true.mpr fun digit member =>
      numeral.digits digit (List.mem_append_right _ member)
  have present : whole.isEmpty = false := List.isEmpty_eq_false_iff.mpr numeral.nonempty
  obtain ⟨front, ⟨back, rfl⟩ | back⟩ := numeral.cut
  · simp [parseDouble?, front, back, present]
  · simp [parseDouble?, front, back, present, fraction_digits]

end IsNumeral

end TensorLang
