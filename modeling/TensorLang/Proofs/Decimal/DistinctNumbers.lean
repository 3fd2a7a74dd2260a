import TensorLang.Proofs.Decimal.ReadBack

/-!
# Different numbers have different texts

The text of a number that is not NaN tells its sign and its other bits.  It consists of digits, of
at most one point and one minus sign, and of the letters of infinity.
-/

namespace TensorLang

open Magnitude (roundQuotient infinityBits)

variable {value : Float}

theorem eq_of_lowBits {left right : Float} (sign : signBit left = signBit right)
    (low : left.toBits.toNat % 2 ^ 63 = right.toBits.toNat % 2 ^ 63) : left = right := by
  have left_word : left.toBits.toNat < 2 ^ 64 := left.toBits.toNat_lt
  have right_word : right.toBits.toNat < 2 ^ 64 := right.toBits.toNat_lt
  rw [signBit, signBit, Nat.testBit_eq_decide_div_mod_eq, Nat.testBit_eq_decide_div_mod_eq,
    decide_eq_decide] at sign
  exact eq_of_toBits (UInt64.toNat_inj.mp (by omega))

theorem ne_nan_of_finite {significand : ℕ} {exponent : ℤ}
    (finite : magnitude value = .finite significand exponent) : magnitude value ≠ .nan := by
  intro same
  rw [finite] at same
  cases same

/-- A text of the bits of a number apart from its sign: digits that are rounded to these bits, or
the text of infinity. -/
inductive Writes (bits : ℕ) : String → Prop where
  | infinity (infinite : bits = infinityBits) : Writes bits "inf"
  | numeral {text : String} {whole fraction : List Char} (numeral : IsNumeral text whole fraction)
      (rounded :
        roundQuotient (digitsValue (whole ++ fraction)) (powerOfTen fraction.length) = bits) :
      Writes bits text

/-- A character of the text of a number. -/
def isFigure (char : Char) : Bool :=
  char.isDigit || ['.', '-', 'i', 'n', 'f'].contains char

namespace Writes

variable {bits other : ℕ} {text : String}

theorem exists_cons (writes : Writes bits text) :
    ∃ first rest, text.toList = first :: rest ∧ first ≠ '-' := by
  cases writes with
  | infinity => exact ⟨'i', ['n', 'f'], rfl, by decide⟩
  | numeral numeral =>
      obtain ⟨first, rest, text_eq, digit⟩ := numeral.exists_cons
      refine ⟨first, rest, text_eq, ?_⟩
      rintro rfl
      cases digit

private theorem figures (writes : Writes bits text) :
    ∀ char ∈ text.toList, isFigure char = true := by
  cases writes with
  | infinity =>
      have text_eq : "inf".toList = ['i', 'n', 'f'] := rfl
      simp [text_eq, isFigure]
  | numeral numeral =>
      intro char member
      have digit : ∀ digit ∈ _, isFigure digit = true := fun digit member => by
        rw [isFigure, numeral.digits digit member, Bool.true_or]
      rcases numeral.characters with ⟨text_eq, rfl⟩ | text_eq
      · rw [text_eq] at member
        exact digit char (List.mem_append_left _ member)
      · rw [text_eq, List.mem_append, List.mem_cons] at member
        rcases member with whole | rfl | fraction
        · exact digit char (List.mem_append_left _ whole)
        · rfl
        · exact digit char (List.mem_append_right _ fraction)

theorem ne_inf {whole fraction : List Char} (numeral : IsNumeral text whole fraction) :
    text ≠ "inf" := by
  rintro rfl
  obtain ⟨first, rest, text_eq, digit⟩ := numeral.exists_cons
  obtain ⟨rfl, -⟩ := List.cons.inj (rfl.trans text_eq : 'i' :: ['n', 'f'] = first :: rest)
  cases digit

/-- The bits can be told from the text. -/
theorem unique (writes : Writes bits text) (another : Writes other text) : bits = other := by
  cases writes with
  | infinity infinite =>
      cases another with
      | infinity also => rw [infinite, also]
      | numeral numeral => exact absurd rfl (ne_inf numeral)
  | numeral numeral rounded =>
      cases another with
      | infinity => exact absurd rfl (ne_inf numeral)
      | numeral also also_rounded =>
          obtain ⟨rfl, rfl⟩ := numeral.unique also
          exact rounded.symm.trans also_rounded

end Writes

/-- The text of a number is a sign and a text of its other bits. -/
theorem exists_writes (number : magnitude value ≠ .nan) :
    ∃ text, numberText value = (if signBit value then "-" else "") ++ text ∧
      Writes (value.toBits.toNat % 2 ^ 63) text := by
  cases magnitude_eq : magnitude value with
  | nan => exact absurd magnitude_eq number
  | infinite =>
      refine ⟨"inf", by rw [numberText, magnitude_eq], .infinity ?_⟩
      have power : Magnitude.leastNormal = 2 ^ 52 := rfl
      rw [magnitude, Magnitude.ofBits] at magnitude_eq
      simp only [power] at magnitude_eq
      rw [infinityBits, power]
      split at magnitude_eq
      · split at magnitude_eq
        · omega
        · cases magnitude_eq
      · split at magnitude_eq <;> cases magnitude_eq
  | finite significand exponent =>
      obtain ⟨bits_eq, -, kind⟩ := lowBits_of_magnitude magnitude_eq
      obtain ⟨whole, fraction, numeral, rounded⟩ := exists_isNumeral_unsignedText kind
      exact ⟨_, numberText_eq magnitude_eq, .numeral numeral (rounded.trans bits_eq.symm)⟩

/-- The text of a number consists of figures, and there is one. -/
theorem numberText_figures (number : magnitude value ≠ .nan) :
    (∀ char ∈ (numberText value).toList, isFigure char = true) ∧
      (numberText value).toList ≠ [] := by
  obtain ⟨text, text_eq, writes⟩ := exists_writes number
  obtain ⟨first, rest, cons_eq, -⟩ := writes.exists_cons
  rw [text_eq, String.toList_append, cons_eq]
  refine ⟨List.forall_mem_append.mpr ⟨?_, cons_eq ▸ writes.figures⟩, by simp⟩
  cases signBit value with
  | false => exact List.forall_mem_nil _
  | true => exact List.forall_mem_singleton.mpr rfl

/-- Numbers with the same text are the same, if they are numbers at all. -/
theorem numberText_inj {left right : Float} (left_number : magnitude left ≠ .nan)
    (right_number : magnitude right ≠ .nan) :
    numberText left = numberText right ↔ left = right := by
  refine ⟨fun same => ?_, congrArg numberText⟩
  obtain ⟨text, text_eq, writes⟩ := exists_writes left_number
  obtain ⟨other, other_eq, also⟩ := exists_writes right_number
  obtain ⟨first, rest, cons_eq, unsigned⟩ := writes.exists_cons
  obtain ⟨start, tail, start_eq, other_unsigned⟩ := also.exists_cons
  rw [text_eq, other_eq] at same
  have sign_eq : signBit left = signBit right := by
    have lists_eq := congrArg String.toList same
    rw [String.toList_append, String.toList_append, cons_eq, start_eq] at lists_eq
    cases left_sign : signBit left <;> cases right_sign : signBit right
    · rfl
    · rw [left_sign, right_sign] at lists_eq
      exact absurd (List.cons.inj lists_eq).1 unsigned
    · rw [left_sign, right_sign] at lists_eq
      exact absurd (List.cons.inj lists_eq).1.symm other_unsigned
    · rfl
  rw [sign_eq, String.append_right_inj] at same
  subst same
  exact eq_of_lowBits sign_eq (writes.unique also)

end TensorLang
