import TensorLang.Proofs.Tensor.Words

/-!
# Fitting shapes

A shape fits when its dimensions are positive and any of them multiply to a word.  Its element
count, its offsets and index tuples and the bounds of its slices are then all computed with words.
-/

namespace TensorLang

namespace Shape

variable {shape : Shape}

/-- The dimensions are positive, and any of them multiply to a word. -/
structure Fits (shape : Shape) : Prop where
  /-- Dimensions are positive. -/
  positive : ∀ dimension ∈ shape.dimensions, 1 ≤ dimension
  /-- Whichever dimensions are chosen, their product is a word. -/
  bounded : ∀ chosen : List Nat, chosen.Sublist shape.dimensions →
    (Shape.mk chosen).size < countBound

/-- The product of all dimensions decides. -/
theorem fits_iff : shape.Fits ↔ 0 < shape.size ∧ shape.size < countBound := by
  constructor
  · intro fits
    refine ⟨size_pos_of_zero_notMem fun zero => ?_, fits.bounded _ (List.Sublist.refl _)⟩
    have least := fits.positive 0 zero
    omega
  · rintro ⟨positive, small⟩
    refine ⟨fun dimension member => ?_, fun chosen sublist => ?_⟩
    · have nonzero := zero_notMem_of_size_pos positive
      refine Nat.pos_of_ne_zero ?_
      rintro rfl
      exact nonzero member
    · exact Nat.lt_of_le_of_lt (size_le_of_sublist sublist positive) small

instance (shape : Shape) : Decidable shape.Fits := decidable_of_iff _ fits_iff.symm

namespace Fits

theorem size_pos (fits : shape.Fits) : 0 < shape.size := (fits_iff.mp fits).1

private theorem size_lt (fits : shape.Fits) : shape.size < countBound := (fits_iff.mp fits).2

private theorem zero_notMem (fits : shape.Fits) : 0 ∉ shape.dimensions :=
  zero_notMem_of_size_pos fits.size_pos

theorem dimension_lt (fits : shape.Fits) {dimension : Nat} (member : dimension ∈ shape.dimensions) :
    dimension < countBound := by
  have small := fits.bounded [dimension] (List.singleton_sublist.mpr member)
  rwa [size_cons, size_nil, Nat.mul_one] at small

theorem nonzeroSize_lt (fits : shape.Fits) : shape.nonzeroSize < countBound := by
  rw [nonzeroSize_of_pos fits.size_pos.ne']
  exact fits.size_lt

theorem boundedSize?_eq (fits : shape.Fits) : shape.boundedSize? = some shape.size :=
  boundedSize?_of_lt fits.nonzeroSize_lt

/-- The elements of a shape with elements fit if they can be counted. -/
theorem of_counted (positive : 0 < shape.size) (counted : shape.boundedSize?.isSome = true) :
    shape.Fits := by
  obtain ⟨count, found⟩ := Option.isSome_iff_exists.mp counted
  exact fits_iff.mpr ⟨positive, size_lt_of_boundedSize? found⟩

theorem reverse (fits : shape.Fits) : shape.reverse.Fits := by
  rw [fits_iff, size_reverse]
  exact fits_iff.mp fits

/-- A matrix product has the rows of one matrix and the columns of another. -/
theorem product {rows inner columns : Nat} (left : Fits ⟨[rows, inner]⟩)
    (right : Fits ⟨[inner, columns]⟩)
    (counted : (Shape.mk [rows, columns]).boundedSize?.isSome = true) :
    Fits ⟨[rows, columns]⟩ := by
  have rows_pos := left.positive rows (by simp)
  have columns_pos := right.positive columns (by simp)
  refine of_counted ?_ counted
  simp only [size_cons, size_nil, Nat.mul_one]
  exact Nat.mul_pos rows_pos columns_pos

end Fits

/-- Whatever is computed of the shape is computed with words: there is no overflow, no division by
zero and no slice behind the last value. -/
structure InWords (shape : Shape) : Prop where
  /-- The number of elements. -/
  size : Word.size shape = .ok shape.size
  /-- The offset of any tuple, also of one that has none. -/
  offset : ∀ indices, Word.offset shape indices = .ok (shape.offset? indices)
  /-- The index tuple of any offset. -/
  indices : ∀ offset, ∃ tuple, shape.indices? offset = some tuple ∧
    Word.indices shape offset = .ok tuple
  /-- The text of as many values as there are elements. -/
  text : ∀ separator (values : List Float), values.length = shape.size → ∃ text,
    nestedText? separator shape.dimensions values = some text ∧
      Word.nestedText separator shape.dimensions values = .ok text

/-- Of a shape that fits everything is computed with words. -/
theorem Fits.inWords (fits : shape.Fits) : shape.InWords where
  size := Word.size_of_boundedSize? fits.boundedSize?_eq
  offset := Word.offset_of_boundedSize? fits.boundedSize?_eq
  indices := by
    intro offset
    have found : shape.indices? offset = some (indicesFrom offset shape.dimensions).1 :=
      if_neg fits.zero_notMem
    exact ⟨_, found, Word.indices_of_indices? found⟩
  text := by
    intro separator values filled
    have enough : shape.size ≤ values.length := Nat.le_of_eq filled.symm
    exact ⟨_, nestedText?_of_le separator enough,
      Word.nestedText_of_le separator enough fits.nonzeroSize_lt⟩

end Shape

end TensorLang
