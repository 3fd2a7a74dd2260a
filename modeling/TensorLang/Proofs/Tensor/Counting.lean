import Mathlib.Algebra.BigOperators.Group.List.Lemmas
import TensorLang.Proofs.Tensor.Indices

/-!
# Counting elements

The checked number of elements multiplies the dimensions from the left and gives up once a product
of leading dimensions is no word.  Without a dimension of zero these products only grow, so the
number is given exactly when it is a word, in whatever order the dimensions stand.  A dimension of
zero makes the number zero, but only products after it.
-/

namespace TensorLang

namespace Shape

variable {dimensions front : List Nat}

theorem size_eq_prod (dimensions : List Nat) : (Shape.mk dimensions).size = dimensions.prod := rfl

theorem size_perm {left right : List Nat} (perm : left.Perm right) :
    (Shape.mk left).size = (Shape.mk right).size := by
  rw [size_eq_prod, size_eq_prod, perm.prod_eq]

theorem nonzeroSize_perm {left right : List Nat} (perm : left.Perm right) :
    (Shape.mk left).nonzeroSize = (Shape.mk right).nonzeroSize :=
  size_perm (perm.filter _)

/-- Some of the dimensions multiply to no more than all of them. -/
theorem size_le_of_sublist (sublist : front.Sublist dimensions)
    (positive : 0 < (Shape.mk dimensions).size) :
    (Shape.mk front).size ≤ (Shape.mk dimensions).size := by
  refine Nat.le_of_dvd positive ?_
  rw [size_eq_prod, size_eq_prod]
  exact sublist.prod_dvd_prod

theorem nonzeroSize_of_pos {shape : Shape} (positive : shape.size ≠ 0) :
    shape.nonzeroSize = shape.size := by
  have nonzero := zero_notMem_of_size_pos (Nat.pos_of_ne_zero positive)
  have kept : shape.dimensions.filter (· ≠ 0) = shape.dimensions := by
    refine List.filter_eq_self.mpr fun dimension member => ?_
    simp only [ne_eq, decide_not, Bool.not_eq_true', decide_eq_false_iff_not]
    rintro rfl
    exact nonzero member
  rw [nonzeroSize, kept]

theorem nonzeroSize_le_cons (dimension : Nat) :
    (Shape.mk dimensions).nonzeroSize ≤ (Shape.mk (dimension :: dimensions)).nonzeroSize := by
  by_cases zero : dimension = 0
  · subst zero
    exact Nat.le_refl _
  · rw [nonzeroSize_cons zero]
    exact Nat.le_mul_of_pos_left _ (Nat.pos_of_ne_zero zero)

theorem size_le_nonzeroSize (shape : Shape) : shape.size ≤ shape.nonzeroSize := by
  by_cases zero : shape.size = 0
  · rw [zero]
    exact Nat.zero_le _
  · rw [nonzeroSize_of_pos zero]

private theorem boundedProduct?_eq_some_iff {product count : Nat} :
    boundedProduct? product dimensions = some count ↔
      count = product * (Shape.mk dimensions).size ∧
        ∀ front, front ≠ [] → front <+: dimensions →
          product * (Shape.mk front).size < countBound := by
  induction dimensions generalizing product with
  | nil =>
      have empty : ∀ front : List Nat, front ≠ [] → front <+: [] →
          product * (Shape.mk front).size < countBound :=
        fun front nonempty leading => absurd (List.prefix_nil.mp leading) nonempty
      rw [boundedProduct?, size_nil, Nat.mul_one, Option.some_inj]
      exact ⟨fun same => ⟨same.symm, empty⟩, fun counted => counted.1.symm⟩
  | cons dimension dimensions induction =>
      rw [boundedProduct?]
      constructor
      · intro found
        split at found
        · rename_i below
          obtain ⟨count_eq, bounded⟩ := induction.mp found
          refine ⟨by rw [count_eq, size_cons, Nat.mul_assoc], ?_⟩
          intro front nonempty leading
          obtain rfl | ⟨rest, rfl, rest_leading⟩ := List.prefix_cons_iff.mp leading
          · exact absurd rfl nonempty
          · rw [size_cons, ← Nat.mul_assoc]
            by_cases last : rest = []
            · rwa [last, size_nil, Nat.mul_one]
            · exact bounded rest last rest_leading
        · cases found
      · rintro ⟨count_eq, bounded⟩
        have below := bounded [dimension] (by simp) (by simp)
        rw [size_cons, size_nil, Nat.mul_one] at below
        rw [if_pos below]
        refine induction.mpr ⟨by rw [count_eq, size_cons, Nat.mul_assoc], ?_⟩
        intro front _ leading
        have longer := bounded (dimension :: front) (by simp)
          (List.prefix_cons_iff.mpr (.inr ⟨front, rfl, leading⟩))
        rwa [size_cons, ← Nat.mul_assoc] at longer

theorem boundedSize?_eq_some_iff {shape : Shape} {count : Nat} :
    shape.boundedSize? = some count ↔ count = shape.size ∧
      ∀ front, front <+: shape.dimensions → (Shape.mk front).size < countBound := by
  rw [boundedSize?, boundedProduct?_eq_some_iff]
  simp only [Nat.one_mul]
  refine and_congr_right fun _ => forall_congr' fun front => ⟨?_, fun bounded _ => bounded⟩
  intro bounded leading
  by_cases empty : front = []
  · rw [empty]
    decide
  · exact bounded empty leading

theorem size_lt_of_boundedSize? {shape : Shape} {count : Nat}
    (found : shape.boundedSize? = some count) : shape.size < countBound :=
  (boundedSize?_eq_some_iff.mp found).2 shape.dimensions (List.prefix_refl _)

/-- Shapes whose elements are counted however the dimensions are ordered: there are elements, or
the dimensions other than zero multiply to a word. -/
def Countable (shape : Shape) : Prop := shape.size ≠ 0 ∨ shape.nonzeroSize < countBound

instance (shape : Shape) : Decidable shape.Countable := by
  unfold Countable
  infer_instance

theorem Countable.perm {left right : List Nat} (countable : Countable ⟨right⟩)
    (perm : left.Perm right) : Countable ⟨left⟩ := by
  rwa [Countable, size_perm perm, nonzeroSize_perm perm]

/-- The elements of a countable shape are counted exactly when their number is a word. -/
theorem Countable.boundedSize?_eq {shape : Shape} (countable : shape.Countable) :
    shape.boundedSize? = if shape.size < countBound then some shape.size else none := by
  split
  · rename_i below
    refine boundedSize?_of_lt ?_
    obtain positive | small := countable
    · rwa [nonzeroSize_of_pos positive]
    · exact small
  · rename_i above
    refine Option.eq_none_iff_forall_ne_some.mpr fun count found => ?_
    exact above (size_lt_of_boundedSize? found)

private theorem boundedSize?_eq_none_of_nonzeroSize {shape : Shape}
    (large : ¬ shape.nonzeroSize < countBound) :
    boundedSize? ⟨shape.dimensions.filter (· ≠ 0) ++ shape.dimensions.filter (· = 0)⟩ = none := by
  refine Option.eq_none_iff_forall_ne_some.mpr fun count found => large ?_
  exact (boundedSize?_eq_some_iff.mp found).2 _ (List.prefix_append _ _)

private theorem perm_nonzero_zero (dimensions : List Nat) :
    (dimensions.filter (· ≠ 0) ++ dimensions.filter (· = 0)).Perm dimensions := by
  have perm := List.filter_append_perm (fun dimension => decide (dimension ≠ 0)) dimensions
  simpa using perm

/-- Countable shapes are those that are counted rightly in every order of their dimensions. -/
theorem countable_iff {shape : Shape} :
    shape.Countable ↔ ∀ dimensions, dimensions.Perm shape.dimensions →
      boundedSize? ⟨dimensions⟩ = if shape.size < countBound then some shape.size else none := by
  constructor
  · intro countable dimensions perm
    have other : Countable ⟨dimensions⟩ := Countable.perm countable perm
    have same : (Shape.mk dimensions).size = shape.size := size_perm perm
    rw [other.boundedSize?_eq, same]
  · intro exact_count
    by_contra uncountable
    obtain ⟨zero, large⟩ := not_or.mp uncountable
    have counted := exact_count _ (perm_nonzero_zero shape.dimensions)
    rw [boundedSize?_eq_none_of_nonzeroSize large, not_not.mp zero] at counted
    exact absurd counted (by decide)

theorem Countable.boundedSize?_reverse {shape : Shape} (countable : shape.Countable) :
    shape.reverse.boundedSize? = shape.boundedSize? := by
  rw [reverse, countable_iff.mp countable _ (List.reverse_perm shape.dimensions),
    countable.boundedSize?_eq]

end Shape

end TensorLang
