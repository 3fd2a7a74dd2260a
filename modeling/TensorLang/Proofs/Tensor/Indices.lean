import TensorLang.Tensor.Shape

/-!
# Index tuples in row-major order

The index tuples of a shape in row-major order stand at their offsets: the checked offset of a
tuple is its position in that order, so it is below the number of elements, and every offset below
that number belongs to one tuple.  The checked number of elements is the number of elements as long
as the dimensions other than zero multiply to a word.
-/

namespace TensorLang

namespace Shape

@[simp]
theorem size_nil : (Shape.mk []).size = 1 := rfl

@[simp]
theorem size_cons (dimension : Nat) (dimensions : List Nat) :
    (Shape.mk (dimension :: dimensions)).size = dimension * (Shape.mk dimensions).size := rfl

theorem size_append (front back : List Nat) :
    (Shape.mk (front ++ back)).size = (Shape.mk front).size * (Shape.mk back).size := by
  induction front with
  | nil => simp
  | cons dimension front induction =>
      rw [List.cons_append, size_cons, size_cons, induction, Nat.mul_assoc]

private theorem eq_of_boundedProduct? {product count : Nat} {dimensions : List Nat}
    (found : boundedProduct? product dimensions = some count) :
    count = product * (Shape.mk dimensions).size := by
  induction dimensions generalizing product with
  | nil =>
      rw [size_nil, Nat.mul_one]
      exact (Option.some.inj found).symm
  | cons dimension dimensions induction =>
      rw [boundedProduct?] at found
      split at found
      · rw [induction found, size_cons, Nat.mul_assoc]
      · cases found

theorem size_of_boundedSize? {shape : Shape} {count : Nat}
    (found : shape.boundedSize? = some count) : count = shape.size := by
  rw [eq_of_boundedProduct? found, Nat.one_mul]

theorem size_reverse (shape : Shape) : shape.reverse.size = shape.size := by
  obtain ⟨dimensions⟩ := shape
  change (Shape.mk dimensions.reverse).size = _
  induction dimensions with
  | nil => rfl
  | cons dimension dimensions induction =>
      rw [List.reverse_cons, size_append, induction, size_cons, size_cons, size_nil, Nat.mul_one,
        Nat.mul_comm]

theorem size_pos_of_zero_notMem {dimensions : List Nat} (nonzero : 0 ∉ dimensions) :
    0 < (Shape.mk dimensions).size := by
  induction dimensions with
  | nil => exact Nat.one_pos
  | cons dimension dimensions induction =>
      simp only [List.mem_cons, not_or] at nonzero
      exact Nat.mul_pos (by omega) (induction nonzero.2)

/-- A shape with elements has no dimension of zero. -/
theorem zero_notMem_of_size_pos {shape : Shape} (positive : 0 < shape.size) :
    0 ∉ shape.dimensions := by
  intro zero_mem
  obtain ⟨dimensions⟩ := shape
  obtain ⟨front, back, rfl⟩ := List.append_of_mem zero_mem
  rw [size_append, size_cons, Nat.zero_mul, Nat.mul_zero] at positive
  exact Nat.lt_irrefl 0 positive

/-- One index below each dimension. -/
def Within : List Nat → List Nat → Prop
  | [], [] => True
  | dimension :: dimensions, index :: indices => index < dimension ∧ Within dimensions indices
  | _, _ => False

@[simp]
theorem within_nil_nil : Within [] [] := trivial

@[simp]
theorem within_cons_cons {dimension index : Nat} {dimensions indices : List Nat} :
    Within (dimension :: dimensions) (index :: indices) ↔
      index < dimension ∧ Within dimensions indices := Iff.rfl

/-- The indices are as many as the dimensions, and each is below its dimension. -/
theorem within_iff {dimensions indices : List Nat} :
    Within dimensions indices ↔ indices.length = dimensions.length ∧
      ∀ place ∈ indices.zip dimensions, place.1 < place.2 := by
  induction dimensions generalizing indices with
  | nil => cases indices <;> simp [Within]
  | cons dimension dimensions induction =>
      cases indices with
      | nil => simp [Within]
      | cons index indices =>
          simp only [within_cons_cons, induction, List.length_cons, List.zip_cons_cons,
            List.forall_mem_cons, Nat.succ_inj]
          exact ⟨fun ⟨below, same, others⟩ => ⟨same, below, others⟩,
            fun ⟨same, below, others⟩ => ⟨below, same, others⟩⟩

/-- The number that the indices of a tuple spell in the dimensions as bases. -/
def rowMajor : List Nat → List Nat → Nat
  | _ :: dimensions, index :: indices =>
      index * (Shape.mk dimensions).size + rowMajor dimensions indices
  | _, _ => 0

theorem rowMajor_lt_size {dimensions indices : List Nat} (within : Within dimensions indices) :
    rowMajor dimensions indices < (Shape.mk dimensions).size := by
  induction dimensions generalizing indices with
  | nil =>
      cases indices with
      | nil => exact Nat.one_pos
      | cons index indices => exact within.elim
  | cons dimension dimensions induction =>
      cases indices with
      | nil => exact within.elim
      | cons index indices =>
          have rest := induction within.2
          calc
            index * (Shape.mk dimensions).size + rowMajor dimensions indices <
                index * (Shape.mk dimensions).size + (Shape.mk dimensions).size :=
              Nat.add_lt_add_left rest _
            _ = (index + 1) * (Shape.mk dimensions).size := by rw [Nat.succ_mul]
            _ ≤ dimension * (Shape.mk dimensions).size := Nat.mul_le_mul_right _ within.1

theorem offsetFrom?_of_within {dimensions indices : List Nat} (start : Nat)
    (within : Within dimensions indices) :
    offsetFrom? start dimensions indices =
      some (start * (Shape.mk dimensions).size + rowMajor dimensions indices) := by
  induction dimensions generalizing indices start with
  | nil =>
      cases indices with
      | nil => simp [offsetFrom?, rowMajor]
      | cons index indices => exact within.elim
  | cons dimension dimensions induction =>
      cases indices with
      | nil => exact within.elim
      | cons index indices =>
          rw [offsetFrom?, if_pos within.1, induction _ within.2, size_cons, rowMajor,
            Nat.add_mul, Nat.mul_assoc, Nat.add_assoc]

private theorem within_of_offsetFrom? {dimensions indices : List Nat} {start offset : Nat}
    (found : offsetFrom? start dimensions indices = some offset) : Within dimensions indices := by
  induction dimensions generalizing indices start with
  | nil =>
      cases indices with
      | nil => exact trivial
      | cons index indices => cases found
  | cons dimension dimensions induction =>
      cases indices with
      | nil => cases found
      | cons index indices =>
          rw [offsetFrom?] at found
          split at found
          · exact ⟨by assumption, induction found⟩
          · cases found

/-- The checked offset of a tuple is its row-major number. -/
theorem offset?_eq_some_iff {shape : Shape} {indices : List Nat} {offset : Nat} :
    shape.offset? indices = some offset ↔
      Within shape.dimensions indices ∧ rowMajor shape.dimensions indices = offset := by
  constructor
  · intro found
    have within := within_of_offsetFrom? found
    rw [offset?, offsetFrom?_of_within 0 within, Nat.zero_mul, Nat.zero_add] at found
    exact ⟨within, Option.some.inj found⟩
  · rintro ⟨within, rfl⟩
    rw [offset?, offsetFrom?_of_within 0 within, Nat.zero_mul, Nat.zero_add]

theorem offset?_lt_size {shape : Shape} {indices : List Nat} {offset : Nat}
    (found : shape.offset? indices = some offset) : offset < shape.size := by
  obtain ⟨within, rfl⟩ := offset?_eq_some_iff.mp found
  exact rowMajor_lt_size within

/-- All index tuples of dimensions, the last index varying fastest. -/
def indexTuples : List Nat → List (List Nat)
  | [] => [[]]
  | dimension :: dimensions =>
      (List.range dimension).flatMap fun index => (indexTuples dimensions).map (index :: ·)

@[simp]
theorem length_indexTuples (dimensions : List Nat) :
    (indexTuples dimensions).length = (Shape.mk dimensions).size := by
  induction dimensions with
  | nil => rfl
  | cons dimension dimensions induction =>
      simp [indexTuples, List.length_flatMap, induction, List.map_const']

theorem mem_indexTuples {dimensions indices : List Nat} :
    indices ∈ indexTuples dimensions ↔ Within dimensions indices := by
  induction dimensions generalizing indices with
  | nil => cases indices <;> simp [indexTuples, Within]
  | cons dimension dimensions induction =>
      simp only [indexTuples, List.mem_flatMap, List.mem_range, List.mem_map]
      constructor
      · rintro ⟨index, inside, rest, rest_mem, rfl⟩
        exact ⟨inside, induction.mp rest_mem⟩
      · intro within
        cases indices with
        | nil => exact within.elim
        | cons index indices =>
            exact ⟨index, within.1, indices, induction.mpr within.2, rfl⟩

/-- In pieces of equal length, a position is a piece and a place in it. -/
theorem getElem?_flatMap_range {α : Type} (piece : Nat → List α) {count size index place : Nat}
    (length_eq : ∀ index, (piece index).length = size) (inside : index < count)
    (within : place < size) :
    ((List.range count).flatMap piece)[index * size + place]? = (piece index)[place]? := by
  induction count with
  | zero => omega
  | succ count induction =>
      have front : ((List.range count).flatMap piece).length = count * size := by
        simp [List.length_flatMap, length_eq, List.map_const']
      rw [List.range_succ, List.flatMap_append, List.getElem?_append, front]
      by_cases earlier : index < count
      · have before : index * size + place < count * size := by
          calc
            index * size + place < index * size + size := Nat.add_lt_add_left within _
            _ = (index + 1) * size := by rw [Nat.succ_mul]
            _ ≤ count * size := Nat.mul_le_mul_right _ earlier
        rw [if_pos before, induction earlier]
      · obtain rfl : index = count := by omega
        rw [if_neg (by omega), Nat.add_sub_cancel_left]
        simp

/-- A tuple stands at its row-major number. -/
theorem getElem?_indexTuples_rowMajor {dimensions indices : List Nat}
    (within : Within dimensions indices) :
    (indexTuples dimensions)[rowMajor dimensions indices]? = some indices := by
  induction dimensions generalizing indices with
  | nil =>
      cases indices with
      | nil => rfl
      | cons index indices => exact within.elim
  | cons dimension dimensions induction =>
      cases indices with
      | nil => exact within.elim
      | cons index indices =>
          rw [indexTuples, rowMajor, getElem?_flatMap_range _ (by simp) within.1
            (rowMajor_lt_size within.2), List.getElem?_map, induction within.2]
          rfl

/-- The tuples are read off their row-major numbers. -/
theorem rowMajor_of_getElem? {dimensions indices : List Nat} {offset : Nat}
    (found : (indexTuples dimensions)[offset]? = some indices) :
    rowMajor dimensions indices = offset := by
  induction dimensions generalizing indices offset with
  | nil =>
      cases offset with
      | zero => cases found; rfl
      | succ offset => cases found
  | cons dimension dimensions induction =>
      have inside := (List.getElem?_eq_some_iff.mp found).1
      rw [length_indexTuples, size_cons] at inside
      have positive : 0 < (Shape.mk dimensions).size := Nat.pos_of_lt_mul_left inside
      have split_eq := Nat.div_add_mod' offset (Shape.mk dimensions).size
      have quotient : offset / (Shape.mk dimensions).size < dimension :=
        Nat.div_lt_of_lt_mul (by rwa [Nat.mul_comm])
      rw [← split_eq, indexTuples, getElem?_flatMap_range _ (by simp) quotient
        (Nat.mod_lt _ positive), List.getElem?_map, Option.map_eq_some_iff] at found
      obtain ⟨rest, rest_eq, rfl⟩ := found
      rw [rowMajor, induction rest_eq, split_eq]

/-- The tuple at a position has that position as its offset. -/
theorem offset?_of_getElem? {shape : Shape} {indices : List Nat} {offset : Nat}
    (found : (indexTuples shape.dimensions)[offset]? = some indices) :
    shape.offset? indices = some offset :=
  offset?_eq_some_iff.mpr
    ⟨mem_indexTuples.mp (List.mem_of_getElem? found), rowMajor_of_getElem? found⟩

theorem within_indicesFrom {dimensions : List Nat} (offset : Nat) (nonzero : 0 ∉ dimensions) :
    Within dimensions (indicesFrom offset dimensions).1 := by
  induction dimensions with
  | nil => exact trivial
  | cons dimension dimensions induction =>
      simp only [List.mem_cons, not_or] at nonzero
      exact ⟨Nat.mod_lt _ (by omega), induction nonzero.2⟩

private theorem indicesFrom_eq (offset : Nat) (dimensions : List Nat) :
    (indicesFrom offset dimensions).2 * (Shape.mk dimensions).size +
      rowMajor dimensions (indicesFrom offset dimensions).1 = offset := by
  induction dimensions with
  | nil => simp [indicesFrom, rowMajor]
  | cons dimension dimensions induction =>
      have parts := Nat.div_add_mod' (indicesFrom offset dimensions).2 dimension
      rw [indicesFrom, rowMajor, size_cons, ← Nat.mul_assoc, ← Nat.add_assoc, ← Nat.add_mul, parts,
        induction]

/-- The indices of an offset below the number of elements have that offset. -/
theorem offset?_of_indices? {shape : Shape} {offset : Nat} {indices : List Nat}
    (found : shape.indices? offset = some indices) (inside : offset < shape.size) :
    shape.offset? indices = some offset := by
  rw [indices?] at found
  split at found
  · cases found
  · obtain rfl := Option.some.inj found
    have within := within_indicesFrom offset (by assumption)
    have parts := indicesFrom_eq offset shape.dimensions
    have none_left : (indicesFrom offset shape.dimensions).2 = 0 := by
      rcases Nat.eq_zero_or_pos (indicesFrom offset shape.dimensions).2 with none_left | some_left
      · exact none_left
      · have := Nat.le_mul_of_pos_left shape.size some_left
        change _ * shape.size + _ = offset at parts
        omega
    rw [none_left, Nat.zero_mul, Nat.zero_add] at parts
    exact offset?_eq_some_iff.mpr ⟨within, parts⟩

/-- The product of the dimensions other than zero. -/
def nonzeroSize (shape : Shape) : Nat :=
  (Shape.mk (shape.dimensions.filter (· ≠ 0))).size

theorem nonzeroSize_pos (shape : Shape) : 0 < shape.nonzeroSize :=
  size_pos_of_zero_notMem (by simp)

theorem nonzeroSize_cons {dimension : Nat} {dimensions : List Nat} (positive : dimension ≠ 0) :
    (Shape.mk (dimension :: dimensions)).nonzeroSize =
      dimension * (Shape.mk dimensions).nonzeroSize := by
  simp only [nonzeroSize, List.filter_cons, decide_eq_true positive, if_true, size_cons]

private theorem boundedProduct?_of_lt {product : Nat} {dimensions : List Nat}
    (small : product * (Shape.mk dimensions).nonzeroSize < countBound) :
    boundedProduct? product dimensions = some (product * (Shape.mk dimensions).size) := by
  induction dimensions generalizing product with
  | nil => rw [boundedProduct?, size_nil, Nat.mul_one]
  | cons dimension dimensions induction =>
      rw [boundedProduct?, size_cons, ← Nat.mul_assoc]
      by_cases zero : dimension = 0
      · subst zero
        rw [Nat.mul_zero, if_pos (by decide), induction (by rw [Nat.zero_mul]; decide)]
      · rw [nonzeroSize_cons zero, ← Nat.mul_assoc] at small
        have front := Nat.le_mul_of_pos_right (product * dimension)
          (nonzeroSize_pos ⟨dimensions⟩)
        rw [if_pos (Nat.lt_of_le_of_lt front small), induction small]

/-- No partial product exceeds a word if the product of the dimensions other than zero does not. -/
theorem boundedSize?_of_lt {shape : Shape} (small : shape.nonzeroSize < countBound) :
    shape.boundedSize? = some shape.size := by
  rw [boundedSize?, boundedProduct?_of_lt (by rwa [Nat.one_mul]), Nat.one_mul]

end Shape

end TensorLang
