import TensorLang.Proofs.Tensor.Words

/-!
# The row-major order

Offsets number the index tuples of a shape in lexicographic order.  The indices of an offset are
read off by remainders, and the text of a tensor shows the values at the offsets of their index
tuples: the three codes agree for every shape whose elements are counted, and computing them with
words changes nothing.
-/

namespace TensorLang

namespace Shape

variable {dimensions left right : List Nat}

private theorem digits_lt_iff {base first second high low : Nat} (first_lt : first < base)
    (second_lt : second < base) :
    high * base + first < low * base + second ↔ high < low ∨ high = low ∧ first < second := by
  constructor
  · intro less
    rcases Nat.lt_trichotomy high low with above | same | below
    · exact .inl above
    · subst same
      exact .inr ⟨rfl, by omega⟩
    · have := Nat.mul_le_mul_right base below
      rw [Nat.succ_mul] at this
      omega
  · rintro (above | ⟨rfl, less⟩)
    · have := Nat.mul_le_mul_right base above
      rw [Nat.succ_mul] at this
      omega
    · omega

theorem rowMajor_lt_iff (left_within : Within dimensions left)
    (right_within : Within dimensions right) :
    rowMajor dimensions left < rowMajor dimensions right ↔ left < right := by
  induction dimensions generalizing left right with
  | nil =>
      cases left with
      | nil =>
          cases right with
          | nil => simp [rowMajor]
          | cons index indices => exact right_within.elim
      | cons index indices => exact left_within.elim
  | cons dimension dimensions induction =>
      cases left with
      | nil => exact left_within.elim
      | cons index indices =>
          cases right with
          | nil => exact right_within.elim
          | cons other others =>
              rw [rowMajor, rowMajor, List.cons_lt_cons_iff,
                digits_lt_iff (rowMajor_lt_size left_within.2) (rowMajor_lt_size right_within.2),
                induction left_within.2 right_within.2]

theorem offset?_injective {shape : Shape} {offset : Nat} {left right : List Nat}
    (left_eq : shape.offset? left = some offset) (right_eq : shape.offset? right = some offset) :
    left = right := by
  obtain ⟨left_within, left_number⟩ := offset?_eq_some_iff.mp left_eq
  obtain ⟨right_within, right_number⟩ := offset?_eq_some_iff.mp right_eq
  have left_at := getElem?_indexTuples_rowMajor left_within
  have right_at := getElem?_indexTuples_rowMajor right_within
  rw [left_number] at left_at
  rw [right_number, left_at] at right_at
  exact Option.some.inj right_at

theorem exists_indices? {shape : Shape} {offset : Nat} (inside : offset < shape.size) :
    ∃ indices, shape.indices? offset = some indices :=
  ⟨_, if_neg (zero_notMem_of_size_pos (Nat.zero_lt_of_lt inside))⟩

/-- The indices of an offset are the tuple that has the offset. -/
theorem indices?_eq_some_iff {shape : Shape} {offset : Nat} {indices : List Nat}
    (inside : offset < shape.size) :
    shape.indices? offset = some indices ↔ shape.offset? indices = some offset := by
  constructor
  · exact fun found => offset?_of_indices? found inside
  · intro found
    obtain ⟨others, others_eq⟩ := exists_indices? inside
    rw [others_eq, offset?_injective (offset?_of_indices? others_eq inside) found]

/-- Offsets, indices and texts of a shape with `count` elements follow the row-major order, and so
do they when they are computed with words. -/
structure InRowMajorOrder (shape : Shape) (count : Nat) : Prop where
  /-- The tuples with an offset are those with one index below each dimension. -/
  offset_iff : ∀ indices, (shape.offset? indices).isSome ↔
    indices.length = shape.rank ∧ ∀ place ∈ indices.zip shape.dimensions, place.1 < place.2
  /-- No offset on the way is more than a word, whatever the tuple. -/
  offset_word : ∀ indices, Word.offset shape indices = .ok (shape.offset? indices)
  /-- Every offset is below the number of elements. -/
  offset_lt : ∀ indices offset, shape.offset? indices = some offset → offset < count
  /-- Every number below it is the offset of exactly one tuple. -/
  offset_unique : ∀ offset < count, ∃ indices, shape.offset? indices = some offset ∧
    ∀ other, shape.offset? other = some offset → other = indices
  /-- Offsets grow in lexicographic order. -/
  offset_lt_iff : ∀ left right first second, shape.offset? left = some first →
    shape.offset? right = some second → (first < second ↔ left < right)
  /-- The indices of an offset are the tuple that has the offset. -/
  indices_iff : ∀ offset < count, ∀ indices,
    shape.indices? offset = some indices ↔ shape.offset? indices = some offset
  /-- The indices are computed without a division by zero. -/
  indices_word : ∀ offset < count, ∃ indices,
    Word.indices shape offset = .ok indices ∧ shape.indices? offset = some indices
  /-- The text of enough values shows each value at the tuple that has its offset, if the dimensions
  other than zero multiply to a word. -/
  text : shape.nonzeroSize < countBound → ∀ separator (values : List Float),
    count ≤ values.length → ∃ element : List Nat → Float,
      (∀ indices offset, shape.offset? indices = some offset →
        values[offset]? = some (element indices)) ∧
      nestedText? separator shape.dimensions values =
        some (nestedText separator shape.dimensions element) ∧
      Word.nestedText separator shape.dimensions values =
        .ok (nestedText separator shape.dimensions element)

private theorem exists_nestedText {shape : Shape} {values : List Float} (separator : String)
    (small : shape.nonzeroSize < countBound) (enough : shape.size ≤ values.length) :
    ∃ element : List Nat → Float,
      (∀ indices offset, shape.offset? indices = some offset →
        values[offset]? = some (element indices)) ∧
      nestedText? separator shape.dimensions values =
        some (nestedText separator shape.dimensions element) ∧
      Word.nestedText separator shape.dimensions values =
        .ok (nestedText separator shape.dimensions element) := by
  refine ⟨fun indices => values.getD (rowMajor shape.dimensions indices) 0, ?_,
    nestedText?_of_le separator enough, Word.nestedText_of_le separator enough small⟩
  intro indices offset found
  have inside := Nat.lt_of_lt_of_le (offset?_lt_size found) enough
  obtain ⟨-, rfl⟩ := offset?_eq_some_iff.mp found
  change _ = some (values.getD _ 0)
  rw [List.getD_eq_getElem?_getD, List.getElem?_eq_getElem inside]
  rfl

/-- The row-major codes agree for every shape whose elements are counted. -/
theorem inRowMajorOrder_of_counted {shape : Shape} {count : Nat}
    (counted : shape.boundedSize? = some count) : shape.InRowMajorOrder count := by
  obtain rfl := size_of_boundedSize? counted
  exact {
    offset_iff := fun indices => by
      rw [rank, ← within_iff, Option.isSome_iff_exists]
      exact ⟨fun ⟨_, found⟩ => (offset?_eq_some_iff.mp found).1,
        fun within => ⟨_, offset?_eq_some_iff.mpr ⟨within, rfl⟩⟩⟩
    offset_word := Word.offset_of_boundedSize? counted
    offset_lt := fun _ _ => offset?_lt_size
    offset_unique := fun offset inside => by
      obtain ⟨indices, found⟩ := exists_indices? inside
      have offset_eq := (indices?_eq_some_iff inside).mp found
      exact ⟨indices, offset_eq, fun other other_eq => offset?_injective other_eq offset_eq⟩
    offset_lt_iff := fun left right first second first_eq second_eq => by
      obtain ⟨left_within, rfl⟩ := offset?_eq_some_iff.mp first_eq
      obtain ⟨right_within, rfl⟩ := offset?_eq_some_iff.mp second_eq
      exact rowMajor_lt_iff left_within right_within
    indices_iff := fun _ inside _ => indices?_eq_some_iff inside
    indices_word := fun offset inside => by
      obtain ⟨indices, found⟩ := exists_indices? inside
      exact ⟨indices, Word.indices_of_indices? found, found⟩
    text := fun small separator _ enough => exists_nestedText separator small enough }

theorem inRowMajorOrder_of_counted_largestWord :
    boundedSize? ⟨[3, 6148914691236517205]⟩ = some 18446744073709551615 ∧
      InRowMajorOrder ⟨[3, 6148914691236517205]⟩ 18446744073709551615 := by
  have counted : boundedSize? ⟨[3, 6148914691236517205]⟩ = some 18446744073709551615 := by decide
  exact ⟨counted, inRowMajorOrder_of_counted counted⟩

end Shape

end TensorLang
