import TensorLang.Proofs.Tensor.Indices
import TensorLang.Tensor.Literal

/-!
# Tensors as text

The text of a tensor nests one pair of brackets for each dimension around the numbers at its index
tuples.  Cutting the row-major values into pieces gives the same text whenever the values fill the
shape.
-/

namespace TensorLang

/-- Nested brackets around the numbers at the index tuples of dimensions. -/
def nestedText (separator : String) : List Nat → (List Nat → Float) → String
  | [], element => numberText (element [])
  | outer :: inner, element =>
      let parts := (List.range outer).map fun index =>
        nestedText separator inner fun indices => element (index :: indices)
      "[" ++ separator.intercalate parts ++ "]"

/-- Only the numbers at index tuples within the dimensions matter. -/
theorem nestedText_congr {separator : String} {dimensions : List Nat}
    {first second : List Nat → Float}
    (same : ∀ indices, Shape.Within dimensions indices → first indices = second indices) :
    nestedText separator dimensions first = nestedText separator dimensions second := by
  induction dimensions generalizing first second with
  | nil => rw [nestedText, nestedText, same [] trivial]
  | cons outer inner induction =>
      have parts_eq :
          ((List.range outer).map fun index =>
            nestedText separator inner fun indices => first (index :: indices)) =
          (List.range outer).map fun index =>
            nestedText separator inner fun indices => second (index :: indices) := by
        apply List.map_congr_left
        intro index inside
        apply induction
        intro indices within
        exact same (index :: indices) ⟨List.mem_range.mp inside, within⟩
      rw [nestedText, nestedText, parts_eq]

/-- Enough values are cut into pieces; what is left over does not matter. -/
theorem pieces?_of_le {size count : Nat} {values : List Float}
    (enough : count * size ≤ values.length) :
    pieces? size count values =
      some ((List.range count).map fun index => (values.drop (index * size)).take size) := by
  induction count generalizing values with
  | zero => rfl
  | succ count induction =>
      rw [Nat.succ_mul] at enough
      have front : (values.take size).length = size := by
        rw [List.length_take]
        omega
      have back : count * size ≤ (values.drop size).length := by
        rw [List.length_drop]
        omega
      rw [pieces?, if_pos front, induction back, List.range_succ_eq_map, List.map_cons,
        List.map_map]
      simp [Function.comp_def, List.drop_drop, Nat.succ_mul, Nat.add_comm]

/-- A piece holds enough values for the inner dimensions. -/
theorem length_piece {size count index : Nat} {values : List Float} (inside : index < count)
    (enough : count * size ≤ values.length) :
    ((values.drop (index * size)).take size).length = size := by
  have room : index * size + size ≤ count * size := by
    rw [← Nat.succ_mul]
    exact Nat.mul_le_mul_right _ inside
  rw [List.length_take, List.length_drop]
  omega

/-- The numbers of a piece are those at the index tuples that start with its index. -/
theorem nestedText_piece (separator : String) (outer index : Nat) (inner : List Nat)
    (values : List Float) :
    (nestedText separator inner fun indices =>
      ((values.drop (index * (Shape.mk inner).size)).take (Shape.mk inner).size).getD
        (Shape.rowMajor inner indices) 0) =
    nestedText separator inner fun indices =>
      values.getD (Shape.rowMajor (outer :: inner) (index :: indices)) 0 := by
  refine nestedText_congr fun indices within => ?_
  have place := Shape.rowMajor_lt_size within
  rw [List.getD_eq_getElem?_getD, List.getD_eq_getElem?_getD, List.getElem?_take, if_pos place,
    List.getElem?_drop, Shape.rowMajor]

private theorem mapM_map_eq_some {α β γ : Type} {items : List α} {change : α → β}
    {step : β → Option γ}
    {result : α → γ} (each : ∀ item ∈ items, step (change item) = some (result item)) :
    (items.map change).mapM step = some (items.map result) := by
  induction items with
  | nil => rfl
  | cons item items induction =>
      have rest := induction fun other mem => each other (List.mem_cons_of_mem _ mem)
      simp [each item List.mem_cons_self, rest]

/-- Enough values for the dimensions have a text, and it shows each value at its index tuple. -/
theorem nestedText?_of_le (separator : String) {dimensions : List Nat} {values : List Float}
    (enough : (Shape.mk dimensions).size ≤ values.length) :
    nestedText? separator dimensions values =
      some (nestedText separator dimensions fun indices =>
        values.getD (Shape.rowMajor dimensions indices) 0) := by
  induction dimensions generalizing values with
  | nil =>
      rw [nestedText?, nestedText, List.head?_eq_getElem?, List.getD_eq_getElem?_getD]
      rfl
  | cons outer inner induction =>
      rw [Shape.size_cons] at enough
      rw [nestedText?, pieces?_of_le enough]
      have parts_eq :
          ((List.range outer).map fun index =>
            (values.drop (index * (Shape.mk inner).size)).take (Shape.mk inner).size).mapM
              (nestedText? separator inner) =
          some ((List.range outer).map fun index =>
            nestedText separator inner fun indices =>
              values.getD (Shape.rowMajor (outer :: inner) (index :: indices)) 0) := by
        refine mapM_map_eq_some fun index inside => ?_
        have full := length_piece (List.mem_range.mp inside) enough
        rw [induction (Nat.le_of_eq full.symm), nestedText_piece separator outer index inner values]
      simp only [Option.bind_eq_bind, Option.bind_some, parts_eq]
      rfl

/-- Values that fill the dimensions have a text, and it shows each value at its index tuple. -/
theorem nestedText?_of_filled (separator : String) {dimensions : List Nat} {values : List Float}
    (filled : values.length = (Shape.mk dimensions).size) :
    nestedText? separator dimensions values =
      some (nestedText separator dimensions fun indices =>
        values.getD (Shape.rowMajor dimensions indices) 0) :=
  nestedText?_of_le separator (Nat.le_of_eq filled.symm)

/-- The value at an index tuple is one of the values that fill the dimensions. -/
theorem getD_rowMajor_mem {dimensions indices : List Nat} {values : List Float}
    (filled : values.length = (Shape.mk dimensions).size)
    (within : Shape.Within dimensions indices) :
    values.getD (Shape.rowMajor dimensions indices) 0 ∈ values := by
  have inside := Shape.rowMajor_lt_size within
  rw [← filled] at inside
  rw [List.getD_eq_getElem?_getD, List.getElem?_eq_getElem inside]
  exact List.getElem_mem inside

/-- The values that fill a shape are those at its index tuples, in their order. -/
theorem map_rowMajor_indexTuples {dimensions : List Nat} {values : List Float}
    (filled : values.length = (Shape.mk dimensions).size) :
    (Shape.indexTuples dimensions).map
      (fun indices => values.getD (Shape.rowMajor dimensions indices) 0) = values := by
  apply List.ext_getElem?
  intro offset
  rw [List.getElem?_map]
  cases found : (Shape.indexTuples dimensions)[offset]? with
  | none =>
      rw [List.getElem?_eq_none_iff, Shape.length_indexTuples] at found
      rw [List.getElem?_eq_none (by omega)]
      rfl
  | some indices =>
      have inside := (List.getElem?_eq_some_iff.mp found).1
      rw [Shape.length_indexTuples] at inside
      rw [Option.map_some, Shape.rowMajor_of_getElem? found, List.getD_eq_getElem?_getD,
        List.getElem?_eq_getElem (by omega)]
      rfl

end TensorLang
