import TensorLang.Proofs.Tensor.Text

/-!
# The meaning of tensor operations

A tensor is its elements at index tuples.  Operations are defined by the elements of their results,
so that nothing is said about the order in which elements are computed or where they are kept.
-/

namespace TensorLang

namespace Tensor

/-- The element at an index tuple; zero where the tensor has none. -/
def element (tensor : Tensor) (indices : List Nat) : Float :=
  match tensor.shape.offset? indices with
  | some offset => tensor.values.getD offset 0
  | none => 0

/-- The tensor of a shape with the given entry at each index tuple. -/
def tabulate (shape : Shape) (entry : List Nat → Float) : Tensor where
  shape := shape
  values := (Shape.indexTuples shape.dimensions).map entry
  filled := by rw [List.length_map, Shape.length_indexTuples]

/-- Combines the elements of two tensors of one shape. -/
def combine? (operator : Float → Float → Float) (left right : Tensor) : Option Tensor :=
  if left.shape = right.shape then
    some (tabulate left.shape fun indices =>
      operator (left.element indices) (right.element indices))
  else
    none

/-- Products of elements added up from zero, the first position first.  The right matrix is
addressed with the column first. -/
def dot (left right : Tensor) (row column count : Nat) : Float :=
  (List.range count).foldl (fun sum position =>
    sum + left.element [row, position] * right.element [column, position]) 0

/-- The matrix product. -/
def matmul? (left right : Tensor) : Option Tensor :=
  match left.shape.dimensions, right.shape.dimensions with
  | [rows, inner], [height, columns] =>
      if inner = height then
        some (tabulate ⟨[rows, columns]⟩ fun indices =>
          left.dot right (indices.getD 0 0) (indices.getD 1 0) inner)
      else
        none
  | _, _ => none

/-- The tensor with its dimensions in opposite order. -/
def transpose (tensor : Tensor) : Tensor :=
  tabulate tensor.shape.reverse fun indices => tensor.element indices.reverse

/-- The same row-major elements in another shape with as many. -/
def reshape? (tensor : Tensor) (shape : Shape) : Option Tensor :=
  ofValues? shape tensor.values

/-- The tensor as nested brackets with commas in between. -/
def text (tensor : Tensor) : String :=
  nestedText "," tensor.shape.dimensions tensor.element

/-- A tensor is its shape and its elements. -/
theorem eq_of_values {left right : Tensor} (shapes : left.shape = right.shape)
    (values : left.values = right.values) : left = right := by
  obtain ⟨shape, elements, filled⟩ := left
  obtain ⟨shape', elements', filled'⟩ := right
  obtain rfl : shape = shape' := shapes
  obtain rfl : elements = elements' := values
  rfl

theorem shape_of_reshape? {tensor result : Tensor} {shape : Shape}
    (reshaped : tensor.reshape? shape = some result) : result.shape = shape := by
  rw [reshape?, ofValues?] at reshaped
  split at reshaped
  · obtain rfl := Option.some.inj reshaped
    rfl
  · cases reshaped

theorem dot_succ (left right : Tensor) (row column count : Nat) :
    left.dot right row column (count + 1) =
      left.dot right row column count +
        left.element [row, count] * right.element [column, count] := by
  rw [dot, List.range_succ, List.foldl_append]
  rfl

theorem matmul?_of_shapes {left right : Tensor} {rows inner columns : Nat}
    (left_shape : left.shape = ⟨[rows, inner]⟩) (right_shape : right.shape = ⟨[inner, columns]⟩) :
    left.matmul? right = some (tabulate ⟨[rows, columns]⟩ fun indices =>
      left.dot right (indices.getD 0 0) (indices.getD 1 0) inner) := by
  rw [matmul?, left_shape, right_shape]
  exact if_pos rfl

theorem getElem?_values_tabulate {shape : Shape} {entry : List Nat → Float} {position : Nat}
    {indices : List Nat} (found : (Shape.indexTuples shape.dimensions)[position]? = some indices) :
    (tabulate shape entry).values[position]? = some (entry indices) := by
  rw [tabulate, List.getElem?_map, found]
  rfl

theorem element_of_offset? {tensor : Tensor} {indices : List Nat} {offset : Nat}
    (found : tensor.shape.offset? indices = some offset) :
    tensor.values[offset]? = some (tensor.element indices) := by
  have inside := Shape.offset?_lt_size found
  rw [← tensor.filled] at inside
  simp only [element, found]
  rw [List.getD_eq_getElem?_getD, List.getElem?_eq_getElem inside, Option.getD_some]

/-- The text that is cut out of the row-major values shows the elements. -/
theorem nestedText?_eq_text (tensor : Tensor) :
    nestedText? "," tensor.shape.dimensions tensor.values = some tensor.text := by
  rw [nestedText?_of_filled "," tensor.filled, text]
  refine congrArg some (nestedText_congr ?_)
  intro indices within
  have found : tensor.shape.offset? indices = some _ :=
    Shape.offset?_eq_some_iff.mpr ⟨within, rfl⟩
  rw [element, found]

end Tensor

/-- The lines that show tensors. -/
def linesOf (tensors : List Tensor) : String :=
  String.join (tensors.map fun tensor => tensor.text ++ "\n")

end TensorLang
