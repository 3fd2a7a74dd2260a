/-!
# Shapes

A shape lists the dimensions of a tensor, the outermost first.  The elements of a tensor are laid
out in row-major order: the last index varies fastest.  Element counts of programs must fit in a
64-bit word, and the checked count refuses a shape as soon as a partial product does not.
-/

namespace TensorLang

/-- Counts and offsets are 64-bit words, so they are below this bound. -/
def countBound : Nat := 18446744073709551616

/-- Bound on the length of a row of doubles or words: each takes eight bytes, and all of them less
than `2 ^ 63`. -/
def memoryBound : Nat := 1152921504606846976

/-- The dimensions of a tensor, outermost first.  A scalar has none. -/
structure Shape where
  /-- The dimensions. -/
  dimensions : List Nat
  deriving DecidableEq

namespace Shape

/-- The shape of a single number. -/
def scalar : Shape := ⟨[]⟩

/-- Number of dimensions. -/
def rank (shape : Shape) : Nat := shape.dimensions.length

/-- Number of elements: the product of the dimensions. -/
def size (shape : Shape) : Nat := shape.dimensions.foldr (· * ·) 1

/-- Multiplies dimensions from the left while the product stays below the bound. -/
def boundedProduct? (product : Nat) : List Nat → Option Nat
  | [] => some product
  | dimension :: rest =>
      if product * dimension < countBound then boundedProduct? (product * dimension) rest else none

/-- Number of elements, if no partial product from the left exceeds a word. -/
def boundedSize? (shape : Shape) : Option Nat := boundedProduct? 1 shape.dimensions

/-- The dimensions in opposite order. -/
def reverse (shape : Shape) : Shape := ⟨shape.dimensions.reverse⟩

/-- Continues a row-major offset through further dimensions and indices. -/
def offsetFrom? (offset : Nat) : List Nat → List Nat → Option Nat
  | [], [] => some offset
  | dimension :: dimensions, index :: indices =>
      if index < dimension then offsetFrom? (offset * dimension + index) dimensions indices
      else none
  | _, _ => none

/-- Row-major offset of an index tuple, if it has one index below each dimension. -/
def offset? (shape : Shape) (indices : List Nat) : Option Nat :=
  offsetFrom? 0 shape.dimensions indices

/-- Splits an offset into the indices of the given dimensions and what is left over for dimensions
further out. -/
def indicesFrom (offset : Nat) : List Nat → List Nat × Nat
  | [] => ([], offset)
  | dimension :: dimensions =>
      let (indices, rest) := indicesFrom offset dimensions
      (rest % dimension :: indices, rest / dimension)

/-- Row-major index tuple of an offset; there is none when a dimension is zero. -/
def indices? (shape : Shape) (offset : Nat) : Option (List Nat) :=
  if 0 ∈ shape.dimensions then none else some (indicesFrom offset shape.dimensions).1

/-- The dimensions in brackets. -/
def text (shape : Shape) : String :=
  "[" ++ ", ".intercalate (shape.dimensions.map toString) ++ "]"

end Shape

end TensorLang
