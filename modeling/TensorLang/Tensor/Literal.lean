import TensorLang.Decimal.Positional
import TensorLang.Tensor.Shape

/-!
# Tensors and literals

A tensor is a shape with exactly as many doubles, in row-major order.  It is written as nested
brackets, one level for each dimension.  A literal is a tensor that is held in memory.
-/

namespace TensorLang

/-- Cuts values into `count` pieces of `size` values each; there is no answer when the values run
out. -/
def pieces? (size : Nat) : (count : Nat) → List Float → Option (List (List Float))
  | 0, _ => some []
  | count + 1, values =>
      let piece := values.take size
      if piece.length = size then
        (pieces? size count (values.drop size)).map (piece :: ·)
      else
        none

/-- Writes row-major values as nested brackets.  There is no text when the values run out; a number
is read as zero only where no dimension is left and no value at all. -/
def nestedText? (separator : String) : List Nat → List Float → Option String
  | [], values => some (numberText (values.head?.getD 0))
  | outer :: inner, values => do
      let pieces ← pieces? (Shape.mk inner).size outer values
      let parts ← pieces.mapM (nestedText? separator inner)
      return "[" ++ separator.intercalate parts ++ "]"

/-- A shape with the doubles that fill it, in row-major order. -/
structure Tensor where
  /-- The dimensions. -/
  shape : Shape
  /-- The elements. -/
  values : List Float
  /-- There is one element for each index tuple. -/
  filled : values.length = shape.size
  deriving DecidableEq

/-- The tensor of a shape and values, if the values fill the shape. -/
def Tensor.ofValues? (shape : Shape) (values : List Float) : Option Tensor :=
  if filled : values.length = shape.size then some ⟨shape, values, filled⟩ else none

/-- A tensor whose elements are held in memory. -/
structure TensorLiteral extends Tensor where
  /-- The elements take no more room than there is. -/
  bounded : values.length < memoryBound

namespace TensorLiteral

/-- The literal of a shape and values, if the values fill the shape and are not too many. -/
def ofValues? (shape : Shape) (values : List Float) : Option TensorLiteral :=
  if fits : values.length = shape.size ∧ values.length < memoryBound then
    some ⟨⟨shape, values, fits.1⟩, fits.2⟩
  else
    none

/-- The same values in another shape with as many elements. -/
def withShape? (literal : TensorLiteral) (shape : Shape) : Option TensorLiteral :=
  if filled : literal.values.length = shape.size then
    some ⟨⟨shape, literal.values, filled⟩, literal.bounded⟩
  else
    none

/-- Whether two literals have one shape and numerically equal values.  The two zeros are equal, and
a value that is not a number equals nothing. -/
def agrees (left right : TensorLiteral) : Bool :=
  left.shape == right.shape && left.values == right.values

/-- The literal in nested brackets, with blanks after the commas. -/
def text? (literal : TensorLiteral) : Option String :=
  nestedText? ", " literal.shape.dimensions literal.values

end TensorLiteral

end TensorLang
