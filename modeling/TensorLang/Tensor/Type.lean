import TensorLang.Tensor.Shape

/-!
# Tensor types

The elements of every tensor are doubles, so its type is its shape once that is known.
-/

namespace TensorLang

/-- The type of a tensor value. -/
inductive TensorType where
  /-- A tensor whose shape is not known yet. -/
  | unranked
  /-- A tensor of a known shape. -/
  | ranked (shape : Shape)
  deriving DecidableEq

namespace TensorType

/-- The shape of a ranked type. -/
def shape? : TensorType → Option Shape
  | .unranked => none
  | .ranked shape => some shape

/-- Whether the shape is known. -/
def isRanked (type : TensorType) : Bool := type.shape?.isSome

/-- The type as listings show it. -/
def text : TensorType → String
  | .unranked => "tensor<*xf64>"
  | .ranked ⟨[]⟩ => "tensor<f64>"
  | .ranked shape => "tensor<" ++ "x".intercalate (shape.dimensions.map toString) ++ "xf64>"

end TensorType

end TensorLang
