import TensorLang.Dataflow.Editing

/-!
# Shape inference

Every operation has a rule that gives the shape of its result from the shapes of its operands.  The
rules are applied in body order, again and again, until no further operation gets its shape.  Types
only ever change from unranked to ranked.
-/

namespace TensorLang

namespace Dataflow

/-- What the rule of an operation says. -/
inductive Resolution where
  /-- The shape of the result. -/
  | result (shape : Shape)
  /-- The shapes that the function returns. -/
  | returned (shapes : List Shape)
  /-- Nothing is left to find out. -/
  | settled
  /-- The shape cannot be known here. -/
  | unknown

/-- What is said of the wrong number of operands. -/
def operandCountReason (expected : String) (shapes : List Shape) : String :=
  s!"expected {expected}, found {shapes.length}"

/-- The rule of a kind on the shapes of its operands, or why they do not fit. -/
def OperationKind.resolve (kind : OperationKind) (shapes : List Shape) :
    Except String Resolution :=
  match kind with
  | .constant literal => .ok (.result literal.shape)
  | .add | .multiply =>
      match shapes with
      | [left, right] =>
          if left = right then .ok (.result left)
          else .error s!"operands have shapes {left.text} and {right.text}"
      | _ => .error (operandCountReason "2 operands" shapes)
  | .matmul =>
      match shapes with
      | [left, right] =>
          match left.dimensions, right.dimensions with
          | [rows, inner], [inner', columns] =>
              if inner = inner' then .ok (.result ⟨[rows, columns]⟩)
              else .error s!"inner dimensions of {left.text} and {right.text} do not agree"
          | _, _ =>
              .error s!"operands must be rank 2, found shapes {left.text} and {right.text}"
      | _ => .error (operandCountReason "2 operands" shapes)
  | .transpose =>
      match shapes with
      | [operand] => .ok (.result operand.reverse)
      | _ => .error (operandCountReason "1 operand" shapes)
  | .reshape target =>
      match shapes with
      | [operand] =>
          match operand.boundedSize?, target.boundedSize? with
          | some found, some wanted =>
              if found = wanted then .ok (.result target)
              else .error (s!"cannot reshape {operand.text} ({found} elements) " ++
                s!"into {target.text} ({wanted} elements)")
          | _, _ => .error s!"cannot reshape {operand.text} into {target.text}"
      | _ => .error (operandCountReason "1 operand" shapes)
  | .cast =>
      match shapes with
      | [operand] => .ok (.result operand)
      | _ => .error (operandCountReason "1 operand" shapes)
  | .leave => .ok (.returned shapes)
  | .print => .ok .settled
  | .call _ => .ok .unknown

namespace Inference

/-- Fails because the shapes of an operation do not fit. -/
def mismatch {α : Type} (operation : Operation) (reason : String) : Outcome α :=
  Outcome.failAt operation.location (.shapeMismatch operation.name reason)

/-- Whether the types of all values are known. -/
def allRanked (function : Function) (values : List ValueId) : Outcome Bool :=
  values.allM fun value => return (← function.typeOf value).isRanked

/-- Gives the result of an operation its shape; a shape that it has already must be the same. -/
def setResult (operation : Operation) (shape : Shape) : Edit Unit := do
  if shape.boundedSize? = none then
    mismatch operation s!"{shape.text} has too many elements"
  let result ← operation.result
  match ← Edit.query fun function => function.typeOf result with
  | .ranked declared =>
      if declared ≠ shape then
        mismatch operation
          s!"result is declared as {declared.text} but inferred as {shape.text}"
  | .unranked => Edit.setType result (.ranked shape)

/-- Gives a result of the signature its shape; a shape that it has already must be the same. -/
def setReturned (location : Location) (shape : Shape) (position : Nat) : Edit Unit := do
  let function ← get
  match ← (Outcome.promised function.resultTypes[position]? : Outcome TensorType) with
  | .ranked declared =>
      if declared ≠ shape then
        throw (.error ⟨.shapeMismatch OperationKind.leave.name
          (s!"function {quoteName function.name} returns {shape.text} " ++
            s!"but its signature declares {declared.text}"), some location⟩)
  | .unranked =>
      set { function with resultTypes := function.resultTypes.set position (.ranked shape) }

/-- Applies the rule of an operation if the shapes of its operands are known.  Tells whether
nothing is left to find out about the operation. -/
def resolveOperation (id : OperationId) : Edit Bool := do
  let operation ← Edit.query fun function => function.operation id
  if !(← Edit.query fun function => allRanked function operation.operands) then
    return false
  let types ← Edit.query fun function => operation.operands.mapM function.typeOf
  match operation.kind.resolve (types.filterMap TensorType.shape?) with
  | .error reason => mismatch operation reason
  | .ok (.result shape) =>
      setResult operation shape
      return true
  | .ok (.returned shapes) =>
      shapes.zipIdx.forM fun (shape, position) =>
        setReturned operation.location shape position
      return true
  | .ok .settled => return true
  | .ok .unknown => return false

/-- Goes through operations in order; gives those that are left unresolved. -/
def scan : List OperationId → Edit (List OperationId)
  | [] => return []
  | id :: rest => do
      let resolved ← resolveOperation id
      let pending ← scan rest
      return if resolved then pending else id :: pending

/-- Scans unresolved operations until a scan resolves none of them.  Every scan but the last
resolves one, so there are at most `bound` scans for as many operations. -/
def settle : Nat → List OperationId → Edit (List OperationId)
  | 0, pending => return pending
  | bound + 1, pending => do
      let rest ← scan pending
      if rest.length < pending.length then settle bound rest else return rest

end Inference

/-- Infers the types of all values of a function. -/
def Edit.inferTypes : Edit Unit := do
  let body := (← get).body
  match ← Inference.settle body.length body with
  | [] => return
  | id :: _ =>
      let operation ← Edit.query fun function => function.operation id
      throw (.error ⟨.unresolvedShape operation.name, some operation.location⟩)

/-- Infers the types of all values of a module, up to the first error. -/
def Module.inferTypes (module : Module) : Module × Outcome Unit :=
  let (inferred, outcome) := module.editAll do
    Edit.inferTypes
    return 0
  (inferred, outcome.map fun _ => ())

end Dataflow

end TensorLang
