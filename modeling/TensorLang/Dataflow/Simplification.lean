import TensorLang.Dataflow.Editing

/-!
# Simplification

Five rules remove reshapes and casts that can be done without, and operations whose results
nobody uses.  A worklist holds the operations to look at; applying a rule to one puts those around
it back on the list, so the rules are applied until none matches.
-/

namespace TensorLang

namespace Dataflow

/-- The rules, in the order in which they are tried. -/
inductive SimplificationRule where
  /-- A reshaped constant becomes a constant. -/
  | reshapeOfConstant
  /-- A reshape to the type of its operand goes away. -/
  | redundantReshape
  /-- A reshape of a reshape reads the operand of the inner one. -/
  | reshapeOfReshape
  /-- A cast to the type of its operand goes away. -/
  | redundantCast
  /-- An operation without effects and uses goes away. -/
  | deadOperation
  deriving DecidableEq

namespace SimplificationRule

/-- All rules in order. -/
def all : List SimplificationRule :=
  [reshapeOfConstant, redundantReshape, reshapeOfReshape, redundantCast, deadOperation]

/-- The name of a rule. -/
def name : SimplificationRule → String
  | reshapeOfConstant => "reshape-of-constant"
  | redundantReshape => "redundant-reshape"
  | reshapeOfReshape => "reshape-of-reshape"
  | redundantCast => "redundant-cast"
  | deadOperation => "dead-operation"

/-- The operation that defines the only operand. -/
def operandDefinition? (function : Function) (operation : Operation) :
    Outcome (Option Operation) :=
  match operation.onlyOperand? with
  | some operand => function.definer? operand
  | none => .ok none

/-- Whether the only result has a known shape and the type of the only operand. -/
def keepsType (function : Function) (operation : Operation) : Outcome Bool := do
  match operation.operands, operation.results with
  | [operand], [result] =>
      let type ← function.typeOf result
      if type.isRanked then
        return type = (← function.typeOf operand)
      else
        return false
  | _, _ => return false

/-- Whether a rule applies to an operation. -/
def applies (rule : SimplificationRule) (function : Function) (operation : Operation) :
    Outcome Bool := do
  match rule, operation.kind.reshapeTarget? with
  | reshapeOfConstant, some shape =>
      let inner? ← operandDefinition? function operation
      match inner?.bind fun inner => inner.kind.literal? with
      | some literal => return literal.shape.size == shape.size
      | none => return false
  | redundantReshape, some _ => keepsType function operation
  | reshapeOfReshape, some _ =>
      let inner? ← operandDefinition? function operation
      return inner?.any fun inner => inner.kind.reshapeTarget?.isSome
  | redundantCast, _ => if operation.kind.isCast then keepsType function operation else return false
  | deadOperation, _ =>
      return !operation.kind.hasEffects &&
        operation.results.all fun result => !function.isUsed result
  | _, none => return false

/-- Makes the users of an operation read `value` instead of its only result, and erases the
operation.  Gives the users of the value. -/
def substitute (id : OperationId) (value : ValueId) : Edit (List OperationId) := do
  let operation ← Edit.query fun function => function.operation id
  let result ← operation.result
  Edit.replaceUses result value
  Edit.erase id
  return (← get).usersOf value

/-- Replaces an operation by a new one in its place.  Gives the users of the new result and the new
operation. -/
def replaceByNew (id : OperationId) (kind : OperationKind) (operands : List ValueId)
    (type : TensorType) (location : Location) : Edit (List OperationId) := do
  let new ← Edit.insertBefore id kind operands [type] location
  let operation ← Edit.query fun function => function.operation new
  let touched ← substitute id (← operation.result)
  return touched ++ [new]

/-- Replaces a reshape of a constant by the reshaped constant. -/
def foldConstant (id : OperationId) : Edit (List OperationId) := do
  let operation ← Edit.query fun function => function.operation id
  let inner? ← Edit.query fun function => operandDefinition? function operation
  match operation.kind.reshapeTarget?, inner?.bind fun inner => inner.kind.literal? with
  | some shape, some literal =>
      match literal.withShape? shape with
      | some reshaped =>
          replaceByNew id (.constant reshaped) [] (.ranked shape) operation.location
      | none => return []
  | _, _ => return []

/-- Makes the users of an operation read its first operand. -/
def bypass (id : OperationId) : Edit (List OperationId) := do
  let operation ← Edit.query fun function => function.operation id
  substitute id (← operation.operand 0)

/-- Makes an operation read the operands of the operation that defines its only operand. -/
def skipInnerReshape (id : OperationId) : Edit (List OperationId) := do
  let operation ← Edit.query fun function => function.operation id
  match ← Edit.query fun function => operandDefinition? function operation with
  | none => return []
  | some inner =>
      let result ← operation.result
      let type ← Edit.query fun function => function.typeOf result
      replaceByNew id operation.kind inner.operands type operation.location

/-- Applies a rule to an operation.  Gives the operations that it made or affected. -/
def apply : SimplificationRule → OperationId → Edit (List OperationId)
  | reshapeOfConstant, id => foldConstant id
  | redundantReshape, id => bypass id
  | reshapeOfReshape, id => skipInnerReshape id
  | redundantCast, id => bypass id
  | deadOperation, id => do
      Edit.erase id
      return []

/-- The first rule that applies to an operation. -/
def first? (function : Function) (operation : Operation) : Outcome (Option SimplificationRule) :=
  all.findM? fun rule => rule.applies function operation

end SimplificationRule

namespace Simplification

/-- Puts operations at the end of a worklist, those that it holds already excepted. -/
def enqueue (worklist : List OperationId) (ids : List OperationId) : List OperationId :=
  ids.foldl (fun worklist id =>
    if worklist.contains id then worklist else worklist ++ [id]) worklist

/-- Applies the first rule that fits an operation, if the operation is still there.  Gives the
operations to look at again, or nothing when no rule applied. -/
def step (id : OperationId) : Edit (Option (List OperationId)) := do
  match (← get).operation? id with
  | none => return none
  | some operation =>
      match ← Edit.query fun function => SimplificationRule.first? function operation with
      | none => return none
      | some rule =>
          let definitions ← Edit.query fun function =>
            operation.operands.mapM function.definer?
          let touched ← rule.apply id
          return some (touched ++ definitions.filterMap fun definition? =>
            definition?.map Operation.id)

/-- Works through a worklist up to the first operation that a rule applies to.  Gives the worklist
after that, or nothing when no rule applies to any operation on the list. -/
def advance? : List OperationId → Edit (Option (List OperationId))
  | [] => return none
  | id :: worklist => do
      match ← step id with
      | none => advance? worklist
      | some touched => return some (enqueue worklist touched)

/-- Works through a worklist with at most `budget` applications of rules; gives their number. -/
def run : (budget : Nat) → (applied : Nat) → List OperationId → Edit Nat
  | budget, applied, worklist => do
      match ← advance? worklist with
      | none => return applied
      | some worklist =>
          match budget with
          | 0 => throw .fault
          | budget + 1 => run budget (applied + 1) worklist

/-- Bound on the number of applications of rules to a function.  Each of them removes an operation,
makes a constant of a reshape, or shortens a chain of reshapes and casts, and there are no more
links in a chain than operations. -/
def applicationBound (function : Function) : Nat :=
  function.body.length * (function.body.length + 1)

end Simplification

/-- Simplifies a function; gives the number of rules that were applied. -/
def Edit.simplify : Edit Nat := do
  let function ← get
  Simplification.run (Simplification.applicationBound function) 0
    (Simplification.enqueue [] function.body)

/-- Simplifies all functions of a module, up to the first error; gives the number of rules that were
applied. -/
def Module.simplify (module : Module) : Module × Outcome Nat := module.editAll Edit.simplify

end Dataflow

end TensorLang
