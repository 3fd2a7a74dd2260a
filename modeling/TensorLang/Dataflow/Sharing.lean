import TensorLang.Dataflow.Editing

/-!
# Sharing of common subexpressions

Two operations without effects that have the same kind, operands and result types compute the same
tensors, so the users of the later one can read the results of the earlier one.
-/

namespace TensorLang

namespace Dataflow

namespace Sharing

/-- An operation that later ones are compared with, as it was when it was met. -/
structure Candidate where
  /-- The operation. -/
  id : OperationId
  /-- The name of its kind. -/
  name : String
  /-- Its operands at that time. -/
  operands : List ValueId

/-- Whether two operations have the same kind, operands and result types. -/
def sameComputation (function : Function) (left right : Operation) : Outcome Bool := do
  if left.kind.agrees right.kind && left.operands == right.operands &&
      left.results.length == right.results.length then
    (left.results.zip right.results).allM fun (first, second) => do
      return (← function.typeOf first) = (← function.typeOf second)
  else
    return false

/-- The first candidate that computes the same as an operation. -/
def earlier? (function : Function) (candidates : List Candidate) (operation : Operation) :
    Outcome (Option Candidate) :=
  candidates.findM? fun candidate =>
    if candidate.name == operation.name && candidate.operands == operation.operands then do
      sameComputation function (← function.operation candidate.id) operation
    else
      .ok false

/-- Makes the users of a duplicate read the results of the earlier operation, and erases the
duplicate. -/
def merge (earlier : OperationId) (duplicate : Operation) : Edit Unit := do
  let kept ← Edit.query fun function => function.operation earlier
  (kept.results.zip duplicate.results).forM fun (kept, duplicate) =>
    Edit.replaceUses duplicate kept
  Edit.erase duplicate.id

/-- Goes through operations in order; gives the number of those that were merged. -/
def run : List OperationId → List Candidate → (merged : Nat) → Edit Nat
  | [], _, merged => return merged
  | id :: rest, candidates, merged => do
      let operation ← Edit.query fun function => function.operation id
      if operation.kind.hasEffects || operation.results.isEmpty then
        run rest candidates merged
      else
        match ← Edit.query fun function => earlier? function candidates operation with
        | none =>
            let candidate : Candidate := ⟨id, operation.name, operation.operands⟩
            run rest (candidates ++ [candidate]) merged
        | some earlier =>
            merge earlier.id operation
            run rest candidates (merged + 1)

end Sharing

/-- Merges equal operations of a function; gives the number of those that went away. -/
def Edit.share : Edit Nat := do
  Sharing.run (← get).body [] 0

/-- Merges equal operations in all functions, up to the first error; gives the number of those
that went away. -/
def Module.share (module : Module) : Module × Outcome Nat := module.editAll Edit.share

end Dataflow

end TensorLang
