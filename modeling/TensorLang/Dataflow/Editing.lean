import TensorLang.Dataflow

/-!
# Editing dataflow functions

All changes of a function go through the operations of this module, which keep the use lists in
step with the operands.  The changes themselves are total; an edit first checks what a change needs,
so that an edit that fails leaves the function as it is.
-/

namespace TensorLang

namespace Dataflow

namespace Function

/-- Adds an argument of a type at the end; gives its value. -/
def pushArgument (function : Function) (type : TensorType) : Function × ValueId :=
  let id := function.values.nextId
  ({ function with
      values := function.values.push ⟨type, .argument function.arguments.length⟩
      arguments := function.arguments ++ [id]
      coherent := function.coherent.pushArgument type _ }, id)

/-- Gives a value another type, if the value exists. -/
def withType (function : Function) (id : ValueId) (type : TensorType) : Function :=
  { function with
      values := function.values.modify id fun value => { value with type }
      coherent := function.coherent.modifyType id type }

/-- Whether values exist once `added` more are made. -/
def hasValues (function : Function) (added : Nat) (values : List ValueId) : Bool :=
  values.all fun value => value.index < function.values.size + added

/-- Makes an operation that stands nowhere in the body yet, and its results. -/
def addOperation (function : Function) (kind : OperationKind) (operands : List ValueId)
    (resultTypes : List TensorType) (location : Location) : Function × OperationId :=
  let id := function.operations.nextId
  let results := (List.range' function.values.size resultTypes.length).map Handle.mk
  ({ function with
      values := function.values.pushAll (resultTypes.zipIdx.map fun (type, position) =>
        ⟨type, .result id position⟩)
      operations := function.operations.push (some { id, kind, operands, results, location })
      uses := operands.foldl (fun uses operand => uses.add operand id) function.uses
      coherent := function.coherent.pushOperation resultTypes _ rfl }, id)

/-- Makes one user read `replacement` wherever it reads `replaced`. -/
def redirectUser (replaced replacement : ValueId) (function : Function) (user : OperationId) :
    Function :=
  match live : function.operation? user with
  | none => function
  | some operation =>
      let operands := operation.operands.map fun operand =>
        if operand = replaced then replacement else operand
      { function with
        operations := function.operations.set user (some { operation with operands })
        uses := (List.replicate (operation.operands.count replaced) user).foldl
          (fun uses user => uses.add replacement user) function.uses
        coherent := function.coherent.setOperation user _
          (by
            rintro _ ⟨⟩ before before_eq
            obtain rfl : operation = before := by simpa [operation?, before_eq] using live.symm
            rfl)
          (by
            intro _ _ erased
            simp [operation?, erased] at live) }

/-- Makes all users of `replaced` read `replacement` instead. -/
def redirectUsers (function : Function) (replaced replacement : ValueId) : Function :=
  if replaced = replacement then
    function
  else
    let users := (function.usersOf replaced).eraseDups
    users.foldl (redirectUser replaced replacement)
      { function with uses := function.uses.clear replaced }

/-- Number of uses of an operation's results. -/
def resultUses (function : Function) (operation : Operation) : Nat :=
  (operation.results.flatMap function.usersOf).length

/-- Takes an operation out of the body and the use lists. -/
def removeOperation (function : Function) (operation : Operation) : Function :=
  { function with
      body := function.body.erase operation.id
      operations := function.operations.set operation.id none
      uses := operation.results.foldl UseLists.clear
        (operation.operands.foldl (fun uses operand => uses.remove operand operation.id)
          function.uses)
      coherent := function.coherent.setOperation operation.id none
        (fun _ absurd => by cases absurd) (fun _ absurd => by cases absurd) }

end Function

/-- A change of a function that gives a result.  A change that fails keeps what it has done. -/
abbrev Edit (α : Type) : Type := EStateM Failure Function α

/-- An outcome that leaves the function alone. -/
instance : MonadLift Outcome Edit where
  monadLift outcome := fun function =>
    match outcome with
    | .ok result => .ok result function
    | .error failure => .error failure function

namespace Edit

/-- Looks something up in the function. -/
def query {α : Type} (lookup : Function → Outcome α) : Edit α := fun function =>
  match lookup function with
  | .ok result => .ok result function
  | .error failure => .error failure function

/-- Refuses to go on unless the function has a property. -/
def require (property : Function → Bool) : Edit Unit := do
  if !property (← get) then
    throw .fault

/-- Adds an argument of a type at the end; gives its value. -/
def pushArgument (type : TensorType) : Edit ValueId := do
  modifyGet fun function => (function.pushArgument type).swap

/-- Gives a value another type.  The value must exist. -/
def setType (id : ValueId) (type : TensorType) : Edit Unit := do
  require fun function => function.hasValues 0 [id]
  modify fun function => function.withType id type

/-- Makes an operation that stands nowhere in the body yet.  Its operands may be its own results,
and must exist otherwise. -/
def create (kind : OperationKind) (operands : List ValueId) (resultTypes : List TensorType)
    (location : Location) : Edit OperationId := do
  require fun function => function.hasValues resultTypes.length operands
  modifyGet fun function =>
    (function.addOperation kind operands resultTypes location).swap

/-- Makes an operation at the end of the body. -/
def append (kind : OperationKind) (operands : List ValueId) (resultTypes : List TensorType)
    (location : Location) : Edit OperationId := do
  let id ← create kind operands resultTypes location
  modify fun function => { function with body := function.body ++ [id] }
  return id

/-- Makes an operation with one result at the end of the body; gives the result. -/
def appendValue (kind : OperationKind) (operands : List ValueId) (type : TensorType)
    (location : Location) : Edit ValueId := do
  let id ← append kind operands [type] location
  let operation ← query fun function => function.operation id
  operation.result

/-- Makes an operation in the body just before `anchor`, which must stand there. -/
def insertBefore (anchor : OperationId) (kind : OperationKind) (operands : List ValueId)
    (resultTypes : List TensorType) (location : Location) : Edit OperationId := do
  let position ← query fun function => .promised (function.body.idxOf? anchor)
  let id ← create kind operands resultTypes location
  modify fun function => { function with body := function.body.insertIdx position id }
  return id

/-- Makes all users of `replaced` read `replacement` instead.  All of them must be live. -/
def replaceUses (replaced replacement : ValueId) : Edit Unit := do
  require fun function =>
    replaced = replacement ||
      (function.usersOf replaced).all fun user => (function.operation? user).isSome
  modify fun function => function.redirectUsers replaced replacement

/-- Takes an operation out of the body.  It must be live, and it cannot go while its results are
used. -/
def erase (id : OperationId) : Edit Unit := do
  let operation ← query fun function => function.operation id
  let uses ← query fun function => .ok (function.resultUses operation)
  if 0 < uses then
    Outcome.failAt operation.location (.stillUsed operation.name uses)
  else
    modify fun function => function.removeOperation operation

/-- The changed function with the result or failure of the edit. -/
def outcome {α : Type} (edit : Edit α) (function : Function) : Function × Outcome α :=
  match edit function with
  | .ok result changed => (changed, .ok result)
  | .error failure changed => (changed, .error failure)

end Edit

namespace Module

/-- Edits functions in order up to the first failure, adding up what the edits count. -/
def editFrom (edit : Edit Nat) (total : Nat) : List Function → List Function × Outcome Nat
  | [] => ([], .ok total)
  | function :: rest =>
      match edit function with
      | .ok count changed =>
          let (functions, outcome) := editFrom edit (total + count) rest
          (changed :: functions, outcome)
      | .error failure changed => (changed :: rest, .error failure)

/-- Edits every function of the module. -/
def editAll (module : Module) (edit : Edit Nat) : Module × Outcome Nat :=
  let (functions, outcome) := editFrom edit 0 module.functions
  (⟨functions⟩, outcome)

end Module

end Dataflow

end TensorLang
