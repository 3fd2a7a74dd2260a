import TensorLang.Dataflow.Editing

/-!
# Inlining

Every call in the entry function is replaced by the body of its callee, until no call is left and
the other functions can be dropped.  Parameters take tensors of any shape, so an argument of
another type than its parameter passes through a cast.  Functions that call themselves, directly
or through others, cannot be inlined.
-/

namespace TensorLang

namespace Dataflow

/-- A call in a body. -/
structure CallSite where
  /-- The calling operation. -/
  id : OperationId
  /-- The name of the called function. -/
  callee : String
  /-- Where the call stands. -/
  location : Location

/-- The call that an operation makes, if it is one. -/
def Operation.callSite? (operation : Operation) : Option CallSite :=
  operation.kind.callee?.map fun callee => ⟨operation.id, callee, operation.location⟩

/-- The calls in a body, in order. -/
def Function.callSites (function : Function) : Outcome (List CallSite) := do
  let operations ← function.bodyOperations
  return operations.filterMap Operation.callSite?

/-- The first call among operations. -/
def Function.firstCall? (function : Function) : List OperationId → Outcome (Option CallSite)
  | [] => .ok none
  | id :: ids => do
      match (← function.operation id).callSite? with
      | some site => return some site
      | none => function.firstCall? ids

namespace Module

/-- Walks the functions that `function` calls, along a path of calls that ends with it.  Functions
in `finished` are done already; gives those that are done afterwards.  A call back into the path
is refused.  Paths repeat no function, so they are no longer than there are functions. -/
def walkCalls (module : Module) : Nat → (path finished : List String) → Function →
    Outcome (List String)
  | 0, _, _, _ => .error .fault
  | depth + 1, path, finished, function => do
      let finished ← (← function.callSites).foldlM (fun finished site =>
        if site.callee ∈ path then
          let cycle := path.dropWhile (· ≠ site.callee) ++ [site.callee]
          Outcome.failAt site.location (.recursion cycle)
        else if site.callee ∈ finished then
          .ok finished
        else
          match module.function? site.callee with
          | none => Outcome.failAt site.location (.undeclared site.callee)
          | some callee => module.walkCalls depth (path ++ [site.callee]) finished callee) finished
      return function.name :: finished

/-- No function that the entry reaches may call itself, and all of them must exist. -/
def checkCalls (module : Module) (entry : Function) : Outcome Unit := do
  let _ ← module.walkCalls module.functions.length [entry.name] [] entry

/-- Number of operations in all functions. -/
def bodySize (module : Module) : Nat :=
  module.functions.foldr (fun function total => function.body.length + total) 0

/-- Bound on the calls that inlining expands when no function calls itself.  Calls then nest no
deeper than there are functions, and no function makes more calls than all of them have
operations. -/
def expansionBound (module : Module) : Nat :=
  Nat.pow (module.bodySize + 1) module.functions.length

end Module

/-- The list without its first element that has the property.  The last element takes its place. -/
def swapRemove {α : Type} (property : α → Bool) : List α → List α
  | [] => []
  | first :: rest =>
      if property first then
        match rest.getLast? with
        | none => []
        | some last => last :: rest.dropLast
      else
        first :: swapRemove property rest

/-- The module without the function of a name. -/
def Module.without (module : Module) (name : String) : Module :=
  ⟨swapRemove (fun function => function.name == name) module.functions⟩

/-- The values of a caller that stand for values of a callee, by index. -/
abbrev ValueMap : Type := Std.TreeMap Nat ValueId

namespace Inlining

/-- The value that a parameter stands for: the argument itself, or a cast of it to the type of the
parameter in front of the call. -/
def passArgument (callee : Function) (call : Operation) (values : ValueMap)
    (parameter argument : ValueId) : Edit ValueMap := do
  let parameterType ← callee.typeOf parameter
  let argumentType ← Edit.query fun caller => caller.typeOf argument
  if argumentType = parameterType then
    return values.insert parameter.index argument
  else
    let cast ← Edit.insertBefore call.id .cast [argument] [parameterType] call.location
    let operation ← Edit.query fun caller => caller.operation cast
    return values.insert parameter.index (← operation.result)

/-- Copies an operation of the callee in front of the call.  A return is not copied; it gives the
returned values. -/
def copyOperation (callee : Function) (call : OperationId)
    (state : ValueMap × List ValueId) (operation : Operation) :
    Edit (ValueMap × List ValueId) := do
  let (values, returned) := state
  let operands ← operation.operands.mapM fun operand =>
    (Outcome.promised values[operand.index]? : Outcome ValueId)
  if operation.kind.isLeave then
    return (values, operands)
  else
    let types ← operation.results.mapM fun result => (callee.typeOf result : Outcome TensorType)
    let copy ← Edit.insertBefore call operation.kind operands types operation.location
    let copied ← Edit.query fun caller => caller.operation copy
    let values := (operation.results.zip copied.results).foldl
      (fun values (old, new) => values.insert old.index new) values
    return (values, returned)

/-- Makes the users of a call's result read the returned value.  A result without a returned value
must not be used. -/
def connectResult (callee : Function) (call : Operation) (returned : List ValueId)
    (position : Nat) (result : ValueId) : Edit Unit := do
  match returned[position]? with
  | some value => Edit.replaceUses result value
  | none =>
      if (← get).isUsed result then
        throw (.error ⟨.brokenInvariant
          s!"{quoteName callee.name} does not return a value but the result of the call is used",
          some call.location⟩)

/-- Replaces a call by the body of its callee. -/
def expandCall (callee : Function) (call : OperationId) : Edit Unit := do
  let operation ← Edit.query fun caller => caller.operation call
  if operation.operands.length ≠ callee.arguments.length then
    throw (.error ⟨.argumentCount callee.name callee.arguments.length operation.operands.length,
      some operation.location⟩)
  let values ← (callee.arguments.zip operation.operands).foldlM
    (fun values (parameter, argument) => passArgument callee operation values parameter argument) ∅
  let body ← callee.bodyOperations
  let (_, returned) ← body.foldlM (copyOperation callee call) (values, [])
  operation.results.zipIdx.forM fun (result, position) =>
    connectResult callee operation returned position result
  Edit.erase call

/-- Replaces the first call again and again until none is left, at most `budget` times. -/
def expandCalls (module : Module) : Nat → Edit Unit
  | 0 => do
      if (← Edit.query fun caller => caller.firstCall? caller.body).isSome then
        throw .fault
  | budget + 1 => do
      match ← Edit.query fun caller => caller.firstCall? caller.body with
      | none => return
      | some site =>
          match module.function? site.callee with
          | none => throw (.error ⟨.undeclared site.callee, some site.location⟩)
          | some callee =>
              expandCall callee site.id
              expandCalls module budget

end Inlining

theorem swapRemove_perm {α : Type} (property : α → Bool) (list : List α) :
    (swapRemove property list).Perm (list.eraseP property) := by
  induction list with
  | nil => exact .refl _
  | cons first rest induction =>
      rw [swapRemove, List.eraseP_cons]
      cases property first with
      | false => exact induction.cons first
      | true =>
          cases last_eq : rest.getLast? with
          | none =>
              rw [List.getLast?_eq_none_iff.mp last_eq]
              exact .refl _
          | some last =>
              obtain ⟨front, rfl⟩ := List.getLast?_eq_some_iff.mp last_eq
              rw [List.dropLast_concat]
              exact (List.perm_append_singleton last front).symm

theorem Module.mem_of_mem_without {module : Module} {name : String} {function : Function}
    (member : function ∈ (module.without name).functions) : function ∈ module.functions :=
  List.mem_of_mem_eraseP ((swapRemove_perm _ _).mem_iff.mp member)

/-- Inlines all calls into the entry function, which alone is left. -/
def Module.inline (module : Module) (entry : String) : Outcome Module := do
  match module.function? entry with
  | none => Outcome.fail (.undeclared entry)
  | some caller =>
      module.checkCalls caller
      let (inlined, outcome) :=
        (Inlining.expandCalls (module.without entry) module.expansionBound).outcome caller
      outcome
      return ⟨[inlined]⟩

end Dataflow

end TensorLang
