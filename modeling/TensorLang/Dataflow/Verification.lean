import Std.Data.TreeSet.Lemmas
import TensorLang.Dataflow

/-!
# Verification of dataflow functions

A function is in order when its arguments are defined as such, every operand is an argument or the
result of an earlier operation, the body ends with its only return, and the use lists record
exactly the operands.
-/

namespace TensorLang

namespace Dataflow

namespace Function

/-- Fails with a message about the function. -/
def invalid {α : Type} (function : Function) (location : Location) (message : String) :
    Outcome α :=
  Outcome.failAt location
    (.brokenInvariant s!"in function {quoteName function.name}: {message}")

/-- Each argument is defined as the argument at its position. -/
def checkArguments (function : Function) : Outcome Unit :=
  function.arguments.zipIdx.forM fun (argument, position) => do
    if (← function.value argument).definition ≠ .argument position then
      function.invalid function.location s!"argument {position} is not defined as one"

/-- Whether a value is available after the operations whose indices were seen. -/
def available (function : Function) (seen : Std.TreeSet Nat) (id : ValueId) (value : Value) :
    Bool :=
  match value.definition with
  | .argument position => function.arguments[position]? == some id
  | .result operation _ => seen.contains operation.index

/-- Each operand exists and is available. -/
def checkOperands (function : Function) (seen : Std.TreeSet Nat) (operation : Operation) :
    Outcome Unit :=
  operation.operands.forM fun operand =>
    match function.values.get? operand with
    | none =>
        function.invalid operation.location s!"{quoteName operation.name} uses unknown value"
    | some value =>
        if function.available seen operand value then
          .ok ()
        else
          function.invalid operation.location
            s!"operand of {quoteName operation.name} is not defined before its use"

/-- Each result is defined by the operation at its position. -/
def checkResults (function : Function) (operation : Operation) : Outcome Unit :=
  operation.results.zipIdx.forM fun (result, position) => do
    if (← function.value result).definition ≠ .result operation.id position then
      function.invalid operation.location
        s!"result {position} of {quoteName operation.name} has the wrong definition"

/-- What is said of a body without its return at the end. -/
def misplacedReturn : String := "body must end with exactly one " ++ quoteName "return"

/-- The operation returns if and only if it is the last, and with as many values as the signature
has. -/
def checkReturn (function : Function) (operation : Operation) (isLast : Bool) : Outcome Unit := do
  if operation.kind.isLeave ≠ isLast then
    function.invalid operation.location misplacedReturn
  let returned := operation.operands.length
  let declared := function.resultTypes.length
  if operation.kind.isLeave ∧ returned ≠ declared then
    function.invalid operation.location (quoteName "return" ++
      s!" has {returned} operand(s) but the signature has {declared} result(s)")

/-- Checks the rest of the body after the operations whose indices were seen. -/
def checkBody (function : Function) (seen : Std.TreeSet Nat) : List OperationId → Outcome Unit
  | [] => .ok ()
  | id :: rest => do
      match function.operation? id with
      | none =>
          function.invalid function.location s!"body references erased operation {id.text}"
      | some operation =>
          if operation.id ≠ id ∨ seen.contains id.index then
            function.invalid operation.location s!"operation {id.text} appears more than once"
          function.checkOperands seen operation
          function.checkResults operation
          function.checkReturn operation rest.isEmpty
          function.checkBody (seen.insert id.index) rest

/-- The use lists that the operands of operations call for. -/
def recordedUses (operations : List Operation) : UseLists :=
  operations.foldl (fun uses operation =>
    operation.operands.foldl (fun uses operand => uses.add operand operation.id) uses) .empty

/-- Checks that the function is in order. -/
def verify (function : Function) : Outcome Unit := do
  function.checkArguments
  function.checkBody ∅ function.body
  if function.body.isEmpty then
    function.invalid function.location misplacedReturn
  if !function.uses.agrees (recordedUses (← function.bodyOperations)) then
    function.invalid function.location "use lists are out of sync with operands"

end Function

/-- Checks the functions of a module in order. -/
def Module.verify (module : Module) : Outcome Unit :=
  module.functions.forM Function.verify

end Dataflow

end TensorLang
