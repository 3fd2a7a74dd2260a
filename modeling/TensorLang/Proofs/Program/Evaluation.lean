import TensorLang.Dataflow.OfProgram
import TensorLang.Proofs.Dataflow.Evaluation

/-!
# The meaning of programs

A program is evaluated by value: operands and arguments from left to right, and then the operator
or the body of the callee.  A call of a function that returns nothing has a missing value, which may
be bound, passed on and returned, but not read.
-/

namespace TensorLang

open Dataflow (Fault)

/-- A computation that adds to the tensors that are printed, and may fail. -/
abbrev Evaluation (α : Type) : Type := StateT (List Tensor) (Except Fault) α

namespace Evaluation

/-- Prints a tensor. -/
def print (tensor : Tensor) : Evaluation Unit := modify fun printed => printed ++ [tensor]

/-- The tensor of a value that is read. -/
def read : Option Tensor → Evaluation Tensor
  | some tensor => return tensor
  | none => throw .missing

/-- The result of an operation if its operands fit. -/
def fitting : Option Tensor → Evaluation Tensor
  | some tensor => return tensor
  | none => throw .mismatch

end Evaluation

/-- Tensors of one shape, one after the other along a new outermost dimension. -/
def Tensor.stack? : List Tensor → Option Tensor
  | [] => none
  | first :: rest =>
      if ∀ tensor ∈ rest, tensor.shape = first.shape then
        ofValues? ⟨(rest.length + 1) :: first.shape.dimensions⟩
          ((first :: rest).flatMap Tensor.values)
      else
        none

mutual

/-- The tensor that a literal spells: a number has no dimensions, and an array stacks its
elements. -/
def Literal.tensor? : Literal → Option Tensor
  | .number _ value => some ⟨.scalar, [value], rfl⟩
  | .array _ elements => do Tensor.stack? (← tensors? elements)

/-- The tensors of several literals. -/
def Literal.tensors? : List Literal → Option (List Tensor)
  | [] => some []
  | literal :: rest => do return (← literal.tensor?) :: (← tensors? rest)

end

/-- The tensor that an operator computes, if its operands fit. -/
def Operator.apply? : Operator → Tensor → Tensor → Option Tensor
  | .add, left, right => left.combine? (· + ·) right
  | .multiply, left, right => left.combine? (· * ·) right
  | .matmul, left, right => left.matmul? right

/-- The values of the names that a function body can see. -/
structure Bindings where
  /-- Values of the parameters, the last one first. -/
  parameters : List (String × Option Tensor)
  /-- Values of the variables, the nearest one first. -/
  declared : List (String × Option Tensor)

namespace Bindings

/-- The value of a name: that of the nearest variable, or else of the parameter. -/
def find? (bindings : Bindings) (name : String) : Option (Option Tensor) :=
  (bindings.declared.lookup name).or (bindings.parameters.lookup name)

/-- Binds a variable. -/
def declare (bindings : Bindings) (name : String) (value : Option Tensor) : Bindings :=
  { bindings with declared := (name, value) :: bindings.declared }

/-- The bindings with which a function body starts. -/
def ofArguments (names : List String) (values : List (Option Tensor)) : Bindings :=
  ⟨(names.zip values).reverse, []⟩

end Bindings

/-- What calls of functions do, by name. -/
abbrev FunctionCalls : Type := String → List (Option Tensor) → Evaluation (Option Tensor)

mutual

/-- The value of an expression. -/
def Expression.evaluate (calls : FunctionCalls) (bindings : Bindings) :
    Expression → Evaluation (Option Tensor)
  | .literal value => do return some (← Evaluation.fitting value.tensor?)
  | .identifier name =>
      match bindings.find? name.name with
      | some value => return value
      | none => throw .undeclared
  | .binary _ left operator _ right => do
      let left ← left.evaluate calls bindings
      let right ← right.evaluate calls bindings
      let result := operator.apply? (← Evaluation.read left) (← Evaluation.read right)
      return some (← Evaluation.fitting result)
  | .call _ callee arguments => do
      let values ← evaluateAll calls bindings arguments
      if callee.name = Dataflow.transposeName then
        match values with
        | [value] => return some (← Evaluation.read value).transpose
        | _ => throw .arity
      else
        calls callee.name values

/-- The values of expressions, from left to right. -/
def Expression.evaluateAll (calls : FunctionCalls) (bindings : Bindings) :
    List Expression → Evaluation (List (Option Tensor))
  | [] => return []
  | expression :: rest => do
      let value ← expression.evaluate calls bindings
      let values ← evaluateAll calls bindings rest
      return value :: values

end

/-- The value of a declared variable: a shape lays out the row-major elements anew. -/
def Declaration.evaluate (calls : FunctionCalls) (bindings : Bindings)
    (declaration : Declaration) : Evaluation (Option Tensor) := do
  let value ← declaration.initializer.evaluate calls bindings
  match declaration.shape with
  | none => return value
  | some clause =>
      let tensor ← Evaluation.read value
      return some (← Evaluation.fitting (tensor.reshape? ⟨clause.dimensions⟩))

/-- Runs statements up to a return; gives the returned value. -/
def evaluateStatements (calls : FunctionCalls) (bindings : Bindings) :
    List Statement → Evaluation (Option Tensor)
  | [] => return none
  | statement :: rest => do
      match statement.action with
      | .declare declaration =>
          let value ← declaration.evaluate calls bindings
          evaluateStatements calls (bindings.declare declaration.name.name value) rest
      | .leave none => return none
      | .leave (some expression) => expression.evaluate calls bindings
      | .print expression =>
          let value ← expression.evaluate calls bindings
          Evaluation.print (← Evaluation.read value)
          evaluateStatements calls bindings rest
      | .evaluate expression =>
          let _ ← expression.evaluate calls bindings
          evaluateStatements calls bindings rest

/-- Runs the body of a function with the values of its parameters. -/
def FunctionDefinition.evaluate (calls : FunctionCalls) (definition : FunctionDefinition)
    (values : List (Option Tensor)) : Evaluation (Option Tensor) :=
  if values.length = definition.parameters.length then
    evaluateStatements calls (.ofArguments (definition.parameters.map Identifier.name) values)
      definition.body.statements
  else
    throw .arity

namespace Program

/-- The function with a name. -/
def function? (program : Program) (name : String) : Option FunctionDefinition :=
  program.functions.find? fun definition => definition.name.name == name

/-- What calls do when each runs the body of its callee, nested no deeper than `depth`. -/
def calls (program : Program) : (depth : Nat) → FunctionCalls
  | 0 => fun _ _ => throw .depth
  | depth + 1 => fun callee values =>
      match program.function? callee with
      | some definition => definition.evaluate (program.calls depth) values
      | none => throw .undeclared

/-- The tensors that a call of the entry function prints, in order. -/
def printed (program : Program) (depth : Nat) (entry : String) :
    Except Fault (List Tensor) := do
  let (_, tensors) ← (program.calls depth entry []).run []
  return tensors

end Program

end TensorLang
