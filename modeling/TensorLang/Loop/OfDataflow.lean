import TensorLang.Dataflow
import TensorLang.Loop.Verification

/-!
# Loops of dataflow functions

Each tensor result gets a buffer of its own, and a cast shares the buffer of its operand.  All
buffers are allocated before the first operation and released after the last one, in opposite order.
A loop is written around its body once the body is complete, so bodies are kept open while they are
being written.  Only a single function without arguments and results becomes a loop function.
-/

namespace TensorLang

namespace Loop

/-- What has been given out so far. -/
structure Allocation where
  /-- The buffers. -/
  buffers : Arena .buffer Buffer
  /-- The buffer of each value, by index. -/
  bufferOf : Std.TreeMap Nat BufferId
  /-- The next register. -/
  nextRegister : RegisterId
  /-- The next loop variable. -/
  nextLoopVariable : LoopVariableId

/-- Nothing given out. -/
def Allocation.start : Allocation := ⟨.empty, ∅, ⟨0⟩, ⟨0⟩⟩

/-- Produces instructions while giving out buffers, registers and loop variables. -/
abbrev Lowering (α : Type) : Type := StateT Allocation Outcome α

namespace Lowering

/-- Gives out the next register. -/
def freshRegister : Lowering RegisterId := do
  let allocation ← get
  set { allocation with nextRegister := allocation.nextRegister.advance 1 }
  return allocation.nextRegister

/-- Gives out the next loop variable. -/
def freshLoopVariable : Lowering LoopVariableId := do
  let allocation ← get
  set { allocation with nextLoopVariable := allocation.nextLoopVariable.advance 1 }
  return allocation.nextLoopVariable

/-- A load into a fresh register, and the register. -/
def load (buffer : BufferId) (indices : List Index) : Lowering (Instruction × Operand) := do
  let register ← freshRegister
  return (.load register buffer indices, .register register)

/-- An arithmetic instruction with a fresh register, and the register. -/
def arithmetic (operator : Arithmetic) (left right : Operand) :
    Lowering (Instruction × Operand) := do
  let register ← freshRegister
  return (.arithmetic operator register left right, .register register)

end Lowering

/-- The loop bodies that are being written.  There is always an outermost one. -/
structure OpenBodies where
  /-- The innermost body. -/
  innermost : List Instruction
  /-- The bodies around it, from the inside out. -/
  enclosing : List (List Instruction)

/-- An outermost body that nothing has been written to. -/
def OpenBodies.start : OpenBodies := ⟨[], []⟩

/-- The number of open bodies. -/
def OpenBodies.depth (bodies : OpenBodies) : Nat := bodies.enclosing.length + 1

/-- Adds instructions at the end of the innermost body. -/
def OpenBodies.append (bodies : OpenBodies) (block : List Instruction) : OpenBodies :=
  { bodies with innermost := bodies.innermost ++ block }

/-- Writes instructions into open loop bodies. -/
abbrev Writing (α : Type) : Type := StateT OpenBodies Lowering α

namespace Writing

/-- Writes instructions at the end of the innermost body. -/
def write (block : List Instruction) : Writing Unit :=
  modify fun bodies => bodies.append block

/-- Opens a body inside of the innermost one. -/
def openBody : Writing Unit :=
  modify fun bodies => ⟨[], bodies.innermost :: bodies.enclosing⟩

/-- Closes the innermost body, which must have one around it, and gives its instructions. -/
def closeBody : Writing (List Instruction) := do
  match ← get with
  | ⟨block, around :: enclosing⟩ =>
      set (⟨around, enclosing⟩ : OpenBodies)
      return block
  | ⟨_, []⟩ => throw .fault

/-- Makes the innermost body that of a loop, which becomes the last instruction around it. -/
def closeLoop (counter : LoopVariableId) (dimension : Nat) : Writing Unit := do
  let body ← closeBody
  write [.loop counter 0 dimension 1 body]

/-- Writes one loop for each dimension, the outermost first, around what `build` writes with the
loop variables as indices.  The bodies of all loops are opened before `build`, and closed from the
inside out after it. -/
def nest (dimensions : List Nat) (build : List Index → Writing Unit) : Writing Unit := do
  let counters ← (dimensions.mapM fun _ => Lowering.freshLoopVariable :
    Lowering (List LoopVariableId))
  dimensions.forM fun _ => openBody
  build (counters.map .loopVariable)
  (counters.zip dimensions).reverse.forM fun (counter, dimension) => closeLoop counter dimension

end Writing

namespace Lowering

/-- One loop for each dimension, the outermost first, around the instructions that `body` gives for
the loop variables as indices.  No body of theirs may be left open. -/
def nest (function : Dataflow.Function) (dimensions : List Nat)
    (body : List Index → Lowering (List Instruction)) : Lowering (List Instruction) := do
  let writing := Writing.nest dimensions fun indices => do Writing.write (← body indices)
  match ← writing.run .start with
  | (_, ⟨written, []⟩) => return written
  | _ => Outcome.failAt function.location (.brokenInvariant "loop nest was left open")

/-- The shape of a value. -/
def rankedShape (function : Dataflow.Function) (value : Dataflow.ValueId) : Outcome Shape := do
  match ← function.typeOf value with
  | .ranked shape => return shape
  | .unranked =>
      Outcome.failAt function.location
        (.brokenInvariant "unranked value reached loop lowering")

/-- The buffer of a value. -/
def bufferHolding (function : Dataflow.Function) (value : Dataflow.ValueId) :
    Lowering BufferId := do
  match (← get).bufferOf[value.index]? with
  | some buffer => return buffer
  | none =>
      Outcome.failAt function.location
        (.brokenInvariant s!"value {value.text} has no buffer")

/-- Makes a value live in a buffer. -/
def bind (value : Dataflow.ValueId) (buffer : BufferId) : Lowering Unit :=
  modify fun allocation =>
    { allocation with bufferOf := allocation.bufferOf.insert value.index buffer }

/-- A new buffer for the only result of an operation, and its shape. -/
def newBuffer (function : Dataflow.Function) (operation : Dataflow.Operation) :
    Lowering (BufferId × Shape) := do
  let result ← operation.result
  let shape ← rankedShape function result
  let allocation ← get
  let buffer := allocation.buffers.nextId
  set { allocation with buffers := allocation.buffers.push ⟨shape, operation.location⟩ }
  bind result buffer
  return (buffer, shape)

/-- The instructions that store the numbers of a literal one by one. -/
def storeLiteral (buffer : BufferId) (shape : Shape) (values : List Float) :
    Outcome (List Instruction) :=
  values.zipIdx.mapM fun (value, offset) => do
    let indices ← Outcome.promised (shape.indices? offset)
    return .store (.immediate value) buffer (indices.map .constant)

/-- Combines the elements at the same index of two buffers. -/
def combine (operator : Arithmetic) (left right buffer : BufferId) (indices : List Index) :
    Lowering (List Instruction) := do
  let (loadLeft, leftValue) ← load left indices
  let (loadRight, rightValue) ← load right indices
  let (compute, value) ← arithmetic operator leftValue rightValue
  return [loadLeft, loadRight, compute, .store value buffer indices]

/-- Adds one product to an element of a matrix product.  The right matrix is read with the column
first. -/
def accumulate (left right buffer : BufferId) (row column inner : Index) :
    Lowering (List Instruction) := do
  let (loadLeft, leftValue) ← load left [row, inner]
  let (loadRight, rightValue) ← load right [column, inner]
  let (loadSum, sumValue) ← load buffer [row, column]
  let (multiply, product) ← arithmetic .multiply leftValue rightValue
  let (add, sum) ← arithmetic .add sumValue product
  return [loadLeft, loadRight, loadSum, multiply, add, .store sum buffer [row, column]]

/-- The instructions of an element-by-element operation. -/
def ofCombination (function : Dataflow.Function) (operation : Dataflow.Operation)
    (operator : Arithmetic) : Lowering (List Instruction) := do
  let left ← bufferHolding function (← operation.operand 0)
  let right ← bufferHolding function (← operation.operand 1)
  let (buffer, shape) ← newBuffer function operation
  nest function shape.dimensions (combine operator left right buffer)

/-- The instructions of a matrix product: zeros first, then one product after the other. -/
def ofMatmul (function : Dataflow.Function) (operation : Dataflow.Operation) :
    Lowering (List Instruction) := do
  let leftOperand ← operation.operand 0
  let left ← bufferHolding function leftOperand
  let right ← bufferHolding function (← operation.operand 1)
  let leftShape ← rankedShape function leftOperand
  let inner ← (Outcome.promised leftShape.dimensions[1]? : Outcome Nat)
  let (buffer, shape) ← newBuffer function operation
  let clear ← nest function shape.dimensions fun indices =>
    return [.store (.immediate 0) buffer indices]
  match shape.dimensions with
  | rows :: columns :: _ =>
      let sum ← nest function [rows, columns, inner] fun indices =>
        match indices with
        | [row, column, position] => accumulate left right buffer row column position
        | _ => throw .fault
      return clear ++ sum
  | _ => throw .fault

/-- The instructions of a transposition: elements are read with their indices reversed. -/
def ofTranspose (function : Dataflow.Function) (operation : Dataflow.Operation) :
    Lowering (List Instruction) := do
  let operand ← bufferHolding function (← operation.operand 0)
  let (buffer, shape) ← newBuffer function operation
  nest function shape.dimensions fun indices => do
    let (load, value) ← load operand indices.reverse
    return [load, .store value buffer indices]

/-- The instructions of an operation. -/
def ofOperation (function : Dataflow.Function) (operation : Dataflow.Operation) :
    Lowering (List Instruction) := do
  match operation.kind with
  | .constant literal =>
      let (buffer, shape) ← newBuffer function operation
      storeLiteral buffer shape literal.values
  | .add => ofCombination function operation .add
  | .multiply => ofCombination function operation .multiply
  | .matmul => ofMatmul function operation
  | .transpose => ofTranspose function operation
  | .reshape _ =>
      let source ← bufferHolding function (← operation.operand 0)
      let (buffer, _) ← newBuffer function operation
      return [.copy source buffer]
  | .cast =>
      let operand ← bufferHolding function (← operation.operand 0)
      bind (← operation.result) operand
      return []
  | .print => return [.print (← bufferHolding function (← operation.operand 0))]
  | .leave => return []
  | .call callee =>
      Outcome.failAt operation.location
        (.brokenInvariant s!"call to {quoteName callee} was not inlined")

/-- An operation can be spelled out as loops if all its shapes are known, and if it neither calls
nor returns a value. -/
def checkExpressible (function : Dataflow.Function) (operation : Dataflow.Operation) :
    Outcome Unit := do
  let illegal (reason : String) : Outcome Unit :=
    Outcome.failAt operation.location
      (.brokenInvariant s!"cannot lower {quoteName operation.name} to loops: {reason}")
  let unranked? ← (operation.operands ++ operation.results).findM? fun value =>
    return !(← function.typeOf value).isRanked
  match unranked? with
  | some _ => illegal s!"value of type {TensorType.unranked.text} has no known shape"
  | none =>
      match operation.kind with
      | .call callee => illegal s!"call to {quoteName callee} was not inlined"
      | .leave =>
          if operation.operands.isEmpty then .ok ()
          else illegal "the entry function cannot return a value"
      | _ => .ok ()

/-- The instructions of operations in order. -/
def ofOperations (function : Dataflow.Function) :
    List Dataflow.Operation → Lowering (List Instruction)
  | [] => return []
  | operation :: rest => do
      checkExpressible function operation
      let first ← ofOperation function operation
      let others ← ofOperations function rest
      return first ++ others

end Lowering

/-- The loop function of a dataflow function. -/
def Function.ofDataflow (function : Dataflow.Function) : Outcome Function := do
  let operations ← function.bodyOperations
  let (body, allocation) ← (Lowering.ofOperations function operations).run .start
  let buffers := allocation.buffers.ids
  return {
    name := function.name
    buffers := allocation.buffers
    registerCount := allocation.nextRegister.index
    loopVariableCount := allocation.nextLoopVariable.index
    body := buffers.map .alloc ++ body ++ buffers.reverse.map .dealloc ++ [.leave] }

/-- The loop module of a dataflow module, which must hold the entry function alone. -/
def Module.ofDataflow (module : Dataflow.Module) (entry : String) : Outcome Module := do
  match module.functions with
  | [function] =>
      let name := quoteName entry
      if function.name ≠ entry then
        Outcome.failAt function.location (.brokenInvariant
          s!"expected entry function {name}, found {quoteName function.name}")
      else if !function.arguments.isEmpty || !function.resultTypes.isEmpty then
        Outcome.failAt function.location (.brokenInvariant
          s!"entry function {name} must not take arguments or return values")
      else
        let lowered ← Function.ofDataflow function
        lowered.verify
        return ⟨[lowered]⟩
  | functions =>
      Outcome.fail (.brokenInvariant
        ("expected only the entry function before lowering to loops, " ++
          s!"found {functions.length} functions"))

end Loop

end TensorLang
