import TensorLang.Arena
import TensorLang.Error
import TensorLang.Tensor.Shape

/-!
# Loop functions

A loop function works on buffers of doubles in row-major order.  Every tensor operation is spelled
out as counted loops that load elements into registers, combine them and store the results.
-/

namespace TensorLang

namespace Loop

/-- The handle of a buffer. -/
abbrev BufferId : Type := Handle .buffer

/-- The handle of a register, which holds one double. -/
abbrev RegisterId : Type := Handle .register

/-- The handle of the variable of a loop. -/
abbrev LoopVariableId : Type := Handle .loopVariable

/-- Storage for one tensor. -/
structure Buffer where
  /-- The shape of the tensor. -/
  shape : Shape
  /-- The construct whose result the buffer holds. -/
  location : Location

/-- An index into one dimension of a buffer. -/
inductive Index where
  /-- A fixed index. -/
  | constant (value : Nat)
  /-- The value of a loop variable. -/
  | loopVariable (id : LoopVariableId)
  deriving DecidableEq

/-- An operand of an arithmetic instruction or a store. -/
inductive Operand where
  /-- A fixed number. -/
  | immediate (value : Float)
  /-- The number in a register. -/
  | register (id : RegisterId)

/-- The arithmetic operators. -/
inductive Arithmetic where
  | add
  | multiply
  deriving DecidableEq

/-- The double that an operator computes. -/
def Arithmetic.apply : Arithmetic → Float → Float → Float
  | .add, left, right => left + right
  | .multiply, left, right => left * right

/-- The instructions. -/
inductive Instruction where
  /-- Makes a buffer ready, filled with zeros. -/
  | alloc (buffer : BufferId)
  /-- Gives a buffer up. -/
  | dealloc (buffer : BufferId)
  /-- Loads an element into a register. -/
  | load (destination : RegisterId) (buffer : BufferId) (indices : List Index)
  /-- Stores a number as an element. -/
  | store (value : Operand) (buffer : BufferId) (indices : List Index)
  /-- Combines two numbers into a register. -/
  | arithmetic (operator : Arithmetic) (destination : RegisterId) (left right : Operand)
  /-- Runs `body` with the loop variable at `lower`, `lower + step`, … below `upper`. -/
  | loop (counter : LoopVariableId) (lower upper step : Nat) (body : List Instruction)
  /-- Copies all elements in row-major order. -/
  | copy (source destination : BufferId)
  /-- Prints a buffer as nested brackets. -/
  | print (buffer : BufferId)
  /-- Ends the function. -/
  | leave

/-- A function as a list of instructions. -/
structure Function where
  /-- The function's name. -/
  name : String
  /-- The buffers. -/
  buffers : Arena .buffer Buffer
  /-- Number of registers. -/
  registerCount : Nat
  /-- Number of loop variables. -/
  loopVariableCount : Nat
  /-- The instructions in order. -/
  body : List Instruction

/-- The loop functions of a program. -/
structure Module where
  /-- The functions. -/
  functions : List Function

/-- The function with a name. -/
def Module.function? (module : Module) (name : String) : Option Function :=
  module.functions.find? fun function => function.name == name

end Loop

end TensorLang
