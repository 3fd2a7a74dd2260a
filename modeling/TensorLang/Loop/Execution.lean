import TensorLang.Loop
import TensorLang.Loop.Cells
import TensorLang.Tensor.Literal

/-!
# Execution of loop functions

Instructions run one after the other on buffers, registers and loop variables.  Printing adds a
line to the output, which is kept when a later instruction fails.
-/

namespace TensorLang

namespace Loop

/-- The contents of a buffer. -/
inductive Slot where
  /-- Not made ready yet. -/
  | unallocated
  /-- Ready, with its elements. -/
  | live (values : Cells Float)
  /-- Given up. -/
  | released

/-- Replaces one element of a live buffer. -/
def Slot.setElement (offset : Nat) (value : Float) : Slot → Slot
  | .live values => .live (values.set offset value)
  | .unallocated => .unallocated
  | .released => .released

/-- The state of a running function. -/
structure RunState where
  /-- The contents of the buffers. -/
  buffers : Array Slot
  /-- The numbers in the registers. -/
  registers : Cells Float
  /-- The values of the loop variables. -/
  counters : Cells Nat
  /-- Everything printed so far. -/
  output : String

/-- The state before the first instruction, unless the function has too many registers or loop
variables. -/
def RunState.start? (function : Function) : Option RunState := do
  let registers ← Cells.allocate? function.registerCount 0
  let counters ← Cells.allocate? function.loopVariableCount 0
  return ⟨Array.replicate function.buffers.size .unallocated, registers, counters, ""⟩

/-- The elements of a new buffer, unless there are too many. -/
def zeros? (shape : Shape) : Option (Cells Float) := do
  Cells.allocate? (← shape.boundedSize?) 0

/-- A step of a running function.  A step that fails keeps what it has done. -/
abbrev Run (α : Type) : Type := EStateM Failure RunState α

/-- Whether a function goes on after an instruction. -/
inductive Control where
  | proceed
  | leave
  deriving DecidableEq

namespace Run

/-- An outcome that leaves the state alone. -/
def lift {α : Type} (outcome : Outcome α) : Run α := fun state =>
  match outcome with
  | .ok result => .ok result state
  | .error failure => .error failure state

/-- Fails while running. -/
def fail {α : Type} (message : String) : Run α :=
  throw (.error ⟨.execution message, none⟩)

/-- The contents of a buffer, which must exist. -/
def slot (buffer : BufferId) : Run Slot := do
  lift (.promised (← get).buffers[buffer.index]?)

/-- The elements of a live buffer that `access`, such as reading, needs. -/
def elements (buffer : BufferId) (access : String) : Run (Cells Float) := do
  match ← slot buffer with
  | .live values => return values
  | .unallocated => fail s!"buffer {buffer.index} {access} before allocation"
  | .released => fail s!"buffer {buffer.index} used after release"

/-- Replaces the contents of a buffer. -/
def setSlot (buffer : BufferId) (slot : Slot) : Run Unit :=
  modify fun state => { state with buffers := state.buffers.setIfInBounds buffer.index slot }

/-- Replaces one element of a live buffer. -/
def setElement (buffer : BufferId) (offset : Nat) (value : Float) : Run Unit :=
  modify fun state => { state with
    buffers := state.buffers.modify buffer.index (Slot.setElement offset value) }

/-- Writes a register, which must exist. -/
def setRegister (register : RegisterId) (value : Float) : Run Unit := do
  if register.index < (← get).registers.size then
    modify fun state => { state with registers := state.registers.set register.index value }
  else
    throw .fault

/-- Writes a loop variable, which must exist. -/
def setCounter (counter : LoopVariableId) (value : Nat) : Run Unit := do
  if counter.index < (← get).counters.size then
    modify fun state => { state with counters := state.counters.set counter.index value }
  else
    throw .fault

/-- The number that an operand stands for. -/
def operand : Operand → Run Float
  | .immediate value => return value
  | .register register => do lift (.promised ((← get).registers.get? register.index))

/-- The number that an index stands for. -/
def index : Index → Run Nat
  | .constant value => return value
  | .loopVariable id => do lift (.promised ((← get).counters.get? id.index))

/-- The row-major offset of an index tuple into a buffer. -/
def offset (function : Function) (buffer : BufferId) (indices : List Index) : Run Nat := do
  let tuple ← indices.mapM index
  let shape := (← lift (.promised (function.buffers.get? buffer))).shape
  match shape.offset? tuple with
  | some offset => return offset
  | none =>
      let listed := ", ".intercalate (tuple.map toString)
      fail (s!"index [{listed}] is out of bounds for buffer {buffer.index} " ++
        s!"of shape {shape.text}")

/-- Runs a step `count` times, until one leaves the function.  The loop variable starts with `value`
and grows by `stride`. -/
def repeatStep (step : Run Control) (counter : LoopVariableId) (stride : Nat) :
    (count value : Nat) → Run Control
  | 0, _ => return .proceed
  | count + 1, value => do
      setCounter counter value
      match ← step with
      | .leave => return .leave
      | .proceed => repeatStep step counter stride count (value + stride)

end Run

/-- Number of times that a loop runs: the steps from `lower` that stay below `upper`. -/
def iterations (lower upper step : Nat) : Nat := (upper - lower + step - 1) / step

namespace Function

mutual

/-- Runs an instruction. -/
def runInstruction (function : Function) : Instruction → Run Control
  | .alloc buffer => do
      let shape := (← Run.lift (.promised (function.buffers.get? buffer))).shape
      Run.setSlot buffer (.live (← Run.lift (.promised (zeros? shape))))
      return .proceed
  | .dealloc buffer => do
      let _ ← Run.elements buffer "read"
      Run.setSlot buffer .released
      return .proceed
  | .load destination buffer indices => do
      let offset ← Run.offset function buffer indices
      let values ← Run.elements buffer "read"
      Run.setRegister destination (← Run.lift (.promised (values.get? offset)))
      return .proceed
  | .store value buffer indices => do
      let value ← Run.operand value
      let offset ← Run.offset function buffer indices
      let values ← Run.elements buffer "written"
      if offset < values.size then
        Run.setElement buffer offset value
        return .proceed
      else
        throw .fault
  | .arithmetic operator destination left right => do
      let left ← Run.operand left
      let right ← Run.operand right
      Run.setRegister destination (operator.apply left right)
      return .proceed
  | .loop counter lower upper step body =>
      if step = 0 then throw .fault
      else
        Run.repeatStep (runBlock function body) counter step (iterations lower upper step) lower
  | .copy source destination => do
      let values ← Run.elements source "read"
      let target ← Run.elements destination "written"
      if values.size ≠ target.size then
        Run.fail s!"cannot copy {values.size} elements into a buffer of {target.size}"
      else
        Run.setSlot destination (.live values)
        return .proceed
  | .print buffer => do
      let shape := (← Run.lift (.promised (function.buffers.get? buffer))).shape
      let values ← Run.elements buffer "read"
      let line ← Run.lift (.promised (nestedText? "," shape.dimensions values.toList))
      modify fun state => { state with output := state.output ++ line ++ "\n" }
      return .proceed
  | .leave => return .leave

/-- Runs instructions in order, until one leaves the function. -/
def runBlock (function : Function) : List Instruction → Run Control
  | [] => return .proceed
  | instruction :: rest => do
      match ← runInstruction function instruction with
      | .leave => return .leave
      | .proceed => runBlock function rest

end

theorem runInstruction_leave (function : Function) :
    function.runInstruction .leave = pure .leave := by
  rw [runInstruction]

theorem runBlock_nil (function : Function) : function.runBlock [] = pure .proceed := by
  rw [runBlock]

/-- Runs the function; gives its output, and whether it failed. -/
def run (function : Function) : String × Outcome Unit :=
  match RunState.start? function with
  | none => ("", .error .fault)
  | some start =>
      match function.runBlock function.body start with
      | .ok _ state => (state.output, .ok ())
      | .error failure state => (state.output, .error failure)

end Function

/-- Runs the function with a name; gives its output, and whether it failed. -/
def Module.run (module : Module) (entry : String) : String × Outcome Unit :=
  match module.function? entry with
  | some function => function.run
  | none => ("", Outcome.fail (.undeclared entry))

end Loop

end TensorLang
