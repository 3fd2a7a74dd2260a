import Std.Data.TreeMap.Lemmas
import Std.Data.TreeSet.Lemmas
import TensorLang.Loop

/-!
# Verification of loop functions

A loop function is in order when every buffer is allocated once and released once, outside of all
loops, and used only in between; when every index tuple fits its buffer; and when registers and
loop variables are used only where they are defined.  Each loop body is checked once: a loop
variable is in bounds if its last value is.
-/

namespace TensorLang

namespace Loop

/-- What has become of an allocated buffer. -/
inductive BufferPhase where
  | live
  | released
  deriving DecidableEq

/-- What is known after the instructions checked so far. -/
structure Progress where
  /-- The states of the buffers that were allocated, by index. -/
  buffers : Std.TreeMap Nat BufferPhase
  /-- The registers that later instructions may read. -/
  visible : List RegisterId
  /-- The indices of all registers that were written. -/
  written : Std.TreeSet Nat

/-- The start of a function. -/
def Progress.start : Progress := ⟨∅, [], ∅⟩

/-- The loops around an instruction. -/
structure Surroundings where
  /-- The variables of the enclosing loops, outermost first, with the last value that each takes;
  a loop that never runs has none. -/
  loops : List (LoopVariableId × Option Nat)
  /-- The construct that the outermost loop computes. -/
  location : Option Location

/-- Outside of all loops. -/
def Surroundings.outside : Surroundings := ⟨[], none⟩

/-- Whether there is no loop around. -/
def Surroundings.areNone (surroundings : Surroundings) : Bool := surroundings.loops.isEmpty

/-- The last value of a loop variable, if the loop runs at all. -/
def lastValue (lower upper step : Nat) : Option Nat :=
  if lower < upper then some (lower + (upper - lower - 1) / step * step) else none

mutual

/-- The first buffer that an instruction stores to. -/
def Instruction.target? : Instruction → Option BufferId
  | .store _ buffer _ => some buffer
  | .loop _ _ _ _ body => firstStored? body
  | _ => none

/-- The first buffer that instructions store to. -/
def firstStored? : List Instruction → Option BufferId
  | [] => none
  | instruction :: rest => instruction.target?.or (firstStored? rest)

end

namespace Function

/-- Fails with a message about the function. -/
def invalid {α : Type} (function : Function) (message : String)
    (location : Option Location := none) : Outcome α :=
  .error (.error ⟨.brokenInvariant s!"in loop function {quoteName function.name}: {message}",
    location⟩)

/-- Allocation and release happen outside of loops. -/
def checkOutside (function : Function) (surroundings : Surroundings) (instruction : String) :
    Outcome Unit :=
  if surroundings.areNone then .ok ()
  else function.invalid s!"{quoteName instruction} cannot appear inside a loop"

/-- The buffer of a handle. -/
def knownBuffer (function : Function) (buffer : BufferId) : Outcome Buffer :=
  match function.buffers.get? buffer with
  | some found => .ok found
  | none => function.invalid s!"{buffer.text} does not exist"

/-- The buffer of a handle, which must be live. -/
def usableBuffer (function : Function) (progress : Progress) (buffer : BufferId) :
    Outcome Buffer := do
  let found ← function.knownBuffer buffer
  match progress.buffers[buffer.index]? with
  | some .live => return found
  | some .released => function.invalid s!"{buffer.text} is used after being released"
  | none => function.invalid s!"{buffer.text} is used before being allocated"

/-- Each index is below its dimension; for a loop variable its last value is. -/
def checkBounds (function : Function) (surroundings : Surroundings) (buffer : BufferId)
    (shape : Shape) : List (Index × Nat) → Outcome Unit
  | [] => .ok ()
  | (.constant value, dimension) :: rest =>
      if dimension ≤ value then
        function.invalid
          s!"index {value} is out of bounds for {buffer.text} of shape {shape.text}"
      else
        function.checkBounds surroundings buffer shape rest
  | (.loopVariable id, dimension) :: rest =>
      match surroundings.loops.lookup id with
      | none => function.invalid s!"{id.text} is used outside its loop"
      | some last? =>
          match last?.filter fun last => dimension ≤ last with
          | some last =>
              function.invalid
                (s!"{id.text} reaches {last}, out of bounds for {buffer.text} " ++
                  s!"of shape {shape.text}") surroundings.location
          | none => function.checkBounds surroundings buffer shape rest

/-- An index tuple fits a live buffer. -/
def checkIndices (function : Function) (surroundings : Surroundings) (progress : Progress)
    (buffer : BufferId) (indices : List Index) : Outcome Unit := do
  let shape := (← function.usableBuffer progress buffer).shape
  if indices.length ≠ shape.rank then
    function.invalid
      s!"{buffer.text} of shape {shape.text} indexed with {indices.length} indices"
  else
    function.checkBounds surroundings buffer shape (indices.zip shape.dimensions)

/-- A register operand is visible. -/
def checkOperand (function : Function) (progress : Progress) : Operand → Outcome Unit
  | .immediate _ => .ok ()
  | .register register =>
      if register ∈ progress.visible then .ok ()
      else function.invalid s!"{register.text} is used outside its scope"

/-- Writes a register, which must exist and not have been written before. -/
def writeRegister (function : Function) (progress : Progress) (register : RegisterId) :
    Outcome Progress :=
  if function.registerCount ≤ register.index ∨ progress.written.contains register.index then
    function.invalid s!"{register.text} is not a fresh register"
  else
    .ok { progress with
      visible := progress.visible ++ [register]
      written := progress.written.insert register.index }

/-- The surroundings of the body of a loop, which needs a fresh variable and proper bounds. -/
def enterLoop (function : Function) (surroundings : Surroundings) (counter : LoopVariableId)
    (lower upper step : Nat) (body : List Instruction) : Outcome Surroundings :=
  if function.loopVariableCount ≤ counter.index ∨
      (surroundings.loops.lookup counter).isSome then
    function.invalid s!"{counter.text} is not a fresh loop variable"
  else if step = 0 ∨ upper < lower then
    function.invalid
      s!"loop over {counter.text} has invalid bounds {lower}..{upper} step {step}"
  else
    .ok {
      loops := surroundings.loops ++ [(counter, lastValue lower upper step)]
      location :=
        if surroundings.areNone then
          ((firstStored? body).bind function.buffers.get?).map Buffer.location
        else surroundings.location }

mutual

/-- Checks an instruction; `isLast` tells whether it ends its block. -/
def checkInstruction (function : Function) (surroundings : Surroundings) (isLast : Bool)
    (progress : Progress) : Instruction → Outcome Progress
  | .alloc buffer => do
      function.checkOutside surroundings "alloc"
      let _ ← function.knownBuffer buffer
      if progress.buffers.contains buffer.index then
        function.invalid s!"{buffer.text} is allocated twice"
      else
        return { progress with buffers := progress.buffers.insert buffer.index .live }
  | .dealloc buffer => do
      function.checkOutside surroundings "dealloc"
      let _ ← function.usableBuffer progress buffer
      return { progress with buffers := progress.buffers.insert buffer.index .released }
  | .load destination buffer indices => do
      function.checkIndices surroundings progress buffer indices
      function.writeRegister progress destination
  | .store value buffer indices => do
      function.checkOperand progress value
      function.checkIndices surroundings progress buffer indices
      return progress
  | .arithmetic _ destination left right => do
      function.checkOperand progress left
      function.checkOperand progress right
      function.writeRegister progress destination
  | .loop counter lower upper step body => do
      let inner ← function.enterLoop surroundings counter lower upper step body
      let after ← checkBlock function inner progress body
      return { after with visible := progress.visible }
  | .copy source destination => do
      let sourceShape := (← function.usableBuffer progress source).shape
      let targetShape := (← function.usableBuffer progress destination).shape
      if sourceShape.size ≠ targetShape.size then
        function.invalid s!"cannot copy {sourceShape.text} into {targetShape.text}"
      else
        return progress
  | .print buffer => do
      let _ ← function.usableBuffer progress buffer
      return progress
  | .leave =>
      if surroundings.areNone && isLast then .ok progress
      else function.invalid
        (quoteName "return" ++ " must be the last instruction of the function")

/-- Checks instructions in order. -/
def checkBlock (function : Function) (surroundings : Surroundings) (progress : Progress) :
    List Instruction → Outcome Progress
  | [] => .ok progress
  | instruction :: rest => do
      let progress ← checkInstruction function surroundings rest.isEmpty progress instruction
      checkBlock function surroundings progress rest

end

theorem checkInstruction_leave (function : Function) (surroundings : Surroundings) (isLast : Bool)
    (progress : Progress) :
    function.checkInstruction surroundings isLast progress .leave =
      if surroundings.areNone && isLast then .ok progress
      else function.invalid
        (quoteName "return" ++ " must be the last instruction of the function") := by
  rw [checkInstruction]

theorem checkBlock_nil (function : Function) (surroundings : Surroundings) (progress : Progress) :
    function.checkBlock surroundings progress [] = .ok progress := by
  rw [checkBlock]

/-- Whether an instruction ends a function. -/
def endsFunction : Instruction → Bool
  | .leave => true
  | _ => false

/-- Every buffer was allocated and released. -/
def checkReleased (function : Function) (progress : Progress) : Outcome Unit :=
  function.buffers.ids.forM fun buffer =>
    match progress.buffers[buffer.index]? with
    | some .released => .ok ()
    | some .live => function.invalid s!"{buffer.text} is never released"
    | none => function.invalid s!"{buffer.text} is never allocated"

/-- Checks that the function is in order. -/
def verify (function : Function) : Outcome Unit := do
  let progress ← function.checkBlock .outside .start function.body
  if !function.body.getLast?.any endsFunction then
    function.invalid ("function must end with " ++ quoteName "return")
  function.checkReleased progress

end Function

end Loop

end TensorLang
