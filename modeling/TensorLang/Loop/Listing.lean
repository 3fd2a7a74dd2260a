import TensorLang.Decimal.Positional
import TensorLang.Loop
import TensorLang.Text.Ink

/-!
# Listings of loop functions

A listing has one instruction per line; the body of a loop is indented further than the loop.
-/

namespace TensorLang

namespace Loop

/-- The name of a buffer. -/
def bufferText (ink : Ink) (buffer : BufferId) : String :=
  ink.paint .yellow s!"%buf{buffer.index}"

/-- The name of a register. -/
def registerText (ink : Ink) (register : RegisterId) : String :=
  ink.paint .yellow s!"%r{register.index}"

/-- The name of a loop variable. -/
def loopVariableText (ink : Ink) (id : LoopVariableId) : String :=
  ink.paint .brightRed s!"%i{id.index}"

/-- A whole number. -/
def numeralText (ink : Ink) (value : Nat) : String := ink.paint .magenta (toString value)

/-- An index. -/
def Index.text (ink : Ink) : Index → String
  | .constant value => numeralText ink value
  | .loopVariable id => loopVariableText ink id

/-- An operand. -/
def Operand.text (ink : Ink) : Operand → String
  | .immediate value => ink.paint .magenta (numberText value)
  | .register id => registerText ink id

/-- An element of a buffer. -/
def elementText (ink : Ink) (buffer : BufferId) (indices : List Index) : String :=
  bufferText ink buffer ++ "[" ++ ", ".intercalate (indices.map (Index.text ink)) ++ "]"

/-- The name of an operator. -/
def Arithmetic.name : Arithmetic → String
  | .add => "addf"
  | .multiply => "mulf"

/-- The type of a buffer of a shape. -/
def bufferTypeText (shape : Shape) : String :=
  "memref<" ++ String.join (shape.dimensions.map fun dimension => s!"{dimension}x") ++ "f64>"

/-- The step of a loop; a step of one goes without saying. -/
def stepText (ink : Ink) (step : Nat) : String :=
  if step = 1 then ""
  else " " ++ ink.paint .brightGreen "step" ++ " " ++ numeralText ink step

/-- The name of an instruction. -/
def wordText (ink : Ink) (word : String) : String := ink.paint .cyan word

/-- The assignment of a value to a name. -/
def assignText (ink : Ink) (name value : String) : String :=
  name ++ " " ++ ink.paint .white "=" ++ " " ++ value

/-- The blanks at the start of a line. -/
def indentation (depth : Nat) : String := String.ofList (List.replicate (2 * depth) ' ')

namespace Function

mutual

/-- The lines of an instruction. -/
def instructionLines (function : Function) (ink : Ink) (depth : Nat) :
    Instruction → Outcome String
  | .alloc buffer => do
      let shape := (← Outcome.promised (function.buffers.get? buffer)).shape
      let value := wordText ink "alloc" ++ " " ++ ink.paint .white ":" ++ " " ++
        bufferTypeText shape
      return indentation depth ++ assignText ink (bufferText ink buffer) value ++ "\n"
  | .dealloc buffer =>
      return indentation depth ++ wordText ink "dealloc" ++ " " ++ bufferText ink buffer ++ "\n"
  | .load destination buffer indices =>
      let value := wordText ink "load" ++ " " ++ elementText ink buffer indices
      return indentation depth ++ assignText ink (registerText ink destination) value ++ "\n"
  | .store value buffer indices =>
      return indentation depth ++ wordText ink "store" ++ " " ++ value.text ink ++ ", " ++
        elementText ink buffer indices ++ "\n"
  | .arithmetic operator destination left right =>
      let value := wordText ink operator.name ++ " " ++ left.text ink ++ ", " ++ right.text ink
      return indentation depth ++ assignText ink (registerText ink destination) value ++ "\n"
  | .loop counter lower upper step body => do
      let lines ← blockLines function ink (depth + 1) body
      let header := ink.paint .brightGreen "for" ++ " " ++ loopVariableText ink counter ++ " = " ++
        numeralText ink lower ++ " " ++ ink.paint .brightGreen "to" ++ " " ++
        numeralText ink upper ++ stepText ink step
      return indentation depth ++ header ++ " " ++ braceOpen ++ "\n" ++ lines ++
        indentation depth ++ braceClose ++ "\n"
  | .copy source destination =>
      return indentation depth ++ wordText ink "copy" ++ " " ++ bufferText ink source ++ ", " ++
        bufferText ink destination ++ "\n"
  | .print buffer =>
      return indentation depth ++ wordText ink "print" ++ " " ++ bufferText ink buffer ++ "\n"
  | .leave => return indentation depth ++ wordText ink "return" ++ "\n"

/-- The lines of instructions in order. -/
def blockLines (function : Function) (ink : Ink) (depth : Nat) :
    List Instruction → Outcome String
  | [] => .ok ""
  | instruction :: rest => do
      let first ← instructionLines function ink depth instruction
      let others ← blockLines function ink depth rest
      return first ++ others

end

/-- The listing of a function. -/
def listing (function : Function) (ink : Ink) : Outcome String := do
  let lines ← function.blockLines ink 1 function.body
  let keyword := ink.paint .magenta "func"
  let name := ink.paint .blue s!"@{function.name}"
  return keyword ++ " " ++ name ++ ink.paint .white ("() " ++ braceOpen) ++ "\n" ++ lines ++
    ink.paint .white braceClose ++ "\n"

end Function

/-- The listing of a module: its functions with empty lines between them. -/
def Module.listing (module : Module) (ink : Ink) : Outcome String := do
  return "\n".intercalate (← module.functions.mapM fun function => function.listing ink)

end Loop

end TensorLang
