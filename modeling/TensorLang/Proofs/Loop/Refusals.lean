import TensorLang.Proofs.Loop.Completeness
import TensorLang.Proofs.Refusing

/-!
# Functions that are not lowered

A typed function without arguments that returns nothing always has loops, and verifying them ends
with an answer.  They are refused only if the function is not legal: the right operand of a matrix
product is not square, or there are not enough handles for registers or loop variables.
-/

namespace TensorLang

/-- A rule is broken that earlier stages should have kept. -/
def Cause.Broken (cause : Cause) : Prop := ∃ message, cause = .brokenInvariant message

namespace Loop

namespace Function

variable {function : Function} {surroundings : Surroundings} {progress : Progress}

theorem delivers_invalid {α : Type} {accepts : α → Prop} (message : String)
    (location : Option Location) :
    (function.invalid message location).Delivers accepts fun error => error.cause.Broken :=
  ⟨_, rfl⟩

theorem delivers_checkOutside (instruction : String) :
    (function.checkOutside surroundings instruction).Delivers (fun _ => True)
      fun error => error.cause.Broken := by
  rw [checkOutside]
  split
  · trivial
  · exact delivers_invalid _ _

theorem delivers_knownBuffer (buffer : BufferId) :
    (function.knownBuffer buffer).Delivers (fun _ => True) fun error => error.cause.Broken := by
  rw [knownBuffer]
  split
  · trivial
  · exact delivers_invalid _ _

theorem delivers_usableBuffer (buffer : BufferId) :
    (function.usableBuffer progress buffer).Delivers (fun _ => True)
      fun error => error.cause.Broken := by
  rw [usableBuffer]
  refine (delivers_knownBuffer buffer).bind fun found _ _ => ?_
  split
  · trivial
  · exact delivers_invalid _ _
  · exact delivers_invalid _ _

private theorem delivers_checkBounds (buffer : BufferId) (shape : Shape)
    (pairs : List (Index × Nat)) :
    (function.checkBounds surroundings buffer shape pairs).Delivers (fun _ => True)
      fun error => error.cause.Broken := by
  fun_induction checkBounds function surroundings buffer shape pairs with
  | case1 => trivial
  | case3 _ _ _ _ induction => exact induction
  | case6 _ _ _ _ _ _ induction => exact induction
  | _ => exact delivers_invalid _ _

theorem delivers_checkIndices (buffer : BufferId) (indices : List Index) :
    (function.checkIndices surroundings progress buffer indices).Delivers (fun _ => True)
      fun error => error.cause.Broken := by
  rw [checkIndices]
  refine (delivers_usableBuffer buffer).bind fun found _ _ => ?_
  dsimp only
  split
  · exact delivers_invalid _ _
  · exact delivers_checkBounds _ _ _

theorem delivers_checkOperand (value : Operand) :
    (function.checkOperand progress value).Delivers (fun _ => True)
      fun error => error.cause.Broken := by
  cases value with
  | immediate value => trivial
  | register register =>
      rw [checkOperand]
      split
      · trivial
      · exact delivers_invalid _ _

theorem delivers_writeRegister (register : RegisterId) :
    (function.writeRegister progress register).Delivers (fun _ => True)
      fun error => error.cause.Broken := by
  rw [writeRegister]
  split
  · exact delivers_invalid _ _
  · trivial

private theorem delivers_enterLoop (counter : LoopVariableId) (lower upper step : Nat)
    (body : List Instruction) :
    (function.enterLoop surroundings counter lower upper step body).Delivers (fun _ => True)
      fun error => error.cause.Broken := by
  rw [enterLoop]
  split
  · exact delivers_invalid _ _
  · split
    · exact delivers_invalid _ _
    · trivial

mutual

private theorem delivers_checkInstruction (instruction : Instruction) (surroundings : Surroundings)
    (isLast : Bool) (progress : Progress) :
    (function.checkInstruction surroundings isLast progress instruction).Delivers (fun _ => True)
      fun error => error.cause.Broken := by
  cases instruction with
  | alloc buffer =>
      rw [checkInstruction]
      refine (delivers_checkOutside _).bind fun _ _ _ => ?_
      refine (delivers_knownBuffer buffer).bind fun _ _ _ => ?_
      split
      · exact delivers_invalid _ _
      · trivial
  | dealloc buffer =>
      rw [checkInstruction]
      refine (delivers_checkOutside _).bind fun _ _ _ => ?_
      exact (delivers_usableBuffer buffer).bind fun _ _ _ => trivial
  | load destination buffer indices =>
      rw [checkInstruction]
      exact (delivers_checkIndices buffer indices).bind fun _ _ _ =>
        delivers_writeRegister destination
  | store value buffer indices =>
      rw [checkInstruction]
      refine (delivers_checkOperand value).bind fun _ _ _ => ?_
      exact (delivers_checkIndices buffer indices).bind fun _ _ _ => trivial
  | arithmetic operator destination left right =>
      rw [checkInstruction]
      refine (delivers_checkOperand left).bind fun _ _ _ => ?_
      exact (delivers_checkOperand right).bind fun _ _ _ => delivers_writeRegister destination
  | loop counter lower upper step body =>
      rw [checkInstruction]
      refine (delivers_enterLoop counter lower upper step body).bind fun inner _ _ => ?_
      exact (delivers_checkBlock body inner progress).bind fun _ _ _ => trivial
  | copy source destination =>
      rw [checkInstruction]
      refine (delivers_usableBuffer source).bind fun _ _ _ => ?_
      refine (delivers_usableBuffer destination).bind fun _ _ _ => ?_
      dsimp only
      split
      · exact delivers_invalid _ _
      · trivial
  | print buffer =>
      rw [checkInstruction]
      exact (delivers_usableBuffer buffer).bind fun _ _ _ => trivial
  | leave =>
      rw [checkInstruction_leave]
      split
      · trivial
      · exact delivers_invalid _ _

theorem delivers_checkBlock (block : List Instruction) (surroundings : Surroundings)
    (progress : Progress) :
    (function.checkBlock surroundings progress block).Delivers (fun _ => True)
      fun error => error.cause.Broken := by
  cases block with
  | nil =>
      rw [checkBlock_nil]
      trivial
  | cons instruction rest =>
      rw [checkBlock]
      exact (delivers_checkInstruction instruction surroundings rest.isEmpty progress).bind
        fun middle _ _ => delivers_checkBlock rest surroundings middle

end

theorem delivers_checkReleased (progress : Progress) :
    (function.checkReleased progress).Delivers (fun _ => True) fun error => error.cause.Broken := by
  refine Outcome.Delivers.forM fun buffer _ => ?_
  split
  · trivial
  · exact delivers_invalid _ _
  · exact delivers_invalid _ _

/-- Verifying a function ends with an answer. -/
theorem delivers_verify (function : Function) :
    function.verify.Delivers (fun _ => True) fun error => error.cause.Broken := by
  rw [verify]
  refine (delivers_checkBlock function.body .outside .start).bind fun progress _ _ => ?_
  dsimp only
  split
  · have refused : Outcome.Delivers
        (function.invalid ("function must end with " ++ quoteName "return") : Outcome Unit)
        (fun _ => True) fun error => error.cause.Broken := delivers_invalid _ _
    exact refused.bind fun _ _ _ => delivers_checkReleased progress
  · exact delivers_checkReleased progress

end Function

end Loop

end TensorLang
