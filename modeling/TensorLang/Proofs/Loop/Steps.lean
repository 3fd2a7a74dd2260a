import TensorLang.Proofs.Loop.Instructions

/-!
# Runs as sequences of steps

The bounds of a loop are fixed, so a run performs a sequence of steps that can be written down
before it starts: a loop contributes, for each of its turns, the assignment of its variable followed
by the steps of its body.  Running a block is running its steps one after the other.
-/

namespace TensorLang

namespace Loop

/-- One step of a run. -/
inductive Step where
  /-- A loop variable takes its value for the next turn. -/
  | assign (counter : LoopVariableId) (value : Nat)
  /-- An instruction that is no proper loop is performed. -/
  | perform (instruction : Instruction)

/-- The registers that operands stand for. -/
def Operand.registers : Operand → List RegisterId
  | .immediate _ => []
  | .register id => [id]

namespace Step

/-- The registers that a step reads as operands. -/
def reads : Step → List RegisterId
  | .perform (.store value _ _) => value.registers
  | .perform (.arithmetic _ _ left right) => left.registers ++ right.registers
  | _ => []

/-- The registers that a step writes. -/
def writes : Step → List RegisterId
  | .perform (.load destination _ _) => [destination]
  | .perform (.arithmetic _ destination _ _) => [destination]
  | _ => []

end Step

mutual

/-- The steps of an instruction.  A loop that does not advance cannot be spelled out. -/
def Instruction.steps : Instruction → List Step
  | .loop counter lower upper step body =>
      if step = 0 then
        [.perform (.loop counter lower upper step body)]
      else
        (List.range (iterations lower upper step)).flatMap fun turn =>
          .assign counter (lower + turn * step) :: blockSteps body
  | .alloc buffer => [.perform (.alloc buffer)]
  | .dealloc buffer => [.perform (.dealloc buffer)]
  | .load destination buffer indices => [.perform (.load destination buffer indices)]
  | .store value buffer indices => [.perform (.store value buffer indices)]
  | .arithmetic operator destination left right =>
      [.perform (.arithmetic operator destination left right)]
  | .copy source destination => [.perform (.copy source destination)]
  | .print buffer => [.perform (.print buffer)]
  | .leave => [.perform .leave]

/-- The steps of instructions in order. -/
def blockSteps : List Instruction → List Step
  | [] => []
  | instruction :: rest => instruction.steps ++ blockSteps rest

end

namespace Function

variable (function : Function)

/-- The steps of the whole function. -/
def steps : List Step := blockSteps function.body

/-- Runs a step. -/
def runStep : Step → Run Control
  | .assign counter value => do
      Run.setCounter counter value
      return .proceed
  | .perform instruction => function.runInstruction instruction

/-- Runs steps in order, until one leaves the function. -/
def runSteps : List Step → Run Control
  | [] => return .proceed
  | step :: rest => do
      match ← function.runStep step with
      | .leave => return .leave
      | .proceed => runSteps rest

theorem runSteps_append (front back : List Step) :
    function.runSteps (front ++ back) = (do
      match ← function.runSteps front with
      | .leave => return .leave
      | .proceed => function.runSteps back) := by
  induction front with
  | nil => rw [List.nil_append, runSteps, pure_bind]
  | cons step front induction =>
      rw [List.cons_append, runSteps, runSteps, bind_assoc]
      refine bind_congr fun control => ?_
      cases control with
      | leave => rw [pure_bind]
      | proceed => exact induction

theorem runSteps_singleton (step : Step) : function.runSteps [step] = function.runStep step := by
  rw [runSteps]
  refine Eq.trans (bind_congr fun control => ?_) (bind_pure _)
  cases control with
  | leave => rfl
  | proceed => rfl

private theorem repeatStep_runSteps (body : List Step) (counter : LoopVariableId)
    (stride count value : Nat) :
    Run.repeatStep (function.runSteps body) counter stride count value =
      function.runSteps ((List.range count).flatMap fun turn =>
        .assign counter (value + turn * stride) :: body) := by
  induction count generalizing value with
  | zero => rfl
  | succ count induction =>
      have turns_eq :
          ((List.range (count + 1)).flatMap fun turn =>
            Step.assign counter (value + turn * stride) :: body) =
          Step.assign counter value :: (body ++ (List.range count).flatMap fun turn =>
            Step.assign counter (value + stride + turn * stride) :: body) := by
        simp [List.range_succ_eq_map, List.flatMap_map, Nat.succ_mul, Nat.add_assoc,
          Nat.add_comm stride]
      rw [turns_eq, Run.repeatStep, runSteps, runStep, bind_assoc]
      refine bind_congr fun _ => ?_
      rw [pure_bind, runSteps_append]
      refine bind_congr fun control => ?_
      cases control with
      | leave => rfl
      | proceed => exact induction (value + stride)

mutual

/-- An instruction does what its steps do. -/
theorem runInstruction_eq_runSteps (instruction : Instruction) :
    function.runInstruction instruction = function.runSteps instruction.steps := by
  cases instruction with
  | loop counter lower upper step body =>
      rw [Instruction.steps]
      split
      · rw [runSteps_singleton, runStep]
      · rename_i advances
        rw [runInstruction, if_neg advances, runBlock_eq_runSteps body, repeatStep_runSteps]
  | alloc | dealloc | load | store | arithmetic | copy | print | leave =>
      rw [Instruction.steps, runSteps_singleton, runStep]

/-- A block does what its steps do. -/
theorem runBlock_eq_runSteps (body : List Instruction) :
    function.runBlock body = function.runSteps (blockSteps body) := by
  cases body with
  | nil => rw [runBlock, blockSteps, runSteps]
  | cons instruction rest =>
      rw [runBlock, blockSteps, runSteps_append, runInstruction_eq_runSteps instruction]
      refine bind_congr fun control => ?_
      cases control with
      | leave => rfl
      | proceed => exact runBlock_eq_runSteps rest

end

end Function

end Loop

end TensorLang
