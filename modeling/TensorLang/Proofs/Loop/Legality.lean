import Mathlib.Algebra.GroupWithZero.Nat
import TensorLang.Proofs.Dataflow.Inference
import TensorLang.Proofs.Dataflow.Reductions
import TensorLang.Proofs.Loop.Acceptance
import TensorLang.Proofs.Loop.Refinement

/-!
# Which functions are lowered

A typed function without arguments is lowered and verified just if it returns nothing, the right
operand of each matrix product is square, and its registers and loop variables are fewer than there
are handles.  The verifier alone refuses the other right operands: it sees them read beyond their
dimensions.
-/

namespace TensorLang

namespace Loop

namespace Lowering

variable {source : Dataflow.Function} {lowered : Function} {operation : Dataflow.Operation}
variable {code : List Dataflow.Operation} {available : List Dataflow.ValueId}
variable {before after : Allocation} {block : List Instruction} {shape : Shape}
variable {shapes : List Shape} {resolution : Dataflow.Resolution}

/-! ### Registers and loop variables -/

/-- Number of registers that the instructions of an operation write. -/
def registersFor : Dataflow.OperationKind → Nat
  | .add | .multiply => 3
  | .matmul => 5
  | .transpose => 1
  | .constant _ | .reshape _ | .call _ | .leave | .cast | .print => 0

/-- The rank of the first result of an operation, as far as it is known. -/
def resultRank (source : Dataflow.Function) (operation : Dataflow.Operation) : Nat :=
  (operation.results.head?.bind source.knownShape?).elim 0 Shape.rank

/-- Number of loop variables that the instructions of an operation use. -/
def countersFor (source : Dataflow.Function) (operation : Dataflow.Operation) : Nat :=
  match operation.kind with
  | .add | .multiply | .transpose => resultRank source operation
  | .matmul => resultRank source operation + 3
  | .constant _ | .reshape _ | .call _ | .leave | .cast | .print => 0

theorem NewBuffer.resultRank_eq {registers counters : Nat}
    (new : NewBuffer source operation shape before after registers counters) :
    resultRank source operation = shape.rank := by
  obtain ⟨result, results_eq, type_eq, -⟩ := new.result
  rw [resultRank, results_eq, List.head?_cons, Option.bind_some,
    Dataflow.Function.knownShape?_eq_some_iff.mpr type_eq]
  rfl

/-- Registers and loop variables are given out as they are needed. -/
theorem Lowers.counts (lowers : Lowers source operation before after block) :
    after.nextRegister = before.nextRegister.skip (registersFor operation.kind) ∧
      after.nextLoopVariable = before.nextLoopVariable.skip (countersFor source operation) := by
  cases lowers with
  | constant kind_eq new | reshape kind_eq _ new =>
      rw [countersFor, kind_eq]
      exact ⟨new.registers, new.counters⟩
  | @combination operator _ _ _ _ _ _ _ kind_eq _ _ new =>
      rw [countersFor, kind_eq]
      cases operator with
      | add => exact ⟨new.registers, new.resultRank_eq ▸ new.counters⟩
      | multiply => exact ⟨new.registers, new.resultRank_eq ▸ new.counters⟩
  | matmul kind_eq _ _ _ new =>
      rw [countersFor, kind_eq]
      exact ⟨new.registers, new.resultRank_eq ▸ new.counters⟩
  | transpose kind_eq _ new =>
      rw [countersFor, kind_eq]
      exact ⟨new.registers, new.resultRank_eq ▸ new.counters⟩
  | cast kind_eq _ _ after_eq | print kind_eq _ after_eq | leave kind_eq after_eq =>
      rw [countersFor, kind_eq, after_eq]
      exact ⟨rfl, rfl⟩

/-! ### What the verifier has accepted -/

private theorem index_lt_of_writes {surroundings : Surroundings} {progress finished : Progress}
    (checked : lowered.checkBlock surroundings progress block = .ok finished)
    {instruction : Instruction} (member : instruction ∈ block) {register : RegisterId}
    (writes : register ∈ (Step.perform instruction).writes) :
    register.index < lowered.registerCount := by
  induction block generalizing progress with
  | nil => cases member
  | cons first rest induction =>
      obtain ⟨middle, first_checked, rest_checked⟩ := Function.checkBlock_cons_eq_ok_iff.mp checked
      rcases List.mem_cons.mp member with rfl | later
      · cases instruction with
        | load destination buffer indices =>
            obtain rfl := List.mem_singleton.mp writes
            obtain ⟨-, written⟩ := Function.checkInstruction_load_eq_ok_iff.mp first_checked
            exact (Function.writeRegister_eq_ok_iff.mp written).1
        | arithmetic operator destination left right =>
            obtain rfl := List.mem_singleton.mp writes
            obtain ⟨-, -, written⟩ :=
              Function.checkInstruction_arithmetic_eq_ok_iff.mp first_checked
            exact (Function.writeRegister_eq_ok_iff.mp written).1
        | _ => cases writes
      · exact induction rest_checked later

/-- The registers and loop variables of an accepted nest exist. -/
theorem below_of_nested {counters : List LoopVariableId} {dimensions : List Nat}
    {body : List Instruction} {surroundings : Surroundings} {progress finished : Progress}
    (length_eq : counters.length = dimensions.length)
    (checked : lowered.checkBlock surroundings progress
      (nested (counters.zip dimensions) body) = .ok finished) :
    (∀ register ∈ body.flatMap fun instruction => (Step.perform instruction).writes,
      register.index < lowered.registerCount) ∧
      ∀ counter ∈ counters, counter.index < lowered.loopVariableCount := by
  obtain ⟨-, apart, inner, done, inner_checked, -⟩ := Function.checkBlock_nested checked
  rw [Function.map_fst_zip length_eq] at apart
  refine ⟨fun register member => ?_, fun counter member => (apart counter member).2⟩
  obtain ⟨instruction, instruction_mem, writes⟩ := List.mem_flatMap.mp member
  exact index_lt_of_writes inner_checked instruction_mem writes

/-- The registers and loop variables that accepted instructions were given exist. -/
theorem Lowers.below (lowers : Lowers source operation before after block)
    {surroundings : Surroundings} {progress finished : Progress}
    (checked : lowered.checkBlock surroundings progress block = .ok finished) :
    (∀ register ∈ before.nextRegister.following (registersFor operation.kind),
      register.index < lowered.registerCount) ∧
      ∀ counter ∈ before.nextLoopVariable.following (countersFor source operation),
        counter.index < lowered.loopVariableCount := by
  cases lowers with
  | constant kind_eq | reshape kind_eq | cast kind_eq | print kind_eq | leave kind_eq =>
      rw [countersFor, kind_eq]
      exact ⟨fun _ member => (List.not_mem_nil member).elim,
        fun _ member => (List.not_mem_nil member).elim⟩
  | @combination operator _ _ _ _ _ _ _ kind_eq _ _ new counters_eq registers_eq =>
      obtain ⟨registers, counters⟩ := below_of_nested (following_length counters_eq) checked
      rw [countersFor, kind_eq, new.resultRank_eq]
      subst counters_eq
      cases operator with
      | add => exact ⟨registers_eq ▸ registers, counters⟩
      | multiply => exact ⟨registers_eq ▸ registers, counters⟩
  | matmul kind_eq _ _ _ new counters_eq _ product_eq registers_eq =>
      obtain ⟨_, clear, sum⟩ := Function.checkBlock_append_eq_ok checked
      obtain ⟨-, counters⟩ := below_of_nested (following_length counters_eq) clear
      obtain ⟨registers, others⟩ := below_of_nested rfl sum
      rw [countersFor, kind_eq, new.resultRank_eq]
      refine ⟨registers_eq ▸ registers, fun counter member => ?_⟩
      rw [← Handle.following_append, ← counters_eq, ← product_eq] at member
      exact (List.mem_append.mp member).elim (counters counter) (others counter)
  | transpose kind_eq _ new counters_eq register_eq =>
      obtain ⟨registers, counters⟩ := below_of_nested (following_length counters_eq) checked
      rw [countersFor, kind_eq, new.resultRank_eq]
      subst counters_eq register_eq
      exact ⟨registers, counters⟩

/-- What lowering asks of operations. -/
structure Legal (source : Dataflow.Function) (code : List Dataflow.Operation) : Prop where
  /-- Nothing is returned. -/
  returns_nothing : ∀ operation ∈ code, operation.kind.isLeave = true → operation.operands = []
  /-- Right operands of matrix products are square. -/
  square : ∀ operation ∈ code, SquareRight source operation
  /-- There are enough registers. -/
  registers : (code.map fun operation => registersFor operation.kind).sum < Handle.wordSize
  /-- There are enough loop variables. -/
  counters : (code.map (countersFor source)).sum < Handle.wordSize

namespace LowersAll

theorem returns_nothing (lowers : LowersAll source code before after block) :
    ∀ operation ∈ code, operation.kind.isLeave = true → operation.operands = [] := by
  induction lowers with
  | nil => simp
  | cons returns_nothing _ _ induction =>
      exact List.forall_mem_cons.mpr ⟨returns_nothing, induction⟩

/-- Registers and loop variables are given out as all operations need them. -/
theorem skips (lowers : LowersAll source code before after block) :
    after.nextRegister =
        before.nextRegister.skip (code.map fun operation => registersFor operation.kind).sum ∧
      after.nextLoopVariable =
        before.nextLoopVariable.skip (code.map (countersFor source)).sum := by
  induction lowers with
  | nil => exact ⟨rfl, rfl⟩
  | cons _ first _ induction =>
      obtain ⟨next_register, next_counter⟩ := first.counts
      rw [List.map_cons, List.sum_cons, List.map_cons, List.sum_cons, ← Handle.skip_skip,
        ← Handle.skip_skip, ← next_register, ← next_counter]
      exact induction

theorem all_below (lowers : LowersAll source code before after block) {progress finished : Progress}
    (checked : lowered.checkBlock .outside progress block = .ok finished) :
    (∀ register ∈ before.nextRegister.following
        (code.map fun operation => registersFor operation.kind).sum,
      register.index < lowered.registerCount) ∧
      ∀ counter ∈ before.nextLoopVariable.following (code.map (countersFor source)).sum,
        counter.index < lowered.loopVariableCount := by
  induction lowers generalizing progress with
  | nil => exact ⟨by simp [Handle.following], by simp [Handle.following]⟩
  | cons _ first _ induction =>
      obtain ⟨_, first_checked, rest_checked⟩ := Function.checkBlock_append_eq_ok checked
      obtain ⟨few_registers, few_counters⟩ := first.below first_checked
      obtain ⟨later_registers, later_counters⟩ := induction rest_checked
      obtain ⟨next_register, next_counter⟩ := first.counts
      rw [List.map_cons, List.sum_cons, List.map_cons, List.sum_cons, ← Handle.following_append,
        ← Handle.following_append, ← next_register, ← next_counter]
      exact ⟨List.forall_mem_append.mpr ⟨few_registers, later_registers⟩,
        List.forall_mem_append.mpr ⟨few_counters, later_counters⟩⟩

end LowersAll

/-! ### Reductions -/

section Reductions

variable {alike : Dataflow.OperationKind → Dataflow.OperationKind → Prop}
variable {function changed : Dataflow.Function} {spot : function.Spot}
variable {replacement : Dataflow.Replacement}

/-- New operations need neither registers nor loop variables, and they are no matrix products. -/
theorem free_of_replaceable (replaceable : spot.Replaceable alike replacement)
    (new : operation ∈ replacement.operations function spot.operation.location) :
    registersFor operation.kind = 0 ∧ (∀ other, countersFor other operation = 0) ∧
      operation.kind ≠ .matmul ∧ operation.kind.isLeave = false := by
  cases replaceable with
  | unread | reshape | cast | equal => cases new
  | constant | reshapes =>
      obtain rfl := List.mem_singleton.mp new
      exact ⟨rfl, fun _ => rfl, (fun same => by cases same), rfl⟩

/-- Loop variables are counted by the types of results, which stay. -/
theorem countersFor_congr {other : Dataflow.Operation} (kind_eq : other.kind = operation.kind)
    (results_eq : other.results = operation.results)
    (types : ∀ result ∈ operation.results,
      changed.values.get? result = function.values.get? result) :
    countersFor changed other = countersFor function operation := by
  have rank_eq : resultRank changed other = resultRank function operation := by
    rw [resultRank, resultRank, results_eq]
    cases head_eq : operation.results.head? with
    | none => rfl
    | some result =>
        rw [Option.bind_some, Option.bind_some, Dataflow.Function.knownShape?,
          Dataflow.Function.knownShape?, types result (List.mem_of_mem_head? head_eq)]
  rw [countersFor, countersFor, kind_eq, rank_eq]

/-- What operations cost together does not grow if new operations cost nothing. -/
theorem sum_le_of_replaced {cost costAfter : Dataflow.Operation → Nat}
    (replaced : spot.Replaced replacement changed)
    (front : ∀ operation ∈ spot.front, costAfter operation = cost operation)
    (new : ∀ operation ∈ replacement.operations function spot.operation.location,
      costAfter operation = 0)
    (back : ∀ operation ∈ spot.back, costAfter
      (operation.redirected spot.result (replacement.target function)) = cost operation) :
    (changed.code.map costAfter).sum ≤ (function.code.map cost).sum := by
  have nothing :
      ((replacement.operations function spot.operation.location).map costAfter).sum = 0 := by
    cases replacement with
    | value id => rfl
    | made kind operands type => exact new _ (List.mem_singleton_self _)
  have front_eq := List.map_congr_left front
  have back_eq : spot.back.map (costAfter ∘
      Dataflow.Operation.redirected spot.result (replacement.target function)) =
        spot.back.map cost := List.map_congr_left back
  rw [replaced.code_eq, spot.code_eq, List.map_append, List.map_append, List.map_append,
    List.map_cons, List.sum_append, List.sum_append, List.sum_append, List.sum_cons, nothing,
    front_eq, List.map_map, back_eq]
  omega

/-- Reductions keep a function legal. -/
theorem Legal.reduction (reduction : Dataflow.Reduction alike function changed)
    (verified : function.Verified) (typed : function.Typed)
    (legal : Legal function function.code) : Legal changed changed.code := by
  obtain ⟨spot, replacement, replaceable, replaced⟩ := reduction
  have kept : ∀ operation ∈ function.code, ∀ result ∈ operation.results,
      changed.values.get? result = function.values.get? result :=
    fun operation member result defines =>
      replaced.extension.values result (verified.lt_size_of_result member defines)
  refine ⟨fun operation member leaves => ?_, fun operation member is_matmul value value_eq => ?_,
    Nat.lt_of_le_of_lt ?_ legal.registers, Nat.lt_of_le_of_lt ?_ legal.counters⟩
  · rcases replaced.mem_code member with earlier | new | ⟨before, before_mem, rfl⟩
    · exact legal.returns_nothing operation (spot.front_subset earlier) leaves
    · obtain ⟨-, -, -, proceeds⟩ := free_of_replaceable replaceable new
      rw [proceeds] at leaves
      cases leaves
    · exact List.map_eq_nil_iff.mpr
        (legal.returns_nothing before (spot.back_subset before_mem) leaves)
  · rcases replaced.mem_code member with earlier | new | ⟨before, before_mem, rfl⟩
    · have old := spot.front_subset earlier
      obtain ⟨side, type_eq⟩ := legal.square operation old is_matmul value value_eq
      exact ⟨side, (replaced.extension.typeOf (verified.lt_size_of_operand old
        (List.mem_of_getElem? value_eq))).trans type_eq⟩
    · obtain ⟨-, -, no_matmul, -⟩ := free_of_replaceable replaceable new
      exact absurd is_matmul no_matmul
    · have old := spot.back_subset before_mem
      obtain ⟨operand, operand_eq, rfl⟩ :=
        Option.map_eq_some_iff.mp (List.getElem?_map.symm.trans value_eq)
      obtain ⟨side, type_eq⟩ := legal.square before old is_matmul operand operand_eq
      exact ⟨side, (replaceable.typeOf_redirect replaced verified typed
        (verified.lt_size_of_operand old (List.mem_of_getElem? operand_eq))).trans type_eq⟩
  · exact sum_le_of_replaced replaced (fun _ _ => rfl)
      (fun operation new => (free_of_replaceable replaceable new).1)
      fun _ _ => rfl
  · exact sum_le_of_replaced replaced
      (fun operation member =>
        countersFor_congr rfl rfl (kept operation (spot.front_subset member)))
      (fun operation new => (free_of_replaceable replaceable new).2.1 changed)
      fun operation member => countersFor_congr rfl rfl (kept operation (spot.back_subset member))

theorem Legal.reduces {count : Nat} (reduces : Dataflow.Reduces alike count function changed)
    (verified : function.Verified) (typed : function.Typed)
    (legal : Legal function function.code) : Legal changed changed.code := by
  have each : ∀ before after : Dataflow.Function, Dataflow.Reduction alike before after →
      before.Verified ∧ before.Typed ∧ Legal before before.code →
      after.Verified ∧ after.Typed ∧ Legal after after.code := by
    rintro before after first ⟨verified, typed, legal⟩
    exact ⟨(Dataflow.Reduces.single first).verified verified, typed.reduction first verified,
      legal.reduction first verified typed⟩
  exact (reduces.keeps each ⟨verified, typed, legal⟩).2.2

end Reductions

end Lowering

open Lowering

/-- A function that is lowered and verified is legal. -/
theorem Function.legal_ofDataflow {source : Dataflow.Function} {lowered : Function}
    (wellFormed : source.WellFormed) (proper : source.Proper) (typed : source.Typed)
    (no_arguments : source.arguments = []) (lowering : Function.ofDataflow source = .ok lowered)
    (verified : lowered.verify = .ok ()) : Legal source source.code := by
  obtain ⟨body, after, lowers, buffers_eq, registers_eq, counters_eq, -, body_eq⟩ :=
    ofDataflow_eq_ok wellFormed lowering
  obtain ⟨progress, checked, -⟩ := verify_eq_ok verified
  rw [body_eq] at checked
  obtain ⟨_, checked, -⟩ := checkBlock_append_eq_ok checked
  obtain ⟨_, checked, -⟩ := checkBlock_append_eq_ok checked
  obtain ⟨_, -, checked⟩ := checkBlock_append_eq_ok checked
  have kept : ∀ id found, after.buffers.get? id = some found →
      lowered.buffers.get? id = some found := fun id found found_eq => by rw [buffers_eq, found_eq]
  have start : Fits source source.arguments .start := no_arguments ▸ Fits.start source
  have square := lowers.square kept start proper typed wellFormed.dominated checked
  have fits := lowers.fits start proper typed wellFormed.dominated square
  obtain ⟨few_registers, few_counters⟩ := lowers.all_below checked
  obtain ⟨last_register, last_counter⟩ := lowers.skips
  have register_eq := Handle.index_skip_of_below (registers_eq ▸ fits.registers) few_registers
  have counter_eq := Handle.index_skip_of_below (counters_eq ▸ fits.counters) few_counters
  rw [← last_register] at register_eq
  rw [← last_counter] at counter_eq
  exact ⟨lowers.returns_nothing, square,
    Nat.lt_of_le_of_lt (Nat.le_add_left _ _) (register_eq ▸ fits.registers),
    Nat.lt_of_le_of_lt (Nat.le_add_left _ _) (counter_eq ▸ fits.counters)⟩

end Loop

end TensorLang
