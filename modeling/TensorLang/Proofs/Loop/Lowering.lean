import TensorLang.Proofs.Dataflow.WellFormed
import TensorLang.Proofs.Loop.OpenBodies

/-!
# What lowering produces

The instructions of an operation are related to the operation by cases on its kind.  The relation
names the buffers, loop variables and registers that the instructions use, so that what they do can
be shown without looking at how they were put together.
-/

namespace TensorLang

namespace Loop

namespace Lowering

variable {source : Dataflow.Function} {operation : Dataflow.Operation}
variable {before after : Allocation}

theorem nest_eq_ok {dimensions : List Nat} {body : List Index → Lowering (List Instruction)}
    {block : List Instruction} (success : nest source dimensions body before = .ok (block, after)) :
    ∃ (counters : List LoopVariableId) (inner : List Instruction),
      counters = before.nextLoopVariable.following dimensions.length ∧
      body (counters.map .loopVariable) (counting before 0 dimensions.length) =
        .ok (inner, after) ∧
      block = nested (counters.zip dimensions) inner := by
  simp only [nest_eq, StateT.bind_eq_ok_iff, StateT.pure_eq_ok_iff, Prod.mk.injEq,
    freshLoopVariables_eq, Except.ok.injEq] at success
  obtain ⟨_, _, ⟨rfl, rfl⟩, inner, _, inner_eq, rfl, rfl⟩ := success
  exact ⟨_, inner, rfl, inner_eq, rfl⟩

theorem combine_eq_ok {operator : Arithmetic} {left right buffer : BufferId}
    {indices : List Index} {block : List Instruction}
    (success : combine operator left right buffer indices before = .ok (block, after)) :
    after = counting before 3 0 ∧ ∃ first second result,
      [first, second, result] = before.nextRegister.following 3 ∧
      block = [.load first left indices, .load second right indices,
        .arithmetic operator result (.register first) (.register second),
        .store (.register result) buffer indices] := by
  obtain ⟨rfl, rfl⟩ := Prod.mk.inj (Except.ok.inj success)
  exact ⟨rfl, _, _, _, rfl, rfl⟩

theorem accumulate_eq_ok {left right buffer : BufferId} {row column inner : Index}
    {block : List Instruction}
    (success : accumulate left right buffer row column inner before = .ok (block, after)) :
    after = counting before 5 0 ∧ ∃ first second third product result,
      [first, second, third, product, result] = before.nextRegister.following 5 ∧
      block = [.load first left [row, inner], .load second right [column, inner],
        .load third buffer [row, column],
        .arithmetic .multiply product (.register first) (.register second),
        .arithmetic .add result (.register third) (.register product),
        .store (.register result) buffer [row, column]] := by
  obtain ⟨rfl, rfl⟩ := Prod.mk.inj (Except.ok.inj success)
  exact ⟨rfl, _, _, _, _, _, rfl, rfl⟩

theorem rankedShape_eq_ok {value : Dataflow.ValueId} {shape : Shape}
    (success : rankedShape source value = .ok shape) :
    source.typeOf value = .ok (.ranked shape) := by
  simp only [rankedShape, Except.bind_eq_ok_iff] at success
  obtain ⟨type, type_eq, success⟩ := success
  cases type with
  | ranked known =>
      obtain rfl := Except.pure_eq_ok_iff.mp success
      exact type_eq
  | unranked => cases success

theorem bufferHolding_eq_ok {value : Dataflow.ValueId} {buffer : BufferId}
    (success : bufferHolding source value before = .ok (buffer, after)) :
    before.bufferOf[value.index]? = some buffer ∧ before = after := by
  simp only [bufferHolding, StateT.bind_eq_ok_iff, StateT.get_eq_ok_iff, Prod.mk.injEq] at success
  obtain ⟨_, _, ⟨rfl, rfl⟩, success⟩ := success
  cases found : before.bufferOf[value.index]? with
  | some known =>
      rw [found] at success
      obtain ⟨rfl, rfl⟩ := Prod.mk.inj (StateT.pure_eq_ok_iff.mp success)
      exact ⟨rfl, rfl⟩
  | none =>
      rw [found] at success
      cases success

/-- The only result of an operation has got a new buffer, and registers and loop variables have been
given out. -/
structure NewBuffer (source : Dataflow.Function) (operation : Dataflow.Operation)
    (shape : Shape) (before after : Allocation) (registers counters : Nat) : Prop where
  /-- The result. -/
  result : ∃ result, operation.results = [result] ∧
    source.typeOf result = .ok (.ranked shape) ∧
    after.bufferOf = before.bufferOf.insert result.index before.buffers.nextId
  /-- The buffer. -/
  buffers : after.buffers = before.buffers.push ⟨shape, operation.location⟩
  /-- The registers. -/
  registers : after.nextRegister = before.nextRegister.skip registers
  /-- The loop variables. -/
  counters : after.nextLoopVariable = before.nextLoopVariable.skip counters

theorem NewBuffer.counting {shape : Shape} {middle : Allocation}
    (new : NewBuffer source operation shape before middle 0 0) {registers counters : Nat}
    (buffers_eq : after.buffers = middle.buffers) (bufferOf_eq : after.bufferOf = middle.bufferOf)
    (registers_eq : after.nextRegister = middle.nextRegister.skip registers)
    (counters_eq : after.nextLoopVariable = middle.nextLoopVariable.skip counters) :
    NewBuffer source operation shape before after registers counters where
  result := by rw [bufferOf_eq]; exact new.result
  buffers := buffers_eq.trans new.buffers
  registers := by rw [registers_eq, new.registers]; rfl
  counters := by rw [counters_eq, new.counters]; rfl

theorem newBuffer_eq_ok {buffer : BufferId} {shape : Shape}
    (success : newBuffer source operation before = .ok ((buffer, shape), after)) :
    buffer = before.buffers.nextId ∧ NewBuffer source operation shape before after 0 0 := by
  simp only [newBuffer, bind, StateT.bind_eq_ok_iff, StateT.get_eq_ok_iff, StateT.set_eq_ok_iff,
    StateT.lift_eq_ok_iff, StateT.pure_eq_ok_iff, StateT.modify_eq_ok_iff] at success
  obtain ⟨result, _, ⟨_, result_eq, ⟨⟩⟩, known, _, ⟨_, shape_eq, ⟨⟩⟩, _, _, ⟨⟩, _, _, ⟨⟩, _, _, ⟨⟩,
    ⟨⟩⟩ := success
  exact ⟨rfl, ⟨result, Dataflow.Operation.result_eq_ok_iff.mp result_eq,
    rankedShape_eq_ok shape_eq, rfl⟩, rfl, rfl, rfl⟩

/-- The operation reads a value from a buffer. -/
structure Operand (operation : Dataflow.Operation) (before : Allocation) (position : Nat)
    (buffer : BufferId) : Prop where
  /-- The value is an operand of the operation and lives in the buffer. -/
  lives : ∃ value, operation.operands[position]? = some value ∧
    before.bufferOf[value.index]? = some buffer

/-- What lowering does with an operation, by the kind of the operation. -/
inductive Lowers (source : Dataflow.Function) (operation : Dataflow.Operation)
    (before after : Allocation) : List Instruction → Prop
  | constant {literal : TensorLiteral} {shape : Shape} {block : List Instruction}
      (kind_eq : operation.kind = .constant literal)
      (new : NewBuffer source operation shape before after 0 0)
      (block_eq : storeLiteral before.buffers.nextId shape literal.values = .ok block) :
      Lowers source operation before after block
  | combination {operator : Arithmetic} {left right : BufferId} {shape : Shape}
      {counters : List LoopVariableId} {first second result : RegisterId}
      (kind_eq : operation.kind =
        match operator with
        | .add => .add
        | .multiply => .multiply)
      (left_lives : Operand operation before 0 left)
      (right_lives : Operand operation before 1 right)
      (new : NewBuffer source operation shape before after 3 shape.rank)
      (counters_eq : counters = before.nextLoopVariable.following shape.rank)
      (registers_eq : [first, second, result] = before.nextRegister.following 3) :
      Lowers source operation before after (nested (counters.zip shape.dimensions)
        [.load first left (counters.map .loopVariable),
          .load second right (counters.map .loopVariable),
          .arithmetic operator result (.register first) (.register second),
          .store (.register result) before.buffers.nextId (counters.map .loopVariable)])
  | matmul {left right : BufferId} {shape : Shape} {rows columns inner : Nat}
      {counters : List LoopVariableId} {row column position : LoopVariableId}
      {first second third product result : RegisterId}
      (kind_eq : operation.kind = .matmul)
      (left_lives : Operand operation before 0 left)
      (right_lives : Operand operation before 1 right)
      (left_shape : ∃ value leftShape, operation.operands[0]? = some value ∧
        source.typeOf value = .ok (.ranked leftShape) ∧
        leftShape.dimensions[1]? = some inner)
      (new : NewBuffer source operation shape before after 5 (shape.rank + 3))
      (counters_eq : counters = before.nextLoopVariable.following shape.rank)
      (dimensions_eq : ∃ others, shape.dimensions = rows :: columns :: others)
      (product_eq : [row, column, position] =
        (before.nextLoopVariable.skip shape.rank).following 3)
      (registers_eq :
        [first, second, third, product, result] = before.nextRegister.following 5) :
      Lowers source operation before after
        (nested (counters.zip shape.dimensions)
            [.store (.immediate 0) before.buffers.nextId (counters.map .loopVariable)] ++
          nested ([row, column, position].zip [rows, columns, inner])
            [.load first left [.loopVariable row, .loopVariable position],
              .load second right [.loopVariable column, .loopVariable position],
              .load third before.buffers.nextId [.loopVariable row, .loopVariable column],
              .arithmetic .multiply product (.register first) (.register second),
              .arithmetic .add result (.register third) (.register product),
              .store (.register result) before.buffers.nextId
                [.loopVariable row, .loopVariable column]])
  | transpose {operand : BufferId} {shape : Shape} {counters : List LoopVariableId}
      {register : RegisterId}
      (kind_eq : operation.kind = .transpose)
      (lives : Operand operation before 0 operand)
      (new : NewBuffer source operation shape before after 1 shape.rank)
      (counters_eq : counters = before.nextLoopVariable.following shape.rank)
      (register_eq : register = before.nextRegister) :
      Lowers source operation before after (nested (counters.zip shape.dimensions)
        [.load register operand (counters.map Index.loopVariable).reverse,
          .store (.register register) before.buffers.nextId (counters.map .loopVariable)])
  | reshape {target shape : Shape} {operand : BufferId}
      (kind_eq : operation.kind = .reshape target)
      (lives : Operand operation before 0 operand)
      (new : NewBuffer source operation shape before after 0 0) :
      Lowers source operation before after [.copy operand before.buffers.nextId]
  | cast {operand : BufferId} {result : Dataflow.ValueId}
      (kind_eq : operation.kind = .cast)
      (lives : Operand operation before 0 operand)
      (results_eq : operation.results = [result])
      (after_eq : after =
        { before with bufferOf := before.bufferOf.insert result.index operand }) :
      Lowers source operation before after []
  | print {operand : BufferId}
      (kind_eq : operation.kind = .print)
      (lives : Operand operation before 0 operand)
      (after_eq : after = before) :
      Lowers source operation before after [.print operand]
  | leave (kind_eq : operation.kind = .leave) (after_eq : after = before) :
      Lowers source operation before after []

theorem operand_eq_ok {position : Nat} {value : Dataflow.ValueId} {buffer : BufferId}
    (value_eq : operation.operand position = .ok value)
    (found : before.bufferOf[value.index]? = some buffer) :
    Operand operation before position buffer :=
  ⟨value, Outcome.promised_eq_ok_iff.mp value_eq, found⟩

theorem ofCombination_eq_ok (operator : Arithmetic) {block : List Instruction}
    (kind_eq : operation.kind =
      match operator with
      | .add => .add
      | .multiply => .multiply)
    (success : ofCombination source operation operator before = .ok (block, after)) :
    Lowers source operation before after block := by
  simp only [ofCombination, StateT.bind_eq_ok_iff, StateT.lift_eq_ok_iff] at success
  obtain ⟨_, _, ⟨_, left_eq, ⟨⟩⟩, left, _, left_found, _, _, ⟨_, right_eq, ⟨⟩⟩, right, _,
    right_found, ⟨buffer, shape⟩, middle, made, nest_eq⟩ := success
  obtain ⟨left_held, rfl⟩ := bufferHolding_eq_ok left_found
  obtain ⟨right_held, rfl⟩ := bufferHolding_eq_ok right_found
  obtain ⟨rfl, new⟩ := newBuffer_eq_ok made
  obtain ⟨counters, inner, counters_eq, inner_eq, rfl⟩ := nest_eq_ok nest_eq
  obtain ⟨rfl, first, second, result, registers_eq, rfl⟩ := combine_eq_ok inner_eq
  exact .combination kind_eq (operand_eq_ok left_eq left_held)
    (operand_eq_ok right_eq right_held) (new.counting rfl rfl rfl rfl)
    (counters_eq.trans (congrArg (Handle.following · _) new.counters))
    (registers_eq.trans (congrArg (Handle.following · 3) new.registers))

private theorem ofMatmul_eq_ok {block : List Instruction} (kind_eq : operation.kind = .matmul)
    (success : ofMatmul source operation before = .ok (block, after)) :
    Lowers source operation before after block := by
  simp only [ofMatmul, StateT.bind_eq_ok_iff, StateT.lift_eq_ok_iff] at success
  obtain ⟨leftValue, _, ⟨_, left_eq, ⟨⟩⟩, left, _, left_found, _, _, ⟨_, right_eq, ⟨⟩⟩, right, _,
    right_found, leftShape, _, ⟨_, shape_eq, ⟨⟩⟩, inner, _, ⟨_, inner_eq, ⟨⟩⟩, ⟨buffer, shape⟩,
    made, made_eq, clear, cleared, clear_eq, success⟩ := success
  obtain ⟨left_held, rfl⟩ := bufferHolding_eq_ok left_found
  obtain ⟨right_held, rfl⟩ := bufferHolding_eq_ok right_found
  obtain ⟨rfl, new⟩ := newBuffer_eq_ok made_eq
  obtain ⟨counters, _, counters_eq, zeros_eq, clear_nested⟩ := nest_eq_ok clear_eq
  obtain ⟨rfl, rfl⟩ := Prod.mk.inj (StateT.pure_eq_ok_iff.mp zeros_eq)
  rcases dimensions_eq : shape.dimensions with _ | ⟨rows, _ | ⟨columns, others⟩⟩
  · simp only [dimensions_eq] at success
    cases success
  · simp only [dimensions_eq] at success
    cases success
  · simp only [dimensions_eq, StateT.bind_eq_ok_iff, StateT.pure_eq_ok_iff,
      Prod.mk.injEq] at success
    obtain ⟨sum, _, sum_eq, rfl, rfl⟩ := success
    obtain ⟨_, product, rfl, product_eq, rfl⟩ := nest_eq_ok sum_eq
    obtain ⟨rfl, first, second, third, product, result, registers_eq, rfl⟩ :=
      accumulate_eq_ok product_eq
    subst clear_nested
    have rank_eq : (rows :: columns :: others).length = shape.rank := by
      rw [Shape.rank, dimensions_eq]
    have next_eq : (counting made 0 (rows :: columns :: others).length).nextLoopVariable =
        before.nextLoopVariable.skip shape.rank := by
      rw [rank_eq]
      exact congrArg (Handle.skip · shape.rank) new.counters
    exact .matmul kind_eq (operand_eq_ok left_eq left_held)
      (operand_eq_ok right_eq right_held)
      ⟨leftValue, leftShape, Outcome.promised_eq_ok_iff.mp left_eq,
        rankedShape_eq_ok shape_eq, Outcome.promised_eq_ok_iff.mp inner_eq⟩
      (new.counting rfl rfl rfl (by rw [← rank_eq]; exact made.nextLoopVariable.skip_skip _ 3))
      (counters_eq.trans (congrArg (Handle.following · _) new.counters)) ⟨others, dimensions_eq⟩
      (congrArg (Handle.following · 3) next_eq)
      (registers_eq.trans (congrArg (Handle.following · 5) new.registers))

private theorem ofTranspose_eq_ok {block : List Instruction} (kind_eq : operation.kind = .transpose)
    (success : ofTranspose source operation before = .ok (block, after)) :
    Lowers source operation before after block := by
  simp only [ofTranspose, StateT.bind_eq_ok_iff, StateT.lift_eq_ok_iff] at success
  obtain ⟨_, _, ⟨_, value_eq, ⟨⟩⟩, operand, _, found, ⟨buffer, shape⟩, middle, made, nest_eq⟩ :=
    success
  obtain ⟨held, rfl⟩ := bufferHolding_eq_ok found
  obtain ⟨rfl, new⟩ := newBuffer_eq_ok made
  obtain ⟨counters, inner, counters_eq, inner_eq, rfl⟩ := nest_eq_ok nest_eq
  obtain ⟨rfl, rfl⟩ := Prod.mk.inj (Except.ok.inj inner_eq)
  exact .transpose kind_eq (operand_eq_ok value_eq held) (new.counting rfl rfl rfl rfl)
    (counters_eq.trans (congrArg (Handle.following · _) new.counters)) new.registers

theorem ofOperation_eq_ok {block : List Instruction}
    (success : ofOperation source operation before = .ok (block, after)) :
    Lowers source operation before after block := by
  cases kind_eq : operation.kind with
  | constant literal =>
      simp only [ofOperation, kind_eq, StateT.bind_eq_ok_iff, StateT.lift_eq_ok_iff] at success
      obtain ⟨⟨buffer, shape⟩, _, made, _, block_eq, ⟨⟩⟩ := success
      obtain ⟨rfl, new⟩ := newBuffer_eq_ok made
      exact .constant kind_eq new block_eq
  | add =>
      simp only [ofOperation, kind_eq] at success
      exact ofCombination_eq_ok .add kind_eq success
  | multiply =>
      simp only [ofOperation, kind_eq] at success
      exact ofCombination_eq_ok .multiply kind_eq success
  | matmul =>
      simp only [ofOperation, kind_eq] at success
      exact ofMatmul_eq_ok kind_eq success
  | transpose =>
      simp only [ofOperation, kind_eq] at success
      exact ofTranspose_eq_ok kind_eq success
  | reshape target =>
      simp only [ofOperation, kind_eq, StateT.bind_eq_ok_iff, StateT.lift_eq_ok_iff,
        StateT.pure_eq_ok_iff] at success
      obtain ⟨_, _, ⟨_, value_eq, ⟨⟩⟩, operand, _, found, ⟨buffer, shape⟩, _, made, ⟨⟩⟩ :=
        success
      obtain ⟨held, rfl⟩ := bufferHolding_eq_ok found
      obtain ⟨rfl, new⟩ := newBuffer_eq_ok made
      exact .reshape kind_eq (operand_eq_ok value_eq held) new
  | cast =>
      simp only [ofOperation, kind_eq, bind, StateT.bind_eq_ok_iff, StateT.lift_eq_ok_iff,
        StateT.pure_eq_ok_iff, StateT.modify_eq_ok_iff] at success
      obtain ⟨_, _, ⟨_, value_eq, ⟨⟩⟩, operand, _, found, result, _, ⟨_, result_eq, ⟨⟩⟩, _, _,
        ⟨⟩, ⟨⟩⟩ := success
      obtain ⟨held, rfl⟩ := bufferHolding_eq_ok found
      exact .cast kind_eq (operand_eq_ok value_eq held)
        (Dataflow.Operation.result_eq_ok_iff.mp result_eq) rfl
  | print =>
      simp only [ofOperation, kind_eq, StateT.bind_eq_ok_iff, StateT.lift_eq_ok_iff,
        StateT.pure_eq_ok_iff] at success
      obtain ⟨_, _, ⟨_, value_eq, ⟨⟩⟩, operand, _, found, ⟨⟩⟩ := success
      obtain ⟨held, rfl⟩ := bufferHolding_eq_ok found
      exact .print kind_eq (operand_eq_ok value_eq held) rfl
  | leave =>
      simp only [ofOperation, kind_eq, StateT.pure_eq_ok_iff, Prod.mk.injEq] at success
      obtain ⟨rfl, rfl⟩ := success
      exact .leave kind_eq rfl
  | call callee =>
      simp only [ofOperation, kind_eq] at success
      cases success

end Lowering

end Loop

end TensorLang
