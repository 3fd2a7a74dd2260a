import TensorLang.Proofs.Loop.Capacity
import TensorLang.Proofs.Loop.Computations

/-!
# Lowering preserves meaning

While the instructions of an operation run, the buffer of each value that is available holds its
tensor.  The instructions of an operation fill the buffer of its result, which no other value has,
with the tensor that the operation gives; a cast lets its result share a buffer that is never
written again.  So the lines that are printed show the tensors of the operands of the print
operations.
-/

namespace TensorLang

namespace Loop

open RunState

/-- Every available value has a tensor, and its buffer holds it; and all buffers are ready. -/
structure Simulates (source : Dataflow.Function) (lowered : Function)
    (available : List Dataflow.ValueId) (allocation : Allocation)
    (environment : Dataflow.Environment) (state : RunState) : Prop where
  /-- The buffer of a value holds its tensor. -/
  held : ∀ id ∈ available, ∃ buffer tensor, allocation.bufferOf[id.index]? = some buffer ∧
    buffer.index < allocation.buffers.size ∧ environment id = some tensor ∧
    source.typeOf id = .ok (.ranked tensor.shape) ∧ Holds lowered state buffer tensor
  /-- Every buffer is ready and has the elements of its shape. -/
  live : ∀ buffer found, lowered.buffers.get? buffer = some found →
    ∃ cells, state.elements? buffer = some cells ∧ cells.size = found.shape.size

namespace Lowering

variable {source : Dataflow.Function} {lowered : Function} {operation : Dataflow.Operation}
variable {available : List Dataflow.ValueId} {before after : Allocation}
variable {environment : Dataflow.Environment} {state final : RunState}
variable {shape : Shape} {shapes : List Shape} {resolution : Dataflow.Resolution}
variable {given taken : Nat}

theorem define_singleton (id other : Dataflow.ValueId) (value : Option Tensor) :
    environment.define [id] [value] other = if other = id then value else environment other := by
  by_cases same : other = id
  · subst same
    have first : [other][0]? = some other := rfl
    rw [Dataflow.Environment.define_of_getElem? (by simp) first, if_pos rfl]
    rfl
  · rw [Dataflow.Environment.define_of_notMem (by simpa using same), if_neg same]

/-- The tensor of an operand, which is not in the next buffer. -/
theorem Operand.tensor {position : Nat} {buffer : BufferId}
    (lives : Operand operation before position buffer)
    (simulates : Simulates source lowered available before environment state)
    (typed : operation.Typed source shapes resolution)
    (dominated : ∀ operand ∈ operation.operands, operand ∈ available) :
    ∃ value tensor, operation.operands[position]? = some value ∧
      environment value = some tensor ∧ shapes[position]? = some tensor.shape ∧
      Holds lowered state buffer tensor ∧ buffer ≠ before.buffers.nextId := by
  obtain ⟨value, value_eq, found⟩ := lives.lives
  obtain ⟨known, tensor, known_eq, inside, tensor_eq, type_eq, holds⟩ :=
    simulates.held value (dominated value (List.mem_of_getElem? value_eq))
  obtain rfl := Option.some.inj (found.symm.trans known_eq)
  obtain ⟨shape, shape_eq, operand_type⟩ := typed.typeOf_operand value_eq
  obtain ⟨⟩ := type_eq.symm.trans operand_type
  refine ⟨value, tensor, value_eq, tensor_eq, shape_eq, holds, ?_⟩
  rintro rfl
  exact Nat.lt_irrefl _ inside

variable (kept : ∀ id found, after.buffers.get? id = some found →
  lowered.buffers.get? id = some found)

include kept in
/-- The new buffer is one of the lowered function. -/
theorem NewBuffer.found (new : NewBuffer source operation shape before after given taken) :
    lowered.buffers.get? before.buffers.nextId = some ⟨shape, operation.location⟩ := by
  apply kept
  rw [new.buffers, Arena.get?_push, if_pos rfl]

omit kept in
/-- After the tensor of the result is computed, it is in the new buffer. -/
theorem NewBuffer.simulates (new : NewBuffer source operation shape before after given taken)
    (simulates : Simulates source lowered available before environment state)
    (fresh : ∀ id ∈ available, id ∉ operation.results) {tensor : Tensor}
    (shape_eq : tensor.shape = shape)
    (computed : Computed lowered before.buffers.nextId tensor state final) :
    Simulates source lowered (available ++ operation.results) after
      (environment.define operation.results [some tensor]) final := by
  obtain ⟨result, results_eq, type_eq, bufferOf_eq⟩ := new.result
  have size_eq : after.buffers.size = before.buffers.size + 1 := by
    rw [new.buffers, Arena.size_push]
  rw [results_eq] at fresh ⊢
  constructor
  · intro id member
    by_cases same : id = result
    · subst same
      refine ⟨_, tensor, ?_, ?_, ?_, ?_, computed.holds⟩
      · rw [bufferOf_eq, getElem?_insert_index, if_pos rfl]
      · rw [size_eq]
        exact Nat.lt_succ_self _
      · rw [define_singleton, if_pos rfl]
      · rw [type_eq, shape_eq]
    · have earlier := (List.mem_append.mp member).resolve_right (by simpa using same)
      obtain ⟨buffer, old, found, inside, old_eq, old_type, known, cells, known_eq, known_shape,
        cells_eq, values_eq⟩ := simulates.held id earlier
      have apart : buffer ≠ before.buffers.nextId := by
        rintro rfl
        exact Nat.lt_irrefl _ inside
      refine ⟨buffer, old, ?_, ?_, ?_, old_type, known, cells, known_eq, known_shape, ?_, values_eq⟩
      · rw [bufferOf_eq, getElem?_insert_index, if_neg same, found]
      · rw [size_eq]
        exact Nat.lt_succ_of_lt inside
      · rw [define_singleton, if_neg same, old_eq]
      · rw [computed.others buffer apart, cells_eq]
  · intro buffer found found_eq
    by_cases same : buffer = before.buffers.nextId
    · subst same
      obtain ⟨known, cells, known_eq, known_shape, cells_eq, values_eq⟩ := computed.holds
      obtain rfl := Option.some.inj (found_eq.symm.trans known_eq)
      refine ⟨cells, cells_eq, ?_⟩
      rw [← Cells.length_toList, values_eq, tensor.filled, known_shape]
    · rw [computed.others buffer same]
      exact simulates.live buffer found found_eq

/-- The instructions of the operation print what it prints, and go on simulating. -/
def Faithful (source : Dataflow.Function) (lowered : Function) (operation : Dataflow.Operation)
    (available : List Dataflow.ValueId) (after : Allocation) (environment : Dataflow.Environment)
    (state final : RunState) : Prop :=
  ∃ effects : Dataflow.Effects,
    (∀ calls, operation.kind.perform calls (operation.operands.map environment) = .ok effects) ∧
    final.output = state.output ++ linesOf effects.printed ∧
    Simulates source lowered (available ++ operation.results) after
      (environment.define operation.results effects.values) final

omit kept in
/-- An operation that gives a tensor is simulated by instructions that compute it. -/
theorem faithful_of_computed (new : NewBuffer source operation shape before after given taken)
    (simulates : Simulates source lowered available before environment state)
    (fresh : ∀ id ∈ available, id ∉ operation.results) {tensor : Tensor}
    (computed : Computed lowered before.buffers.nextId tensor state final)
    (shape_eq : tensor.shape = shape)
    (performs : ∀ calls, operation.kind.perform calls (operation.operands.map environment) =
      .ok ⟨[], [some tensor]⟩) :
    Faithful source lowered operation available after environment state final := by
  refine ⟨_, performs, ?_, new.simulates simulates fresh shape_eq computed⟩
  rw [computed.output]
  exact String.append_empty.symm

omit kept in
theorem operands_pair {left right : Dataflow.ValueId} {x y : Tensor} {first second : Shape}
    (typed : operation.Typed source [first, second] resolution)
    (left_eq : operation.operands[0]? = some left) (right_eq : operation.operands[1]? = some right)
    (x_eq : environment left = some x) (y_eq : environment right = some y) :
    operation.operands.map environment = [some x, some y] := by
  have length_eq := typed.length_operands
  match operation.operands, length_eq, left_eq, right_eq with
  | [_, _], _, left_eq, right_eq =>
      obtain rfl := Option.some.inj left_eq
      obtain rfl := Option.some.inj right_eq
      rw [List.map_cons, List.map_cons, x_eq, y_eq]
      rfl

omit kept in
theorem operands_single {operand : Dataflow.ValueId} {x : Tensor}
    (length_eq : operation.operands.length = 1)
    (operand_eq : operation.operands[0]? = some operand) (x_eq : environment operand = some x) :
    operation.operands.map environment = [some x] := by
  match operation.operands, length_eq, operand_eq with
  | [_], _, operand_eq =>
      obtain rfl := Option.some.inj operand_eq
      rw [List.map_cons, x_eq]
      rfl

section Kinds

variable (simulates : Simulates source lowered available before environment state)
variable (typed : operation.Typed source shapes resolution)
variable (dominated : ∀ operand ∈ operation.operands, operand ∈ available)
variable (fresh : ∀ id ∈ available, id ∉ operation.results)
variable {control : Control} {block : List Instruction} {counters : List LoopVariableId}

include kept simulates typed fresh

omit dominated in
theorem constant_faithful {literal : TensorLiteral}
    (kind_eq : operation.kind = .constant literal) (proper : operation.Proper)
    (new : NewBuffer source operation shape before after given taken)
    (block_eq : storeLiteral before.buffers.nextId shape literal.values = .ok block)
    (success : lowered.runBlock block state = .ok control final) :
    control = .proceed ∧
      Faithful source lowered operation available after environment state final := by
  have resolved := typed.resolved
  rw [kind_eq] at resolved
  have shape_eq := new.shape_eq typed (Dataflow.OperationKind.resolve_constant resolved)
  have found_eq := new.found kept
  obtain ⟨cells, cells_eq, size_eq⟩ := simulates.live _ _ found_eq
  obtain ⟨proceeds, computed⟩ := Function.runBlock_literal literal.toTensor
    found_eq shape_eq cells_eq size_eq block_eq success
  refine ⟨proceeds, faithful_of_computed new simulates fresh computed shape_eq.symm
    fun calls => ?_⟩
  have none_read : operation.operands = [] :=
    List.length_eq_zero_iff.mp (proper.operands 0 (by rw [kind_eq]; rfl))
  rw [kind_eq, none_read]
  rfl

include dominated

theorem combination_faithful {operator : Arithmetic} {left right : BufferId}
    {first second result : RegisterId}
    (kind_eq : operation.kind =
      match operator with
      | .add => .add
      | .multiply => .multiply)
    (left_lives : Operand operation before 0 left) (right_lives : Operand operation before 1 right)
    (new : NewBuffer source operation shape before after given taken)
    (length_eq : counters.length = shape.dimensions.length) (distinct : counters.Nodup)
    (apart : first ≠ second)
    (success : lowered.runBlock (nested (counters.zip shape.dimensions)
      [.load first left (counters.map .loopVariable),
        .load second right (counters.map .loopVariable),
        .arithmetic operator result (.register first) (.register second),
        .store (.register result) before.buffers.nextId (counters.map .loopVariable)]) state =
      .ok control final) :
    control = .proceed ∧
      Faithful source lowered operation available after environment state final := by
  have found_eq := new.found kept
  obtain ⟨cells, cells_eq, size_eq⟩ := simulates.live _ _ found_eq
  obtain ⟨_, x, left_eq, x_eq, x_shape, x_holds, left_apart⟩ :=
    left_lives.tensor simulates typed dominated
  obtain ⟨_, y, right_eq, y_eq, y_shape, y_holds, right_apart⟩ :=
    right_lives.tensor simulates typed dominated
  obtain ⟨proceeds, computed⟩ := Function.runBlock_combination ⟨shape, _⟩ apart
    length_eq distinct found_eq cells_eq size_eq left_apart right_apart x_holds y_holds success
  obtain ⟨rfl, -⟩ := new.shapes_of_combination typed kind_eq
  obtain rfl := Option.some.inj x_shape
  have same : x.shape = y.shape := Option.some.inj y_shape
  refine ⟨proceeds, faithful_of_computed new simulates fresh computed rfl fun calls => ?_⟩
  rw [operands_pair typed left_eq right_eq x_eq y_eq, kind_eq]
  cases operator with
  | add =>
      have combined : x.combine? (· + ·) y = some _ := if_pos same
      exact (Dataflow.OperationKind.perform_eq_ok_iff rfl).mpr ⟨[x, y], _, rfl, combined, rfl⟩
  | multiply =>
      have combined : x.combine? (· * ·) y = some _ := if_pos same
      exact (Dataflow.OperationKind.perform_eq_ok_iff rfl).mpr ⟨[x, y], _, rfl, combined, rfl⟩

theorem matmul_faithful {left right : BufferId} {rows columns inner : Nat}
    {row column position : LoopVariableId} {first second third product result : RegisterId}
    (kind_eq : operation.kind = .matmul)
    (left_lives : Operand operation before 0 left) (right_lives : Operand operation before 1 right)
    (left_shape : ∃ value leftShape, operation.operands[0]? = some value ∧
      source.typeOf value = .ok (.ranked leftShape) ∧ leftShape.dimensions[1]? = some inner)
    (new : NewBuffer source operation shape before after given taken)
    (length_eq : counters.length = shape.dimensions.length)
    (dimensions_eq : ∃ others, shape.dimensions = rows :: columns :: others)
    (first_second : first ≠ second) (first_third : first ≠ third)
    (second_third : second ≠ third) (third_product : third ≠ product)
    (distinct : counters.Nodup) (distinct_product : [row, column, position].Nodup)
    (success : lowered.runBlock
      (nested (counters.zip shape.dimensions)
          [.store (.immediate 0) before.buffers.nextId (counters.map .loopVariable)] ++
        nested ([row, column, position].zip [rows, columns, inner])
          [.load first left [.loopVariable row, .loopVariable position],
            .load second right [.loopVariable column, .loopVariable position],
            .load third before.buffers.nextId [.loopVariable row, .loopVariable column],
            .arithmetic .multiply product (.register first) (.register second),
            .arithmetic .add result (.register third) (.register product),
            .store (.register result) before.buffers.nextId
              [.loopVariable row, .loopVariable column]]) state = .ok control final) :
    control = .proceed ∧
      Faithful source lowered operation available after environment state final := by
  have resolved := typed.resolved
  rw [kind_eq] at resolved
  obtain ⟨height, depth, width, rfl, resolution_eq⟩ :=
    Dataflow.OperationKind.resolve_matmul resolved
  have found_eq := new.found kept
  obtain ⟨cells, cells_eq, size_eq⟩ := simulates.live _ _ found_eq
  obtain ⟨_, x, left_eq, x_eq, x_shape, x_holds, left_apart⟩ :=
    left_lives.tensor simulates typed dominated
  obtain ⟨_, y, right_eq, y_eq, y_shape, y_holds, right_apart⟩ :=
    right_lives.tensor simulates typed dominated
  have x_dimensions : x.shape = ⟨[height, depth]⟩ := (Option.some.inj x_shape).symm
  have y_dimensions : y.shape = ⟨[depth, width]⟩ := (Option.some.inj y_shape).symm
  obtain rfl := new.shape_eq typed resolution_eq
  obtain ⟨others, ⟨⟩⟩ := dimensions_eq
  obtain ⟨value, leftShape, value_eq, type_eq, inner_eq⟩ := left_shape
  obtain ⟨known, known_eq, known_type⟩ := typed.typeOf_operand value_eq
  obtain rfl := Option.some.inj known_eq
  obtain ⟨⟩ := type_eq.symm.trans known_type
  obtain rfl := Option.some.inj inner_eq
  obtain ⟨first_control, middle, clear, success⟩ :=
    Function.runBlock_append_eq_ok_iff.mp success
  obtain ⟨rfl, cleared⟩ :=
    Function.runBlock_clear ⟨⟨[rows, columns]⟩, _⟩ length_eq distinct found_eq cells_eq
      size_eq clear
  obtain ⟨proceeds, computed⟩ := Function.runBlock_product ⟨⟨[rows, columns]⟩, _⟩ first_second
    first_third second_third third_product distinct_product found_eq rfl cleared left_apart
    right_apart x_holds y_holds success
  refine ⟨proceeds, faithful_of_computed new simulates fresh computed rfl fun calls => ?_⟩
  rw [operands_pair typed left_eq right_eq x_eq y_eq, kind_eq]
  exact (Dataflow.OperationKind.perform_eq_ok_iff rfl).mpr
    ⟨[x, y], _, rfl, Tensor.matmul?_of_shapes x_dimensions y_dimensions, rfl⟩

theorem transpose_faithful {operand : BufferId} {register : RegisterId}
    (kind_eq : operation.kind = .transpose) (lives : Operand operation before 0 operand)
    (new : NewBuffer source operation shape before after given taken)
    (length_eq : counters.length = shape.dimensions.length) (distinct : counters.Nodup)
    (success : lowered.runBlock (nested (counters.zip shape.dimensions)
      [.load register operand (counters.map Index.loopVariable).reverse,
        .store (.register register) before.buffers.nextId (counters.map .loopVariable)]) state =
      .ok control final) :
    control = .proceed ∧
      Faithful source lowered operation available after environment state final := by
  have resolved := typed.resolved
  rw [kind_eq] at resolved
  obtain ⟨known, rfl, resolution_eq⟩ := Dataflow.OperationKind.resolve_transpose resolved
  have found_eq := new.found kept
  obtain ⟨cells, cells_eq, size_eq⟩ := simulates.live _ _ found_eq
  obtain ⟨_, x, operand_eq, x_eq, x_shape, x_holds, operand_apart⟩ :=
    lives.tensor simulates typed dominated
  obtain ⟨proceeds, computed⟩ := Function.runBlock_transposition ⟨shape, _⟩
    length_eq distinct found_eq cells_eq size_eq operand_apart x_holds success
  obtain rfl := Option.some.inj x_shape
  obtain rfl := new.shape_eq typed resolution_eq
  refine ⟨proceeds, faithful_of_computed new simulates fresh computed rfl fun calls => ?_⟩
  rw [operands_single typed.length_operands operand_eq x_eq, kind_eq]
  rfl

theorem reshape_faithful {target : Shape} {operand : BufferId}
    (kind_eq : operation.kind = .reshape target) (lives : Operand operation before 0 operand)
    (new : NewBuffer source operation shape before after given taken)
    (success : lowered.runBlock [.copy operand before.buffers.nextId] state =
      .ok control final) :
    control = .proceed ∧
      Faithful source lowered operation available after environment state final := by
  have resolved := typed.resolved
  rw [kind_eq] at resolved
  obtain ⟨known, count, rfl, -, -, resolution_eq⟩ :=
    Dataflow.OperationKind.resolve_reshape resolved
  have found_eq := new.found kept
  obtain ⟨cells, cells_eq, size_eq⟩ := simulates.live _ _ found_eq
  obtain ⟨_, x, operand_eq, x_eq, -, x_holds, -⟩ := lives.tensor simulates typed dominated
  obtain ⟨proceeds, tensor, reshaped, computed⟩ :=
    Function.runBlock_copy found_eq cells_eq size_eq x_holds success
  obtain rfl := new.shape_eq typed resolution_eq
  refine ⟨proceeds, faithful_of_computed new simulates fresh computed
    (Tensor.shape_of_reshape? reshaped) fun calls => ?_⟩
  rw [operands_single typed.length_operands operand_eq x_eq, kind_eq]
  exact (Dataflow.OperationKind.perform_eq_ok_iff rfl).mpr ⟨[x], _, rfl, reshaped, rfl⟩

omit kept fresh in
theorem cast_faithful {operand : BufferId} {result : Dataflow.ValueId}
    (kind_eq : operation.kind = .cast) (lives : Operand operation before 0 operand)
    (results_eq : operation.results = [result])
    (success : lowered.runBlock [] state = .ok control final) :
    control = .proceed ∧
      Faithful source lowered operation available
        { before with bufferOf := before.bufferOf.insert result.index operand }
        environment state final := by
  have resolved := typed.resolved
  rw [kind_eq] at resolved
  obtain ⟨known, rfl, resolution_eq⟩ := Dataflow.OperationKind.resolve_cast resolved
  obtain ⟨value, x, operand_eq, x_eq, x_shape, -, -⟩ := lives.tensor simulates typed dominated
  obtain ⟨_, value_eq, found⟩ := lives.lives
  obtain rfl := Option.some.inj (operand_eq.symm.trans value_eq)
  obtain ⟨buffer, tensor, buffer_eq, inside, tensor_eq, -, holds⟩ :=
    simulates.held value (dominated value (List.mem_of_getElem? operand_eq))
  obtain rfl := Option.some.inj (found.symm.trans buffer_eq)
  obtain rfl := Option.some.inj (x_eq.symm.trans tensor_eq)
  obtain rfl := Option.some.inj x_shape
  obtain ⟨other, other_eq, type_eq⟩ := typed.result _ resolution_eq
  obtain ⟨⟩ := results_eq.symm.trans other_eq
  obtain ⟨rfl, rfl⟩ := Function.runBlock_nil_eq_ok_iff.mp success
  refine ⟨rfl, ⟨[], [some x]⟩, fun calls => ?_, String.append_empty.symm, ?_⟩
  · rw [operands_single typed.length_operands operand_eq x_eq, kind_eq]
    rfl
  · rw [results_eq]
    refine ⟨fun id member => ?_, simulates.live⟩
    by_cases same : id = result
    · subst same
      refine ⟨operand, x, ?_, inside, ?_, type_eq, holds⟩
      · rw [getElem?_insert_index, if_pos rfl]
      · rw [define_singleton, if_pos rfl]
    · have earlier := (List.mem_append.mp member).resolve_right (by simpa using same)
      obtain ⟨buffer, old, old_found, old_inside, old_eq, rest⟩ := simulates.held id earlier
      refine ⟨buffer, old, ?_, old_inside, ?_, rest⟩
      · rw [getElem?_insert_index, if_neg same, old_found]
      · rw [define_singleton, if_neg same, old_eq]

omit kept fresh in
theorem print_faithful {operand : BufferId}
    (kind_eq : operation.kind = .print) (proper : operation.Proper)
    (lives : Operand operation before 0 operand)
    (success : lowered.runBlock [.print operand] state = .ok control final) :
    control = .proceed ∧
      Faithful source lowered operation available before environment state final := by
  obtain ⟨value, x, operand_eq, x_eq, -, x_holds, -⟩ := lives.tensor simulates typed dominated
  obtain ⟨first, middle, first_eq, rest_eq⟩ := Function.runBlock_cons_eq_ok_iff.mp success
  obtain ⟨found, cells, line, found_eq, cells_eq, line_eq, rfl, rfl⟩ :=
    Function.runInstruction_print_eq_ok_iff.mp first_eq
  obtain ⟨rfl, rfl⟩ := Function.runBlock_nil_eq_ok_iff.mp rest_eq
  obtain ⟨known, others, known_eq, shape_eq, others_eq, values_eq⟩ := x_holds
  obtain rfl := Option.some.inj (found_eq.symm.trans known_eq)
  obtain rfl := Option.some.inj (cells_eq.symm.trans others_eq)
  rw [shape_eq, values_eq, Tensor.nestedText?_eq_text] at line_eq
  obtain rfl := Option.some.inj line_eq
  have one_read : operation.operands.length = 1 := proper.operands 1 (by rw [kind_eq]; rfl)
  have no_results : operation.results = [] :=
    List.length_eq_zero_iff.mp (proper.results.trans (by rw [kind_eq]; rfl))
  refine ⟨rfl, ⟨[x], []⟩, fun calls => ?_, ?_, ?_⟩
  · rw [operands_single one_read operand_eq x_eq, kind_eq]
    rfl
  · simp [withLine, linesOf, String.append_assoc]
  · rw [no_results, List.append_nil]
    exact ⟨simulates.held, simulates.live⟩

end Kinds

theorem following_length {first : LoopVariableId} {counters : List LoopVariableId}
    (counters_eq : counters = first.following shape.rank) :
    counters.length = shape.dimensions.length := by
  rw [counters_eq, Handle.length_following, Shape.rank]

/-- The instructions of an operation that succeed do what the operation does. -/
theorem lowers_faithful {block : List Instruction} {control : Control}
    {surroundings : Surroundings} {progress finished : Progress}
    (lowers : Lowers source operation before after block)
    (kept : ∀ id found, after.buffers.get? id = some found →
      lowered.buffers.get? id = some found)
    (simulates : Simulates source lowered available before environment state)
    (proper : operation.Proper) (typed : operation.Typed source shapes resolution)
    (dominated : ∀ operand ∈ operation.operands, operand ∈ available)
    (fresh : ∀ id ∈ available, id ∉ operation.results)
    (checked : lowered.checkBlock surroundings progress block = .ok finished)
    (success : lowered.runBlock block state = .ok control final) :
    control = .proceed ∧
      Faithful source lowered operation available after environment state final := by
  cases lowers with
  | constant kind_eq new block_eq =>
      exact constant_faithful kept simulates typed fresh kind_eq proper new block_eq success
  | combination kind_eq left_lives right_lives new counters_eq registers_eq =>
      have length_eq := following_length counters_eq
      obtain ⟨⟩ := registers_eq
      obtain ⟨distinct, -⟩ := Function.checkBlock_nested checked
      rw [Function.map_fst_zip length_eq] at distinct
      exact combination_faithful kept simulates typed dominated fresh kind_eq left_lives
        right_lives new length_eq distinct (Handle.advance_ne _).1 success
  | matmul kind_eq left_lives right_lives left_shape new counters_eq dimensions_eq product_eq
      registers_eq =>
      have length_eq := following_length counters_eq
      obtain ⟨⟩ := registers_eq
      obtain ⟨_, clear, sum⟩ := Function.checkBlock_append_eq_ok checked
      obtain ⟨distinct, -⟩ := Function.checkBlock_nested clear
      obtain ⟨distinct_product, -⟩ := Function.checkBlock_nested sum
      rw [Function.map_fst_zip length_eq] at distinct
      exact matmul_faithful kept simulates typed dominated fresh kind_eq left_lives right_lives
        left_shape new length_eq dimensions_eq (Handle.advance_ne _).1 (Handle.advance_ne _).2
        (Handle.advance_ne _).1 (Handle.advance_ne _).1 distinct distinct_product success
  | transpose kind_eq lives new counters_eq =>
      have length_eq := following_length counters_eq
      obtain ⟨distinct, -⟩ := Function.checkBlock_nested checked
      rw [Function.map_fst_zip length_eq] at distinct
      exact transpose_faithful kept simulates typed dominated fresh kind_eq lives new length_eq
        distinct success
  | reshape kind_eq lives new =>
      exact reshape_faithful kept simulates typed dominated fresh kind_eq lives new success
  | cast kind_eq lives results_eq after_eq =>
      subst after_eq
      exact cast_faithful simulates typed dominated kind_eq lives results_eq success
  | print kind_eq lives after_eq =>
      subst after_eq
      exact print_faithful simulates typed dominated kind_eq proper lives success
  | leave kind_eq after_eq =>
      subst after_eq
      obtain ⟨rfl, rfl⟩ := Function.runBlock_nil_eq_ok_iff.mp success
      have no_results : operation.results = [] :=
        List.length_eq_zero_iff.mp (proper.results.trans (by rw [kind_eq]; rfl))
      refine ⟨rfl, ⟨[], []⟩, fun calls => by rw [kind_eq]; rfl, String.append_empty.symm, ?_⟩
      rw [no_results, List.append_nil]
      exact ⟨simulates.held, simulates.live⟩

end Lowering

end Loop

end TensorLang
