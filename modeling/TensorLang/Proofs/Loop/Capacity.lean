import TensorLang.Proofs.Dataflow.Typing
import TensorLang.Proofs.Loop.Lowering
import TensorLang.Proofs.Loop.Safety

/-!
# Lowered functions fit in memory

Literals are held in memory, and no other operation makes more elements than one of its operands
has. For a matrix product this is the verifier's doing: the right matrix is read with the column
first, so it is accepted only with no more columns than rows.
-/

namespace TensorLang

namespace Loop

namespace Function

variable {function : Function} {surroundings : Surroundings} {progress after : Progress}

private theorem checkInstruction_last {instruction : Instruction}
    (accepted : function.checkInstruction surroundings false progress instruction = .ok after) :
    function.checkInstruction surroundings true progress instruction = .ok after := by
  cases instruction with
  | leave => exact absurd (checkInstruction_leave_eq_ok_iff.mp accepted).2.1 Bool.false_ne_true
  | _ => exact accepted

theorem checkBlock_append_eq_ok {front back : List Instruction}
    (accepted : function.checkBlock surroundings progress (front ++ back) = .ok after) :
    ∃ middle, function.checkBlock surroundings progress front = .ok middle ∧
      function.checkBlock surroundings middle back = .ok after := by
  induction front generalizing progress with
  | nil => exact ⟨progress, rfl, accepted⟩
  | cons instruction front induction =>
      obtain ⟨middle, first, others⟩ := checkBlock_cons_eq_ok_iff.mp accepted
      obtain ⟨last, front_eq, back_eq⟩ := induction others
      refine ⟨last, checkBlock_cons_eq_ok_iff.mpr ⟨middle, ?_, front_eq⟩, back_eq⟩
      cases front with
      | cons next front => exact first
      | nil =>
          cases back with
          | nil => exact first
          | cons next back => exact checkInstruction_last first

end Function

namespace Lowering

variable {source : Dataflow.Function} {lowered : Function} {operation : Dataflow.Operation}
variable {available : List Dataflow.ValueId} {before middle after : Allocation}
variable {shape : Shape} {shapes : List Shape} {resolution : Dataflow.Resolution}
variable {registers counters : Nat}

/-- Buffers that have been given out stay. -/
def Grows (before after : Allocation) : Prop :=
  ∀ id found, before.buffers.get? id = some found → after.buffers.get? id = some found

theorem Grows.refl (allocation : Allocation) : Grows allocation allocation :=
  fun _ _ found => found

theorem Grows.trans (early : Grows before middle) (late : Grows middle after) :
    Grows before after :=
  fun id found found_eq => late id found (early id found found_eq)

theorem NewBuffer.grows (new : NewBuffer source operation shape before after registers counters) :
    Grows before after := by
  intro id found found_eq
  rw [new.buffers, Arena.get?_push, if_neg, found_eq]
  rintro rfl
  exact Nat.lt_irrefl _ (Arena.lt_size_of_get? found_eq)

theorem Lowers.grows {block : List Instruction}
    (lowers : Lowers source operation before after block) : Grows before after := by
  cases lowers with
  | constant _ new => exact new.grows
  | combination _ _ _ new => exact new.grows
  | matmul _ _ _ _ new => exact new.grows
  | transpose _ _ new => exact new.grows
  | reshape _ _ new => exact new.grows
  | cast _ _ _ after_eq =>
      subst after_eq
      exact Grows.refl _
  | print _ _ after_eq =>
      subst after_eq
      exact Grows.refl _
  | leave _ after_eq =>
      subst after_eq
      exact Grows.refl _

theorem getElem?_insert_index {entity : Entity} {α : Type} (entries : Std.TreeMap Nat α)
    (key id : Handle entity) (entry : α) :
    (entries.insert key.index entry)[id.index]? =
      if id = key then some entry else entries[id.index]? := by
  obtain ⟨place⟩ := key
  obtain ⟨index⟩ := id
  simp only [Std.TreeMap.getElem?_insert, Nat.compare_eq_eq, Handle.mk.injEq]
  by_cases same : place = index
  · rw [if_pos same, if_pos same.symm]
  · rw [if_neg same, if_neg (Ne.symm same)]

/-- The type of the result is the one that the rule gives. -/
theorem NewBuffer.shape_eq (new : NewBuffer source operation shape before after registers counters)
    (typed : operation.Typed source shapes resolution) {known : Shape}
    (known_eq : resolution = .result known) : shape = known := by
  obtain ⟨result, results_eq, type_eq, -⟩ := new.result
  obtain ⟨other, other_eq, other_type⟩ := typed.result known known_eq
  obtain ⟨⟩ := results_eq.symm.trans other_eq
  obtain ⟨⟩ := type_eq.symm.trans other_type
  rfl

/-- Both operands of a combination have the shape of its result. -/
theorem NewBuffer.shapes_of_combination
    (new : NewBuffer source operation shape before after registers counters)
    (typed : operation.Typed source shapes resolution) {operator : Arithmetic}
    (kind_eq : operation.kind =
      match operator with
      | .add => .add
      | .multiply => .multiply) :
    shapes = [shape, shape] ∧ resolution = .result shape := by
  have resolved := typed.resolved
  rw [kind_eq] at resolved
  obtain ⟨known, shapes_eq, resolution_eq⟩ :
      ∃ known, shapes = [known, known] ∧ resolution = .result known := by
    cases operator with
    | add => exact Dataflow.OperationKind.resolve_add resolved
    | multiply => exact Dataflow.OperationKind.resolve_multiply resolved
  obtain rfl := new.shape_eq typed resolution_eq
  exact ⟨shapes_eq, resolution_eq⟩

/-- Each available value has a buffer of its shape. -/
def Buffered (source : Dataflow.Function) (available : List Dataflow.ValueId)
    (allocation : Allocation) : Prop :=
  ∀ id ∈ available, ∃ buffer found, allocation.bufferOf[id.index]? = some buffer ∧
    allocation.buffers.get? buffer = some found ∧ source.typeOf id = .ok (.ranked found.shape)

/-- A new buffer holds the result of its operation. -/
theorem NewBuffer.buffered (new : NewBuffer source operation shape before after registers counters)
    (buffered : Buffered source available before) :
    Buffered source (available ++ operation.results) after := by
  obtain ⟨result, results_eq, type_eq, bufferOf_eq⟩ := new.result
  intro id member
  rw [bufferOf_eq, getElem?_insert_index]
  by_cases same : id = result
  · subst same
    refine ⟨_, ⟨shape, operation.location⟩, if_pos rfl, ?_, type_eq⟩
    rw [new.buffers, Arena.get?_push, if_pos rfl]
  · rw [results_eq] at member
    obtain ⟨buffer, found, buffer_eq, found_eq, id_type⟩ :=
      buffered id ((List.mem_append.mp member).resolve_right (by simpa using same))
    exact ⟨buffer, found, by rw [if_neg same, buffer_eq], new.grows buffer found found_eq, id_type⟩

/-- The buffer of an operand has the shape of the operand. -/
theorem Operand.held {position : Nat} {buffer : BufferId}
    (lives : Operand operation before position buffer) (buffered : Buffered source available before)
    (typed : operation.Typed source shapes resolution)
    (dominated : ∀ operand ∈ operation.operands, operand ∈ available) :
    ∃ found, before.buffers.get? buffer = some found ∧ shapes[position]? = some found.shape := by
  obtain ⟨value, value_eq, buffer_eq⟩ := lives.lives
  obtain ⟨known, found, known_eq, found_eq, type_eq⟩ :=
    buffered value (dominated value (List.mem_of_getElem? value_eq))
  obtain rfl := Option.some.inj (buffer_eq.symm.trans known_eq)
  obtain ⟨shape, shape_eq, operand_type⟩ := typed.typeOf_operand value_eq
  obtain ⟨⟩ := type_eq.symm.trans operand_type
  exact ⟨found, found_eq, shape_eq⟩

/-- The instructions of an operation leave its results in buffers. -/
theorem Lowers.buffered {block : List Instruction}
    (lowers : Lowers source operation before after block)
    (buffered : Buffered source available before) (proper : operation.Proper)
    (typed : operation.Typed source shapes resolution)
    (dominated : ∀ operand ∈ operation.operands, operand ∈ available) :
    Buffered source (available ++ operation.results) after := by
  have resolved := typed.resolved
  cases lowers with
  | constant _ new | combination _ _ _ new | matmul _ _ _ _ new | transpose _ _ new
  | reshape _ _ new => exact new.buffered buffered
  | @cast operand result kind_eq lives results_eq after_eq =>
      subst after_eq
      rw [kind_eq] at resolved
      obtain ⟨known, rfl, resolution_eq⟩ := Dataflow.OperationKind.resolve_cast resolved
      obtain ⟨found, found_eq, shape_eq⟩ := lives.held buffered typed dominated
      obtain rfl := Option.some.inj shape_eq
      obtain ⟨other, other_eq, type_eq⟩ := typed.result _ resolution_eq
      obtain ⟨⟩ := results_eq.symm.trans other_eq
      intro id member
      rw [getElem?_insert_index]
      by_cases same : id = result
      · subst same
        exact ⟨operand, found, if_pos rfl, found_eq, type_eq⟩
      · rw [results_eq] at member
        rw [if_neg same]
        exact buffered id ((List.mem_append.mp member).resolve_right (by simpa using same))
  | print kind_eq _ after_eq | leave kind_eq after_eq =>
      subst after_eq
      have no_results : operation.results = [] :=
        List.length_eq_zero_iff.mp (proper.results.trans (by rw [kind_eq]; rfl))
      rwa [no_results, List.append_nil]

/-- All buffers fit in memory, registers and loop variables are words, and each available value has
a buffer of its shape. -/
structure Fits (source : Dataflow.Function) (available : List Dataflow.ValueId)
    (allocation : Allocation) : Prop where
  /-- The next register is a word. -/
  registers : allocation.nextRegister.index < Handle.wordSize
  /-- The next loop variable is a word. -/
  counters : allocation.nextLoopVariable.index < Handle.wordSize
  /-- The elements of each buffer fit. -/
  stored : ∀ buffer found, allocation.buffers.get? buffer = some found →
    found.shape.size < memoryBound
  /-- The shape of each buffer is that of a value. -/
  typed : ∀ buffer found, allocation.buffers.get? buffer = some found →
    ∃ id, source.typeOf id = .ok (.ranked found.shape)
  /-- The elements of each buffer can be counted. -/
  counted : ∀ buffer found, allocation.buffers.get? buffer = some found →
    found.shape.boundedSize?.isSome = true
  /-- Available values live in buffers of their shapes. -/
  held : Buffered source available allocation

/-- At the start there is nothing to fit. -/
theorem Fits.start (source : Dataflow.Function) : Fits source [] .start where
  registers := by decide
  counters := by decide
  stored := fun _ _ found_eq => absurd (Arena.lt_size_of_get? found_eq) (Nat.not_lt_zero _)
  typed := fun _ _ found_eq => absurd (Arena.lt_size_of_get? found_eq) (Nat.not_lt_zero _)
  counted := fun _ _ found_eq => absurd (Arena.lt_size_of_get? found_eq) (Nat.not_lt_zero _)
  held := fun _ member => (List.not_mem_nil member).elim

theorem Fits.fitsNames (fits : Fits source available after)
    (registers_eq : lowered.registerCount = after.nextRegister.index)
    (counters_eq : lowered.loopVariableCount = after.nextLoopVariable.index) :
    lowered.FitsNames := by
  have words : Handle.wordSize ≤ memoryBound := by decide
  constructor
  · rw [registers_eq]
    exact Nat.lt_of_lt_of_le fits.registers words
  · rw [counters_eq]
    exact Nat.lt_of_lt_of_le fits.counters words

/-- A new buffer that is small enough fits. -/
theorem NewBuffer.fits (new : NewBuffer source operation shape before after registers counters)
    (fits : Fits source available before) (counted : shape.boundedSize?.isSome = true)
    (small : shape.size < memoryBound) :
    Fits source (available ++ operation.results) after := by
  obtain ⟨result, -, type_eq, -⟩ := new.result
  have split_eq : ∀ buffer found, after.buffers.get? buffer = some found →
      found.shape = shape ∨ before.buffers.get? buffer = some found := by
    intro buffer found found_eq
    rw [new.buffers, Arena.get?_push] at found_eq
    split at found_eq
    · obtain rfl := Option.some.inj found_eq
      exact .inl rfl
    · exact .inr found_eq
  constructor
  · rw [new.registers]
    exact Handle.skip_lt_wordSize fits.registers _
  · rw [new.counters]
    exact Handle.skip_lt_wordSize fits.counters _
  · intro buffer found found_eq
    rcases split_eq buffer found found_eq with rfl | earlier
    · exact small
    · exact fits.stored buffer found earlier
  · intro buffer found found_eq
    rcases split_eq buffer found found_eq with same | earlier
    · exact ⟨result, same ▸ type_eq⟩
    · exact fits.typed buffer found earlier
  · intro buffer found found_eq
    rcases split_eq buffer found found_eq with rfl | earlier
    · exact counted
    · exact fits.counted buffer found earlier
  · exact new.buffered fits.held

/-- The buffer of an operand has the shape of the operand, and it fits in memory. -/
theorem Operand.found {position : Nat} {buffer : BufferId}
    (lives : Operand operation before position buffer) (fits : Fits source available before)
    (typed : operation.Typed source shapes resolution)
    (dominated : ∀ operand ∈ operation.operands, operand ∈ available) :
    ∃ found, before.buffers.get? buffer = some found ∧ shapes[position]? = some found.shape ∧
      found.shape.size < memoryBound := by
  obtain ⟨found, found_eq, shape_eq⟩ := lives.held fits.held typed dominated
  exact ⟨found, found_eq, shape_eq, fits.stored buffer found found_eq⟩

/-- A loop variable from zero stays below a dimension just if its loop has no more turns. -/
theorem le_of_bounds {surroundings : Surroundings} {counter : LoopVariableId}
    {turns dimension : Nat} (found : surroundings.loops.lookup counter = some (lastValue 0 turns 1))
    (bounds : surroundings.Bounds dimension (.loopVariable counter)) : turns ≤ dimension := by
  obtain ⟨last?, last_eq, below⟩ := bounds
  obtain rfl := Option.some.inj (found.symm.trans last_eq)
  rcases Nat.eq_zero_or_pos turns with rfl | positive
  · exact Nat.zero_le _
  · have := below (turns - 1) (by
      rw [lastValue, if_pos positive, Nat.div_one, Nat.mul_one, Nat.zero_add, Nat.sub_zero])
    omega

/-- An accepted matrix product reads its right matrix, with the column first, within its
dimensions. -/
theorem product_within {left right : BufferId} {rows columns inner height width : Nat}
    {row column position : LoopVariableId} {first second : RegisterId}
    {rest : List Instruction} {progress finished : Progress} {found : Buffer}
    (found_eq : lowered.buffers.get? right = some found)
    (dimensions_eq : found.shape.dimensions = [height, width])
    (checked : lowered.checkBlock .outside progress
      (nested ([row, column, position].zip [rows, columns, inner])
        (.load first left [.loopVariable row, .loopVariable position] ::
          .load second right [.loopVariable column, .loopVariable position] :: rest)) =
      .ok finished) : columns ≤ height ∧ inner ≤ width := by
  obtain ⟨distinct, -, around, done, accepted, around_eq⟩ := Function.checkBlock_nested checked
  obtain ⟨between, -, others⟩ := Function.checkBlock_cons_eq_ok_iff.mp accepted
  obtain ⟨_, loaded, -⟩ := Function.checkBlock_cons_eq_ok_iff.mp others
  obtain ⟨indexed, -⟩ := Function.checkInstruction_load_eq_ok_iff.mp loaded
  obtain ⟨known, known_eq, -, covers⟩ := Function.checkIndices_eq_ok_iff.mp indexed
  obtain rfl := Option.some.inj (found_eq.symm.trans known_eq)
  rw [dimensions_eq] at covers
  have known := Surroundings.lookup_nested distinct around_eq
  exact ⟨le_of_bounds (known column columns (by simp)) covers.1,
    le_of_bounds (known position inner (by simp)) covers.2.1⟩

/-- The right operand of a matrix product is square. -/
def SquareRight (source : Dataflow.Function) (operation : Dataflow.Operation) : Prop :=
  operation.kind = .matmul → ∀ value, operation.operands[1]? = some value →
    ∃ side, source.typeOf value = .ok (.ranked ⟨[side, side]⟩)

/-- The buffers of a matrix product have the shapes that its type rule asks for. -/
theorem matmul_shapes {left right : BufferId} {rows columns inner : Nat}
    (fits : Fits source available before) (typed : operation.Typed source shapes resolution)
    (dominated : ∀ operand ∈ operation.operands, operand ∈ available)
    (kind_eq : operation.kind = .matmul)
    (left_lives : Operand operation before 0 left) (right_lives : Operand operation before 1 right)
    (left_shape : ∃ value leftShape, operation.operands[0]? = some value ∧
      source.typeOf value = .ok (.ranked leftShape) ∧ leftShape.dimensions[1]? = some inner)
    (new : NewBuffer source operation shape before after registers counters)
    (dimensions_eq : ∃ others, shape.dimensions = rows :: columns :: others) :
    ∃ leftFound rightFound,
      before.buffers.get? left = some leftFound ∧ leftFound.shape = ⟨[rows, inner]⟩ ∧
      leftFound.shape.size < memoryBound ∧
      before.buffers.get? right = some rightFound ∧ rightFound.shape = ⟨[inner, columns]⟩ ∧
      shape = ⟨[rows, columns]⟩ ∧ resolution = .result ⟨[rows, columns]⟩ ∧
      (SquareRight source operation ↔ inner = columns) := by
  have resolved := typed.resolved
  rw [kind_eq] at resolved
  obtain ⟨height, middle, width, rfl, resolution_eq⟩ :=
    Dataflow.OperationKind.resolve_matmul resolved
  obtain ⟨leftFound, left_eq, left_covered, left_small⟩ := left_lives.found fits typed dominated
  obtain ⟨rightFound, right_eq, right_covered, -⟩ := right_lives.found fits typed dominated
  obtain ⟨leftValue, leftShape, leftValue_eq, left_type, inner_eq⟩ := left_shape
  obtain ⟨_, other_eq, left_known⟩ := typed.typeOf_operand leftValue_eq
  obtain rfl := Option.some.inj other_eq
  obtain ⟨⟩ := left_type.symm.trans left_known
  obtain rfl := Option.some.inj inner_eq
  obtain rfl := new.shape_eq typed resolution_eq
  obtain ⟨others, ⟨⟩⟩ := dimensions_eq
  refine ⟨leftFound, rightFound, left_eq, (Option.some.inj left_covered).symm, left_small,
    right_eq, (Option.some.inj right_covered).symm, rfl, resolution_eq, fun square => ?_, ?_⟩
  · obtain ⟨value, value_eq, -⟩ := right_lives.lives
    obtain ⟨_, other_eq, value_type⟩ := typed.typeOf_operand value_eq
    obtain rfl := Option.some.inj other_eq
    obtain ⟨side, side_type⟩ := square kind_eq value value_eq
    obtain ⟨⟩ := value_type.symm.trans side_type
    rfl
  · rintro rfl - value value_eq
    obtain ⟨_, other_eq, value_type⟩ := typed.typeOf_operand value_eq
    obtain rfl := Option.some.inj other_eq
    exact ⟨_, value_type⟩

/-- The right operand of an accepted matrix product is square. -/
theorem Lowers.squareRight {block : List Instruction}
    (lowers : Lowers source operation before after block)
    (kept : ∀ id found, after.buffers.get? id = some found →
      lowered.buffers.get? id = some found)
    (fits : Fits source available before)
    (typed : operation.Typed source shapes resolution)
    (dominated : ∀ operand ∈ operation.operands, operand ∈ available)
    {progress finished : Progress}
    (checked : lowered.checkBlock .outside progress block = .ok finished) :
    SquareRight source operation := by
  have grows := lowers.grows
  intro is_matmul
  cases lowers with
  | matmul kind_eq left_lives right_lives left_shape new _ dimensions_eq =>
      obtain ⟨_, right, -, -, -, right_found, right_shape, -, -, square_iff⟩ := matmul_shapes fits
        typed dominated kind_eq left_lives right_lives left_shape new dimensions_eq
      obtain ⟨_, -, product⟩ := Function.checkBlock_append_eq_ok checked
      obtain ⟨few_columns, few_rows⟩ :=
        product_within (kept _ _ (grows _ _ right_found)) (by rw [right_shape]) product
      exact square_iff.mpr (Nat.le_antisymm few_rows few_columns) kind_eq
  | @combination operator _ _ _ _ _ _ _ kind_eq =>
      cases operator with
      | add => exact absurd (kind_eq.symm.trans is_matmul) nofun
      | multiply => exact absurd (kind_eq.symm.trans is_matmul) nofun
  | constant kind_eq | transpose kind_eq | reshape kind_eq | cast kind_eq | print kind_eq
  | leave kind_eq => exact absurd (kind_eq.symm.trans is_matmul) nofun

/-- The instructions of an operation keep everything in memory. -/
theorem Lowers.fits {block : List Instruction}
    (lowers : Lowers source operation before after block)
    (fits : Fits source available before) (proper : operation.Proper)
    (typed : operation.Typed source shapes resolution)
    (dominated : ∀ operand ∈ operation.operands, operand ∈ available)
    (square : SquareRight source operation) :
    Fits source (available ++ operation.results) after := by
  have resolved := typed.resolved
  have buffered := lowers.buffered fits.held proper typed dominated
  cases lowers with
  | @constant literal shape block kind_eq new block_eq =>
      rw [kind_eq] at resolved
      have resolution_eq := Dataflow.OperationKind.resolve_constant resolved
      obtain rfl := new.shape_eq typed resolution_eq
      refine new.fits fits (typed.counted _ resolution_eq) ?_
      rw [← literal.filled]
      exact literal.bounded
  | @combination operator _ _ _ _ _ _ _ kind_eq left_lives _ new _ _ =>
      obtain ⟨rfl, resolution_eq⟩ := new.shapes_of_combination typed kind_eq
      obtain ⟨found, -, shape_eq, small⟩ := left_lives.found fits typed dominated
      obtain rfl := Option.some.inj shape_eq
      exact new.fits fits (typed.counted _ resolution_eq) small
  | matmul kind_eq left_lives right_lives left_shape new _ dimensions_eq =>
      obtain ⟨left, _, -, left_eq, left_small, -, -, rfl, resolution_eq, square_iff⟩ :=
        matmul_shapes fits typed dominated kind_eq left_lives right_lives left_shape new
          dimensions_eq
      obtain rfl := square_iff.mp square
      exact new.fits fits (typed.counted _ resolution_eq) (left_eq ▸ left_small)
  | transpose kind_eq lives new =>
      rw [kind_eq] at resolved
      obtain ⟨known, rfl, resolution_eq⟩ := Dataflow.OperationKind.resolve_transpose resolved
      obtain ⟨found, -, shape_eq, small⟩ := lives.found fits typed dominated
      obtain rfl := Option.some.inj shape_eq
      obtain rfl := new.shape_eq typed resolution_eq
      refine new.fits fits (typed.counted _ resolution_eq) ?_
      rwa [Shape.size_reverse]
  | @reshape target _ _ kind_eq lives new =>
      rw [kind_eq] at resolved
      obtain ⟨known, count, rfl, known_eq, target_eq, resolution_eq⟩ :=
        Dataflow.OperationKind.resolve_reshape resolved
      obtain ⟨found, -, shape_eq, small⟩ := lives.found fits typed dominated
      obtain rfl := Option.some.inj shape_eq
      obtain rfl := new.shape_eq typed resolution_eq
      refine new.fits fits (typed.counted _ resolution_eq) ?_
      rwa [← Shape.size_of_boundedSize? target_eq, Shape.size_of_boundedSize? known_eq]
  | cast _ _ _ after_eq | print _ _ after_eq | leave _ after_eq =>
      subst after_eq
      exact ⟨fits.registers, fits.counters, fits.stored, fits.typed, fits.counted, buffered⟩

end Lowering

end Loop

end TensorLang
