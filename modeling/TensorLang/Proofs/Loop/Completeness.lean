import TensorLang.Proofs.Loop.Legality

/-!
# Legal functions are lowered

Lowering fails only on unknown shapes, calls and returned values, which a typed and legal function
does not have.  What comes out is verified: buffers are live in between, registers and loop
variables are fresh, and the indices of every nest stay below the dimensions of the buffers.
-/

namespace TensorLang

namespace Loop

namespace Lowering

variable {source : Dataflow.Function} {lowered : Function} {operation : Dataflow.Operation}
variable {code : List Dataflow.Operation} {available : List Dataflow.ValueId}
variable {before after : Allocation} {block : List Instruction} {shape : Shape}
variable {shapes : List Shape} {resolution : Dataflow.Resolution}

/-! ### Acceptance -/

section Acceptance

variable {progress : Progress} {next : Nat} {known : List RegisterId}

/-- A nest with the loop variables that follow is accepted if its body is accepted wherever the
variables stay below their dimensions. -/
theorem exists_passes_nest {first : LoopVariableId} {counters : List LoopVariableId}
    {dimensions : List Nat} {body : List Instruction}
    (counters_eq : counters = first.following dimensions.length)
    (room : first.index + dimensions.length ≤ lowered.loopVariableCount)
    (word : lowered.loopVariableCount ≤ Handle.wordSize)
    (accepted : ∀ inner : Surroundings, (∀ counter dimension,
        (counter, dimension) ∈ counters.zip dimensions →
          inner.Bounds dimension (.loopVariable counter)) →
      ∃ finished known, lowered.Prepared next known finished ∧
        lowered.Passes inner progress finished body) :
    ∃ after, lowered.Prepared next [] after ∧
      lowered.Passes .outside progress after (nested (counters.zip dimensions) body) := by
  have length_eq : counters.length = dimensions.length := by
    rw [counters_eq, Handle.length_following]
  have distinct : ((counters.zip dimensions).map Prod.fst).Nodup := by
    rw [Function.map_fst_zip length_eq, counters_eq]
    exact Handle.nodup_following (Nat.le_trans (Nat.le_add_left _ _) (Nat.le_trans room word))
  refine Function.exists_passes_nested distinct (fun _ _ => rfl) ?_ fun inner inner_eq =>
    accepted inner fun counter dimension member =>
      Surroundings.bounds_of_mem distinct inner_eq member
  intro counter member
  rw [Function.map_fst_zip length_eq, counters_eq] at member
  exact Nat.lt_of_lt_of_le
    (Handle.index_lt_of_mem_following (Nat.le_trans room word) member) room

theorem passes_literal {target : BufferId} {found : Buffer} {literal : TensorLiteral}
    (prepared : lowered.Prepared next known progress)
    (found_eq : lowered.buffers.get? target = some found)
    (block_eq : storeLiteral target found.shape literal.values = .ok block) :
    lowered.Passes .outside progress progress block := by
  have stores : ∀ instruction ∈ block, ∃ value indices,
      instruction = .store (.immediate value) target (indices.map .constant) ∧
        Shape.Within found.shape.dimensions indices := by
    intro instruction member
    have made := List.mem_map_of_mem (f := Except.ok (ε := Failure)) member
    rw [← Except.mapM_eq_ok_iff.mp block_eq] at made
    obtain ⟨⟨value, offset⟩, -, store_eq⟩ := List.mem_map.mp made
    simp only [Except.bind_eq_ok_iff, Except.pure_eq_ok_iff, Outcome.promised_eq_ok_iff] at store_eq
    obtain ⟨indices, indices_eq, rfl⟩ := store_eq
    refine ⟨value, indices, rfl, ?_⟩
    rw [Shape.indices?] at indices_eq
    split at indices_eq
    · cases indices_eq
    · obtain rfl := Option.some.inj indices_eq
      exact Shape.within_indicesFrom offset (by assumption)
  clear block_eq
  induction block with
  | nil => exact .nil
  | cons instruction rest induction =>
      rw [List.forall_mem_cons] at stores
      obtain ⟨⟨value, indices, rfl, within⟩, others⟩ := stores
      exact .cons (prepared.store (List.nil_subset _) found_eq
        (Surroundings.covers_of_within within)) (induction others)

section Bodies

variable {surroundings : Surroundings} {id : RegisterId} {target : BufferId} {targetFound : Buffer}
variable {indices : List Index} (word : lowered.registerCount < Handle.wordSize)
variable (prepared : lowered.Prepared id.index [] progress)
variable (target_eq : lowered.buffers.get? target = some targetFound)

include word prepared target_eq

theorem exists_passes_combine {operator : Arithmetic} {first second result : RegisterId}
    {left right : BufferId} {leftFound rightFound : Buffer}
    (registers_eq : [first, second, result] = id.following 3)
    (room : id.index + 3 ≤ lowered.registerCount)
    (left_eq : lowered.buffers.get? left = some leftFound)
    (right_eq : lowered.buffers.get? right = some rightFound)
    (left_covers : surroundings.Covers leftFound.shape.dimensions indices)
    (right_covers : surroundings.Covers rightFound.shape.dimensions indices)
    (target_covers : surroundings.Covers targetFound.shape.dimensions indices) :
    ∃ finished, lowered.Prepared (id.index + 3) [result, second, first] finished ∧
      lowered.Passes surroundings progress finished
        [.load first left indices, .load second right indices,
          .arithmetic operator result (.register first) (.register second),
          .store (.register result) target indices] := by
  have numbered := registers_eq.trans (Handle.following_eq (by omega))
  simp only [List.range', List.map_cons, List.map_nil, List.cons.injEq, and_true] at numbered
  obtain ⟨first_eq, second_eq, result_eq⟩ := numbered
  obtain ⟨_, one, first_passes⟩ := prepared.exists_load (congrArg Handle.index first_eq)
    (by omega) left_eq left_covers
  obtain ⟨_, two, second_passes⟩ := one.exists_load (congrArg Handle.index second_eq) (by omega)
    right_eq right_covers
  obtain ⟨finished, three, third_passes⟩ := two.exists_arithmetic
    (congrArg Handle.index result_eq) (by omega) (show first ∈ [second, first] by simp)
    (show second ∈ [second, first] by simp)
  exact ⟨finished, three, .cons first_passes (.cons second_passes (.cons third_passes
    (.single (three.store (by simp [Operand.registers]) target_eq target_covers))))⟩

private theorem exists_passes_accumulate {first second third product result : RegisterId}
    {left right : BufferId} {leftFound rightFound : Buffer} {row column position : Index}
    (registers_eq : [first, second, third, product, result] = id.following 5)
    (room : id.index + 5 ≤ lowered.registerCount)
    (left_eq : lowered.buffers.get? left = some leftFound)
    (right_eq : lowered.buffers.get? right = some rightFound)
    (left_covers : surroundings.Covers leftFound.shape.dimensions [row, position])
    (right_covers : surroundings.Covers rightFound.shape.dimensions [column, position])
    (target_covers : surroundings.Covers targetFound.shape.dimensions [row, column]) :
    ∃ finished, lowered.Prepared (id.index + 5) [result, product, third, second, first] finished ∧
      lowered.Passes surroundings progress finished
        [.load first left [row, position], .load second right [column, position],
          .load third target [row, column],
          .arithmetic .multiply product (.register first) (.register second),
          .arithmetic .add result (.register third) (.register product),
          .store (.register result) target [row, column]] := by
  have numbered := registers_eq.trans (Handle.following_eq (by omega))
  simp only [List.range', List.map_cons, List.map_nil, List.cons.injEq, and_true] at numbered
  obtain ⟨first_eq, second_eq, third_eq, product_eq, result_eq⟩ := numbered
  obtain ⟨_, one, first_passes⟩ := prepared.exists_load (congrArg Handle.index first_eq)
    (by omega) left_eq left_covers
  obtain ⟨_, two, second_passes⟩ := one.exists_load (congrArg Handle.index second_eq) (by omega)
    right_eq right_covers
  obtain ⟨_, three, third_passes⟩ := two.exists_load (congrArg Handle.index third_eq) (by omega)
    target_eq target_covers
  obtain ⟨_, four, fourth_passes⟩ := three.exists_arithmetic (congrArg Handle.index product_eq)
    (by omega) (show first ∈ [third, second, first] by simp)
    (show second ∈ [third, second, first] by simp)
  obtain ⟨finished, five, fifth_passes⟩ := four.exists_arithmetic (congrArg Handle.index result_eq)
    (by omega) (show third ∈ [product, third, second, first] by simp)
    (show product ∈ [product, third, second, first] by simp)
  exact ⟨finished, five, .cons first_passes (.cons second_passes (.cons third_passes
    (.cons fourth_passes (.cons fifth_passes
      (.single (five.store (by simp [Operand.registers]) target_eq target_covers))))))⟩

omit word in
theorem exists_passes_move {source : BufferId} {found : Buffer} {places : List Index}
    (room : id.index + 1 ≤ lowered.registerCount)
    (source_eq : lowered.buffers.get? source = some found)
    (source_covers : surroundings.Covers found.shape.dimensions places)
    (target_covers : surroundings.Covers targetFound.shape.dimensions indices) :
    ∃ finished, lowered.Prepared (id.index + 1) [id] finished ∧
      lowered.Passes surroundings progress finished
        [.load id source places, .store (.register id) target indices] := by
  obtain ⟨finished, one, load_passes⟩ := prepared.exists_load rfl room source_eq source_covers
  exact ⟨finished, one, .cons load_passes
    (.single (one.store (by simp [Operand.registers]) target_eq target_covers))⟩

theorem exists_passes_product {first second third product result : RegisterId}
    {left right : BufferId} {leftFound rightFound : Buffer} {rows side : Nat}
    {start row column position : LoopVariableId}
    (registers_eq : [first, second, third, product, result] = id.following 5)
    (room : id.index + 5 ≤ lowered.registerCount)
    (product_eq : [row, column, position] = start.following 3)
    (counter_room : start.index + 3 ≤ lowered.loopVariableCount)
    (counter_word : lowered.loopVariableCount < Handle.wordSize)
    (left_eq : lowered.buffers.get? left = some leftFound)
    (right_eq : lowered.buffers.get? right = some rightFound)
    (left_shape : leftFound.shape = ⟨[rows, side]⟩)
    (right_shape : rightFound.shape = ⟨[side, side]⟩)
    (target_shape : targetFound.shape = ⟨[rows, side]⟩) :
    ∃ finished, lowered.Prepared (id.index + 5) [] finished ∧
      lowered.Passes .outside progress finished
        (nested ([row, column, position].zip [rows, side, side])
          [.load first left [.loopVariable row, .loopVariable position],
            .load second right [.loopVariable column, .loopVariable position],
            .load third target [.loopVariable row, .loopVariable column],
            .arithmetic .multiply product (.register first) (.register second),
            .arithmetic .add result (.register third) (.register product),
            .store (.register result) target [.loopVariable row, .loopVariable column]]) := by
  refine exists_passes_nest product_eq counter_room (Nat.le_of_lt counter_word)
    fun inner bounds => ?_
  have row_bound := bounds row rows (by simp)
  have column_bound := bounds column side (by simp)
  have position_bound := bounds position side (by simp)
  obtain ⟨finished, ready, passes⟩ := exists_passes_accumulate word prepared target_eq registers_eq
    room left_eq right_eq (by rw [left_shape]; exact ⟨row_bound, position_bound, trivial⟩)
    (by rw [right_shape]; exact ⟨column_bound, position_bound, trivial⟩)
    (by rw [target_shape]; exact ⟨row_bound, column_bound, trivial⟩)
  exact ⟨finished, _, ready, passes⟩

omit word in
/-- The first nest of a matrix product. -/
theorem exists_passes_clear {start : LoopVariableId} {cells : List LoopVariableId}
    (cells_eq : cells = start.following targetFound.shape.rank)
    (room : start.index + targetFound.shape.rank ≤ lowered.loopVariableCount)
    (counter_word : lowered.loopVariableCount < Handle.wordSize) :
    ∃ finished, lowered.Prepared id.index [] finished ∧
      lowered.Passes .outside progress finished (nested (cells.zip targetFound.shape.dimensions)
        [.store (.immediate 0) target (cells.map .loopVariable)]) := by
  refine exists_passes_nest cells_eq room (Nat.le_of_lt counter_word) fun inner bounds =>
    ⟨progress, [], prepared, .single (prepared.store (List.nil_subset _) target_eq ?_)⟩
  exact Surroundings.covers_counters (by rw [cells_eq, Handle.length_following, Shape.rank]) bounds

end Bodies

section Kinds

variable (kept : ∀ id found, after.buffers.get? id = some found →
  lowered.buffers.get? id = some found)
variable (fits : Fits source available before)
variable (typed : operation.Typed source shapes resolution)
variable (dominated : ∀ operand ∈ operation.operands, operand ∈ available)
variable (prepared : lowered.Prepared before.nextRegister.index [] progress)
variable {given taken : Nat}

include kept fits typed dominated

theorem Operand.found_lowered {position : Nat} {buffer : BufferId} (grows : Grows before after)
    (lives : Operand operation before position buffer) :
    ∃ found, lowered.buffers.get? buffer = some found ∧ shapes[position]? = some found.shape := by
  obtain ⟨found, found_eq, shape_eq, -⟩ := lives.found fits typed dominated
  exact ⟨found, kept _ _ (grows _ _ found_eq), shape_eq⟩

variable (register_word : lowered.registerCount < Handle.wordSize)
variable (counter_word : lowered.loopVariableCount < Handle.wordSize)

include prepared register_word counter_word

theorem exists_passes_combination {operator : Arithmetic} {left right : BufferId}
    {cells : List LoopVariableId} {first second result : RegisterId}
    (kind_eq : operation.kind =
      match operator with
      | .add => .add
      | .multiply => .multiply)
    (left_lives : Operand operation before 0 left) (right_lives : Operand operation before 1 right)
    (new : NewBuffer source operation shape before after given taken)
    (cells_eq : cells = before.nextLoopVariable.following shape.rank)
    (registers_eq : [first, second, result] = before.nextRegister.following 3)
    (registers : before.nextRegister.index + 3 ≤ lowered.registerCount)
    (counters : before.nextLoopVariable.index + shape.rank ≤ lowered.loopVariableCount) :
    ∃ finished, lowered.Prepared (before.nextRegister.index + 3) [] finished ∧
      lowered.Passes .outside progress finished (nested (cells.zip shape.dimensions)
        [.load first left (cells.map .loopVariable), .load second right (cells.map .loopVariable),
          .arithmetic operator result (.register first) (.register second),
          .store (.register result) before.buffers.nextId (cells.map .loopVariable)]) := by
  obtain ⟨rfl, -⟩ := new.shapes_of_combination typed kind_eq
  obtain ⟨leftFound, left_eq, left_shape⟩ :=
    left_lives.found_lowered kept fits typed dominated new.grows
  obtain ⟨rightFound, right_eq, right_shape⟩ :=
    right_lives.found_lowered kept fits typed dominated new.grows
  refine exists_passes_nest cells_eq counters (Nat.le_of_lt counter_word) fun inner bounds => ?_
  have covers := Surroundings.covers_counters (following_length cells_eq) bounds
  obtain ⟨finished, ready, passes⟩ := exists_passes_combine register_word prepared
    (new.found kept) registers_eq registers left_eq right_eq
    (Option.some.inj left_shape ▸ covers) (Option.some.inj right_shape ▸ covers) covers
  exact ⟨finished, _, ready, passes⟩

theorem exists_passes_matmul {left right : BufferId} {rows columns depth : Nat}
    {cells : List LoopVariableId} {row column position : LoopVariableId}
    {first second third product result : RegisterId}
    (kind_eq : operation.kind = .matmul) (square : SquareRight source operation)
    (left_lives : Operand operation before 0 left) (right_lives : Operand operation before 1 right)
    (left_shape : ∃ value leftShape, operation.operands[0]? = some value ∧
      source.typeOf value = .ok (.ranked leftShape) ∧ leftShape.dimensions[1]? = some depth)
    (new : NewBuffer source operation shape before after given taken)
    (cells_eq : cells = before.nextLoopVariable.following shape.rank)
    (dimensions_eq : ∃ others, shape.dimensions = rows :: columns :: others)
    (product_eq : [row, column, position] =
      (before.nextLoopVariable.skip shape.rank).following 3)
    (registers_eq :
      [first, second, third, product, result] = before.nextRegister.following 5)
    (registers : before.nextRegister.index + 5 ≤ lowered.registerCount)
    (counters : before.nextLoopVariable.index + (shape.rank + 3) ≤ lowered.loopVariableCount) :
    ∃ finished, lowered.Prepared (before.nextRegister.index + 5) [] finished ∧
      lowered.Passes .outside progress finished
        (nested (cells.zip shape.dimensions)
            [.store (.immediate 0) before.buffers.nextId (cells.map .loopVariable)] ++
          nested ([row, column, position].zip [rows, columns, depth])
            [.load first left [.loopVariable row, .loopVariable position],
              .load second right [.loopVariable column, .loopVariable position],
              .load third before.buffers.nextId [.loopVariable row, .loopVariable column],
              .arithmetic .multiply product (.register first) (.register second),
              .arithmetic .add result (.register third) (.register product),
              .store (.register result) before.buffers.nextId
                [.loopVariable row, .loopVariable column]]) := by
  obtain ⟨_, _, left_found, left_covered, -, right_found, right_covered, rfl, -, square_iff⟩ :=
    matmul_shapes fits typed dominated kind_eq left_lives right_lives left_shape new dimensions_eq
  obtain rfl := square_iff.mp square
  have left_eq := kept _ _ (new.grows _ _ left_found)
  have right_eq := kept _ _ (new.grows _ _ right_found)
  have few : before.nextLoopVariable.index + 2 ≤ lowered.loopVariableCount :=
    Nat.le_trans (Nat.le_add_right _ 3) counters
  have next_counter : (before.nextLoopVariable.skip 2).index =
      before.nextLoopVariable.index + 2 := Handle.index_skip (Nat.lt_of_le_of_lt few counter_word)
  obtain ⟨cleared, clear_prepared, clear_passes⟩ :=
    exists_passes_clear prepared (new.found kept) cells_eq few counter_word
  obtain ⟨finished, ready, passes⟩ := exists_passes_product register_word clear_prepared
    (new.found kept) registers_eq registers product_eq
    (Nat.le_trans (Nat.le_of_eq (congrArg (· + 3) next_counter)) counters) counter_word left_eq
    right_eq left_covered right_covered rfl
  exact ⟨finished, ready, clear_passes.append passes⟩

omit register_word in
theorem exists_passes_transpose {operand : BufferId} {cells : List LoopVariableId}
    (kind_eq : operation.kind = .transpose) (lives : Operand operation before 0 operand)
    (new : NewBuffer source operation shape before after given taken)
    (cells_eq : cells = before.nextLoopVariable.following shape.rank)
    (registers : before.nextRegister.index + 1 ≤ lowered.registerCount)
    (counters : before.nextLoopVariable.index + shape.rank ≤ lowered.loopVariableCount) :
    ∃ finished, lowered.Prepared (before.nextRegister.index + 1) [] finished ∧
      lowered.Passes .outside progress finished (nested (cells.zip shape.dimensions)
        [.load before.nextRegister operand (cells.map Index.loopVariable).reverse,
          .store (.register before.nextRegister) before.buffers.nextId
            (cells.map .loopVariable)]) := by
  have resolved := typed.resolved
  rw [kind_eq] at resolved
  obtain ⟨known, rfl, resolution_eq⟩ := Dataflow.OperationKind.resolve_transpose resolved
  obtain rfl := new.shape_eq typed resolution_eq
  obtain ⟨found, found_eq, found_shape⟩ := lives.found_lowered kept fits typed dominated new.grows
  refine exists_passes_nest cells_eq counters (Nat.le_of_lt counter_word) fun inner bounds => ?_
  have covers := Surroundings.covers_counters (following_length cells_eq) bounds
  have reversed := covers.reverse
  rw [Shape.reverse, List.reverse_reverse] at reversed
  obtain ⟨finished, ready, passes⟩ := exists_passes_move prepared (new.found kept) registers
    found_eq (Option.some.inj found_shape ▸ reversed) covers
  exact ⟨finished, _, ready, passes⟩

end Kinds

/-- The instructions of a legal operation are accepted. -/
theorem Lowers.exists_passes (lowers : Lowers source operation before after block)
    (kept : ∀ id found, after.buffers.get? id = some found →
      lowered.buffers.get? id = some found)
    (fits : Fits source available before) (typed : operation.Typed source shapes resolution)
    (dominated : ∀ operand ∈ operation.operands, operand ∈ available)
    (square : SquareRight source operation)
    (register_word : lowered.registerCount < Handle.wordSize)
    (counter_word : lowered.loopVariableCount < Handle.wordSize)
    (registers : before.nextRegister.index + registersFor operation.kind ≤ lowered.registerCount)
    (counters : before.nextLoopVariable.index + countersFor source operation ≤
      lowered.loopVariableCount)
    (prepared : lowered.Prepared before.nextRegister.index [] progress) :
    ∃ finished, lowered.Prepared after.nextRegister.index [] finished ∧
      lowered.Passes .outside progress finished block := by
  have grows := lowers.grows
  obtain ⟨next_register, -⟩ := lowers.counts
  rw [next_register, Handle.index_skip (Nat.lt_of_le_of_lt registers register_word)]
  rw [countersFor] at counters
  cases lowers with
  | constant kind_eq new block_eq =>
      rw [kind_eq]
      exact ⟨progress, prepared, passes_literal prepared (new.found kept) block_eq⟩
  | @combination operator _ _ _ _ _ _ _ kind_eq left_lives right_lives new counters_eq
      registers_eq =>
      have three : registersFor operation.kind = 3 := by
        rw [kind_eq]
        cases operator <;> rfl
      rw [three] at registers ⊢
      refine exists_passes_combination kept fits typed dominated prepared register_word counter_word
        kind_eq left_lives right_lives new counters_eq registers_eq registers ?_
      rw [← new.resultRank_eq]
      rw [kind_eq] at counters
      cases operator <;> exact counters
  | matmul kind_eq left_lives right_lives left_shape new counters_eq dimensions_eq product_eq
      registers_eq =>
      rw [kind_eq] at registers counters ⊢
      exact exists_passes_matmul kept fits typed dominated prepared register_word counter_word
        kind_eq square left_lives right_lives left_shape new counters_eq dimensions_eq product_eq
        registers_eq registers (new.resultRank_eq ▸ counters)
  | transpose kind_eq lives new counters_eq register_eq =>
      rw [kind_eq] at registers counters ⊢
      subst register_eq
      exact exists_passes_transpose kept fits typed dominated prepared counter_word
        kind_eq lives new counters_eq registers (new.resultRank_eq ▸ counters)
  | reshape kind_eq lives new =>
      have resolved := typed.resolved
      rw [kind_eq] at resolved ⊢
      obtain ⟨known, count, rfl, known_eq, target_eq, resolution_eq⟩ :=
        Dataflow.OperationKind.resolve_reshape resolved
      obtain rfl := new.shape_eq typed resolution_eq
      obtain ⟨found, source_eq, found_shape⟩ := lives.found_lowered kept fits typed dominated grows
      obtain rfl := Option.some.inj found_shape
      have target_found := new.found kept
      exact ⟨progress, prepared, .single fun isLast =>
        Function.checkInstruction_copy_eq_ok_iff.mpr ⟨found, _,
          Function.usableBuffer_eq_ok_iff.mpr ⟨source_eq, prepared.live _ _ source_eq⟩,
          Function.usableBuffer_eq_ok_iff.mpr ⟨target_found, prepared.live _ _ target_found⟩,
          (Shape.size_of_boundedSize? known_eq).symm.trans (Shape.size_of_boundedSize? target_eq),
          rfl⟩⟩
  | cast kind_eq | leave kind_eq =>
      rw [kind_eq]
      exact ⟨progress, prepared, .nil⟩
  | print kind_eq lives =>
      rw [kind_eq]
      obtain ⟨found, source_eq, -⟩ := lives.found_lowered kept fits typed dominated grows
      exact ⟨progress, prepared, .single fun isLast =>
        Function.checkInstruction_print_eq_ok_iff.mpr
          ⟨⟨found, source_eq⟩, prepared.live _ _ source_eq, rfl⟩⟩

end Acceptance

/-- The instructions of legal operations are accepted. -/
theorem LowersAll.exists_passes (lowers : LowersAll source code before after block)
    (kept : ∀ id found, after.buffers.get? id = some found →
      lowered.buffers.get? id = some found)
    (fits : Fits source available before)
    (proper : ∀ operation ∈ code, operation.Proper)
    (typed : ∀ operation ∈ code, ∃ shapes resolution, operation.Typed source shapes resolution)
    (dominated : Dataflow.Dominated available code)
    (square : ∀ operation ∈ code, SquareRight source operation)
    (register_word : lowered.registerCount < Handle.wordSize)
    (counter_word : lowered.loopVariableCount < Handle.wordSize)
    (registers : before.nextRegister.index +
      (code.map fun operation => registersFor operation.kind).sum ≤ lowered.registerCount)
    (counters : before.nextLoopVariable.index + (code.map (countersFor source)).sum ≤
      lowered.loopVariableCount)
    {progress : Progress} (prepared : lowered.Prepared before.nextRegister.index [] progress) :
    ∃ finished, lowered.Prepared after.nextRegister.index [] finished ∧
      lowered.Passes .outside progress finished block := by
  induction lowers generalizing available progress with
  | nil => exact ⟨progress, prepared, .nil⟩
  | cons returns_nothing first rest induction =>
      rw [List.forall_mem_cons] at proper typed square
      rw [List.map_cons, List.sum_cons, ← Nat.add_assoc] at registers counters
      obtain ⟨_, _, first_typed⟩ := typed.1
      have first_kept := fun id found found_eq => kept id found (rest.grows id found found_eq)
      have few_registers := Nat.le_trans (Nat.le_add_right _ _) registers
      have few_counters := Nat.le_trans (Nat.le_add_right _ _) counters
      obtain ⟨middle, middle_prepared, first_passes⟩ := first.exists_passes first_kept fits
        first_typed dominated.1 square.1 register_word counter_word few_registers few_counters
        prepared
      obtain ⟨next_register, next_counter⟩ := first.counts
      have register_eq := congrArg Handle.index next_register
      have counter_eq := congrArg Handle.index next_counter
      rw [Handle.index_skip (Nat.lt_of_le_of_lt few_registers register_word)] at register_eq
      rw [Handle.index_skip (Nat.lt_of_le_of_lt few_counters counter_word)] at counter_eq
      obtain ⟨finished, ready, others⟩ := induction kept
        (first.fits fits proper.1 first_typed dominated.1 square.1)
        proper.2 typed.2 dominated.2 square.2 (register_eq ▸ registers) (counter_eq ▸ counters)
        middle_prepared
      exact ⟨finished, ready, first_passes.append others⟩

/-! ### Totality -/

section Totality

theorem exists_bind {α β : Type} {first : Lowering α} {next : α → Lowering β} {middle : Allocation}
    {result : α} (first_eq : first before = .ok (result, middle))
    (others : ∃ outcome, next result middle = .ok outcome) :
    ∃ outcome, (first >>= next) before = .ok outcome := by
  obtain ⟨outcome, others⟩ := others
  exact ⟨outcome, StateT.bind_eq_ok_iff.mpr ⟨result, middle, first_eq, others⟩⟩

theorem exists_lift_bind {α β : Type} {first : Outcome α} {next : α → Lowering β} {result : α}
    (first_eq : first = .ok result) (others : ∃ outcome, next result before = .ok outcome) :
    ∃ outcome, ((liftM first : Lowering α) >>= next) before = .ok outcome :=
  exists_bind (StateT.lift_eq_ok_iff.mpr ⟨result, first_eq, rfl⟩) others

theorem exists_seq {α β : Type} {first : Lowering α} {next : α → Lowering β}
    (early : ∃ outcome, first before = .ok outcome)
    (late : ∀ result middle, ∃ outcome, next result middle = .ok outcome) :
    ∃ outcome, (first >>= next) before = .ok outcome := by
  obtain ⟨⟨result, middle⟩, first_eq⟩ := early
  exact exists_bind first_eq (late result middle)

theorem rankedShape_of_typeOf {value : Dataflow.ValueId}
    (type_eq : source.typeOf value = .ok (.ranked shape)) :
    rankedShape source value = .ok shape := by
  rw [rankedShape, type_eq]
  rfl

theorem exists_newBuffer (typed : operation.Typed source shapes resolution)
    (resolution_eq : resolution = .result shape) (before : Allocation) :
    ∃ after, newBuffer source operation before = .ok ((before.buffers.nextId, shape), after) := by
  obtain ⟨result, results_eq, type_eq⟩ := typed.result shape resolution_eq
  simp only [newBuffer, bind, StateT.bind_eq_ok_iff, StateT.lift_eq_ok_iff]
  exact ⟨_, result, _, ⟨_, Dataflow.Operation.result_eq_ok_iff.mpr results_eq, rfl⟩, shape, _,
    ⟨_, rankedShape_of_typeOf type_eq, rfl⟩, _, _, rfl, _, _, rfl, _, _, rfl, rfl⟩

theorem exists_nest {dimensions : List Nat} {body : List Index → Lowering (List Instruction)}
    (before : Allocation) (total : ∃ outcome,
      body ((before.nextLoopVariable.following dimensions.length).map .loopVariable)
        (counting before 0 dimensions.length) = .ok outcome) :
    ∃ outcome, nest source dimensions body before = .ok outcome := by
  obtain ⟨⟨inner, after⟩, inner_eq⟩ := total
  rw [nest_eq]
  exact exists_bind (freshLoopVariables_eq dimensions) (exists_bind inner_eq ⟨_, rfl⟩)

private theorem exists_storeLiteral (target : BufferId) (literal : TensorLiteral) :
    ∃ block, storeLiteral target literal.shape literal.values = .ok block := by
  refine Except.exists_mapM ?_
  rintro ⟨value, offset⟩ member
  have inside : 0 < literal.shape.size := by
    rw [← literal.filled]
    exact List.length_pos_of_mem (List.fst_mem_of_mem_zipIdx member)
  have indices_eq : literal.shape.indices? offset =
      some (Shape.indicesFrom offset literal.shape.dimensions).1 := by
    rw [Shape.indices?, if_neg (Shape.zero_notMem_of_size_pos inside)]
  exact ⟨_, Except.bind_eq_ok_iff.mpr ⟨_, Outcome.promised_eq_ok_iff.mpr indices_eq, rfl⟩⟩

variable (buffered : Buffered source available before)
variable (typed : operation.Typed source shapes resolution)
variable (dominated : ∀ operand ∈ operation.operands, operand ∈ available)

include buffered typed dominated

theorem exists_bufferHolding (position : Nat) {known : Shape}
    (known_eq : shapes[position]? = some known) :
    ∃ value buffer, operation.operand position = .ok value ∧
      source.typeOf value = .ok (.ranked known) ∧
      bufferHolding source value before = .ok (buffer, before) := by
  have inside : position < operation.operands.length := by
    rw [typed.length_operands]
    exact (List.getElem?_eq_some_iff.mp known_eq).1
  have value_eq := List.getElem?_eq_getElem inside
  obtain ⟨_, shape_eq, type_eq⟩ := typed.typeOf_operand value_eq
  obtain rfl := Option.some.inj (known_eq.symm.trans shape_eq)
  obtain ⟨buffer, -, held, -⟩ := buffered _ (dominated _ (List.mem_of_getElem? value_eq))
  refine ⟨_, buffer, Outcome.promised_eq_ok_iff.mpr value_eq, type_eq, ?_⟩
  simp only [bufferHolding, StateT.bind_eq_ok_iff, StateT.get_eq_ok_iff]
  refine ⟨_, _, rfl, ?_⟩
  rw [held]
  rfl

theorem exists_ofCombination (operator : Arithmetic) (shapes_eq : shapes = [shape, shape])
    (resolution_eq : resolution = .result shape) :
    ∃ outcome, ofCombination source operation operator before = .ok outcome := by
  subst shapes_eq
  obtain ⟨_, _, left_eq, -, left_held⟩ := exists_bufferHolding buffered typed dominated 0 rfl
  obtain ⟨_, _, right_eq, -, right_held⟩ := exists_bufferHolding buffered typed dominated 1 rfl
  obtain ⟨after, new⟩ := exists_newBuffer typed resolution_eq before
  exact exists_lift_bind left_eq <| exists_bind left_held <| exists_lift_bind right_eq <|
    exists_bind right_held <| exists_bind new <| exists_nest after ⟨_, rfl⟩

private theorem exists_ofMatmul {rows inner columns : Nat}
    (shapes_eq : shapes = [⟨[rows, inner]⟩, ⟨[inner, columns]⟩])
    (resolution_eq : resolution = .result ⟨[rows, columns]⟩) :
    ∃ outcome, ofMatmul source operation before = .ok outcome := by
  subst shapes_eq
  obtain ⟨_, _, left_eq, left_type, left_held⟩ :=
    exists_bufferHolding buffered typed dominated 0 rfl
  obtain ⟨_, _, right_eq, -, right_held⟩ := exists_bufferHolding buffered typed dominated 1 rfl
  obtain ⟨after, new⟩ := exists_newBuffer typed resolution_eq before
  exact exists_lift_bind left_eq <| exists_bind left_held <| exists_lift_bind right_eq <|
    exists_bind right_held <| exists_lift_bind (rankedShape_of_typeOf left_type) <|
    exists_lift_bind (Outcome.promised_eq_ok_iff.mpr rfl) <| exists_bind new <|
    exists_seq (exists_nest after ⟨_, rfl⟩) fun _ cleared =>
      exists_seq (exists_nest cleared ⟨_, rfl⟩) fun _ _ => ⟨_, rfl⟩

private theorem exists_ofTranspose {known : Shape} (shapes_eq : shapes = [known])
    (resolution_eq : resolution = .result shape) :
    ∃ outcome, ofTranspose source operation before = .ok outcome := by
  subst shapes_eq
  obtain ⟨_, _, operand_eq, -, held⟩ := exists_bufferHolding buffered typed dominated 0 rfl
  obtain ⟨after, new⟩ := exists_newBuffer typed resolution_eq before
  exact exists_lift_bind operand_eq <| exists_bind held <| exists_bind new <|
    exists_nest after ⟨_, rfl⟩

theorem exists_ofOperation (proper : operation.Proper) :
    ∃ outcome, ofOperation source operation before = .ok outcome := by
  have resolved := typed.resolved
  cases kind_eq : operation.kind with
  | constant literal =>
      rw [kind_eq] at resolved
      obtain ⟨after, new⟩ :=
        exists_newBuffer typed (Dataflow.OperationKind.resolve_constant resolved) before
      obtain ⟨block, block_eq⟩ := exists_storeLiteral before.buffers.nextId literal
      simp only [ofOperation, kind_eq]
      exact exists_bind new ⟨_, StateT.lift_eq_ok_iff.mpr ⟨block, block_eq, rfl⟩⟩
  | add =>
      rw [kind_eq] at resolved
      obtain ⟨known, shapes_eq, resolution_eq⟩ := Dataflow.OperationKind.resolve_add resolved
      simp only [ofOperation, kind_eq]
      exact exists_ofCombination buffered typed dominated .add shapes_eq resolution_eq
  | multiply =>
      rw [kind_eq] at resolved
      obtain ⟨known, shapes_eq, resolution_eq⟩ := Dataflow.OperationKind.resolve_multiply resolved
      simp only [ofOperation, kind_eq]
      exact exists_ofCombination buffered typed dominated .multiply shapes_eq resolution_eq
  | matmul =>
      rw [kind_eq] at resolved
      obtain ⟨rows, inner, columns, shapes_eq, resolution_eq⟩ :=
        Dataflow.OperationKind.resolve_matmul resolved
      simp only [ofOperation, kind_eq]
      exact exists_ofMatmul buffered typed dominated shapes_eq resolution_eq
  | transpose =>
      rw [kind_eq] at resolved
      obtain ⟨known, shapes_eq, resolution_eq⟩ := Dataflow.OperationKind.resolve_transpose resolved
      simp only [ofOperation, kind_eq]
      exact exists_ofTranspose buffered typed dominated shapes_eq resolution_eq
  | reshape target =>
      rw [kind_eq] at resolved
      obtain ⟨known, count, rfl, -, -, resolution_eq⟩ :=
        Dataflow.OperationKind.resolve_reshape resolved
      obtain ⟨_, _, operand_eq, -, held⟩ :=
        exists_bufferHolding buffered typed dominated 0 rfl
      obtain ⟨after, new⟩ := exists_newBuffer typed resolution_eq before
      simp only [ofOperation, kind_eq]
      exact exists_lift_bind operand_eq <| exists_bind held <| exists_bind new ⟨_, rfl⟩
  | cast =>
      rw [kind_eq] at resolved
      obtain ⟨known, rfl, resolution_eq⟩ := Dataflow.OperationKind.resolve_cast resolved
      obtain ⟨_, _, operand_eq, -, held⟩ :=
        exists_bufferHolding buffered typed dominated 0 rfl
      obtain ⟨result, results_eq, -⟩ := typed.result known resolution_eq
      simp only [ofOperation, kind_eq]
      exact exists_lift_bind operand_eq <| exists_bind held <|
        exists_lift_bind (Dataflow.Operation.result_eq_ok_iff.mpr results_eq) ⟨_, rfl⟩
  | print =>
      have only : shapes.length = 1 := by
        rw [← typed.length_operands]
        exact proper.operands 1 (by rw [kind_eq]; rfl)
      obtain ⟨known, rfl⟩ := List.length_eq_one_iff.mp only
      obtain ⟨_, _, operand_eq, -, held⟩ :=
        exists_bufferHolding buffered typed dominated 0 rfl
      simp only [ofOperation, kind_eq]
      exact exists_lift_bind operand_eq <| exists_bind held ⟨_, rfl⟩
  | leave =>
      simp only [ofOperation, kind_eq]
      exact ⟨_, rfl⟩
  | call callee =>
      have calls_nothing := typed.callee?_eq_none
      rw [kind_eq] at calls_nothing
      cases calls_nothing

omit buffered dominated in
theorem checkExpressible_eq_ok
    (ranked : ∀ result ∈ operation.results, ∃ known, source.typeOf result = .ok (.ranked known))
    (returns_nothing : operation.kind.isLeave = true → operation.operands = []) :
    checkExpressible source operation = .ok () := by
  have known : ∀ value ∈ operation.operands ++ operation.results,
      (do return !(← source.typeOf value).isRanked) = (.ok false : Outcome Bool) := by
    intro value member
    obtain ⟨shape, type_eq⟩ : ∃ shape, source.typeOf value = .ok (.ranked shape) := by
      rcases List.mem_append.mp member with reads | defines
      · obtain ⟨position, value_eq⟩ := List.mem_iff_getElem?.mp reads
        obtain ⟨shape, -, type_eq⟩ := typed.typeOf_operand value_eq
        exact ⟨shape, type_eq⟩
      · exact ranked value defines
    rw [type_eq]
    rfl
  rw [checkExpressible, Except.findM?_eq_none_iff.mpr known]
  cases kind_eq : operation.kind with
  | call callee =>
      have calls_nothing := typed.callee?_eq_none
      rw [kind_eq] at calls_nothing
      cases calls_nothing
  | leave =>
      have none_returned := returns_nothing (by rw [kind_eq]; rfl)
      simp [Bind.bind, Except.bind, none_returned]
  | _ => rfl

end Totality

theorem exists_ofOperations (buffered : Buffered source available before)
    (proper : ∀ operation ∈ code, operation.Proper)
    (typed : ∀ operation ∈ code, ∃ shapes resolution, operation.Typed source shapes resolution)
    (ranked : ∀ operation ∈ code, ∀ result ∈ operation.results,
      ∃ known, source.typeOf result = .ok (.ranked known))
    (dominated : Dataflow.Dominated available code)
    (returns_nothing : ∀ operation ∈ code,
      operation.kind.isLeave = true → operation.operands = []) :
    ∃ outcome, ofOperations source code before = .ok outcome := by
  induction code generalizing available before with
  | nil => exact ⟨_, rfl⟩
  | cons operation rest induction =>
      rw [List.forall_mem_cons] at proper typed ranked returns_nothing
      obtain ⟨_, _, first_typed⟩ := typed.1
      obtain ⟨⟨block, middle⟩, first_eq⟩ :=
        exists_ofOperation buffered first_typed dominated.1 proper.1
      obtain ⟨⟨others, after⟩, others_eq⟩ := induction
        ((ofOperation_eq_ok first_eq).buffered buffered proper.1 first_typed dominated.1)
        proper.2 typed.2 ranked.2 dominated.2 returns_nothing.2
      rw [ofOperations]
      exact exists_lift_bind (checkExpressible_eq_ok first_typed ranked.1 returns_nothing.1) <|
        exists_bind first_eq <| exists_bind others_eq ⟨_, rfl⟩

end Lowering

namespace Function

variable {function : Function} {progress : Progress}

private theorem exists_passes_allocs
    (fresh : ∀ id ∈ function.buffers.ids, progress.buffers[id.index]? = none) :
    ∃ buffers, function.Passes .outside progress { progress with buffers }
        (function.buffers.ids.map .alloc) ∧
      ∀ id ∈ function.buffers.ids, buffers[id.index]? = some .live := by
  have accepted : ∀ id ∈ function.buffers.ids, ∀ progress : Progress,
      progress.buffers[id.index]? = none → ∀ isLast,
        function.checkInstruction .outside isLast progress (.alloc id) =
          .ok { progress with buffers := progress.buffers.insert id.index .live } := by
    intro id member progress unknown isLast
    refine checkInstruction_alloc_eq_ok_iff.mpr ⟨rfl, Arena.mem_ids_iff.mp member, ?_, rfl⟩
    rw [Std.TreeMap.contains_eq_isSome_getElem?, unknown]
    exact Bool.false_ne_true
  obtain ⟨buffers, passes, buffers_eq⟩ :=
    exists_passes_phase (· = none) function.buffers.nodup_ids accepted fresh
  exact ⟨buffers, passes, fun id member => by rw [buffers_eq, if_pos member]⟩

private theorem exists_passes_deallocs
    (live : ∀ id ∈ function.buffers.ids, progress.buffers[id.index]? = some .live) :
    ∃ buffers, function.Passes .outside progress { progress with buffers }
        (function.buffers.ids.reverse.map .dealloc) ∧
      ∀ id ∈ function.buffers.ids, buffers[id.index]? = some .released := by
  have accepted : ∀ id ∈ function.buffers.ids.reverse, ∀ progress : Progress,
      progress.buffers[id.index]? = some .live → ∀ isLast,
        function.checkInstruction .outside isLast progress (.dealloc id) =
          .ok { progress with buffers := progress.buffers.insert id.index .released } :=
    fun id member progress known isLast => checkInstruction_dealloc_eq_ok_iff.mpr
      ⟨rfl, Arena.mem_ids_iff.mp (List.mem_reverse.mp member), known, rfl⟩
  have nodup : function.buffers.ids.reverse.Nodup :=
    (List.reverse_perm _).nodup_iff.mpr function.buffers.nodup_ids
  obtain ⟨buffers, passes, buffers_eq⟩ := exists_passes_phase (· = some .live) nodup accepted
    fun id member => live id (List.mem_reverse.mp member)
  exact ⟨buffers, passes, fun id member => by
    rw [buffers_eq, if_pos (List.mem_reverse.mpr member)]⟩

/-- Once all buffers are allocated, instructions may use them. -/
theorem exists_prepared (function : Function) :
    ∃ allocated, function.Passes .outside .start allocated (function.buffers.ids.map .alloc) ∧
      function.Prepared 0 [] allocated := by
  have fresh : ∀ id ∈ function.buffers.ids, Progress.start.buffers[id.index]? = none := by
    simp [Progress.start]
  obtain ⟨buffers, allocs, live⟩ := exists_passes_allocs fresh
  exact ⟨_, allocs, fun id found found_eq => live id (Arena.mem_ids_iff.mpr ⟨found, found_eq⟩),
    fun index written => by simp [Progress.start] at written, List.nil_subset _⟩

theorem verify_of_passes {body : List Instruction}
    (body_eq : function.body = function.buffers.ids.map .alloc ++ body ++
      function.buffers.ids.reverse.map .dealloc ++ [.leave])
    (accepted : ∀ progress : Progress, function.Prepared 0 [] progress →
      ∃ next finished, function.Prepared next [] finished ∧
        function.Passes .outside progress finished body) : function.verify = .ok () := by
  obtain ⟨allocated, allocs, ready⟩ := exists_prepared function
  obtain ⟨next, finished, prepared, passes⟩ := accepted allocated ready
  have still_live : ∀ id ∈ function.buffers.ids, finished.buffers[id.index]? = some .live := by
    intro id member
    obtain ⟨found, found_eq⟩ := Arena.mem_ids_iff.mp member
    exact prepared.live id found found_eq
  obtain ⟨released, deallocs, gone⟩ := exists_passes_deallocs still_live
  have checked : function.checkBlock .outside .start function.body =
      .ok { finished with buffers := released } := by
    rw [body_eq, (allocs.append passes).append deallocs]
    rfl
  have all_released : function.checkReleased { finished with buffers := released } = .ok () := by
    refine Except.forM_eq_ok_iff.mpr fun id member => ?_
    simp only [gone id member]
  have ended : function.body.getLast?.any endsFunction = true := by
    rw [body_eq, List.getLast?_concat]
    rfl
  rw [verify, checked]
  simp only [Bind.bind, Except.bind, ended, Bool.not_true, Bool.false_eq_true, if_false,
    all_released]

end Function

open Lowering

/-- A typed function without arguments that returns nothing is lowered. -/
theorem Function.exists_lowered {source : Dataflow.Function} (wellFormed : source.WellFormed)
    (proper : source.Proper) (typed : source.Typed) (no_arguments : source.arguments = [])
    (returns_nothing : ∀ operation ∈ source.code,
      operation.kind.isLeave = true → operation.operands = []) :
    ∃ lowered, Function.ofDataflow source = .ok lowered := by
  have start : Fits source source.arguments .start := no_arguments ▸ Fits.start source
  have ranked : ∀ operation ∈ source.code, ∀ result ∈ operation.results,
      ∃ known, source.typeOf result = .ok (.ranked known) :=
    fun operation member result defines => by
    obtain ⟨-, known, -, type_eq, -⟩ := typed.exists_shape proper member defines
    exact ⟨known, type_eq⟩
  obtain ⟨outcome, made⟩ := exists_ofOperations start.held proper typed ranked wellFormed.dominated
    returns_nothing
  rw [Function.ofDataflow, Dataflow.Function.bodyOperations_eq wellFormed.live]
  simp only [Bind.bind, Except.bind, StateT.run, made]
  exact ⟨_, rfl⟩

/-- With enough handles, a lowered function counts the registers and loop variables that its
operations need. -/
theorem Function.ofDataflow_counts {source : Dataflow.Function} {lowered : Function}
    (wellFormed : source.WellFormed) (lowering : Function.ofDataflow source = .ok lowered)
    (few_registers : (source.code.map fun operation => registersFor operation.kind).sum <
      Handle.wordSize)
    (few_counters : (source.code.map (countersFor source)).sum < Handle.wordSize) :
    ∃ body after, LowersAll source source.code .start after body ∧
      lowered.buffers = after.buffers ∧
      lowered.registerCount = (source.code.map fun operation => registersFor operation.kind).sum ∧
      lowered.loopVariableCount = (source.code.map (countersFor source)).sum ∧
      lowered.body = after.buffers.ids.map .alloc ++ body ++
        after.buffers.ids.reverse.map .dealloc ++ [.leave] := by
  obtain ⟨body, after, lowers, buffers_eq, registers_eq, counters_eq, -, body_eq⟩ :=
    ofDataflow_eq_ok wellFormed lowering
  obtain ⟨last_register, last_counter⟩ := lowers.skips
  have register_room : Allocation.start.nextRegister.index +
      (source.code.map fun operation => registersFor operation.kind).sum < Handle.wordSize :=
    (Nat.zero_add _).symm ▸ few_registers
  have counter_room : Allocation.start.nextLoopVariable.index +
      (source.code.map (countersFor source)).sum < Handle.wordSize :=
    (Nat.zero_add _).symm ▸ few_counters
  rw [last_register, Handle.index_skip register_room] at registers_eq
  rw [last_counter, Handle.index_skip counter_room] at counters_eq
  exact ⟨body, after, lowers, buffers_eq, registers_eq.trans (Nat.zero_add _),
    counters_eq.trans (Nat.zero_add _), body_eq⟩

/-- A legal function is lowered, and what comes out is verified. -/
theorem Function.exists_ofDataflow {source : Dataflow.Function} (wellFormed : source.WellFormed)
    (proper : source.Proper) (typed : source.Typed) (no_arguments : source.arguments = [])
    (legal : Legal source source.code) :
    ∃ lowered, Function.ofDataflow source = .ok lowered ∧ lowered.verify = .ok () := by
  have start : Fits source source.arguments .start := no_arguments ▸ Fits.start source
  obtain ⟨lowered, lowering⟩ := exists_lowered wellFormed proper typed no_arguments
    legal.returns_nothing
  obtain ⟨body, after, lowers, buffers_eq, registers_eq, counters_eq, body_eq⟩ :=
    ofDataflow_counts wellFormed lowering legal.registers legal.counters
  refine ⟨lowered, lowering, verify_of_passes (buffers_eq ▸ body_eq) fun progress prepared => ?_⟩
  obtain ⟨finished, ready, passes⟩ := lowers.exists_passes
    (fun id found found_eq => by rw [buffers_eq, found_eq]) start proper typed wellFormed.dominated
    legal.square (registers_eq ▸ legal.registers) (counters_eq ▸ legal.counters)
    (registers_eq ▸ Nat.le_of_eq (Nat.zero_add _)) (counters_eq ▸ Nat.le_of_eq (Nat.zero_add _))
    prepared
  exact ⟨_, finished, ready, passes⟩

private theorem Function.allocatable_ofDataflow {source : Dataflow.Function} {lowered : Function}
    (wellFormed : source.WellFormed) (proper : source.Proper) (typed : source.Typed)
    (no_arguments : source.arguments = []) (legal : Legal source source.code)
    (lowering : Function.ofDataflow source = .ok lowered) : lowered.Allocatable := by
  obtain ⟨body, after, lowers, buffers_eq, registers_eq, counters_eq, -, -⟩ :=
    ofDataflow_eq_ok wellFormed lowering
  have start : Fits source source.arguments .start := no_arguments ▸ Fits.start source
  have fits := lowers.fits start proper typed wellFormed.dominated legal.square
  refine ⟨fits.fitsNames registers_eq counters_eq, fun buffer found found_eq => ?_⟩
  rw [buffers_eq] at found_eq
  exact zeros?_of_counted (fits.counted buffer found found_eq) (fits.stored buffer found found_eq)

/-- Whether the function of a module is taken over only depends on the verification of its loops. -/
theorem Module.ofDataflow_eq {source : Dataflow.Function} {lowered : Function} {entry : String}
    (named : source.name = entry) (no_arguments : source.arguments = [])
    (no_results : source.resultTypes = []) (lowering : Function.ofDataflow source = .ok lowered) :
    Module.ofDataflow ⟨[source]⟩ entry = (do lowered.verify; return ⟨[lowered]⟩) := by
  simp only [Module.ofDataflow, named, no_arguments, no_results, lowering]
  rw [if_neg fun differs => differs rfl]
  rfl

/-- The loop module of a legal function is made, and it runs: it prints the lines that the function
calls for. -/
theorem Module.exists_run_ofDataflow {source : Dataflow.Function} {entry : String}
    (named : source.name = entry) (wellFormed : source.WellFormed) (proper : source.Proper)
    (typed : source.Typed) (no_arguments : source.arguments = [])
    (no_results : source.resultTypes = []) (legal : Legal source source.code) :
    ∃ module, ∃ effects : Dataflow.Effects, Module.ofDataflow ⟨[source]⟩ entry = .ok module ∧
      (∀ calls, source.evaluate calls [] = .ok effects) ∧
      module.run entry = (linesOf effects.printed, .ok ()) := by
  obtain ⟨lowered, lowering, verified⟩ :=
    Function.exists_ofDataflow wellFormed proper typed no_arguments legal
  have allocatable := Function.allocatable_ofDataflow wellFormed proper typed no_arguments legal
    lowering
  obtain ⟨start, final, start_eq, ran⟩ := Function.exists_runBlock verified allocatable
  obtain ⟨effects, evaluates, -, output_eq⟩ := Function.runBlock_ofDataflow wellFormed proper typed
    no_arguments lowering verified start_eq ran
  have made : Module.ofDataflow ⟨[source]⟩ entry = .ok ⟨[lowered]⟩ := by
    rw [ofDataflow_eq named no_arguments no_results lowering, verified]
    rfl
  obtain ⟨_, _, _, _, _, _, name_eq, -⟩ := Function.ofDataflow_eq_ok wellFormed lowering
  have found : Module.function? ⟨[lowered]⟩ entry = some lowered := by
    rw [Module.function?, List.find?_cons, name_eq, named]
    simp
  refine ⟨⟨[lowered]⟩, effects, made, evaluates, ?_⟩
  simp only [Module.run, found, Function.run, start_eq, ran, output_eq]

end Loop

end TensorLang
