import TensorLang.Proofs.Loop.Blocks
import TensorLang.Proofs.Loop.Nests

/-!
# What nests compute

A nest around a block that stores the right element at each index tuple fills a buffer with the
elements of a tensor.  A matrix product fills its buffer with zeros first; then each turn of its
second nest adds one product to one element.
-/

namespace TensorLang

namespace Loop

open RunState

/-- A buffer has come to hold a tensor; nothing else but registers and loop variables has changed.
-/
structure RunState.Computed (function : Function) (target : BufferId) (tensor : Tensor)
    (start final : RunState) : Prop where
  /-- The buffer holds the tensor. -/
  holds : Holds function final target tensor
  /-- The other buffers are as before. -/
  others : ∀ buffer, buffer ≠ target → final.elements? buffer = start.elements? buffer
  /-- Nothing is printed. -/
  output : final.output = start.output

namespace Function

variable {function : Function} {start state final : RunState} {control : Control}
variable {counters : List LoopVariableId} {target : BufferId} {found : Buffer}
variable {cells : Cells Float} {left right : BufferId} {x y : Tensor}

/-- A buffer that is filled with the elements of a tensor holds it. -/
theorem computed_of_filling {tensor : Tensor}
    (found_eq : function.buffers.get? target = some found) (shape_eq : found.shape = tensor.shape)
    (filling : Filling start target tensor.values tensor.values.length final) :
    Computed function target tensor start final := by
  obtain ⟨cells, cells_eq, values_eq⟩ := filling.toList_eq
  exact ⟨⟨found, cells, found_eq, shape_eq, cells_eq, values_eq⟩, filling.others, filling.output⟩

theorem map_fst_zip {dimensions : List Nat} (count : counters.length = dimensions.length) :
    (counters.zip dimensions).map Prod.fst = counters :=
  List.map_fst_zip (Nat.le_of_eq count)

theorem map_snd_zip {dimensions : List Nat} (count : counters.length = dimensions.length) :
    (counters.zip dimensions).map Prod.snd = dimensions :=
  List.map_snd_zip (Nat.le_of_eq count.symm)

private theorem map_counters_zip {dimensions : List Nat}
    (count : counters.length = dimensions.length) :
    (counters.zip dimensions).map (fun pair => state.counters.get? pair.1.index) =
      counters.map fun counter => state.counters.get? counter.index := by
  conv => rhs; rw [← map_fst_zip count, List.map_map]
  rfl

/-- A nest whose block stores the entries of a tensor computes the tensor. -/
theorem runBlock_fill {entry : List Nat → Float} {block : List Instruction}
    (count : counters.length = found.shape.dimensions.length) (distinct : counters.Nodup)
    (found_eq : function.buffers.get? target = some found)
    (cells_eq : start.elements? target = some cells) (size_eq : cells.size = found.shape.size)
    (turns : ∀ done tuple state control final,
      Filling start target (Tensor.tabulate found.shape entry).values done state →
      (counters.map Index.loopVariable).mapM state.index? = some tuple →
      function.runBlock block state = .ok control final →
      control = .proceed ∧
        Stored function target (counters.map .loopVariable) (entry tuple) state final)
    (success : function.runBlock (nested (counters.zip found.shape.dimensions) block) start =
      .ok control final) :
    control = .proceed ∧
      Computed function target (Tensor.tabulate found.shape entry) start final := by
  have filled := (Tensor.tabulate found.shape entry).filled
  rw [← map_fst_zip count] at distinct
  have whole := runBlock_nested distinct
    (fun done state =>
      Filling start target (Tensor.tabulate found.shape entry).values done state)
    (fun _ _ id value _ _ filling => filling.withCounter id value) ?_
    (Filling.zero cells_eq (size_eq.trans filled.symm)) success
  · refine ⟨whole.1, computed_of_filling found_eq rfl ?_⟩
    have done := whole.2
    rw [map_snd_zip count] at done
    rw [filled]
    exact done
  · intro position tuple tuple_eq state control final filling read ran
    rw [map_snd_zip count] at tuple_eq
    rw [map_counters_zip count] at read
    have indexed := mapM_index?_loopVariable read
    obtain ⟨proceeds, stored⟩ := turns position tuple state control final filling indexed ran
    refine ⟨proceeds, stored.counters, filling.stored stored ?_ ?_⟩
    · exact offset?_eq_some_iff.mpr
        ⟨tuple, found, indexed, found_eq, Shape.offset?_of_getElem? tuple_eq⟩
    · exact Tensor.getElem?_values_tabulate tuple_eq

/-- Element by element, the sum or product of two tensors of one shape is computed. -/
theorem runBlock_combination (found : Buffer) {operator : Arithmetic}
    {first second result : RegisterId} (apart : first ≠ second)
    (count : counters.length = found.shape.dimensions.length) (distinct : counters.Nodup)
    (found_eq : function.buffers.get? target = some found)
    (cells_eq : start.elements? target = some cells) (size_eq : cells.size = found.shape.size)
    (left_apart : left ≠ target) (right_apart : right ≠ target)
    (left_holds : Holds function start left x) (right_holds : Holds function start right y)
    (success : function.runBlock (nested (counters.zip found.shape.dimensions)
      [.load first left (counters.map .loopVariable),
        .load second right (counters.map .loopVariable),
        .arithmetic operator result (.register first) (.register second),
        .store (.register result) target (counters.map .loopVariable)]) start = .ok control final) :
    control = .proceed ∧ Computed function target (Tensor.tabulate found.shape fun indices =>
      operator.apply (x.element indices) (y.element indices)) start final := by
  refine runBlock_fill count distinct found_eq cells_eq size_eq ?_ success
  intro done tuple state control final filling indexed ran
  obtain ⟨proceeds, a, b, a_reads, b_reads, stored⟩ := runBlock_combine apart ran
  rw [(filling.holds left_apart left_holds).element_eq a_reads indexed,
    (filling.holds right_apart right_holds).element_eq b_reads indexed] at stored
  exact ⟨proceeds, stored⟩

/-- Reading with reversed indices computes the transposed tensor. -/
theorem runBlock_transposition (found : Buffer) {register : RegisterId}
    (count : counters.length = found.shape.dimensions.length) (distinct : counters.Nodup)
    (found_eq : function.buffers.get? target = some found)
    (cells_eq : start.elements? target = some cells) (size_eq : cells.size = found.shape.size)
    (left_apart : left ≠ target) (left_holds : Holds function start left x)
    (success : function.runBlock (nested (counters.zip found.shape.dimensions)
      [.load register left (counters.map Index.loopVariable).reverse,
        .store (.register register) target (counters.map .loopVariable)]) start =
          .ok control final) :
    control = .proceed ∧ Computed function target (Tensor.tabulate found.shape fun indices =>
      x.element indices.reverse) start final := by
  refine runBlock_fill count distinct found_eq cells_eq size_eq ?_ success
  intro done tuple state control final filling indexed ran
  obtain ⟨proceeds, a, a_reads, stored⟩ := runBlock_move ran
  rw [(filling.holds left_apart left_holds).element_eq a_reads (mapM_index?_reverse indexed)]
    at stored
  exact ⟨proceeds, stored⟩

/-- Storing zeros everywhere. -/
theorem runBlock_clear (found : Buffer) (count : counters.length = found.shape.dimensions.length)
    (distinct : counters.Nodup) (found_eq : function.buffers.get? target = some found)
    (cells_eq : start.elements? target = some cells) (size_eq : cells.size = found.shape.size)
    (success : function.runBlock (nested (counters.zip found.shape.dimensions)
      [.store (.immediate 0) target (counters.map .loopVariable)]) start = .ok control final) :
    control = .proceed ∧
      Computed function target (Tensor.tabulate found.shape fun _ => 0) start final := by
  refine runBlock_fill count distinct found_eq cells_eq size_eq ?_ success
  intro done tuple state control final filling indexed ran
  obtain ⟨proceeds, value, value_eq, stored⟩ := runBlock_store ran
  obtain rfl := Option.some.inj value_eq
  exact ⟨proceeds, stored⟩

/-! ### Literals -/

private theorem runBlock_storeLiteral {values : List Float} (done : List Float) {rest : List Float}
    {block : List Instruction}
    (found_eq : function.buffers.get? target = some found)
    (filled : values.length = found.shape.size) (values_eq : values = done ++ rest)
    (block_eq : (rest.zipIdx done.length).mapM (fun (value, offset) => do
      let indices ← Outcome.promised (found.shape.indices? offset)
      return .store (.immediate value) target (indices.map .constant) :
        Float × Nat → Outcome Instruction) = .ok block)
    (filling : Filling start target values done.length state)
    (success : function.runBlock block state = .ok control final) :
    control = .proceed ∧ Filling start target values values.length final := by
  induction rest generalizing done block state with
  | nil =>
      rw [List.zipIdx_nil, List.mapM_nil, Except.pure_eq_ok_iff] at block_eq
      subst block_eq
      obtain ⟨rfl, rfl⟩ := runBlock_nil_eq_ok_iff.mp success
      rw [List.append_nil] at values_eq
      exact ⟨rfl, values_eq ▸ filling⟩
  | cons value rest induction =>
      simp only [List.zipIdx_cons, List.mapM_cons, Except.bind_eq_ok_iff, Except.pure_eq_ok_iff,
        Outcome.promised_eq_ok_iff] at block_eq
      obtain ⟨_, ⟨indices, indices_eq, rfl⟩, others, others_eq, rfl⟩ := block_eq
      have value_eq : values[done.length]? = some value := by
        rw [values_eq, List.getElem?_append_right (Nat.le_refl _), Nat.sub_self]
        rfl
      have inside : done.length < found.shape.size := by
        rw [← filled]
        exact (List.getElem?_eq_some_iff.mp value_eq).1
      rw [← List.singleton_append, runBlock_append_eq_ok_iff] at success
      obtain ⟨first, middle, first_eq, success⟩ := success
      obtain ⟨rfl, stored_value, stored_eq, stored⟩ := runBlock_store first_eq
      obtain rfl := Option.some.inj stored_eq
      have place_eq : state.offset? function target (indices.map .constant) =
          some done.length :=
        offset?_eq_some_iff.mpr ⟨indices, found, mapM_index?_constant indices, found_eq,
          Shape.offset?_of_indices? indices_eq inside⟩
      have next := filling.stored stored place_eq value_eq
      have length_eq : (done ++ [value]).length = done.length + 1 := List.length_append
      rw [← length_eq] at next others_eq
      refine induction _ ?_ others_eq next success
      rw [values_eq, List.append_assoc]
      rfl

/-- The stores of a literal compute it. -/
theorem runBlock_literal (tensor : Tensor) {block : List Instruction}
    (found_eq : function.buffers.get? target = some found) (shape_eq : found.shape = tensor.shape)
    (cells_eq : start.elements? target = some cells) (size_eq : cells.size = found.shape.size)
    (block_eq : Lowering.storeLiteral target found.shape tensor.values = .ok block)
    (success : function.runBlock block start = .ok control final) :
    control = .proceed ∧ Computed function target tensor start final := by
  have filled : tensor.values.length = found.shape.size := by rw [tensor.filled, shape_eq]
  obtain ⟨proceeds, filling⟩ := runBlock_storeLiteral [] found_eq filled rfl block_eq
    (Filling.zero cells_eq (size_eq.trans filled.symm)) success
  exact ⟨proceeds, computed_of_filling found_eq shape_eq filling⟩

/-- Copying computes the reshaped tensor. -/
theorem runBlock_copy (found_eq : function.buffers.get? target = some found)
    (cells_eq : start.elements? target = some cells) (size_eq : cells.size = found.shape.size)
    (holds : Holds function start left x)
    (success : function.runBlock [.copy left target] start = .ok control final) :
    control = .proceed ∧ ∃ tensor, x.reshape? found.shape = some tensor ∧
      Computed function target tensor start final := by
  obtain ⟨first, middle, first_eq, rest_eq⟩ := runBlock_cons_eq_ok_iff.mp success
  obtain ⟨values, others, values_eq, others_eq, same, rfl, rfl⟩ :=
    runInstruction_copy_eq_ok_iff.mp first_eq
  obtain ⟨rfl, rfl⟩ := runBlock_nil_eq_ok_iff.mp rest_eq
  obtain ⟨known, stored, known_eq, -, stored_eq, toList_eq⟩ := holds
  obtain rfl := Option.some.inj (cells_eq.symm.trans others_eq)
  obtain rfl := Option.some.inj (values_eq.symm.trans stored_eq)
  have filled : x.values.length = found.shape.size := by
    rw [← toList_eq, Cells.length_toList, same, size_eq]
  have there := lt_size_of_elements? cells_eq
  refine ⟨rfl, ⟨found.shape, x.values, filled⟩, dif_pos filled,
    ⟨found, values, found_eq, rfl, ?_, toList_eq⟩, fun buffer apart => ?_, rfl⟩
  · rw [elements?_withSlot _ _ _ _ there, if_pos rfl]
  · rw [elements?_withSlot _ _ _ _ there, if_neg apart]

/-! ### Matrix products -/

/-- After some turns the buffer holds, for each element of a matrix product, the sum of the products
that its turns have added. -/
structure Summing (start : RunState) (target : BufferId) (x y : Tensor) (rows columns inner : Nat)
    (turns : Nat) (state : RunState) : Prop where
  /-- The buffer holds the sums. -/
  sums : ∃ cells, state.elements? target = some cells ∧ cells.size = rows * columns ∧
    ∀ place < rows * columns, cells.get? place =
      some (x.dot y (place / columns) (place % columns) (min inner (turns - place * inner)))
  /-- The other buffers are as before. -/
  others : ∀ buffer, buffer ≠ target → state.elements? buffer = start.elements? buffer
  /-- Nothing is printed. -/
  output : state.output = start.output

private theorem min_turns {place other inner position : Nat} (within : position < inner)
    (apart : other ≠ place) :
    min inner (place * inner + position + 1 - other * inner) =
      min inner (place * inner + position - other * inner) := by
  rcases Nat.lt_or_gt_of_ne apart with earlier | later
  · have room := Nat.mul_le_mul_right inner earlier
    rw [Nat.succ_mul] at room
    omega
  · have room := Nat.mul_le_mul_right inner later
    rw [Nat.succ_mul] at room
    omega

theorem rowMajor_pair (rows columns row column : Nat) :
    Shape.rowMajor [rows, columns] [row, column] = row * columns + column := by
  simp [Shape.rowMajor]

theorem rowMajor_triple {rows columns inner row column position : Nat} :
    Shape.rowMajor [rows, columns, inner] [row, column, position] =
      (row * columns + column) * inner + position := by
  simp [Shape.rowMajor, Nat.add_mul, Nat.mul_assoc, Nat.add_assoc]

variable {rows columns inner : Nat}

/-- One turn adds one product to the sum of its element. -/
theorem Summing.turn {row column position turns : Nat}
    (summing : Summing start target x y rows columns inner turns state)
    (within : Shape.Within [rows, columns, inner] [row, column, position])
    (turns_eq : turns = (row * columns + column) * inner + position)
    {indices : List Index}
    (found_eq : function.buffers.get? target = some found)
    (dimensions_eq : found.shape.dimensions = [rows, columns])
    (indexed : indices.mapM state.index? = some [row, column]) {sum : Float}
    (reads : Reads function state target indices sum)
    (stored : Stored function target indices
      (sum + x.element [row, position] * y.element [column, position]) state final) :
    Summing start target x y rows columns inner (turns + 1) final := by
  obtain ⟨row_lt, column_lt, position_lt, -⟩ := within
  have place_eq : found.shape.offset? [row, column] = some (row * columns + column) := by
    rw [← rowMajor_pair rows, Shape.offset?_eq_some_iff, dimensions_eq]
    exact ⟨⟨row_lt, column_lt, trivial⟩, rfl⟩
  have offset_eq : state.offset? function target indices = some (row * columns + column) :=
    offset?_eq_some_iff.mpr ⟨_, found, indexed, found_eq, place_eq⟩
  have row_eq : (row * columns + column) / columns = row := by
    rw [Nat.mul_comm, Nat.mul_add_div (by omega), Nat.div_eq_of_lt column_lt, Nat.add_zero]
  have column_eq : (row * columns + column) % columns = column := by
    rw [Nat.mul_comm, Nat.mul_add_mod, Nat.mod_eq_of_lt column_lt]
  have place_lt : row * columns + column < rows * columns := by
    have room := Nat.mul_le_mul_right columns row_lt
    rw [Nat.succ_mul] at room
    omega
  obtain ⟨cells, cells_eq, size_eq, sums⟩ := summing.sums
  obtain ⟨_, known, known_place_eq, known_eq, replaced⟩ := stored.replaced
  obtain rfl := Option.some.inj (offset_eq.symm.trans known_place_eq)
  obtain rfl := Option.some.inj (cells_eq.symm.trans known_eq)
  have sum_eq : sum = x.dot y row column position := by
    obtain ⟨_, read, read_place_eq, read_eq, value_eq⟩ := reads
    obtain rfl := Option.some.inj (offset_eq.symm.trans read_place_eq)
    obtain rfl := Option.some.inj (cells_eq.symm.trans read_eq)
    rw [sums _ place_lt, row_eq, column_eq, turns_eq, Nat.add_sub_cancel_left,
      Nat.min_eq_right (Nat.le_of_lt position_lt)] at value_eq
    exact (Option.some.inj value_eq).symm
  refine ⟨⟨_, by rw [replaced, if_pos rfl], by rw [Cells.size_set, size_eq],
    fun place inside => ?_⟩, fun buffer apart => ?_, stored.output.trans summing.output⟩
  · rw [Cells.get?_set, size_eq]
    by_cases same : row * columns + column = place
    · subst same
      have added : min inner ((row * columns + column) * inner + position + 1 -
          (row * columns + column) * inner) = position + 1 := by omega
      rw [if_pos ⟨rfl, inside⟩, row_eq, column_eq, turns_eq, added, Tensor.dot_succ, sum_eq]
    · rw [if_neg fun both => same both.1, sums place inside, turns_eq,
        min_turns position_lt (Ne.symm same)]
  · rw [replaced, if_neg apart, summing.others buffer apart]

/-- With zeros everywhere, no product has been added. -/
theorem Summing.zero (dimensions_eq : found.shape.dimensions = [rows, columns])
    (cleared : Computed function target (Tensor.tabulate found.shape fun _ => 0) start state) :
    Summing start target x y rows columns inner 0 state := by
  obtain ⟨known, cells, known_eq, shape_eq, cells_eq, values_eq⟩ := cleared.holds
  have length_eq : (Shape.indexTuples found.shape.dimensions).length = rows * columns := by
    rw [Shape.length_indexTuples, dimensions_eq]
    simp
  have size_eq : cells.size = rows * columns := by
    rw [← Cells.length_toList, values_eq, Tensor.tabulate, List.length_map, length_eq]
  refine ⟨⟨cells, cells_eq, size_eq, fun place inside => ?_⟩, cleared.others, cleared.output⟩
  rw [← length_eq] at inside
  rw [← Cells.getElem?_toList, values_eq,
    Tensor.getElem?_values_tabulate (List.getElem?_eq_getElem inside), Nat.zero_sub, Nat.min_zero]
  rfl

/-- After all turns each sum is an element of the product. -/
theorem Summing.computed (found_eq : function.buffers.get? target = some found)
    (dimensions_eq : found.shape.dimensions = [rows, columns])
    (summing : Summing start target x y rows columns inner (rows * (columns * inner)) final) :
    Computed function target (Tensor.tabulate found.shape fun indices =>
      x.dot y (indices.getD 0 0) (indices.getD 1 0) inner) start final := by
  obtain ⟨cells, cells_eq, size_eq, sums⟩ := summing.sums
  refine ⟨⟨found, cells, found_eq, rfl, cells_eq, ?_⟩, summing.others, summing.output⟩
  have length_eq : (Shape.indexTuples found.shape.dimensions).length = rows * columns := by
    rw [Shape.length_indexTuples, dimensions_eq]
    simp
  apply List.ext_getElem?
  intro place
  by_cases inside : place < rows * columns
  · have positive : 0 < columns := Nat.pos_of_lt_mul_left inside
    have within : Shape.Within [rows, columns] [place / columns, place % columns] :=
      ⟨Nat.div_lt_of_lt_mul (by rwa [Nat.mul_comm]), Nat.mod_lt _ positive, trivial⟩
    have tuple_eq := Shape.getElem?_indexTuples_rowMajor within
    rw [rowMajor_pair, Nat.div_add_mod', ← dimensions_eq] at tuple_eq
    rw [Cells.getElem?_toList, sums place inside, Tensor.getElem?_values_tabulate tuple_eq]
    have all : inner ≤ rows * (columns * inner) - place * inner := by
      have room := Nat.mul_le_mul_right inner inside
      rw [Nat.succ_mul, Nat.mul_assoc] at room
      omega
    rw [Nat.min_eq_left all]
    rfl
  · rw [List.getElem?_eq_none (by simpa [size_eq] using inside),
      List.getElem?_eq_none (by
        rw [Tensor.tabulate, List.length_map, length_eq]
        exact Nat.not_lt.mp inside)]

/-- The second nest of a matrix product adds up its products on zeros. -/
theorem runBlock_product (found : Buffer) {row column position : LoopVariableId}
    {first second third product result : RegisterId}
    (first_second : first ≠ second) (first_third : first ≠ third)
    (second_third : second ≠ third) (third_product : third ≠ product)
    (distinct : [row, column, position].Nodup)
    (found_eq : function.buffers.get? target = some found)
    (dimensions_eq : found.shape.dimensions = [rows, columns])
    (cleared : Computed function target (Tensor.tabulate found.shape fun _ => 0) start state)
    (left_apart : left ≠ target) (right_apart : right ≠ target)
    (left_holds : Holds function start left x) (right_holds : Holds function start right y)
    (success : function.runBlock
      (nested ([row, column, position].zip [rows, columns, inner])
        [.load first left [.loopVariable row, .loopVariable position],
          .load second right [.loopVariable column, .loopVariable position],
          .load third target [.loopVariable row, .loopVariable column],
          .arithmetic .multiply product (.register first) (.register second),
          .arithmetic .add result (.register third) (.register product),
          .store (.register result) target [.loopVariable row, .loopVariable column]]) state =
        .ok control final) :
    control = .proceed ∧ Computed function target (Tensor.tabulate found.shape fun indices =>
      x.dot y (indices.getD 0 0) (indices.getD 1 0) inner) start final := by
  have distinct_pairs :
      (([row, column, position].zip [rows, columns, inner]).map Prod.fst).Nodup := distinct
  have whole := runBlock_nested distinct_pairs
    (fun turns state => Summing start target x y rows columns inner turns state)
    (fun _ _ _ _ _ _ summing => ⟨summing.sums, summing.others, summing.output⟩) ?_
    (Summing.zero dimensions_eq cleared) success
  · refine ⟨whole.1, Summing.computed found_eq dimensions_eq ?_⟩
    have done := whole.2
    change Summing _ _ _ _ _ _ _ (rows * (columns * (inner * 1))) _ at done
    rwa [Nat.mul_one] at done
  · intro turns tuple tuple_eq state control final summing read ran
    have within := Shape.mem_indexTuples.mp (List.mem_of_getElem? tuple_eq)
    have turns_eq := Shape.rowMajor_of_getElem? tuple_eq
    change Shape.Within [rows, columns, inner] tuple at within
    change Shape.rowMajor [rows, columns, inner] tuple = turns at turns_eq
    change [state.counters.get? row.index, state.counters.get? column.index,
      state.counters.get? position.index] = tuple.map some at read
    match tuple, within, turns_eq, read with
    | [i, j, k], within, turns_eq, read =>
        simp only [List.map_cons, List.map_nil, List.cons.injEq, and_true] at read
        obtain ⟨row_eq, column_eq, position_eq⟩ := read
        obtain ⟨rfl, a, b, sum, a_reads, b_reads, sum_reads, stored⟩ :=
          runBlock_accumulate first_second first_third second_third third_product ran
        have pair : ∀ {outer inner : LoopVariableId} {m n : Nat},
            state.counters.get? outer.index = some m → state.counters.get? inner.index = some n →
            [Index.loopVariable outer, .loopVariable inner].mapM state.index? = some [m, n] := by
          intro outer inner m n outer_eq inner_eq
          have read : [outer, inner].map (fun counter => state.counters.get? counter.index) =
              [m, n].map some := by simp [outer_eq, inner_eq]
          exact mapM_index?_loopVariable read
        have kept : ∀ {buffer tensor}, buffer ≠ target → Holds function start buffer tensor →
            Holds function state buffer tensor := by
          rintro buffer tensor apart ⟨known, cells, known_eq, shape_eq, cells_eq, values_eq⟩
          exact ⟨known, cells, known_eq, shape_eq, (summing.others buffer apart).trans cells_eq,
            values_eq⟩
        rw [(kept left_apart left_holds).element_eq a_reads (pair row_eq position_eq),
          (kept right_apart right_holds).element_eq b_reads (pair column_eq position_eq)] at stored
        rw [rowMajor_triple] at turns_eq
        exact ⟨rfl, stored.counters, summing.turn within turns_eq.symm found_eq dimensions_eq
          (pair row_eq column_eq) sum_reads stored⟩

end Function

end Loop

end TensorLang
