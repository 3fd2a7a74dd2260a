import TensorLang.Proofs.Loop.Instructions
import TensorLang.Proofs.Tensor.Operations

/-!
# What the blocks of operations do

The innermost block of a nest loads a few elements, combines them and stores one.  A buffer is
filled with the elements of a tensor one after the other, while all other buffers stay as they are.
-/

namespace TensorLang

namespace Loop

namespace RunState

variable {function : Function} {state final : RunState} {buffer : BufferId}

theorem offset?_eq_some_iff {indices : List Index} {place : Nat} :
    state.offset? function buffer indices = some place ↔
      ∃ tuple found, indices.mapM state.index? = some tuple ∧
        function.buffers.get? buffer = some found ∧ found.shape.offset? tuple = some place := by
  simp only [offset?, Option.bind_eq_bind, Option.bind_eq_some_iff]
  constructor
  · rintro ⟨tuple, tuple_eq, found, found_eq, place_eq⟩
    exact ⟨tuple, found, tuple_eq, found_eq, place_eq⟩
  · rintro ⟨tuple, found, tuple_eq, found_eq, place_eq⟩
    exact ⟨tuple, tuple_eq, found, found_eq, place_eq⟩

theorem operand?_withRegister {register : RegisterId} (value : Float)
    (inside : register.index < state.registers.size) (other : RegisterId) :
    (state.withRegister register value).operand? (.register other) =
      if other = register then some value else state.operand? (.register other) := by
  obtain ⟨index⟩ := register
  obtain ⟨place⟩ := other
  simp only [operand?, withRegister, Cells.get?_set, Handle.mk.injEq]
  by_cases same : place = index
  · subst same
    rw [if_pos ⟨rfl, inside⟩, if_pos rfl]
  · rw [if_neg fun both => same both.1.symm, if_neg same]

/-- Loop variables that hold a tuple index with it. -/
theorem mapM_index?_loopVariable {counters : List LoopVariableId} {tuple : List Nat}
    (read : counters.map (fun counter => state.counters.get? counter.index) = tuple.map some) :
    (counters.map Index.loopVariable).mapM state.index? = some tuple := by
  rw [Option.mapM_eq_some_iff, List.map_map]
  exact read

theorem mapM_index?_constant (tuple : List Nat) :
    (tuple.map Index.constant).mapM state.index? = some tuple := by
  rw [Option.mapM_eq_some_iff, List.map_map]
  rfl

theorem mapM_index?_reverse {indices : List Index} {tuple : List Nat}
    (read : indices.mapM state.index? = some tuple) :
    indices.reverse.mapM state.index? = some tuple.reverse := by
  rw [Option.mapM_eq_some_iff] at read ⊢
  rw [List.map_reverse, read, List.map_reverse]

/-- The element at an index tuple of a buffer is the value. -/
def Reads (function : Function) (state : RunState) (buffer : BufferId) (indices : List Index)
    (value : Float) : Prop :=
  ∃ offset cells, state.offset? function buffer indices = some offset ∧
    state.elements? buffer = some cells ∧ cells.get? offset = some value

/-- A buffer holds the elements of a tensor. -/
def Holds (function : Function) (state : RunState) (buffer : BufferId) (tensor : Tensor) : Prop :=
  ∃ found cells, function.buffers.get? buffer = some found ∧ found.shape = tensor.shape ∧
    state.elements? buffer = some cells ∧ cells.toList = tensor.values

/-- What is read from a buffer is the element of the tensor that it holds. -/
theorem Holds.element_eq {tensor : Tensor} {indices : List Index} {tuple : List Nat} {value : Float}
    (holds : Holds function state buffer tensor) (reads : Reads function state buffer indices value)
    (tuple_eq : indices.mapM state.index? = some tuple) : value = tensor.element tuple := by
  obtain ⟨found, cells, found_eq, shape_eq, cells_eq, values_eq⟩ := holds
  obtain ⟨offset, others, offset_eq, others_eq, value_eq⟩ := reads
  obtain ⟨_, known, read, known_eq, place_eq⟩ := offset?_eq_some_iff.mp offset_eq
  obtain rfl := Option.some.inj (tuple_eq.symm.trans read)
  obtain rfl := Option.some.inj (found_eq.symm.trans known_eq)
  obtain rfl := Option.some.inj (cells_eq.symm.trans others_eq)
  rw [shape_eq] at place_eq
  rw [← Cells.getElem?_toList, values_eq, Tensor.element_of_offset? place_eq] at value_eq
  exact (Option.some.inj value_eq).symm

/-- One element of a buffer has been replaced, and nothing else but registers. -/
structure Stored (function : Function) (target : BufferId) (indices : List Index) (value : Float)
    (state final : RunState) : Prop where
  /-- Loop variables are kept. -/
  counters : final.counters = state.counters
  /-- Nothing is printed. -/
  output : final.output = state.output
  /-- The element at the index tuple is replaced. -/
  replaced : ∃ place cells, state.offset? function target indices = some place ∧
    state.elements? target = some cells ∧ ∀ buffer, final.elements? buffer =
      if buffer = target then some (cells.set place value) else state.elements? buffer

theorem Stored.of_withRegister {target : BufferId} {indices : List Index} {register : RegisterId}
    {number value : Float}
    (stored : Stored function target indices value (state.withRegister register number) final) :
    Stored function target indices value state final :=
  ⟨stored.counters, stored.output, stored.replaced⟩

/-- The buffer holds the first `count` of the values, and all other buffers hold what they held at
the start. -/
structure Filling (start : RunState) (target : BufferId) (values : List Float) (count : Nat)
    (state : RunState) : Prop where
  /-- The buffer holds the first values. -/
  filled : ∃ cells, state.elements? target = some cells ∧ cells.size = values.length ∧
    ∀ place < count, cells.get? place = values[place]?
  /-- The other buffers are as before. -/
  others : ∀ buffer, buffer ≠ target → state.elements? buffer = start.elements? buffer
  /-- Nothing is printed. -/
  output : state.output = start.output

namespace Filling

variable {start : RunState} {target : BufferId} {values : List Float} {count : Nat}

theorem zero {cells : Cells Float} (cells_eq : start.elements? target = some cells)
    (size_eq : cells.size = values.length) : Filling start target values 0 start :=
  ⟨⟨cells, cells_eq, size_eq, fun _ none_before => by cases none_before⟩, fun _ _ => rfl, rfl⟩

theorem withCounter (filling : Filling start target values count state) (id : LoopVariableId)
    (value : Nat) : Filling start target values count (state.withCounter id value) :=
  ⟨filling.filled, filling.others, filling.output⟩

/-- A buffer that is being filled is not among those that are kept. -/
theorem holds (filling : Filling start target values count state) {tensor : Tensor}
    (apart : buffer ≠ target) (holds : Holds function start buffer tensor) :
    Holds function state buffer tensor := by
  obtain ⟨found, cells, found_eq, shape_eq, cells_eq, values_eq⟩ := holds
  exact ⟨found, cells, found_eq, shape_eq, (filling.others buffer apart).trans cells_eq, values_eq⟩

/-- Storing the next value goes on with filling. -/
theorem stored (filling : Filling start target values count state) {indices : List Index}
    {value : Float} (stored : Stored function target indices value state final)
    (place_eq : state.offset? function target indices = some count)
    (value_eq : values[count]? = some value) :
    Filling start target values (count + 1) final := by
  obtain ⟨cells, cells_eq, size_eq, filled⟩ := filling.filled
  obtain ⟨place, known, known_place_eq, known_eq, replaced⟩ := stored.replaced
  obtain rfl := Option.some.inj (place_eq.symm.trans known_place_eq)
  obtain rfl := Option.some.inj (cells_eq.symm.trans known_eq)
  have inside : count < cells.size := by
    rw [size_eq]
    exact (List.getElem?_eq_some_iff.mp value_eq).1
  refine ⟨⟨cells.set count value, by rw [replaced, if_pos rfl], by rw [Cells.size_set, size_eq],
    fun place below => ?_⟩, fun buffer apart => ?_, stored.output.trans filling.output⟩
  · rw [Cells.get?_set]
    by_cases last : count = place
    · subst last
      rw [if_pos ⟨rfl, inside⟩, value_eq]
    · rw [if_neg fun both => last both.1, filled place (by omega)]
  · rw [replaced, if_neg apart, filling.others buffer apart]

/-- In the end the buffer holds all values. -/
theorem toList_eq (filling : Filling start target values values.length state) :
    ∃ cells, state.elements? target = some cells ∧ cells.toList = values := by
  obtain ⟨cells, cells_eq, size_eq, filled⟩ := filling.filled
  refine ⟨cells, cells_eq, List.ext_getElem? fun place => ?_⟩
  by_cases inside : place < values.length
  · rw [Cells.getElem?_toList, filled place inside]
  · rw [List.getElem?_eq_none (by simpa [size_eq] using inside),
      List.getElem?_eq_none (Nat.not_lt.mp inside)]

end Filling

end RunState

namespace Function

open RunState

variable {function : Function} {state final : RunState} {control : Control}
variable {left right target : BufferId} {indices : List Index}

theorem runBlock_load {destination : RegisterId} {rest : List Instruction}
    (success : function.runBlock (.load destination left indices :: rest) state =
      .ok control final) :
    ∃ value, Reads function state left indices value ∧
      destination.index < state.registers.size ∧
      function.runBlock rest (state.withRegister destination value) = .ok control final := by
  obtain ⟨first, middle, first_eq, rest_eq⟩ := runBlock_cons_eq_ok_iff.mp success
  obtain ⟨offset, cells, value, offset_eq, cells_eq, value_eq, inside, rfl, rfl⟩ :=
    runInstruction_load_eq_ok_iff.mp first_eq
  exact ⟨value, ⟨offset, cells, offset_eq, cells_eq, value_eq⟩, inside, rest_eq⟩

/-- An arithmetic instruction goes on and sets a register to what it computes. -/
theorem runBlock_arithmetic {operator : Arithmetic} {destination : RegisterId}
    {first second : Operand} {rest : List Instruction}
    (success : function.runBlock (.arithmetic operator destination first second :: rest) state =
      .ok control final) :
    ∃ x y, state.operand? first = some x ∧ state.operand? second = some y ∧
      destination.index < state.registers.size ∧
      function.runBlock rest (state.withRegister destination (operator.apply x y)) =
        .ok control final := by
  obtain ⟨_, middle, first_eq, rest_eq⟩ := runBlock_cons_eq_ok_iff.mp success
  obtain ⟨x, y, x_eq, y_eq, inside, rfl, rfl⟩ := runInstruction_arithmetic_eq_ok_iff.mp first_eq
  exact ⟨x, y, x_eq, y_eq, inside, rest_eq⟩

/-- A store at the end of a block replaces one element. -/
theorem runBlock_store {operand : Operand}
    (success : function.runBlock [.store operand target indices] state = .ok control final) :
    control = .proceed ∧ ∃ value, state.operand? operand = some value ∧
      Stored function target indices value state final := by
  obtain ⟨_, middle, first_eq, rest_eq⟩ := runBlock_cons_eq_ok_iff.mp success
  obtain ⟨value, place, cells, value_eq, place_eq, cells_eq, inside, rfl, rfl⟩ :=
    runInstruction_store_eq_ok_iff.mp first_eq
  obtain ⟨rfl, rfl⟩ := runBlock_nil_eq_ok_iff.mp rest_eq
  refine ⟨rfl, value, value_eq, rfl, rfl, place, cells, place_eq, cells_eq, fun buffer => ?_⟩
  exact elements?_withSlot _ _ _ _ (lt_size_of_elements? cells_eq)

/-- Combining the elements of two buffers. -/
theorem runBlock_combine {operator : Arithmetic} {first second result : RegisterId}
    (apart : first ≠ second)
    (success : function.runBlock [.load first left indices, .load second right indices,
      .arithmetic operator result (.register first) (.register second),
      .store (.register result) target indices] state = .ok control final) :
    control = .proceed ∧ ∃ x y, Reads function state left indices x ∧
      Reads function state right indices y ∧
      Stored function target indices (operator.apply x y) state final := by
  obtain ⟨x, x_reads, first_inside, success⟩ := runBlock_load success
  obtain ⟨y, y_reads, second_inside, success⟩ := runBlock_load success
  obtain ⟨x', y', x_eq, y_eq, result_inside, success⟩ := runBlock_arithmetic success
  obtain ⟨rfl, value, value_eq, stored⟩ := runBlock_store success
  rw [operand?_withRegister _ second_inside, if_neg apart,
    operand?_withRegister _ first_inside, if_pos rfl] at x_eq
  rw [operand?_withRegister _ second_inside, if_pos rfl] at y_eq
  rw [operand?_withRegister _ result_inside, if_pos rfl] at value_eq
  obtain rfl := Option.some.inj x_eq
  obtain rfl := Option.some.inj y_eq
  obtain rfl := Option.some.inj value_eq
  exact ⟨rfl, x, y, x_reads, y_reads, stored.of_withRegister.of_withRegister.of_withRegister⟩

/-- Moving an element to other indices. -/
theorem runBlock_move {register : RegisterId} {others : List Index}
    (success : function.runBlock [.load register left others,
      .store (.register register) target indices] state = .ok control final) :
    control = .proceed ∧ ∃ x, Reads function state left others x ∧
      Stored function target indices x state final := by
  obtain ⟨x, x_reads, inside, success⟩ := runBlock_load success
  obtain ⟨rfl, value, value_eq, stored⟩ := runBlock_store success
  rw [operand?_withRegister _ inside, if_pos rfl] at value_eq
  obtain rfl := Option.some.inj value_eq
  exact ⟨rfl, x, x_reads, stored.of_withRegister⟩

/-- Adding one product to an element. -/
theorem runBlock_accumulate {first second third product result : RegisterId}
    {row column inner : Index} (first_second : first ≠ second) (first_third : first ≠ third)
    (second_third : second ≠ third) (third_product : third ≠ product)
    (success : function.runBlock [.load first left [row, inner], .load second right [column, inner],
      .load third target [row, column],
      .arithmetic .multiply product (.register first) (.register second),
      .arithmetic .add result (.register third) (.register product),
      .store (.register result) target [row, column]] state = .ok control final) :
    control = .proceed ∧ ∃ x y sum, Reads function state left [row, inner] x ∧
      Reads function state right [column, inner] y ∧
      Reads function state target [row, column] sum ∧
      Stored function target [row, column] (sum + x * y) state final := by
  obtain ⟨x, x_reads, first_inside, success⟩ := runBlock_load success
  obtain ⟨y, y_reads, second_inside, success⟩ := runBlock_load success
  obtain ⟨sum, sum_reads, third_inside, success⟩ := runBlock_load success
  obtain ⟨x', y', x_eq, y_eq, product_inside, success⟩ := runBlock_arithmetic success
  obtain ⟨sum', xy, sum_eq, xy_eq, result_inside, success⟩ := runBlock_arithmetic success
  obtain ⟨rfl, value, value_eq, stored⟩ := runBlock_store success
  rw [operand?_withRegister _ third_inside, if_neg first_third,
    operand?_withRegister _ second_inside, if_neg first_second,
    operand?_withRegister _ first_inside, if_pos rfl] at x_eq
  rw [operand?_withRegister _ third_inside, if_neg second_third,
    operand?_withRegister _ second_inside, if_pos rfl] at y_eq
  rw [operand?_withRegister _ product_inside, if_neg third_product,
    operand?_withRegister _ third_inside, if_pos rfl] at sum_eq
  rw [operand?_withRegister _ product_inside, if_pos rfl] at xy_eq
  rw [operand?_withRegister _ result_inside, if_pos rfl] at value_eq
  obtain rfl := Option.some.inj x_eq
  obtain rfl := Option.some.inj y_eq
  obtain rfl := Option.some.inj sum_eq
  obtain rfl := Option.some.inj xy_eq
  obtain rfl := Option.some.inj value_eq
  refine ⟨rfl, x, y, sum, x_reads, y_reads, sum_reads, ?_⟩
  exact stored.of_withRegister.of_withRegister.of_withRegister.of_withRegister.of_withRegister

end Function

end Loop

end TensorLang
