import TensorLang.Loop.Execution
import TensorLang.Proofs.Failing

/-!
# What instructions do

An instruction that succeeds looks a few things up in the state and changes one of its parts.  For
each instruction this module says which look-ups have to succeed and which state comes out.
-/

namespace TensorLang

namespace Loop

namespace RunState

/-- The elements of a live buffer. -/
def elements? (state : RunState) (buffer : BufferId) : Option (Cells Float) :=
  match state.buffers[buffer.index]? with
  | some (.live cells) => some cells
  | _ => none

/-- The number that an operand stands for. -/
def operand? (state : RunState) : Operand → Option Float
  | .immediate value => some value
  | .register register => state.registers.get? register.index

/-- The number that an index stands for. -/
def index? (state : RunState) : Index → Option Nat
  | .constant value => some value
  | .loopVariable id => state.counters.get? id.index

/-- The row-major offset of an index tuple into a buffer. -/
def offset? (state : RunState) (function : Function) (buffer : BufferId) (indices : List Index) :
    Option Nat := do
  let tuple ← indices.mapM state.index?
  let found ← function.buffers.get? buffer
  found.shape.offset? tuple

/-- The state with other contents of a buffer. -/
def withSlot (state : RunState) (buffer : BufferId) (slot : Slot) : RunState :=
  { state with buffers := state.buffers.setIfInBounds buffer.index slot }

/-- The state with another number in a register. -/
def withRegister (state : RunState) (register : RegisterId) (value : Float) : RunState :=
  { state with registers := state.registers.set register.index value }

/-- The state with another value of a loop variable. -/
def withCounter (state : RunState) (counter : LoopVariableId) (value : Nat) : RunState :=
  { state with counters := state.counters.set counter.index value }

/-- The state after printing a line. -/
def withLine (state : RunState) (line : String) : RunState :=
  { state with output := state.output ++ line ++ "\n" }

theorem elements?_eq_some_iff {state : RunState} {buffer : BufferId} {cells : Cells Float} :
    state.elements? buffer = some cells ↔ state.buffers[buffer.index]? = some (.live cells) := by
  unfold elements?
  split <;> simp_all

theorem lt_size_of_elements? {state : RunState} {buffer : BufferId} {cells : Cells Float}
    (found : state.elements? buffer = some cells) : buffer.index < state.buffers.size :=
  (Array.getElem?_eq_some_iff.mp (elements?_eq_some_iff.mp found)).1

theorem elements?_withSlot (state : RunState) (buffer other : BufferId) (cells : Cells Float)
    (there : buffer.index < state.buffers.size) :
    (state.withSlot buffer (.live cells)).elements? other =
      if other = buffer then some cells else state.elements? other := by
  obtain ⟨index⟩ := buffer
  obtain ⟨place⟩ := other
  simp only [elements?, withSlot, Array.getElem?_setIfInBounds, Handle.mk.injEq]
  by_cases same : place = index
  · subst same
    simp_all
  · simp [same, Ne.symm same]

theorem withSlot_set {state : RunState} {buffer : BufferId} {cells : Cells Float}
    (offset : Nat) (value : Float) (found : state.elements? buffer = some cells) :
    { state with buffers := state.buffers.modify buffer.index (Slot.setElement offset value) } =
      state.withSlot buffer (.live (cells.set offset value)) := by
  have slot_eq := elements?_eq_some_iff.mp found
  have inside := lt_size_of_elements? found
  have buffers_eq : state.buffers.modify buffer.index (Slot.setElement offset value) =
      state.buffers.setIfInBounds buffer.index (.live (cells.set offset value)) := by
    apply Array.ext_getElem?
    intro place
    rw [Array.getElem?_modify, Array.getElem?_setIfInBounds]
    by_cases same : buffer.index = place
    · subst same
      rw [if_pos rfl, if_pos rfl, if_pos inside, slot_eq]
      rfl
    · rw [if_neg same, if_neg same]
  rw [withSlot, buffers_eq]

end RunState

namespace Run

theorem lift_eq_ok_iff {α : Type} {outcome : Outcome α} {state final : RunState} {result : α} :
    lift outcome state = .ok result final ↔ outcome = .ok result ∧ state = final := by
  unfold lift
  cases outcome <;> simp

theorem fail_ne_ok {α : Type} {message : String} {state final : RunState} {result : α} :
    (fail message : Run α) state ≠ .ok result final :=
  EStateM.throw_ne_ok

private theorem slot_eq_ok_iff {buffer : BufferId} {state final : RunState} {found : Slot} :
    slot buffer state = .ok found final ↔
      state.buffers[buffer.index]? = some found ∧ state = final := by
  simp only [slot, EStateM.bind_eq_ok_iff, EStateM.get_eq_ok_iff, lift_eq_ok_iff,
    Outcome.promised_eq_ok_iff]
  constructor
  · rintro ⟨_, _, ⟨rfl, rfl⟩, found_eq, rfl⟩
    exact ⟨found_eq, rfl⟩
  · rintro ⟨found_eq, rfl⟩
    exact ⟨_, _, ⟨rfl, rfl⟩, found_eq, rfl⟩

theorem elements_eq_ok_iff {buffer : BufferId} {access : String} {state final : RunState}
    {cells : Cells Float} :
    elements buffer access state = .ok cells final ↔
      state.elements? buffer = some cells ∧ state = final := by
  simp only [elements, EStateM.bind_eq_ok_iff, slot_eq_ok_iff, RunState.elements?_eq_some_iff]
  constructor
  · rintro ⟨found, _, ⟨found_eq, rfl⟩, success⟩
    cases found with
    | live values =>
        obtain ⟨rfl, rfl⟩ := EStateM.pure_eq_ok_iff.mp success
        exact ⟨found_eq, rfl⟩
    | unallocated => exact absurd success fail_ne_ok
    | released => exact absurd success fail_ne_ok
  · rintro ⟨found_eq, rfl⟩
    exact ⟨_, _, ⟨found_eq, rfl⟩, rfl⟩

theorem operand_eq_ok_iff {value : Operand} {state final : RunState} {number : Float} :
    operand value state = .ok number final ↔
      state.operand? value = some number ∧ state = final := by
  cases value with
  | immediate value => simp [operand, RunState.operand?, EStateM.pure_eq_ok_iff]
  | register register =>
      simp only [operand, RunState.operand?, EStateM.bind_eq_ok_iff, EStateM.get_eq_ok_iff,
        lift_eq_ok_iff, Outcome.promised_eq_ok_iff]
      constructor
      · rintro ⟨_, _, ⟨rfl, rfl⟩, found⟩
        exact found
      · intro found
        exact ⟨_, _, ⟨rfl, rfl⟩, found⟩

private theorem index_eq_ok_iff {value : Index} {state final : RunState} {number : Nat} :
    index value state = .ok number final ↔
      state.index? value = some number ∧ state = final := by
  cases value with
  | constant value => simp [index, RunState.index?, EStateM.pure_eq_ok_iff]
  | loopVariable id =>
      simp only [index, RunState.index?, EStateM.bind_eq_ok_iff, EStateM.get_eq_ok_iff,
        lift_eq_ok_iff, Outcome.promised_eq_ok_iff]
      constructor
      · rintro ⟨_, _, ⟨rfl, rfl⟩, found⟩
        exact found
      · intro found
        exact ⟨_, _, ⟨rfl, rfl⟩, found⟩

private theorem mapM_index_eq_ok_iff {indices : List Index} {state final : RunState}
    {tuple : List Nat} :
    (indices.mapM index) state = .ok tuple final ↔
      indices.mapM state.index? = some tuple ∧ state = final := by
  induction indices generalizing tuple state final with
  | nil => simp [EStateM.pure_eq_ok_iff]
  | cons first rest induction =>
      simp only [List.mapM_cons, EStateM.bind_eq_ok_iff, index_eq_ok_iff, induction,
        EStateM.pure_eq_ok_iff, Option.bind_eq_bind, Option.bind_eq_some_iff, Option.pure_def,
        Option.some.injEq]
      constructor
      · rintro ⟨value, _, ⟨value_eq, rfl⟩, values, _, ⟨values_eq, rfl⟩, tuple_eq, rfl⟩
        exact ⟨⟨value, value_eq, values, values_eq, tuple_eq⟩, rfl⟩
      · rintro ⟨⟨value, value_eq, values, values_eq, tuple_eq⟩, rfl⟩
        exact ⟨value, _, ⟨value_eq, rfl⟩, values, _, ⟨values_eq, rfl⟩, tuple_eq, rfl⟩

theorem offset_eq_ok_iff {function : Function} {buffer : BufferId} {indices : List Index}
    {state final : RunState} {place : Nat} :
    offset function buffer indices state = .ok place final ↔
      state.offset? function buffer indices = some place ∧ state = final := by
  simp only [offset, EStateM.bind_eq_ok_iff, mapM_index_eq_ok_iff, lift_eq_ok_iff,
    Outcome.promised_eq_ok_iff, RunState.offset?, Option.bind_eq_bind, Option.bind_eq_some_iff]
  constructor
  · rintro ⟨tuple, _, ⟨tuple_eq, rfl⟩, found, _, ⟨found_eq, rfl⟩, success⟩
    cases offset_eq : found.shape.offset? tuple with
    | some offset =>
        rw [offset_eq] at success
        obtain ⟨rfl, rfl⟩ := EStateM.pure_eq_ok_iff.mp success
        exact ⟨⟨tuple, tuple_eq, found, found_eq, offset_eq⟩, rfl⟩
    | none =>
        rw [offset_eq] at success
        exact absurd success fail_ne_ok
  · rintro ⟨⟨tuple, tuple_eq, found, found_eq, offset_eq⟩, rfl⟩
    refine ⟨tuple, _, ⟨tuple_eq, rfl⟩, found, _, ⟨found_eq, rfl⟩, ?_⟩
    rw [offset_eq]
    rfl

theorem setRegister_eq_ok_iff {register : RegisterId} {value : Float} {state final : RunState}
    {result : Unit} :
    setRegister register value state = .ok result final ↔
      register.index < state.registers.size ∧ state.withRegister register value = final := by
  simp only [setRegister, EStateM.bind_eq_ok_iff, EStateM.get_eq_ok_iff]
  constructor
  · rintro ⟨_, _, ⟨rfl, rfl⟩, success⟩
    split at success
    · exact ⟨by assumption, EStateM.modify_eq_ok_iff.mp success⟩
    · exact absurd success EStateM.throw_ne_ok
  · rintro ⟨inside, rfl⟩
    exact ⟨_, _, ⟨rfl, rfl⟩, by rw [if_pos inside]; rfl⟩

theorem setCounter_eq_ok_iff {counter : LoopVariableId} {value : Nat} {state final : RunState}
    {result : Unit} :
    setCounter counter value state = .ok result final ↔
      counter.index < state.counters.size ∧ state.withCounter counter value = final := by
  simp only [setCounter, EStateM.bind_eq_ok_iff, EStateM.get_eq_ok_iff]
  constructor
  · rintro ⟨_, _, ⟨rfl, rfl⟩, success⟩
    split at success
    · exact ⟨by assumption, EStateM.modify_eq_ok_iff.mp success⟩
    · exact absurd success EStateM.throw_ne_ok
  · rintro ⟨inside, rfl⟩
    exact ⟨_, _, ⟨rfl, rfl⟩, by rw [if_pos inside]; rfl⟩

theorem setElement_eq_ok_iff {buffer : BufferId} {offset : Nat} {value : Float}
    {state final : RunState} {result : Unit} {cells : Cells Float}
    (found : state.elements? buffer = some cells) :
    setElement buffer offset value state = .ok result final ↔
      state.withSlot buffer (.live (cells.set offset value)) = final := by
  rw [setElement, EStateM.modify_eq_ok_iff, RunState.withSlot_set offset value found]

/-- One more repetition of a step: the loop variable is set, the step runs, and unless it leaves
the function the other repetitions follow. -/
theorem repeatStep_succ_eq_ok_iff {step : Run Control} {counter : LoopVariableId}
    {stride count value : Nat} {state final : RunState} {control : Control} :
    repeatStep step counter stride (count + 1) value state = .ok control final ↔
      counter.index < state.counters.size ∧
        ∃ first middle, step (state.withCounter counter value) = .ok first middle ∧
          match first with
          | .leave => control = .leave ∧ middle = final
          | .proceed =>
              repeatStep step counter stride count (value + stride) middle = .ok control final := by
  simp only [repeatStep, EStateM.bind_eq_ok_iff, setCounter_eq_ok_iff]
  constructor
  · rintro ⟨_, _, ⟨inside, rfl⟩, first, middle, first_eq, rest⟩
    refine ⟨inside, first, middle, first_eq, ?_⟩
    cases first with
    | leave => exact (EStateM.pure_eq_ok_iff.mp rest).imp_left Eq.symm
    | proceed => exact rest
  · rintro ⟨inside, first, middle, first_eq, rest⟩
    refine ⟨⟨⟩, _, ⟨inside, rfl⟩, first, middle, first_eq, ?_⟩
    cases first with
    | leave =>
        obtain ⟨rfl, rfl⟩ := rest
        rfl
    | proceed => exact rest

end Run

namespace Function

variable {function : Function} {state final : RunState} {control : Control}

theorem runInstruction_alloc_eq_ok_iff {buffer : BufferId} :
    function.runInstruction (.alloc buffer) state = .ok control final ↔
      ∃ found cells, function.buffers.get? buffer = some found ∧ zeros? found.shape = some cells ∧
        control = .proceed ∧ state.withSlot buffer (.live cells) = final := by
  simp only [runInstruction, Run.setSlot, EStateM.bind_eq_ok_iff, EStateM.pure_eq_ok_iff,
    EStateM.modify_eq_ok_iff, Run.lift_eq_ok_iff, Outcome.promised_eq_ok_iff]
  constructor
  · rintro ⟨found, _, ⟨found_eq, rfl⟩, cells, _, ⟨cells_eq, rfl⟩, _, _, rfl, rfl, rfl⟩
    exact ⟨found, cells, found_eq, cells_eq, rfl, rfl⟩
  · rintro ⟨found, cells, found_eq, cells_eq, rfl, rfl⟩
    exact ⟨found, _, ⟨found_eq, rfl⟩, cells, _, ⟨cells_eq, rfl⟩, ⟨⟩, _, rfl, rfl, rfl⟩

theorem runInstruction_dealloc_eq_ok_iff {buffer : BufferId} :
    function.runInstruction (.dealloc buffer) state = .ok control final ↔
      ∃ cells, state.elements? buffer = some cells ∧
        control = .proceed ∧ state.withSlot buffer .released = final := by
  simp only [runInstruction, Run.setSlot, EStateM.bind_eq_ok_iff, EStateM.pure_eq_ok_iff,
    EStateM.modify_eq_ok_iff, Run.elements_eq_ok_iff]
  constructor
  · rintro ⟨cells, _, ⟨cells_eq, rfl⟩, _, _, rfl, rfl, rfl⟩
    exact ⟨cells, cells_eq, rfl, rfl⟩
  · rintro ⟨cells, cells_eq, rfl, rfl⟩
    exact ⟨cells, _, ⟨cells_eq, rfl⟩, ⟨⟩, _, rfl, rfl, rfl⟩

theorem runInstruction_load_eq_ok_iff {destination : RegisterId} {buffer : BufferId}
    {indices : List Index} :
    function.runInstruction (.load destination buffer indices) state = .ok control final ↔
      ∃ offset cells value, state.offset? function buffer indices = some offset ∧
        state.elements? buffer = some cells ∧ cells.get? offset = some value ∧
        destination.index < state.registers.size ∧
        control = .proceed ∧ state.withRegister destination value = final := by
  simp only [runInstruction, EStateM.bind_eq_ok_iff, EStateM.pure_eq_ok_iff, Run.offset_eq_ok_iff,
    Run.elements_eq_ok_iff, Run.lift_eq_ok_iff, Outcome.promised_eq_ok_iff,
    Run.setRegister_eq_ok_iff]
  constructor
  · rintro ⟨offset, _, ⟨offset_eq, rfl⟩, cells, _, ⟨cells_eq, rfl⟩, value, _, ⟨value_eq, rfl⟩,
      _, _, ⟨inside, rfl⟩, rfl, rfl⟩
    exact ⟨offset, cells, value, offset_eq, cells_eq, value_eq, inside, rfl, rfl⟩
  · rintro ⟨offset, cells, value, offset_eq, cells_eq, value_eq, inside, rfl, rfl⟩
    exact ⟨offset, _, ⟨offset_eq, rfl⟩, cells, _, ⟨cells_eq, rfl⟩, value, _, ⟨value_eq, rfl⟩,
      ⟨⟩, _, ⟨inside, rfl⟩, rfl, rfl⟩

theorem runInstruction_store_eq_ok_iff {operand : Operand} {buffer : BufferId}
    {indices : List Index} :
    function.runInstruction (.store operand buffer indices) state = .ok control final ↔
      ∃ value offset cells, state.operand? operand = some value ∧
        state.offset? function buffer indices = some offset ∧
        state.elements? buffer = some cells ∧ offset < cells.size ∧
        control = .proceed ∧ state.withSlot buffer (.live (cells.set offset value)) = final := by
  simp only [runInstruction, EStateM.bind_eq_ok_iff, Run.operand_eq_ok_iff, Run.offset_eq_ok_iff,
    Run.elements_eq_ok_iff]
  constructor
  · rintro ⟨value, _, ⟨value_eq, rfl⟩, offset, _, ⟨offset_eq, rfl⟩, cells, _, ⟨cells_eq, rfl⟩,
      success⟩
    split at success
    · obtain ⟨_, _, stored, done⟩ := EStateM.bind_eq_ok_iff.mp success
      obtain ⟨rfl, rfl⟩ := EStateM.pure_eq_ok_iff.mp done
      exact ⟨value, offset, cells, value_eq, offset_eq, cells_eq, by assumption, rfl,
        (Run.setElement_eq_ok_iff cells_eq).mp stored⟩
    · exact absurd success EStateM.throw_ne_ok
  · rintro ⟨value, offset, cells, value_eq, offset_eq, cells_eq, inside, rfl, rfl⟩
    refine ⟨value, _, ⟨value_eq, rfl⟩, offset, _, ⟨offset_eq, rfl⟩, cells, _, ⟨cells_eq, rfl⟩, ?_⟩
    rw [if_pos inside]
    exact EStateM.bind_eq_ok_iff.mpr
      ⟨⟨⟩, _, (Run.setElement_eq_ok_iff cells_eq).mpr rfl, rfl⟩

theorem runInstruction_arithmetic_eq_ok_iff {operator : Arithmetic} {destination : RegisterId}
    {left right : Operand} :
    function.runInstruction (.arithmetic operator destination left right) state =
        .ok control final ↔
      ∃ first second, state.operand? left = some first ∧ state.operand? right = some second ∧
        destination.index < state.registers.size ∧ control = .proceed ∧
        state.withRegister destination (operator.apply first second) = final := by
  simp only [runInstruction, EStateM.bind_eq_ok_iff, EStateM.pure_eq_ok_iff,
    Run.operand_eq_ok_iff, Run.setRegister_eq_ok_iff]
  constructor
  · rintro ⟨first, _, ⟨first_eq, rfl⟩, second, _, ⟨second_eq, rfl⟩, _, _, ⟨inside, rfl⟩, rfl, rfl⟩
    exact ⟨first, second, first_eq, second_eq, inside, rfl, rfl⟩
  · rintro ⟨first, second, first_eq, second_eq, inside, rfl, rfl⟩
    exact ⟨first, _, ⟨first_eq, rfl⟩, second, _, ⟨second_eq, rfl⟩, ⟨⟩, _, ⟨inside, rfl⟩, rfl, rfl⟩

theorem runInstruction_loop_eq_ok_iff {counter : LoopVariableId} {lower upper step : Nat}
    {body : List Instruction} :
    function.runInstruction (.loop counter lower upper step body) state = .ok control final ↔
      step ≠ 0 ∧
        Run.repeatStep (function.runBlock body) counter step (iterations lower upper step) lower
          state = .ok control final := by
  rw [runInstruction]
  split
  · rename_i stuck
    simp only [stuck, ne_eq, not_true_eq_false, false_and, iff_false]
    exact EStateM.throw_ne_ok
  · simp [*]

theorem runInstruction_copy_eq_ok_iff {source destination : BufferId} :
    function.runInstruction (.copy source destination) state = .ok control final ↔
      ∃ values target, state.elements? source = some values ∧
        state.elements? destination = some target ∧ values.size = target.size ∧
        control = .proceed ∧ state.withSlot destination (.live values) = final := by
  simp only [runInstruction, EStateM.bind_eq_ok_iff, Run.elements_eq_ok_iff]
  constructor
  · rintro ⟨values, _, ⟨values_eq, rfl⟩, target, _, ⟨target_eq, rfl⟩, success⟩
    split at success
    · exact absurd success Run.fail_ne_ok
    · rename_i same
      obtain ⟨_, _, copied, done⟩ := EStateM.bind_eq_ok_iff.mp success
      obtain ⟨rfl, rfl⟩ := EStateM.pure_eq_ok_iff.mp done
      exact ⟨values, target, values_eq, target_eq, Decidable.not_not.mp same, rfl,
        EStateM.modify_eq_ok_iff.mp copied⟩
  · rintro ⟨values, target, values_eq, target_eq, same, rfl, rfl⟩
    refine ⟨values, _, ⟨values_eq, rfl⟩, target, _, ⟨target_eq, rfl⟩, ?_⟩
    rw [if_neg (Decidable.not_not.mpr same)]
    rfl

theorem runInstruction_print_eq_ok_iff {buffer : BufferId} :
    function.runInstruction (.print buffer) state = .ok control final ↔
      ∃ found cells line, function.buffers.get? buffer = some found ∧
        state.elements? buffer = some cells ∧
        nestedText? "," found.shape.dimensions cells.toList = some line ∧
        control = .proceed ∧ state.withLine line = final := by
  simp only [runInstruction, EStateM.bind_eq_ok_iff, EStateM.pure_eq_ok_iff,
    EStateM.modify_eq_ok_iff, Run.lift_eq_ok_iff, Outcome.promised_eq_ok_iff,
    Run.elements_eq_ok_iff]
  constructor
  · rintro ⟨found, _, ⟨found_eq, rfl⟩, cells, _, ⟨cells_eq, rfl⟩, line, _, ⟨line_eq, rfl⟩,
      _, _, rfl, rfl, rfl⟩
    exact ⟨found, cells, line, found_eq, cells_eq, line_eq, rfl, rfl⟩
  · rintro ⟨found, cells, line, found_eq, cells_eq, line_eq, rfl, rfl⟩
    exact ⟨found, _, ⟨found_eq, rfl⟩, cells, _, ⟨cells_eq, rfl⟩, line, _, ⟨line_eq, rfl⟩,
      ⟨⟩, _, rfl, rfl, rfl⟩

theorem runInstruction_leave_eq_ok_iff :
    function.runInstruction .leave state = .ok control final ↔
      control = .leave ∧ state = final := by
  simp only [runInstruction_leave, EStateM.pure_eq_ok_iff, eq_comm]

theorem runBlock_nil_eq_ok_iff :
    function.runBlock [] state = .ok control final ↔ control = .proceed ∧ state = final := by
  simp only [runBlock_nil, EStateM.pure_eq_ok_iff, eq_comm]

theorem runBlock_cons_eq_ok_iff {instruction : Instruction} {rest : List Instruction} :
    function.runBlock (instruction :: rest) state = .ok control final ↔
      ∃ first middle, function.runInstruction instruction state = .ok first middle ∧
        match first with
        | .leave => control = .leave ∧ middle = final
        | .proceed => function.runBlock rest middle = .ok control final := by
  simp only [runBlock, EStateM.bind_eq_ok_iff]
  constructor
  · rintro ⟨first, middle, first_eq, success⟩
    refine ⟨first, middle, first_eq, ?_⟩
    cases first with
    | leave => exact (EStateM.pure_eq_ok_iff.mp success).imp_left Eq.symm
    | proceed => exact success
  · rintro ⟨first, middle, first_eq, success⟩
    refine ⟨first, middle, first_eq, ?_⟩
    cases first with
    | leave =>
        obtain ⟨rfl, rfl⟩ := success
        rfl
    | proceed => exact success

/-- A block runs in two parts, the second only if the first does not leave the function. -/
theorem runBlock_append_eq_ok_iff {front back : List Instruction} :
    function.runBlock (front ++ back) state = .ok control final ↔
      ∃ first middle, function.runBlock front state = .ok first middle ∧
        match first with
        | .leave => control = .leave ∧ middle = final
        | .proceed => function.runBlock back middle = .ok control final := by
  induction front generalizing state with
  | nil =>
      simp only [List.nil_append, runBlock_nil_eq_ok_iff]
      constructor
      · intro success
        exact ⟨.proceed, state, ⟨rfl, rfl⟩, success⟩
      · rintro ⟨first, middle, ⟨rfl, rfl⟩, success⟩
        exact success
  | cons instruction front induction =>
      simp only [List.cons_append, runBlock_cons_eq_ok_iff]
      constructor
      · rintro ⟨first, middle, first_eq, success⟩
        cases first with
        | leave => exact ⟨.leave, middle, ⟨.leave, middle, first_eq, rfl, rfl⟩, success⟩
        | proceed =>
            obtain ⟨second, later, second_eq, rest⟩ := induction.mp success
            exact ⟨second, later, ⟨.proceed, middle, first_eq, second_eq⟩, rest⟩
      · rintro ⟨second, later, ⟨first, middle, first_eq, second_eq⟩, rest⟩
        refine ⟨first, middle, first_eq, ?_⟩
        cases first with
        | leave =>
            obtain ⟨rfl, rfl⟩ := second_eq
            exact rest
        | proceed => exact induction.mpr ⟨second, later, second_eq, rest⟩

end Function

end Loop

end TensorLang
