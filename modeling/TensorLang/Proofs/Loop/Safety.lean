import TensorLang.Proofs.Loop.Checks
import TensorLang.Proofs.Tensor.Text

/-!
# Safety of verified loop functions

The verifier passes each loop body once, with the last value of the loop variable, while a run
passes it many times.  What links both is an invariant on the states that a run reaches: buffers
that count as live are, with as many elements as their shapes have, and every enclosing loop has a
last value that its variable does not exceed.  Each accepted instruction then succeeds, and each
turn of a loop restores the invariant that held before the loop.
-/

namespace TensorLang

namespace Loop

/-- All registers and loop variables of the function fit in memory. -/
structure Function.FitsNames (function : Function) : Prop where
  /-- The registers fit. -/
  registers : function.registerCount < memoryBound
  /-- The loop variables fit. -/
  counters : function.loopVariableCount < memoryBound

/-- All registers, loop variables and buffers of the function fit in memory. -/
structure Function.FitsMemory (function : Function) : Prop extends function.FitsNames where
  /-- The dimensions of each buffer other than zero multiply to a word. -/
  counted : ∀ buffer found, function.buffers.get? buffer = some found →
    found.shape.nonzeroSize < countBound
  /-- The elements of each buffer fit. -/
  stored : ∀ buffer found, function.buffers.get? buffer = some found →
    found.shape.size < memoryBound

/-- All registers and loop variables fit in memory, and each buffer can be allocated. -/
structure Function.Allocatable (function : Function) : Prop extends function.FitsNames where
  /-- Each buffer can be filled with zeros. -/
  zeroed : ∀ buffer found, function.buffers.get? buffer = some found →
    zeros? found.shape = some (.fresh found.shape.size 0)

/-- A running state keeps everything that the check of the instructions so far has promised. -/
structure Safe (function : Function) (surroundings : Surroundings) (progress : Progress)
    (state : RunState) : Prop where
  /-- Every buffer has a slot. -/
  slots : state.buffers.size = function.buffers.size
  /-- Every register has a cell. -/
  registers : state.registers.size = function.registerCount
  /-- Every loop variable has a cell. -/
  counters : state.counters.size = function.loopVariableCount
  /-- Live buffers have the elements of their shapes. -/
  live : ∀ buffer found, function.buffers.get? buffer = some found →
    progress.buffers[buffer.index]? = some .live →
    ∃ cells, state.elements? buffer = some cells ∧ cells.size = found.shape.size
  /-- Visible registers exist. -/
  visible : ∀ register ∈ progress.visible, register.index < function.registerCount
  /-- The enclosing loops run, and their variables have not passed their last values. -/
  loops : ∀ id last?, surroundings.loops.lookup id = some last? →
    ∃ last value, last? = some last ∧ state.counters.get? id.index = some value ∧ value ≤ last

theorem zeros?_of_counted {shape : Shape} (counted : shape.boundedSize?.isSome = true)
    (stored : shape.size < memoryBound) : zeros? shape = some (.fresh shape.size 0) := by
  obtain ⟨count, count_eq⟩ := Option.isSome_iff_exists.mp counted
  obtain rfl := Shape.size_of_boundedSize? count_eq
  rw [zeros?, count_eq, Option.bind_eq_bind, Option.bind_some, Cells.allocate?, if_pos stored]

theorem Function.FitsMemory.allocatable {function : Function} (fits : function.FitsMemory) :
    function.Allocatable where
  toFitsNames := fits.toFitsNames
  zeroed := fun buffer found found_eq => zeros?_of_counted
    (by rw [Shape.boundedSize?_of_lt (fits.counted buffer found found_eq)]; rfl)
    (fits.stored buffer found found_eq)

/-- A turn of a loop stays within its last value. -/
theorem turn_le_lastValue {lower upper step turn : Nat} (advances : step ≠ 0)
    (running : turn < iterations lower upper step) :
    ∃ last, lastValue lower upper step = some last ∧ lower + turn * step ≤ last := by
  have positive : 0 < step := Nat.pos_of_ne_zero advances
  have room : (turn + 1) * step ≤ upper - lower + step - 1 :=
    (Nat.le_div_iff_mul_le positive).mp running
  rw [Nat.succ_mul] at room
  have below : turn * step ≤ upper - lower - 1 := by omega
  have nonempty : lower < upper := by omega
  refine ⟨_, if_pos nonempty, Nat.add_le_add_left ?_ lower⟩
  exact Nat.mul_le_mul_right _ ((Nat.le_div_iff_mul_le positive).mpr below)

namespace Safe

variable {function : Function} {surroundings : Surroundings} {progress : Progress}
variable {state : RunState}

/-- Indices that the check has accepted are below their dimensions. -/
theorem index (safe : Safe function surroundings progress state) {dimension : Nat} {index : Index}
    (bounds : surroundings.Bounds dimension index) :
    ∃ value, state.index? index = some value ∧ value < dimension := by
  cases index with
  | constant value => exact ⟨value, rfl, bounds⟩
  | loopVariable id =>
      obtain ⟨last?, last?_eq, below⟩ := bounds
      obtain ⟨last, value, rfl, value_eq, value_le⟩ := safe.loops id last? last?_eq
      exact ⟨value, value_eq, Nat.lt_of_le_of_lt value_le (below last rfl)⟩

theorem tuple (safe : Safe function surroundings progress state) {dimensions : List Nat}
    {indices : List Index} (covers : surroundings.Covers dimensions indices) :
    ∃ tuple, indices.mapM state.index? = some tuple ∧ Shape.Within dimensions tuple := by
  induction dimensions generalizing indices with
  | nil =>
      cases indices with
      | nil => exact ⟨[], rfl, trivial⟩
      | cons index indices => exact covers.elim
  | cons dimension dimensions induction =>
      cases indices with
      | nil => exact covers.elim
      | cons index indices =>
          obtain ⟨value, value_eq, inside⟩ := safe.index covers.1
          obtain ⟨values, values_eq, within⟩ := induction covers.2
          refine ⟨value :: values, ?_, inside, within⟩
          simp [value_eq, values_eq]

/-- Accepted indices have an offset into the elements of a live buffer. -/
theorem access (safe : Safe function surroundings progress state) {buffer : BufferId}
    {indices : List Index}
    (accepted : function.checkIndices surroundings progress buffer indices = .ok ()) :
    ∃ offset cells, state.offset? function buffer indices = some offset ∧
      state.elements? buffer = some cells ∧ offset < cells.size := by
  obtain ⟨found, found_eq, live, covers⟩ := Function.checkIndices_eq_ok_iff.mp accepted
  obtain ⟨cells, cells_eq, size_eq⟩ := safe.live buffer found found_eq live
  obtain ⟨tuple, tuple_eq, within⟩ := safe.tuple covers
  refine ⟨Shape.rowMajor found.shape.dimensions tuple, cells, ?_, cells_eq, ?_⟩
  · have offset_eq : found.shape.offset? tuple = some _ :=
      Shape.offset?_eq_some_iff.mpr ⟨within, rfl⟩
    simp [RunState.offset?, tuple_eq, found_eq, offset_eq]
  · rw [size_eq]
    exact Shape.rowMajor_lt_size within

theorem operand (safe : Safe function surroundings progress state) {value : Operand}
    (accepted : function.checkOperand progress value = .ok ()) :
    ∃ number, state.operand? value = some number := by
  cases value with
  | immediate value => exact ⟨value, rfl⟩
  | register register =>
      have visible :=
        Function.checkOperand_eq_ok_iff.mp accepted register (List.mem_singleton_self _)
      have inside := safe.visible register visible
      rw [← safe.registers] at inside
      rw [RunState.operand?, Cells.get?, if_pos inside]
      exact ⟨_, rfl⟩

theorem withSlot_live (safe : Safe function surroundings progress state) {buffer : BufferId}
    {found : Buffer} {cells : Cells Float} (found_eq : function.buffers.get? buffer = some found)
    (size_eq : cells.size = found.shape.size) :
    Safe function surroundings
      { progress with buffers := progress.buffers.insert buffer.index .live }
      (state.withSlot buffer (.live cells)) where
  slots := by
    rw [RunState.withSlot, Array.size_setIfInBounds]
    exact safe.slots
  registers := safe.registers
  counters := safe.counters
  live := by
    intro other known known_eq live
    have there : buffer.index < state.buffers.size := by
      rw [safe.slots]
      exact Arena.lt_size_of_get? found_eq
    rw [RunState.elements?_withSlot _ _ _ _ there]
    by_cases same : other = buffer
    · subst same
      obtain rfl := Option.some.inj (found_eq.symm.trans known_eq)
      exact ⟨cells, if_pos rfl, size_eq⟩
    · rw [if_neg same]
      have apart : buffer.index ≠ other.index := fun equal =>
        same (by cases other; cases buffer; simp_all)
      simp only [Std.TreeMap.getElem?_insert, Nat.compare_eq_eq, if_neg apart] at live
      exact safe.live other known known_eq live
  visible := safe.visible
  loops := safe.loops

theorem withSlot_released (safe : Safe function surroundings progress state) (buffer : BufferId) :
    Safe function surroundings
      { progress with buffers := progress.buffers.insert buffer.index .released }
      (state.withSlot buffer .released) where
  slots := by
    rw [RunState.withSlot, Array.size_setIfInBounds]
    exact safe.slots
  registers := safe.registers
  counters := safe.counters
  live := by
    intro other known known_eq live
    simp only [Std.TreeMap.getElem?_insert, Nat.compare_eq_eq] at live
    split at live
    · cases live
    · rename_i apart
      obtain ⟨cells, cells_eq, size_eq⟩ := safe.live other known known_eq live
      refine ⟨cells, ?_, size_eq⟩
      rw [RunState.elements?_eq_some_iff] at cells_eq ⊢
      rw [RunState.withSlot, Array.getElem?_setIfInBounds_ne apart]
      exact cells_eq
  visible := safe.visible
  loops := safe.loops

theorem withRegister (safe : Safe function surroundings progress state) {register : RegisterId}
    {after : Progress} (accepted : function.writeRegister progress register = .ok after)
    (value : Float) :
    register.index < state.registers.size ∧
      Safe function surroundings after (state.withRegister register value) := by
  obtain ⟨inside, fresh, rfl⟩ := Function.writeRegister_eq_ok_iff.mp accepted
  refine ⟨by rwa [safe.registers], ?_⟩
  exact {
    slots := safe.slots
    registers := by
      rw [RunState.withRegister, Cells.size_set]
      exact safe.registers
    counters := safe.counters
    live := safe.live
    visible := by
      intro other member
      rcases List.mem_append.mp member with earlier | new
      · exact safe.visible other earlier
      · rwa [List.mem_singleton.mp new]
    loops := safe.loops }

theorem withLine (safe : Safe function surroundings progress state) (line : String) :
    Safe function surroundings progress (state.withLine line) :=
  ⟨safe.slots, safe.registers, safe.counters, safe.live, safe.visible, safe.loops⟩

/-- Nothing is lost when less is known. -/
theorem weaken (safe : Safe function surroundings progress state) {less : Progress}
    (buffers : ∀ index : Nat, less.buffers[index]? = some .live →
      progress.buffers[index]? = some .live)
    (visible : ∀ register ∈ less.visible, register.index < function.registerCount) :
    Safe function surroundings less state where
  slots := safe.slots
  registers := safe.registers
  counters := safe.counters
  live := fun buffer found found_eq live => safe.live buffer found found_eq (buffers _ live)
  visible := visible
  loops := safe.loops

/-- A live buffer may get other contents of the same size. -/
theorem withSlot (safe : Safe function surroundings progress state) {buffer : BufferId}
    {found : Buffer} (cells : Cells Float)
    (found_eq : function.buffers.get? buffer = some found)
    (size_eq : cells.size = found.shape.size) :
    Safe function surroundings progress (state.withSlot buffer (.live cells)) := by
  refine (safe.withSlot_live found_eq size_eq).weaken ?_ safe.visible
  intro index live
  simp only [Std.TreeMap.getElem?_insert, Nat.compare_eq_eq, live, ite_self]

theorem enter (safe : Safe function surroundings progress state) {counter : LoopVariableId}
    {lower upper step turn : Nat} {body : List Instruction} {inner : Surroundings}
    (entered : function.enterLoop surroundings counter lower upper step body = .ok inner)
    (running : turn < iterations lower upper step) :
    Safe function inner progress (state.withCounter counter (lower + turn * step)) := by
  obtain ⟨inside, fresh, advances, ordered, inner_eq⟩ := Function.enterLoop_eq_ok entered
  exact {
    slots := safe.slots
    registers := safe.registers
    counters := by
      rw [RunState.withCounter, Cells.size_set]
      exact safe.counters
    live := safe.live
    visible := safe.visible
    loops := by
      intro id last? found
      rw [inner_eq, List.lookup_append] at found
      rw [RunState.withCounter, Cells.get?_set, safe.counters]
      rcases Option.or_eq_some_iff.mp found with outer | ⟨new, innermost⟩
      · obtain ⟨last, value, last_eq, value_eq, value_le⟩ := safe.loops id last? outer
        have apart : counter.index ≠ id.index := by
          intro equal
          have same : counter = id := by cases counter; cases id; simp_all
          rw [← same, fresh] at outer
          cases outer
        exact ⟨last, value, last_eq,
          by rw [if_neg fun both => apart both.1]; exact value_eq, value_le⟩
      · rw [List.lookup_cons, List.lookup_nil] at innermost
        split at innermost
        · rename_i same
          obtain rfl : id = counter := by simpa using same
          obtain ⟨last, last_eq, value_le⟩ := turn_le_lastValue advances running
          obtain rfl := Option.some.inj innermost
          exact ⟨last, _, last_eq, if_pos ⟨rfl, inside⟩, value_le⟩
        · cases innermost }

theorem exit {inner : Surroundings} {finished : Progress} {counter : LoopVariableId}
    {last? : Option Nat} (safe : Safe function inner finished state)
    (inner_eq : inner.loops = surroundings.loops ++ [(counter, last?)]) :
    Safe function surroundings finished state where
  slots := safe.slots
  registers := safe.registers
  counters := safe.counters
  live := safe.live
  visible := safe.visible
  loops := by
    intro id outer found
    apply safe.loops id outer
    rw [inner_eq, List.lookup_append, found]
    rfl

end Safe

theorem Run.repeatStep_proceeds {step : Run Control} {counter : LoopVariableId}
    {stride count value : Nat} {holds : RunState → Prop}
    (exists' : ∀ state, holds state → counter.index < state.counters.size)
    (turns : ∀ turn < count, ∀ state, holds state →
      ∃ final, step (state.withCounter counter (value + turn * stride)) = .ok .proceed final ∧
        holds final)
    {state : RunState} (start : holds state) :
    ∃ final, Run.repeatStep step counter stride count value state = .ok .proceed final ∧
      holds final := by
  induction count generalizing value state with
  | zero => exact ⟨state, rfl, start⟩
  | succ count induction =>
      obtain ⟨middle, middle_eq, between⟩ := turns 0 (Nat.succ_pos count) state start
      rw [Nat.zero_mul, Nat.add_zero] at middle_eq
      have others : ∀ turn < count, ∀ later, holds later →
          ∃ final, step (later.withCounter counter (value + stride + turn * stride)) =
            .ok .proceed final ∧ holds final := by
        intro turn running later holds_later
        obtain ⟨next, next_eq, kept⟩ :=
          turns (turn + 1) (Nat.succ_lt_succ running) later holds_later
        rw [Nat.succ_mul, Nat.add_comm (turn * stride), ← Nat.add_assoc] at next_eq
        exact ⟨next, next_eq, kept⟩
      obtain ⟨final, final_eq, done⟩ := induction others between
      exact ⟨final, Run.repeatStep_succ_eq_ok_iff.mpr
        ⟨exists' state start, .proceed, middle, middle_eq, final_eq⟩, done⟩

/-- Every step reads only registers that are known or that an earlier step has written. -/
def Grounded (known : List RegisterId) : List Step → Prop
  | [] => True
  | step :: rest =>
      (∀ register ∈ step.reads, register ∈ known) ∧ Grounded (known ++ step.writes) rest

namespace Grounded

theorem mono {known more : List RegisterId} {steps : List Step} (grounded : Grounded known steps)
    (subset : known ⊆ more) : Grounded more steps := by
  induction steps generalizing known more with
  | nil => exact trivial
  | cons step rest induction =>
      refine ⟨fun register read => subset (grounded.1 register read), induction grounded.2 ?_⟩
      exact List.append_subset.mpr
        ⟨fun register member => List.mem_append_left _ (subset member),
          List.subset_append_right _ _⟩

theorem append {known : List RegisterId} {front back : List Step} (first : Grounded known front)
    (second : Grounded (known ++ front.flatMap Step.writes) back) :
    Grounded known (front ++ back) := by
  induction front generalizing known with
  | nil => simpa using second
  | cons step front induction =>
      refine ⟨first.1, induction first.2 ?_⟩
      rwa [List.append_assoc, ← List.flatMap_cons]

/-- Turns that are grounded each are grounded together. -/
theorem flatMap {known : List RegisterId} {turns : List Nat} {steps : Nat → List Step}
    (each : ∀ turn, Grounded known (steps turn)) : Grounded known (turns.flatMap steps) := by
  induction turns with
  | nil => exact trivial
  | cons turn turns induction =>
      exact (each turn).append (induction.mono (List.subset_append_left _ _))

theorem exists_earlier {known : List RegisterId} {steps before after : List Step} {step : Step}
    (grounded : Grounded known steps) (steps_eq : steps = before ++ step :: after)
    {register : RegisterId} (read : register ∈ step.reads) :
    register ∈ known ∨ ∃ earlier ∈ before, register ∈ earlier.writes := by
  subst steps_eq
  induction before generalizing known with
  | nil => exact .inl (grounded.1 register read)
  | cons first before induction =>
      rcases induction grounded.2 with found | ⟨earlier, member, written⟩
      · rcases List.mem_append.mp found with found | written
        · exact .inl found
        · exact .inr ⟨first, List.mem_cons_self, written⟩
      · exact .inr ⟨earlier, List.mem_cons_of_mem _ member, written⟩

end Grounded

namespace Function

variable {function : Function}

mutual

private theorem checkInstruction_buffers (instruction : Instruction) {surroundings : Surroundings}
    {isLast : Bool} {progress after : Progress} (inside : surroundings.loops ≠ [])
    (accepted : function.checkInstruction surroundings isLast progress instruction = .ok after) :
    after.buffers = progress.buffers := by
  cases instruction with
  | alloc => exact absurd (checkInstruction_alloc_eq_ok_iff.mp accepted).1 inside
  | dealloc => exact absurd (checkInstruction_dealloc_eq_ok_iff.mp accepted).1 inside
  | load =>
      have written := (checkInstruction_load_eq_ok_iff.mp accepted).2
      rw [(writeRegister_eq_ok_iff.mp written).2.2]
  | store => rw [(checkInstruction_store_eq_ok_iff.mp accepted).2.2]
  | arithmetic =>
      have written := (checkInstruction_arithmetic_eq_ok_iff.mp accepted).2.2
      rw [(writeRegister_eq_ok_iff.mp written).2.2]
  | loop counter lower upper step body =>
      obtain ⟨inner, finished, entered, checked, rfl⟩ :=
        checkInstruction_loop_eq_ok_iff.mp accepted
      obtain ⟨-, -, -, -, inner_eq⟩ := enterLoop_eq_ok entered
      have nested : inner.loops ≠ [] := by simp [inner_eq]
      exact (checkBlock_buffers body nested checked :)
  | copy =>
      obtain ⟨_, _, _, _, _, rfl⟩ := checkInstruction_copy_eq_ok_iff.mp accepted
      rfl
  | print => rw [(checkInstruction_print_eq_ok_iff.mp accepted).2.2]
  | leave => exact absurd (checkInstruction_leave_eq_ok_iff.mp accepted).1 inside

theorem checkBlock_buffers (body : List Instruction) {surroundings : Surroundings}
    {progress after : Progress} (inside : surroundings.loops ≠ [])
    (accepted : function.checkBlock surroundings progress body = .ok after) :
    after.buffers = progress.buffers := by
  cases body with
  | nil => rw [checkBlock_nil_eq_ok_iff.mp accepted]
  | cons instruction rest =>
      obtain ⟨middle, first, others⟩ := checkBlock_cons_eq_ok_iff.mp accepted
      rw [checkBlock_buffers rest inside others, checkInstruction_buffers instruction inside first]

end

mutual

private theorem checkInstruction_grounded (instruction : Instruction) {surroundings : Surroundings}
    {isLast : Bool} {progress after : Progress}
    (accepted : function.checkInstruction surroundings isLast progress instruction = .ok after) :
    Grounded progress.visible instruction.steps ∧
      after.visible ⊆ progress.visible ++ instruction.steps.flatMap Step.writes := by
  cases instruction with
  | alloc buffer =>
      obtain ⟨-, -, -, rfl⟩ := checkInstruction_alloc_eq_ok_iff.mp accepted
      simp [Instruction.steps, Grounded, Step.reads]
  | dealloc buffer =>
      obtain ⟨-, -, -, rfl⟩ := checkInstruction_dealloc_eq_ok_iff.mp accepted
      simp [Instruction.steps, Grounded, Step.reads]
  | load destination buffer indices =>
      have written := (checkInstruction_load_eq_ok_iff.mp accepted).2
      obtain ⟨-, -, rfl⟩ := writeRegister_eq_ok_iff.mp written
      simp [Instruction.steps, Grounded, Step.reads, Step.writes]
  | store value buffer indices =>
      obtain ⟨visible, -, rfl⟩ := checkInstruction_store_eq_ok_iff.mp accepted
      rw [checkOperand_eq_ok_iff] at visible
      simpa [Instruction.steps, Grounded, Step.reads] using visible
  | arithmetic operator destination left right =>
      obtain ⟨left_visible, right_visible, written⟩ :=
        checkInstruction_arithmetic_eq_ok_iff.mp accepted
      obtain ⟨-, -, rfl⟩ := writeRegister_eq_ok_iff.mp written
      rw [checkOperand_eq_ok_iff] at left_visible right_visible
      refine ⟨⟨?_, trivial⟩, by simp [Instruction.steps, Step.writes]⟩
      intro register read
      rcases List.mem_append.mp read with read | read
      · exact left_visible register read
      · exact right_visible register read
  | loop counter lower upper step body =>
      obtain ⟨inner, finished, entered, checked, rfl⟩ :=
        checkInstruction_loop_eq_ok_iff.mp accepted
      obtain ⟨-, -, advances, -, -⟩ := enterLoop_eq_ok entered
      have grounded := (checkBlock_grounded body checked).1
      rw [Instruction.steps, if_neg advances]
      refine ⟨Grounded.flatMap fun turn => ?_, List.subset_append_left _ _⟩
      exact ⟨by simp [Step.reads], grounded.mono (List.subset_append_left _ _)⟩
  | copy source destination =>
      obtain ⟨_, _, _, _, _, rfl⟩ := checkInstruction_copy_eq_ok_iff.mp accepted
      simp [Instruction.steps, Grounded, Step.reads]
  | print buffer =>
      obtain ⟨-, -, rfl⟩ := checkInstruction_print_eq_ok_iff.mp accepted
      simp [Instruction.steps, Grounded, Step.reads]
  | leave =>
      obtain ⟨-, -, rfl⟩ := checkInstruction_leave_eq_ok_iff.mp accepted
      simp [Instruction.steps, Grounded, Step.reads]

theorem checkBlock_grounded (body : List Instruction) {surroundings : Surroundings}
    {progress after : Progress}
    (accepted : function.checkBlock surroundings progress body = .ok after) :
    Grounded progress.visible (blockSteps body) ∧
      after.visible ⊆ progress.visible ++ (blockSteps body).flatMap Step.writes := by
  cases body with
  | nil =>
      rw [checkBlock_nil_eq_ok_iff.mp accepted]
      exact ⟨trivial, List.subset_append_left _ _⟩
  | cons instruction rest =>
      obtain ⟨middle, first, others⟩ := checkBlock_cons_eq_ok_iff.mp accepted
      obtain ⟨grounded_first, subset_first⟩ := checkInstruction_grounded instruction first
      obtain ⟨grounded_rest, subset_rest⟩ := checkBlock_grounded rest others
      rw [blockSteps]
      refine ⟨grounded_first.append (grounded_rest.mono subset_first), ?_⟩
      rw [List.flatMap_append, ← List.append_assoc]
      intro register member
      rcases List.mem_append.mp (subset_rest member) with earlier | later
      · exact List.mem_append_left _ (subset_first earlier)
      · exact List.mem_append_right _ later

end

mutual

theorem runInstruction_safe (allocatable : function.Allocatable) (instruction : Instruction)
    {surroundings : Surroundings} {isLast : Bool} {progress after : Progress} {state : RunState}
    (accepted : function.checkInstruction surroundings isLast progress instruction = .ok after)
    (safe : Safe function surroundings progress state) :
    ∃ control final, function.runInstruction instruction state = .ok control final ∧
      Safe function surroundings after final ∧
      (control = .leave ↔ endsFunction instruction = true) := by
  cases instruction with
  | alloc buffer =>
      obtain ⟨-, ⟨found, found_eq⟩, -, rfl⟩ := checkInstruction_alloc_eq_ok_iff.mp accepted
      have cells_eq := allocatable.zeroed buffer found found_eq
      exact ⟨.proceed, _,
        runInstruction_alloc_eq_ok_iff.mpr ⟨found, _, found_eq, cells_eq, rfl, rfl⟩,
        safe.withSlot_live found_eq (Cells.size_fresh _ _), by simp [endsFunction]⟩
  | dealloc buffer =>
      obtain ⟨-, ⟨found, found_eq⟩, live, rfl⟩ := checkInstruction_dealloc_eq_ok_iff.mp accepted
      obtain ⟨cells, cells_eq, -⟩ := safe.live buffer found found_eq live
      exact ⟨.proceed, _, runInstruction_dealloc_eq_ok_iff.mpr ⟨cells, cells_eq, rfl, rfl⟩,
        safe.withSlot_released buffer, by simp [endsFunction]⟩
  | load destination buffer indices =>
      obtain ⟨indexed, written⟩ := checkInstruction_load_eq_ok_iff.mp accepted
      obtain ⟨offset, cells, offset_eq, cells_eq, inside⟩ := safe.access indexed
      have value_eq : cells.get? offset = some _ := if_pos inside
      obtain ⟨room, kept⟩ := safe.withRegister written (cells.written.getD offset cells.initial)
      exact ⟨.proceed, _, runInstruction_load_eq_ok_iff.mpr
        ⟨offset, cells, _, offset_eq, cells_eq, value_eq, room, rfl, rfl⟩, kept,
        by simp [endsFunction]⟩
  | store value buffer indices =>
      obtain ⟨visible, indexed, rfl⟩ := checkInstruction_store_eq_ok_iff.mp accepted
      obtain ⟨number, number_eq⟩ := safe.operand visible
      obtain ⟨offset, cells, offset_eq, cells_eq, inside⟩ := safe.access indexed
      obtain ⟨found, found_eq, live, -⟩ := checkIndices_eq_ok_iff.mp indexed
      obtain ⟨known, known_eq, size_eq⟩ := safe.live buffer found found_eq live
      obtain rfl := Option.some.inj (cells_eq.symm.trans known_eq)
      have kept := safe.withSlot (cells.set offset number) found_eq
        (by rw [Cells.size_set, size_eq])
      exact ⟨.proceed, _, runInstruction_store_eq_ok_iff.mpr
        ⟨number, offset, cells, number_eq, offset_eq, cells_eq, inside, rfl, rfl⟩,
        kept, by simp [endsFunction]⟩
  | arithmetic operator destination left right =>
      obtain ⟨left_visible, right_visible, written⟩ :=
        checkInstruction_arithmetic_eq_ok_iff.mp accepted
      obtain ⟨first, first_eq⟩ := safe.operand left_visible
      obtain ⟨second, second_eq⟩ := safe.operand right_visible
      obtain ⟨room, kept⟩ := safe.withRegister written (operator.apply first second)
      exact ⟨.proceed, _, runInstruction_arithmetic_eq_ok_iff.mpr
        ⟨first, second, first_eq, second_eq, room, rfl, rfl⟩, kept, by simp [endsFunction]⟩
  | loop counter lower upper step body =>
      obtain ⟨inner, finished, entered, checked, rfl⟩ :=
        checkInstruction_loop_eq_ok_iff.mp accepted
      obtain ⟨inside, -, advances, -, inner_eq⟩ := enterLoop_eq_ok entered
      have nested : inner.loops ≠ [] := by simp [inner_eq]
      have buffers_eq := checkBlock_buffers body nested checked
      have turns : ∀ turn < iterations lower upper step, ∀ state,
          Safe function surroundings progress state →
          ∃ final, function.runBlock body (state.withCounter counter (lower + turn * step)) =
            .ok .proceed final ∧ Safe function surroundings progress final := by
        intro turn running state safe
        obtain ⟨control, final, final_eq, kept, leaves⟩ :=
          runBlock_safe allocatable body checked (safe.enter entered running)
        cases control with
        | leave => exact absurd (leaves rfl) nested
        | proceed =>
            refine ⟨final, final_eq, (kept.exit inner_eq).weaken ?_ safe.visible⟩
            rw [buffers_eq]
            exact fun _ live => live
      obtain ⟨final, final_eq, kept⟩ :=
        Run.repeatStep_proceeds (fun state safe => by rwa [safe.counters]) turns safe
      refine ⟨.proceed, final, runInstruction_loop_eq_ok_iff.mpr ⟨advances, final_eq⟩,
        kept.weaken ?_ safe.visible, by simp [endsFunction]⟩
      rw [buffers_eq]
      exact fun _ live => live
  | copy source destination =>
      obtain ⟨first, second, first_usable, second_usable, same, rfl⟩ :=
        checkInstruction_copy_eq_ok_iff.mp accepted
      obtain ⟨first_eq, first_live⟩ := usableBuffer_eq_ok_iff.mp first_usable
      obtain ⟨second_eq, second_live⟩ := usableBuffer_eq_ok_iff.mp second_usable
      obtain ⟨values, values_eq, values_size⟩ := safe.live source first first_eq first_live
      obtain ⟨target, target_eq, target_size⟩ := safe.live destination second second_eq second_live
      have kept := safe.withSlot values second_eq (values_size.trans same)
      exact ⟨.proceed, _, runInstruction_copy_eq_ok_iff.mpr
        ⟨values, target, values_eq, target_eq, by rw [values_size, target_size, same], rfl, rfl⟩,
        kept, by simp [endsFunction]⟩
  | print buffer =>
      obtain ⟨⟨found, found_eq⟩, live, rfl⟩ := checkInstruction_print_eq_ok_iff.mp accepted
      obtain ⟨cells, cells_eq, size_eq⟩ := safe.live buffer found found_eq live
      have filled : cells.toList.length = found.shape.size := by
        rw [Cells.length_toList, size_eq]
      have line_eq := nestedText?_of_filled "," filled
      exact ⟨.proceed, _, runInstruction_print_eq_ok_iff.mpr
        ⟨found, cells, _, found_eq, cells_eq, line_eq, rfl, rfl⟩, safe.withLine _,
        by simp [endsFunction]⟩
  | leave =>
      obtain ⟨-, -, rfl⟩ := checkInstruction_leave_eq_ok_iff.mp accepted
      exact ⟨.leave, state, runInstruction_leave_eq_ok_iff.mpr ⟨rfl, rfl⟩, safe,
        by simp [endsFunction]⟩

/-- An accepted block succeeds and keeps the state safe.  It leaves the function only outside of
all loops. -/
theorem runBlock_safe (allocatable : function.Allocatable) (body : List Instruction)
    {surroundings : Surroundings} {progress after : Progress} {state : RunState}
    (accepted : function.checkBlock surroundings progress body = .ok after)
    (safe : Safe function surroundings progress state) :
    ∃ control final, function.runBlock body state = .ok control final ∧
      Safe function surroundings after final ∧
      (control = .leave → surroundings.loops = []) := by
  cases body with
  | nil =>
      obtain rfl := checkBlock_nil_eq_ok_iff.mp accepted
      exact ⟨.proceed, state, runBlock_nil_eq_ok_iff.mpr ⟨rfl, rfl⟩, safe, by simp⟩
  | cons instruction rest =>
      obtain ⟨middle, first, others⟩ := checkBlock_cons_eq_ok_iff.mp accepted
      obtain ⟨control, between, between_eq, kept, leaves⟩ :=
        runInstruction_safe allocatable instruction first safe
      cases control with
      | leave =>
          obtain rfl := endsFunction_eq_true_iff.mp (leaves.mp rfl)
          obtain ⟨outside, last, rfl⟩ := checkInstruction_leave_eq_ok_iff.mp first
          obtain rfl := List.isEmpty_iff.mp last
          obtain rfl := checkBlock_nil_eq_ok_iff.mp others
          exact ⟨.leave, between,
            runBlock_cons_eq_ok_iff.mpr ⟨.leave, between, between_eq, rfl, rfl⟩, kept,
            fun _ => outside⟩
      | proceed =>
          obtain ⟨control, final, final_eq, done, leaves_rest⟩ :=
            runBlock_safe allocatable rest others kept
          exact ⟨control, final,
            runBlock_cons_eq_ok_iff.mpr ⟨.proceed, between, between_eq, final_eq⟩, done,
            leaves_rest⟩

end

theorem verify_eq_ok (accepted : function.verify = .ok ()) :
    ∃ progress, function.checkBlock .outside .start function.body = .ok progress ∧
      function.body.getLast?.any endsFunction = true := by
  rw [verify, Except.bind_eq_ok_iff] at accepted
  obtain ⟨progress, checked, rest⟩ := accepted
  refine ⟨progress, checked, ?_⟩
  cases last_eq : function.body.getLast?.any endsFunction with
  | true => rfl
  | false =>
      simp only [last_eq, Bool.not_false, if_true, Except.bind_eq_ok_iff] at rest
      obtain ⟨_, refused, -⟩ := rest
      exact absurd refused invalid_ne_ok

private theorem runBlock_leaves {body : List Instruction} {state final : RunState}
    {control : Control} (ran : function.runBlock body state = .ok control final)
    (ended : body.getLast?.any endsFunction = true) : control = .leave := by
  induction body generalizing state with
  | nil => cases ended
  | cons instruction rest induction =>
      obtain ⟨first, middle, first_eq, rest_eq⟩ := runBlock_cons_eq_ok_iff.mp ran
      cases first with
      | leave => exact rest_eq.1
      | proceed =>
          cases rest with
          | nil =>
              obtain rfl := endsFunction_eq_true_iff.mp (Option.any_some.symm.trans ended)
              cases (runInstruction_leave_eq_ok_iff.mp first_eq).1
          | cons next rest => exact induction rest_eq ended

private theorem start_safe (allocatable : function.Allocatable) :
    ∃ start, RunState.start? function = some start ∧ Safe function .outside .start start := by
  have registers_eq : Cells.allocate? function.registerCount (0 : Float) = some (.fresh _ _) :=
    if_pos allocatable.registers
  have counters_eq : Cells.allocate? function.loopVariableCount 0 = some (.fresh _ _) :=
    if_pos allocatable.counters
  refine ⟨⟨.replicate function.buffers.size .unallocated, .fresh function.registerCount 0,
    .fresh function.loopVariableCount 0, ""⟩, ?_, ?_⟩
  · simp [RunState.start?, registers_eq, counters_eq]
  · exact {
      slots := Array.size_replicate
      registers := rfl
      counters := rfl
      live := fun _ _ _ live => by simp [Progress.start] at live
      visible := fun _ visible => by cases visible
      loops := fun _ _ found => by cases found }

/-- A verified function whose buffers can be allocated runs until it returns. -/
theorem exists_runBlock (accepted : function.verify = .ok ())
    (allocatable : function.Allocatable) :
    ∃ start final, RunState.start? function = some start ∧
      function.runBlock function.body start = .ok .leave final := by
  obtain ⟨start, start_eq, safe⟩ := start_safe allocatable
  obtain ⟨progress, checked, ended⟩ := verify_eq_ok accepted
  obtain ⟨control, final, final_eq, -, -⟩ := runBlock_safe allocatable function.body checked safe
  obtain rfl := runBlock_leaves final_eq ended
  exact ⟨start, final, start_eq, final_eq⟩

/-- A verified function that fits in memory runs until it returns. -/
theorem exists_runBlock_of_verify (accepted : function.verify = .ok ())
    (fits : function.FitsMemory) :
    ∃ start final, RunState.start? function = some start ∧
      function.runBlock function.body start = .ok .leave final :=
  exists_runBlock accepted fits.allocatable

/-- A verified function that fits in memory performs its steps until it returns: no look-up, no
access and no allocation fails.  Every register that a step reads has been written by an earlier
step. -/
theorem verify_sound (function : Function) (accepted : function.verify = .ok ())
    (fits : function.FitsMemory) :
    ∃ start final, RunState.start? function = some start ∧
      function.runSteps function.steps start = .ok .leave final ∧
      function.run = (final.output, .ok ()) ∧
      ∀ before step after, function.steps = before ++ step :: after →
        ∀ register ∈ step.reads, ∃ earlier ∈ before, register ∈ earlier.writes := by
  obtain ⟨start, final, start_eq, final_eq⟩ := exists_runBlock_of_verify accepted fits
  obtain ⟨progress, checked, -⟩ := verify_eq_ok accepted
  refine ⟨start, final, start_eq, ?_, ?_, ?_⟩
  · rw [steps, ← runBlock_eq_runSteps]
    exact final_eq
  · simp only [run, start_eq, final_eq]
  · intro before step after steps_eq register read
    have grounded := (checkBlock_grounded function.body checked).1
    rcases grounded.exists_earlier steps_eq read with known | earlier
    · cases known
    · exact earlier

/-- Doubles both elements of a buffer and prints it. -/
def doubling : Function where
  name := "main"
  buffers := ⟨#[⟨⟨[2]⟩, ⟨"main", 1, 1⟩⟩]⟩
  registerCount := 2
  loopVariableCount := 1
  body := [
    .alloc ⟨0⟩,
    .loop ⟨0⟩ 0 2 1 [
      .load ⟨0⟩ ⟨0⟩ [.loopVariable ⟨0⟩],
      .arithmetic .add ⟨1⟩ (.register ⟨0⟩) (.register ⟨0⟩),
      .store (.register ⟨1⟩) ⟨0⟩ [.loopVariable ⟨0⟩]],
    .print ⟨0⟩,
    .dealloc ⟨0⟩,
    .leave]

theorem doubling_fits : doubling.FitsMemory where
  registers := by decide
  counters := by decide
  counted := by
    intro buffer found found_eq
    obtain rfl := List.mem_singleton.mp (Arena.mem_toList_of_get? found_eq)
    decide
  stored := by
    intro buffer found found_eq
    obtain rfl := List.mem_singleton.mp (Arena.mem_toList_of_get? found_eq)
    decide

theorem verify_sound_doubling :
    doubling.verify = .ok () ∧ doubling.FitsMemory ∧ doubling.run = ("[0,0]\n", .ok ()) := by
  have accepted : doubling.verify = .ok () := by rfl
  obtain ⟨_, final, -, -, run_eq, -⟩ := verify_sound doubling accepted doubling_fits
  have printed : doubling.run.1 = "[0,0]\n" := by decide +kernel
  rw [run_eq] at printed
  exact ⟨accepted, doubling_fits, printed ▸ run_eq⟩

/-- Makes a buffer ready that has too many elements, and gives it up. -/
def oversized : Function where
  name := "main"
  buffers := ⟨#[⟨⟨[memoryBound]⟩, ⟨"main", 1, 1⟩⟩]⟩
  registerCount := 0
  loopVariableCount := 0
  body := [.alloc ⟨0⟩, .dealloc ⟨0⟩, .leave]

theorem run_oversized :
    oversized.verify = .ok () ∧
      (∀ buffer found, oversized.buffers.get? buffer = some found →
        found.shape.nonzeroSize < countBound) ∧
      oversized.run = ("", .error .fault) := by
  refine ⟨by rfl, ?_, by rfl⟩
  intro buffer found found_eq
  obtain rfl := List.mem_singleton.mp (Arena.mem_toList_of_get? found_eq)
  decide

end Function

end Loop

end TensorLang
