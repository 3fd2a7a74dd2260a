import TensorLang.Proofs.Dataflow.FittingShapes
import TensorLang.Proofs.Loop.Refinement

/-!
# Sizes in loop functions

Buffers have the shapes of values, and loops go through dimensions of such shapes.  Whatever a loop
function does, a live buffer holds as many elements as its shape has.  So where shapes fit, sizes
are computed with words when the function is verified and when it runs.
-/

namespace TensorLang

namespace Loop

/-! ### Loops of lowered functions -/

/-- There is a loop with the bounds in the instructions, perhaps inside of others. -/
inductive HasLoop : List Instruction → Nat → Nat → Nat → Prop
  /-- The loop is one of the instructions. -/
  | here {block body : List Instruction} {counter : LoopVariableId} {lower upper step : Nat}
      (member : .loop counter lower upper step body ∈ block) : HasLoop block lower upper step
  /-- The loop is in the body of another one. -/
  | inside {block body : List Instruction} {counter : LoopVariableId}
      {first last stride lower upper step : Nat}
      (member : .loop counter first last stride body ∈ block)
      (inner : HasLoop body lower upper step) : HasLoop block lower upper step

/-- The instruction is no loop. -/
def Instruction.IsFlat : Instruction → Prop
  | .loop .. => False
  | .alloc _ | .dealloc _ | .load .. | .store .. | .arithmetic .. | .copy .. | .print _
  | .leave => True

namespace HasLoop

variable {block front back body : List Instruction} {lower upper step : Nat}

theorem append (hasLoop : HasLoop (front ++ back) lower upper step) :
    HasLoop front lower upper step ∨ HasLoop back lower upper step := by
  cases hasLoop with
  | here member =>
      rcases List.mem_append.mp member with early | late
      · exact .inl (.here early)
      · exact .inr (.here late)
  | inside member inner =>
      rcases List.mem_append.mp member with early | late
      · exact .inl (.inside early inner)
      · exact .inr (.inside late inner)

theorem not_flat (flat : ∀ instruction ∈ block, instruction.IsFlat) :
    ¬ HasLoop block lower upper step := by
  intro hasLoop
  cases hasLoop with
  | here member => exact flat _ member
  | inside member => exact flat _ member

/-- Nested loops go through their dimensions. -/
theorem nested {pairs : List (LoopVariableId × Nat)}
    (flat : ∀ instruction ∈ body, instruction.IsFlat)
    (hasLoop : HasLoop (Loop.nested pairs body) lower upper step) :
    lower = 0 ∧ step = 1 ∧ upper ∈ pairs.map Prod.snd := by
  induction pairs with
  | nil => exact absurd hasLoop (not_flat flat)
  | cons pair rest induction =>
      rw [List.map_cons, List.mem_cons]
      cases hasLoop with
      | here member =>
          cases List.mem_singleton.mp member
          exact ⟨rfl, rfl, .inl rfl⟩
      | inside member inner =>
          cases List.mem_singleton.mp member
          obtain ⟨lower_eq, step_eq, listed⟩ := induction inner
          exact ⟨lower_eq, step_eq, .inr listed⟩

end HasLoop

namespace Lowering

variable {source : Dataflow.Function} {operation : Dataflow.Operation}
variable {code : List Dataflow.Operation} {before after : Allocation} {block : List Instruction}
variable {lower upper step : Nat}

/-- The number is a dimension of an operand or a result. -/
def HasDimension (source : Dataflow.Function) (operation : Dataflow.Operation) (dimension : Nat) :
    Prop :=
  ∃ id ∈ operation.operands ++ operation.results, ∃ shape : Shape,
    source.typeOf id = .ok (.ranked shape) ∧ dimension ∈ shape.dimensions

theorem NewBuffer.hasDimension {shape : Shape} {registers counters dimension : Nat}
    (new : NewBuffer source operation shape before after registers counters)
    (member : dimension ∈ shape.dimensions) : HasDimension source operation dimension := by
  obtain ⟨result, results_eq, type_eq, -⟩ := new.result
  exact ⟨result, by simp [results_eq], shape, type_eq, member⟩

theorem hasDimension_of_nested {counters : List LoopVariableId} {dimensions : List Nat}
    {body : List Instruction} (flat : ∀ instruction ∈ body, instruction.IsFlat)
    (each : ∀ dimension ∈ dimensions, HasDimension source operation dimension)
    (hasLoop : HasLoop (nested (counters.zip dimensions) body) lower upper step) :
    lower = 0 ∧ step = 1 ∧ HasDimension source operation upper := by
  obtain ⟨lower_eq, step_eq, listed⟩ := hasLoop.nested flat
  obtain ⟨⟨_, dimension⟩, member, rfl⟩ := List.mem_map.mp listed
  exact ⟨lower_eq, step_eq, each dimension (List.of_mem_zip member).2⟩

/-- The loops of an operation go through dimensions of its operands and results. -/
theorem Lowers.hasDimension (lowers : Lowers source operation before after block)
    (hasLoop : HasLoop block lower upper step) :
    lower = 0 ∧ step = 1 ∧ HasDimension source operation upper := by
  cases lowers with
  | constant kind_eq new block_eq =>
      refine absurd hasLoop (HasLoop.not_flat fun instruction member => ?_)
      have made := List.mem_map_of_mem (f := Except.ok (ε := Failure)) member
      rw [← Except.mapM_eq_ok_iff.mp block_eq] at made
      obtain ⟨_, -, store_eq⟩ := List.mem_map.mp made
      simp only [Except.bind_eq_ok_iff, Except.pure_eq_ok_iff] at store_eq
      obtain ⟨_, -, rfl⟩ := store_eq
      exact trivial
  | combination kind_eq left_lives right_lives new =>
      exact hasDimension_of_nested (by simp [Instruction.IsFlat])
        (fun _ member => new.hasDimension member) hasLoop
  | transpose kind_eq lives new =>
      exact hasDimension_of_nested (by simp [Instruction.IsFlat])
        (fun _ member => new.hasDimension member) hasLoop
  | matmul kind_eq left_lives right_lives left_shape new counters_eq dimensions_eq =>
      obtain ⟨others, dimensions_eq⟩ := dimensions_eq
      obtain ⟨value, leftShape, reads, type_eq, inner_eq⟩ := left_shape
      rcases hasLoop.append with clearing | summing
      · exact hasDimension_of_nested (by simp [Instruction.IsFlat])
          (fun _ member => new.hasDimension member) clearing
      · refine hasDimension_of_nested (by simp [Instruction.IsFlat]) ?_ summing
        rw [List.forall_mem_cons, List.forall_mem_cons, List.forall_mem_singleton]
        refine ⟨new.hasDimension ?_, new.hasDimension ?_, ?_⟩
        · simp [dimensions_eq]
        · simp [dimensions_eq]
        · exact ⟨value, List.mem_append_left _ (List.mem_of_getElem? reads), leftShape, type_eq,
            List.mem_of_getElem? inner_eq⟩
  | reshape | cast | print | leave =>
      exact absurd hasLoop (HasLoop.not_flat (by simp [Instruction.IsFlat]))

theorem LowersAll.hasDimension (lowers : LowersAll source code before after block)
    (hasLoop : HasLoop block lower upper step) :
    lower = 0 ∧ step = 1 ∧ ∃ operation ∈ code, HasDimension source operation upper := by
  induction lowers with
  | nil => exact absurd hasLoop (HasLoop.not_flat nofun)
  | cons _ first _ induction =>
      rcases hasLoop.append with early | late
      · obtain ⟨lower_eq, step_eq, dimension⟩ := first.hasDimension early
        exact ⟨lower_eq, step_eq, _, List.mem_cons_self, dimension⟩
      · obtain ⟨lower_eq, step_eq, operation, member, dimension⟩ := induction late
        exact ⟨lower_eq, step_eq, operation, List.mem_cons_of_mem _ member, dimension⟩

theorem Lowers.typed_buffer (lowers : Lowers source operation before after block)
    {buffer : BufferId} {found : Buffer} (found_eq : after.buffers.get? buffer = some found) :
    before.buffers.get? buffer = some found ∨
      ∃ result ∈ operation.results, source.typeOf result = .ok (.ranked found.shape) := by
  have made : ∀ {shape registers counters},
      NewBuffer source operation shape before after registers counters →
      before.buffers.get? buffer = some found ∨
        ∃ result ∈ operation.results, source.typeOf result = .ok (.ranked found.shape) := by
    intro shape registers counters new
    rw [new.buffers, Arena.get?_push] at found_eq
    split at found_eq
    · obtain rfl := Option.some.inj found_eq
      obtain ⟨result, results_eq, type_eq, -⟩ := new.result
      exact .inr ⟨result, by simp [results_eq], type_eq⟩
    · exact .inl found_eq
  cases lowers with
  | constant _ new => exact made new
  | combination _ _ _ new => exact made new
  | matmul _ _ _ _ new => exact made new
  | transpose _ _ new => exact made new
  | reshape _ _ new => exact made new
  | cast _ _ _ after_eq => exact .inl (by rwa [after_eq] at found_eq)
  | print _ _ after_eq => exact .inl (by rwa [after_eq] at found_eq)
  | leave _ after_eq => exact .inl (by rwa [after_eq] at found_eq)

theorem LowersAll.typed_buffer (lowers : LowersAll source code before after block)
    {buffer : BufferId} {found : Buffer} (found_eq : after.buffers.get? buffer = some found) :
    before.buffers.get? buffer = some found ∨ ∃ operation ∈ code,
      ∃ result ∈ operation.results, source.typeOf result = .ok (.ranked found.shape) := by
  induction lowers with
  | nil => exact .inl found_eq
  | cons _ first _ induction =>
      rcases induction found_eq with old | ⟨operation, member, result⟩
      · rcases first.typed_buffer old with older | result
        · exact .inl older
        · exact .inr ⟨_, List.mem_cons_self, result⟩
      · exact .inr ⟨operation, List.mem_cons_of_mem _ member, result⟩

end Lowering

/-! ### Full buffers -/

private theorem RunState.elements?_of_withSlot {state : RunState} {buffer other : BufferId}
    {slot : Slot}
    {cells : Cells Float} (found : (state.withSlot buffer slot).elements? other = some cells) :
    other = buffer ∧ slot = .live cells ∨ state.elements? other = some cells := by
  obtain ⟨index⟩ := buffer
  obtain ⟨place⟩ := other
  rw [elements?_eq_some_iff, withSlot, Array.getElem?_setIfInBounds] at found
  split at found
  · rename_i same
    split at found
    · exact .inl ⟨congrArg Handle.mk same.symm, Option.some.inj found⟩
    · cases found
  · exact .inr (elements?_eq_some_iff.mpr found)

private theorem Run.repeatStep_keeps {step : Run Control} {counter : LoopVariableId}
    {stride count value : Nat} {holds : RunState → Prop}
    (assigned : ∀ state value, holds state → holds (state.withCounter counter value))
    (turn : ∀ state control final, holds state → step state = .ok control final → holds final)
    {state final : RunState} {control : Control} (start : holds state)
    (success : repeatStep step counter stride count value state = .ok control final) :
    holds final := by
  induction count generalizing value state with
  | zero =>
      obtain ⟨-, rfl⟩ := EStateM.pure_eq_ok_iff.mp success
      exact start
  | succ count induction =>
      obtain ⟨-, first, middle, first_eq, rest⟩ := repeatStep_succ_eq_ok_iff.mp success
      have kept := turn _ first middle (assigned state value start) first_eq
      cases first with
      | leave =>
          obtain ⟨-, rfl⟩ := rest
          exact kept
      | proceed => exact induction kept rest

/-- Live buffers hold as many elements as their shapes have. -/
def Function.Filled (function : Function) (state : RunState) : Prop :=
  ∀ buffer found cells, function.buffers.get? buffer = some found →
    state.elements? buffer = some cells → cells.size = found.shape.size

namespace Function

variable {function : Function} {state final : RunState} {control : Control}

theorem Filled.withSlot (filled : function.Filled state) {buffer : BufferId} {slot : Slot}
    (full : ∀ found cells, function.buffers.get? buffer = some found → slot = .live cells →
      cells.size = found.shape.size) : function.Filled (state.withSlot buffer slot) := by
  intro other found cells found_eq cells_eq
  rcases RunState.elements?_of_withSlot cells_eq with ⟨rfl, slot_eq⟩ | earlier
  · exact full found cells found_eq slot_eq
  · exact filled other found cells found_eq earlier

theorem filled_start (started : RunState.start? function = some state) : function.Filled state := by
  intro buffer found cells _ cells_eq
  rw [RunState.elements?_eq_some_iff] at cells_eq
  simp only [RunState.start?, Option.bind_eq_bind, Option.bind_eq_some_iff] at started
  obtain ⟨_, -, _, -, ⟨⟩⟩ := started
  simp [Array.getElem?_replicate] at cells_eq

mutual

theorem filled_of_runInstruction (instruction : Instruction) {state final : RunState}
    {control : Control} (filled : function.Filled state)
    (success : function.runInstruction instruction state = .ok control final) :
    function.Filled final := by
  cases instruction with
  | alloc buffer =>
      obtain ⟨found, cells, found_eq, zeros, -, rfl⟩ := runInstruction_alloc_eq_ok_iff.mp success
      apply filled.withSlot
      rintro other _ other_eq ⟨⟩
      cases found_eq.symm.trans other_eq
      exact size_of_zeros? zeros
  | dealloc buffer =>
      obtain ⟨cells, -, -, rfl⟩ := runInstruction_dealloc_eq_ok_iff.mp success
      exact filled.withSlot nofun
  | load destination buffer indices =>
      obtain ⟨_, _, _, -, -, -, -, -, rfl⟩ := runInstruction_load_eq_ok_iff.mp success
      exact filled
  | store value buffer indices =>
      obtain ⟨_, _, cells, -, -, cells_eq, -, -, rfl⟩ := runInstruction_store_eq_ok_iff.mp success
      apply filled.withSlot
      rintro found _ found_eq ⟨⟩
      rw [Cells.size_set]
      exact filled buffer found cells found_eq cells_eq
  | arithmetic operator destination left right =>
      obtain ⟨_, _, -, -, -, -, rfl⟩ := runInstruction_arithmetic_eq_ok_iff.mp success
      exact filled
  | loop counter lower upper step body =>
      obtain ⟨-, repeated⟩ := runInstruction_loop_eq_ok_iff.mp success
      exact Run.repeatStep_keeps (fun _ _ filled => filled)
        (fun _ _ _ filled success => filled_of_runBlock body filled success) filled repeated
  | copy source destination =>
      obtain ⟨values, target, -, target_eq, same, -, rfl⟩ :=
        runInstruction_copy_eq_ok_iff.mp success
      apply filled.withSlot
      rintro found _ found_eq ⟨⟩
      exact same.trans (filled destination found target found_eq target_eq)
  | print buffer =>
      obtain ⟨_, _, _, -, -, -, -, rfl⟩ := runInstruction_print_eq_ok_iff.mp success
      exact filled
  | leave =>
      obtain ⟨-, rfl⟩ := runInstruction_leave_eq_ok_iff.mp success
      exact filled

theorem filled_of_runBlock (body : List Instruction) {state final : RunState} {control : Control}
    (filled : function.Filled state)
    (success : function.runBlock body state = .ok control final) : function.Filled final := by
  cases body with
  | nil =>
      obtain ⟨-, rfl⟩ := runBlock_nil_eq_ok_iff.mp success
      exact filled
  | cons instruction rest =>
      obtain ⟨first, middle, first_eq, others⟩ := runBlock_cons_eq_ok_iff.mp success
      have kept := filled_of_runInstruction instruction filled first_eq
      cases first with
      | leave =>
          obtain ⟨-, rfl⟩ := others
          exact kept
      | proceed => exact filled_of_runBlock rest kept others

end

private theorem filled_of_runStep {step : Step} (filled : function.Filled state)
    (success : function.runStep step state = .ok control final) : function.Filled final := by
  cases step with
  | assign counter value =>
      simp only [runStep, EStateM.bind_eq_ok_iff, Run.setCounter_eq_ok_iff,
        EStateM.pure_eq_ok_iff] at success
      obtain ⟨_, _, ⟨-, rfl⟩, -, rfl⟩ := success
      exact filled
  | perform instruction => exact filled_of_runInstruction instruction filled success

private theorem filled_of_runSteps {steps : List Step} (filled : function.Filled state)
    (success : function.runSteps steps state = .ok control final) : function.Filled final := by
  induction steps generalizing state with
  | nil =>
      obtain ⟨-, rfl⟩ := EStateM.pure_eq_ok_iff.mp success
      exact filled
  | cons step rest induction =>
      rw [runSteps, EStateM.bind_eq_ok_iff] at success
      obtain ⟨first, middle, first_eq, others⟩ := success
      have kept := filled_of_runStep filled first_eq
      cases first with
      | leave =>
          obtain ⟨-, rfl⟩ := EStateM.pure_eq_ok_iff.mp others
          exact kept
      | proceed => exact induction kept others

/-- The function is in the state at some point of its run. -/
def Reaches (function : Function) (state : RunState) : Prop :=
  ∃ start before after control, RunState.start? function = some start ∧
    function.steps = before ++ after ∧ function.runSteps before start = .ok control state

theorem Reaches.filled (reaches : function.Reaches state) : function.Filled state := by
  obtain ⟨start, before, after, control, started, -, ran⟩ := reaches
  exact filled_of_runSteps (filled_start started) ran

/-- Sizes are computed with words when the function is verified and when it runs. -/
structure InWords (function : Function) : Prop where
  /-- The shapes of buffers fit. -/
  shapes : ∀ buffer found, function.buffers.get? buffer = some found →
    found.shape.Fits ∧ found.shape.InWords
  /-- The last values of loops are words. -/
  loops : ∀ lower upper step, HasLoop function.body lower upper step →
    Word.lastValue lower upper step = .ok (lastValue lower upper step)
  /-- Whenever a buffer is live, there are enough elements for its text. -/
  texts : ∀ state, function.Reaches state → ∀ buffer found cells,
    function.buffers.get? buffer = some found → state.elements? buffer = some cells →
      ∃ text, nestedText? "," found.shape.dimensions cells.toList = some text ∧
        Word.nestedText "," found.shape.dimensions cells.toList = .ok text

open Lowering in
/-- Lowered functions compute with words where shapes fit. -/
theorem inWords_ofDataflow {source : Dataflow.Function} {lowered : Function}
    (wellFormed : source.WellFormed)
    (fits : ∀ shape, source.Mentions shape → shape.Fits)
    (lowering : Function.ofDataflow source = .ok lowered) : lowered.InWords := by
  obtain ⟨body, after, lowers, buffers_eq, -, -, -, body_eq⟩ := ofDataflow_eq_ok wellFormed lowering
  have typed : ∀ operation ∈ source.code, ∀ id ∈ operation.operands ++ operation.results,
      ∀ shape : Shape, source.typeOf id = .ok (.ranked shape) → shape.Fits := by
    intro operation member id listed shape type_eq
    refine fits shape (.value ?_ type_eq)
    rcases List.mem_append.mp listed with reads | defines
    · exact wellFormed.dominated.operand_mem member reads
    · exact List.mem_append_right _ (List.mem_flatMap.mpr ⟨operation, member, defines⟩)
  have shapes : ∀ buffer found, lowered.buffers.get? buffer = some found → found.shape.Fits := by
    intro buffer found found_eq
    rw [buffers_eq] at found_eq
    rcases lowers.typed_buffer found_eq with start | ⟨operation, member, result, defines, type_eq⟩
    · cases start
    · exact typed operation member result (List.mem_append_right _ defines) found.shape type_eq
  constructor
  · intro buffer found found_eq
    exact ⟨shapes buffer found found_eq, (shapes buffer found found_eq).inWords⟩
  · intro lower upper step hasLoop
    rw [body_eq] at hasLoop
    have flat : ∀ {block : List Instruction}, (∀ instruction ∈ block, instruction.IsFlat) →
        ¬ HasLoop block lower upper step := HasLoop.not_flat
    rcases hasLoop.append with hasLoop | last
    rcases hasLoop.append with hasLoop | deallocs
    rcases hasLoop.append with allocs | hasLoop
    · exact absurd allocs (flat (by simp [Instruction.IsFlat]))
    · obtain ⟨rfl, rfl, operation, member, id, listed, shape, type_eq, dimension⟩ :=
        lowers.hasDimension hasLoop
      have small := (typed operation member id listed shape type_eq).dimension_lt dimension
      exact Word.lastValue_of_lt Nat.one_ne_zero small
    · exact absurd deallocs (flat (by simp [Instruction.IsFlat]))
    · exact absurd last (flat (by simp [Instruction.IsFlat]))
  · intro state reached buffer found cells found_eq cells_eq
    apply (shapes buffer found found_eq).inWords.text
    rw [Cells.length_toList]
    exact reached.filled buffer found cells found_eq cells_eq

end Function

end Loop

end TensorLang
