import TensorLang.Proofs.Loop.OpenBodies

/-!
# Nests enumerate index tuples

A nest runs its body once for each index tuple, in lexicographic order.  Between two runs nothing
but the variables of the nest changes, and they hold the tuple when the body starts.  This is shown
for a relation between the tuples that are left and the result of a run, by induction on the loops
of the nest and on the turns of each loop.
-/

namespace TensorLang

/-! ### The order of index tuples -/

theorem Shape.ascending_indexTuples (dimensions : List Nat) :
    (indexTuples dimensions).Pairwise (· < ·) := by
  induction dimensions with
  | nil => exact List.pairwise_singleton _ _
  | cons dimension rest induction =>
      rw [indexTuples, List.pairwise_flatMap]
      constructor
      · intro index _
        rw [List.pairwise_map]
        exact induction.imp fun less => List.cons_lt_cons_iff.mpr (.inr ⟨rfl, less⟩)
      · refine List.pairwise_lt_range.imp fun less tuple tuple_mem other other_mem => ?_
        obtain ⟨_, _, rfl⟩ := List.mem_map.mp tuple_mem
        obtain ⟨_, _, rfl⟩ := List.mem_map.mp other_mem
        exact List.cons_lt_cons_iff.mpr (.inl less)

example : Shape.indexTuples [2, 2] = [[0, 0], [0, 1], [1, 0], [1, 1]] := by decide

theorem Shape.indexTuples_eq_nil_iff {dimensions : List Nat} :
    indexTuples dimensions = [] ↔ 0 ∈ dimensions := by
  rw [← List.length_eq_zero_iff, length_indexTuples]
  refine ⟨fun size_eq => Decidable.byContradiction fun nonzero => ?_, fun zero_mem => ?_⟩
  · exact Nat.ne_of_gt (size_pos_of_zero_notMem nonzero) size_eq
  · refine Nat.eq_zero_of_not_pos fun positive => ?_
    exact zero_notMem_of_size_pos positive zero_mem

namespace Loop

variable {counter : LoopVariableId} {counters : List LoopVariableId} {body : List Instruction}

/-! ### States that differ in some loop variables -/

/-- The loop variables have the values of the tuple. -/
def RunState.StandsAt (state : RunState) (counters : List LoopVariableId) (tuple : List Nat) :
    Prop :=
  counters.map (fun id => state.counters.get? id.index) = tuple.map some

/-- Nothing but the values of some loop variables has changed. -/
structure RunState.AgreesBut (state : RunState) (counters : List LoopVariableId)
    (other : RunState) : Prop where
  /-- The buffers are the same. -/
  buffers : other.buffers = state.buffers
  /-- The registers hold the same numbers. -/
  registers : other.registers = state.registers
  /-- Nothing has been printed. -/
  output : other.output = state.output
  /-- The same loop variables exist. -/
  size : other.counters.size = state.counters.size
  /-- The other loop variables have the same values. -/
  others : ∀ id ∉ counters, other.counters.get? id.index = state.counters.get? id.index

namespace RunState.AgreesBut

variable {first second third : RunState}

theorem refl (state : RunState) : state.AgreesBut counters state :=
  ⟨rfl, rfl, rfl, rfl, fun _ _ => rfl⟩

theorem trans (early : first.AgreesBut counters second) (late : second.AgreesBut counters third) :
    first.AgreesBut counters third where
  buffers := late.buffers.trans early.buffers
  registers := late.registers.trans early.registers
  output := late.output.trans early.output
  size := late.size.trans early.size
  others := fun id outside => (late.others id outside).trans (early.others id outside)

theorem cons (same : first.AgreesBut counters second) :
    first.AgreesBut (counter :: counters) second :=
  { same with
    others := fun id outside => same.others id fun member => outside (.tail _ member) }

theorem withCounter {state : RunState} {counter : LoopVariableId}
    (inside : counter.index < state.counters.size) (value : Nat) :
    state.AgreesBut (counter :: counters) (state.withCounter counter value) where
  buffers := rfl
  registers := rfl
  output := rfl
  size := Cells.size_set _ _ _
  others := fun id outside => by
    rw [RunState.get?_withCounter value inside, if_neg]
    rintro rfl
    exact outside List.mem_cons_self

end RunState.AgreesBut

/-! ### Bodies that spare loop variables -/

mutual

/-- The instruction neither leaves the function nor runs a loop over one of the variables. -/
def Instruction.Spares (counters : List LoopVariableId) : Instruction → Prop
  | .loop counter _ _ _ body => counter ∉ counters ∧ BlockSpares counters body
  | .leave => False
  | .alloc _ | .dealloc _ | .load _ _ _ | .store _ _ _ | .arithmetic _ _ _ _ | .copy _ _
  | .print _ => True

/-- The instructions neither leave the function nor run a loop over one of the variables. -/
def BlockSpares (counters : List LoopVariableId) : List Instruction → Prop
  | [] => True
  | instruction :: rest => instruction.Spares counters ∧ BlockSpares counters rest

end

theorem blockSpares_nested {pairs : List (LoopVariableId × Nat)}
    (apart : ∀ pair ∈ pairs, pair.1 ∉ counters) (spares : BlockSpares counters body) :
    BlockSpares counters (nested pairs body) := by
  induction pairs with
  | nil => exact spares
  | cons pair rest induction =>
      obtain ⟨here, others⟩ := List.forall_mem_cons.mp apart
      exact ⟨⟨here, induction others⟩, trivial⟩

/-- The function goes on, and loop variables exist and have their values as before. -/
structure Spared (counters : List LoopVariableId) (state : RunState) (control : Control)
    (final : RunState) : Prop where
  /-- The function goes on. -/
  proceeds : control = .proceed
  /-- The same loop variables exist. -/
  size : final.counters.size = state.counters.size
  /-- They have the same values. -/
  kept : ∀ id ∈ counters, final.counters.get? id.index = state.counters.get? id.index

theorem Spared.of_eq {state final : RunState} {control : Control} (proceeds : control = .proceed)
    (same : final.counters = state.counters) : Spared counters state control final :=
  ⟨proceeds, congrArg Cells.size same, fun _ _ => by rw [same]⟩

theorem Spared.trans {first second third : RunState} {control last : Control}
    (early : Spared counters first control second) (late : Spared counters second last third) :
    Spared counters first last third where
  proceeds := late.proceeds
  size := late.size.trans early.size
  kept := fun id member => (late.kept id member).trans (early.kept id member)

theorem Spared.tail {state final : RunState} {control : Control}
    (spared : Spared (counter :: counters) state control final) :
    Spared counters state control final :=
  { spared with kept := fun id member => spared.kept id (.tail _ member) }

/-- A turn assigns the loop variable and runs the step, and the other turns follow if it proceeds.
-/
theorem Run.repeatStep_succ {step : Run Control} {state : RunState}
    (inside : counter.index < state.counters.size) (count value : Nat) :
    Run.repeatStep step counter 1 (count + 1) value state =
      match step (state.withCounter counter value) with
      | .ok .proceed middle => Run.repeatStep step counter 1 count (value + 1) middle
      | .ok .leave middle => .ok .leave middle
      | .error failure after => .error failure after := by
  have assigned : Run.setCounter counter value state = .ok ⟨⟩ (state.withCounter counter value) :=
    Run.setCounter_eq_ok_iff.mpr ⟨inside, rfl⟩
  change EStateM.bind _ _ _ = _
  rw [EStateM.bind, assigned]
  change EStateM.bind _ _ _ = _
  rw [EStateM.bind]
  cases step (state.withCounter counter value) with
  | ok control middle => cases control <;> rfl
  | error failure after => rfl

private theorem Run.repeatStep_spares {step : Run Control} (apart : counter ∉ counters)
    (spares : ∀ state control final, step state = .ok control final →
      Spared counters state control final)
    {stride count value : Nat} {state final : RunState} {control : Control}
    (success : Run.repeatStep step counter stride count value state = .ok control final) :
    Spared counters state control final := by
  induction count generalizing value state with
  | zero =>
      obtain ⟨rfl, rfl⟩ := EStateM.pure_eq_ok_iff.mp success
      exact .of_eq rfl rfl
  | succ count induction =>
      obtain ⟨inside, first, middle, first_eq, rest⟩ := Run.repeatStep_succ_eq_ok_iff.mp success
      have spared := spares _ _ _ first_eq
      obtain rfl := spared.proceeds
      have assigned : Spared counters state .proceed (state.withCounter counter value) := by
        refine ⟨rfl, Cells.size_set _ _ _, fun id member => ?_⟩
        rw [RunState.get?_withCounter value inside, if_neg]
        rintro rfl
        exact apart member
      exact (assigned.trans spared).trans (induction rest)

namespace Function

variable {function : Function} {state final : RunState} {control : Control}

mutual

private theorem runInstruction_spares (instruction : Instruction)
    (spares : instruction.Spares counters) {state final : RunState} {control : Control}
    (success : function.runInstruction instruction state = .ok control final) :
    Spared counters state control final := by
  cases instruction with
  | alloc buffer =>
      obtain ⟨_, _, _, _, rfl, rfl⟩ := runInstruction_alloc_eq_ok_iff.mp success
      exact .of_eq rfl rfl
  | dealloc buffer =>
      obtain ⟨_, _, rfl, rfl⟩ := runInstruction_dealloc_eq_ok_iff.mp success
      exact .of_eq rfl rfl
  | load destination buffer indices =>
      obtain ⟨_, _, _, _, _, _, _, rfl, rfl⟩ := runInstruction_load_eq_ok_iff.mp success
      exact .of_eq rfl rfl
  | store value buffer indices =>
      obtain ⟨_, _, _, _, _, _, _, rfl, rfl⟩ := runInstruction_store_eq_ok_iff.mp success
      exact .of_eq rfl rfl
  | arithmetic operator destination left right =>
      obtain ⟨_, _, _, _, _, rfl, rfl⟩ := runInstruction_arithmetic_eq_ok_iff.mp success
      exact .of_eq rfl rfl
  | loop counter lower upper step body =>
      obtain ⟨_, repeated⟩ := runInstruction_loop_eq_ok_iff.mp success
      exact Run.repeatStep_spares spares.1
        (fun _ _ _ ran => runBlock_spares body spares.2 ran) repeated
  | copy source destination =>
      obtain ⟨_, _, _, _, _, rfl, rfl⟩ := runInstruction_copy_eq_ok_iff.mp success
      exact .of_eq rfl rfl
  | print buffer =>
      obtain ⟨_, _, _, _, _, _, rfl, rfl⟩ := runInstruction_print_eq_ok_iff.mp success
      exact .of_eq rfl rfl
  | leave => exact spares.elim

theorem runBlock_spares (body : List Instruction) (spares : BlockSpares counters body)
    {state final : RunState} {control : Control}
    (success : function.runBlock body state = .ok control final) :
    Spared counters state control final := by
  cases body with
  | nil =>
      obtain ⟨rfl, rfl⟩ := runBlock_nil_eq_ok_iff.mp success
      exact .of_eq rfl rfl
  | cons instruction rest =>
      obtain ⟨first, middle, first_eq, rest_eq⟩ := runBlock_cons_eq_ok_iff.mp success
      have spared := runInstruction_spares instruction spares.1 first_eq
      obtain rfl := spared.proceeds
      exact spared.trans (runBlock_spares rest spares.2 rest_eq)

end

/-- Whenever the block runs to its end, the function goes on, and the loop variables are spared. -/
def Spares (function : Function) (counters : List LoopVariableId) (body : List Instruction) :
    Prop :=
  ∀ ⦃state control final⦄, function.runBlock body state = .ok control final →
    Spared counters state control final

/-! ### Runs of a body on tuples -/

/-- The body runs once for each tuple, in order.  Between the runs nothing but the loop variables
changes, and they hold the tuple when the body starts.  A run that fails is the last one. -/
inductive Sweep (function : Function) (counters : List LoopVariableId) (body : List Instruction) :
    List (List Nat) → RunState → EStateM.Result Failure RunState Control → Prop where
  | done {state final : RunState} (same : state.AgreesBut counters final) :
      Sweep function counters body [] state (.ok .proceed final)
  | turn {tuple : List Nat} {tuples : List (List Nat)} {state ready after : RunState}
      {result : EStateM.Result Failure RunState Control} (same : state.AgreesBut counters ready)
      (stands : ready.StandsAt counters tuple)
      (ran : function.runBlock body ready = .ok .proceed after)
      (later : Sweep function counters body tuples after result) :
      Sweep function counters body (tuple :: tuples) state result
  | failed {tuple : List Nat} {tuples : List (List Nat)} {state ready after : RunState}
      {failure : Failure} (same : state.AgreesBut counters ready)
      (stands : ready.StandsAt counters tuple)
      (ran : function.runBlock body ready = .error failure after) :
      Sweep function counters body (tuple :: tuples) state (.error failure after)

namespace Sweep

variable {tuples front back : List (List Nat)} {state ready : RunState}
variable {outcome result : EStateM.Result Failure RunState Control}

/-- Changes of the loop variables ahead of the first run do not matter. -/
theorem absorb (same : state.AgreesBut counters ready)
    (sweep : Sweep function counters body tuples ready result) :
    Sweep function counters body tuples state result := by
  cases sweep with
  | done later => exact .done (same.trans later)
  | turn later stands ran rest => exact .turn (same.trans later) stands ran rest
  | failed later stands ran => exact .failed (same.trans later) stands ran

/-- The runs on some tuples, and unless one of them fails, the runs on others after them. -/
theorem append (first : Sweep function counters body front state outcome)
    (second : ∀ middle, outcome = .ok .proceed middle →
      Sweep function counters body back middle result)
    (failing : ∀ failure after, outcome = .error failure after → result = outcome) :
    Sweep function counters body (front ++ back) state result := by
  induction first with
  | done same => exact absorb same (second _ rfl)
  | turn same stands ran _ induction => exact .turn same stands ran (induction second failing)
  | failed same stands ran => exact failing _ _ rfl ▸ .failed same stands ran

/-- A loop variable that holds a value throughout can be put in front of the others. -/
theorem cons {value : Nat} (apart : counter ∉ counters)
    (spares : function.Spares (counter :: counters) body)
    (sweep : Sweep function counters body tuples state result)
    (value_eq : state.counters.get? counter.index = some value) :
    Sweep function (counter :: counters) body (tuples.map (value :: ·)) state result := by
  induction sweep with
  | done same => exact .done same.cons
  | @turn tuple tuples state ready after result same stands ran _ induction =>
      have ready_eq : ready.counters.get? counter.index = some value :=
        (same.others counter apart).trans value_eq
      have after_eq := ((spares ran).kept counter List.mem_cons_self).trans ready_eq
      refine .turn same.cons ?_ ran (induction after_eq)
      rw [RunState.StandsAt, List.map_cons, List.map_cons, ready_eq, stands]
  | @failed tuple tuples state ready after failure same stands ran =>
      refine .failed same.cons ?_ ran
      rw [RunState.StandsAt, List.map_cons, List.map_cons, same.others counter apart, value_eq,
        stands]

theorem size_eq (spares : function.Spares counters body)
    (sweep : Sweep function counters body tuples state (.ok control final)) :
    final.counters.size = state.counters.size := by
  generalize result_eq : (EStateM.Result.ok control final) = result at sweep
  induction sweep with
  | done same =>
      cases result_eq
      exact same.size
  | turn same stands ran _ induction =>
      exact (induction result_eq).trans ((spares ran).size.trans same.size)
  | failed => cases result_eq

/-- Only the body can fail.  If it does not fail as long as an invariant holds, all runs are made.
-/
theorem completes {holds : RunState → Prop}
    (sweep : Sweep function counters body tuples state result) (start : holds state)
    (stable : ∀ ⦃first second : RunState⦄, first.AgreesBut counters second → holds first →
      holds second)
    (total : ∀ tuple ∈ tuples, ∀ ready : RunState, ready.StandsAt counters tuple → holds ready →
      ∃ after, function.runBlock body ready = .ok .proceed after ∧ holds after) :
    ∃ final, result = .ok .proceed final ∧ holds final := by
  induction sweep with
  | @done state final same => exact ⟨final, rfl, stable same start⟩
  | turn same stands ran _ induction =>
      obtain ⟨after, after_eq, next⟩ := total _ List.mem_cons_self _ stands (stable same start)
      obtain ⟨-, rfl⟩ := EStateM.Result.ok.inj (ran.symm.trans after_eq)
      exact induction next fun tuple member => total tuple (.tail _ member)
  | failed same stands ran =>
      obtain ⟨after, after_eq, -⟩ := total _ List.mem_cons_self _ stands (stable same start)
      cases ran.symm.trans after_eq

end Sweep

/-! ### Nests -/

private theorem runBlock_singleton (instruction : Instruction) :
    function.runBlock [instruction] = function.runInstruction instruction := by
  rw [runBlock]
  refine Eq.trans (bind_congr fun control => ?_) (bind_pure _)
  cases control with
  | leave => rfl
  | proceed => rw [runBlock]

/-- If each turn sweeps the tuples with the loop variable ahead of them, all turns together sweep
the tuples that start with the values of the loop variable. -/
theorem sweep_repeatStep {step : Run Control} {tuples : List (List Nat)}
    (apart : counter ∉ counters) (spares : function.Spares (counter :: counters) body)
    (turns : ∀ state : RunState, (∀ id ∈ counters, id.index < state.counters.size) →
      Sweep function counters body tuples state (step state))
    (count value : Nat) {state : RunState}
    (inside : ∀ id ∈ counter :: counters, id.index < state.counters.size) :
    Sweep function (counter :: counters) body
      ((List.range' value count).flatMap fun turn => tuples.map (turn :: ·)) state
      (Run.repeatStep step counter 1 count value state) := by
  induction count generalizing value state with
  | zero => exact .done (.refl state)
  | succ count induction =>
      obtain ⟨here, others⟩ := List.forall_mem_cons.mp inside
      rw [List.range'_succ, List.flatMap_cons, Run.repeatStep_succ here]
      have assigned : state.AgreesBut (counter :: counters) (state.withCounter counter value) :=
        .withCounter here value
      have first := turns (state.withCounter counter value)
        (by rw [assigned.size]; exact others)
      have value_eq : (state.withCounter counter value).counters.get? counter.index =
          some value := by
        rw [RunState.get?_withCounter value here, if_pos rfl]
      have turn := Sweep.absorb assigned (Sweep.cons apart spares first value_eq)
      refine turn.append ?_ ?_
      · intro middle ran
        simp only [ran]
        have size_eq := Sweep.size_eq spares (ran ▸ turn)
        exact induction (value + 1) (by rw [size_eq]; exact inside)
      · intro failure after ran
        simp only [ran]

private theorem sweep_nested {pairs : List (LoopVariableId × Nat)}
    (distinct : (pairs.map Prod.fst).Nodup) (spares : function.Spares (pairs.map Prod.fst) body)
    {state : RunState} (inside : ∀ id ∈ pairs.map Prod.fst, id.index < state.counters.size) :
    Sweep function (pairs.map Prod.fst) body (Shape.indexTuples (pairs.map Prod.snd)) state
      (function.runBlock (nested pairs body) state) := by
  induction pairs generalizing state with
  | nil =>
      change Sweep function [] body [[]] state (function.runBlock body state)
      cases ran : function.runBlock body state with
      | ok control final =>
          obtain rfl := (spares ran).proceeds
          exact .turn (.refl state) rfl ran (.done (.refl final))
      | error failure after => exact .failed (.refl state) rfl ran
  | cons pair rest induction =>
      obtain ⟨counter, dimension⟩ := pair
      obtain ⟨apart, distinct⟩ := List.nodup_cons.mp distinct
      have turns (state : RunState) (there : ∀ id ∈ rest.map Prod.fst,
          id.index < state.counters.size) :=
        induction distinct (fun _ _ _ ran => (spares ran).tail) there
      have loop := sweep_repeatStep apart spares turns dimension 0 inside
      rw [← List.range_eq_range'] at loop
      change Sweep function _ body _ state
        (function.runBlock [.loop counter 0 dimension 1 (nested rest body)] state)
      rw [runBlock_singleton, runInstruction, if_neg Nat.one_ne_zero, iterations_zero_one]
      exact loop

private theorem sweep_zip {dimensions : List Nat} (length_eq : counters.length = dimensions.length)
    (distinct : counters.Nodup) (spares : BlockSpares counters body) {state : RunState}
    (inside : ∀ id ∈ counters, id.index < state.counters.size) :
    Sweep function counters body (Shape.indexTuples dimensions) state
      (function.runBlock (nested (counters.zip dimensions) body) state) := by
  have first_eq : (counters.zip dimensions).map Prod.fst = counters :=
    List.map_fst_zip (Nat.le_of_eq length_eq)
  have second_eq : (counters.zip dimensions).map Prod.snd = dimensions :=
    List.map_snd_zip (Nat.le_of_eq length_eq.symm)
  rw [← first_eq] at distinct spares inside
  have sweep := sweep_nested distinct (fun _ _ _ ran => function.runBlock_spares body spares ran)
    inside
  rwa [first_eq, second_eq] at sweep

end Function

/-- After a nest has been written, the same bodies are open as before it, and the nest runs the
block once for each index tuple. -/
structure Enumerates (dimensions : List Nat) (counters : List LoopVariableId)
    (block : List Instruction) (bodies written : OpenBodies) : Prop where
  /-- As many bodies are open. -/
  depth_eq : written.depth = bodies.depth
  /-- The innermost of them ends with the nest, and the others are the same. -/
  written_eq : written = bodies.append (nested (counters.zip dimensions) block)
  /-- There is a variable for each dimension. -/
  length_eq : counters.length = dimensions.length
  /-- The variables differ from each other. -/
  distinct : counters.Nodup
  /-- The tuples are those with an index below each dimension. -/
  mem_iff : ∀ tuple, tuple ∈ Shape.indexTuples dimensions ↔ tuple.length = dimensions.length ∧
    ∀ place ∈ tuple.zip dimensions, place.1 < place.2
  /-- They are in lexicographic order, and none of them comes twice. -/
  ascending : (Shape.indexTuples dimensions).Pairwise (· < ·)
  /-- There are none just if some dimension is zero. -/
  empty_iff : Shape.indexTuples dimensions = [] ↔ 0 ∈ dimensions
  /-- Where the variables exist, the nest runs the block on the tuples, one after the other. -/
  sweep : ∀ (function : Function) (state : RunState),
    (∀ id ∈ counters, id.index < state.counters.size) →
    function.Sweep counters block (Shape.indexTuples dimensions) state
      (function.runBlock (nested (counters.zip dimensions) block) state)
  /-- If the block does not fail as long as an invariant holds, the nest does not fail either, and
  the invariant holds after it. -/
  completes : ∀ (function : Function) (state : RunState) (holds : RunState → Prop),
    (∀ id ∈ counters, id.index < state.counters.size) → holds state →
    (∀ ⦃first second : RunState⦄, first.AgreesBut counters second → holds first → holds second) →
    (∀ tuple ∈ Shape.indexTuples dimensions, ∀ ready : RunState, ready.StandsAt counters tuple →
      holds ready → ∃ after, function.runBlock block ready = .ok .proceed after ∧ holds after) →
    ∃ final, function.runBlock (nested (counters.zip dimensions) block) state =
      .ok .proceed final ∧ holds final
  /-- The nest can be a part of the body of another nest. -/
  spares : ∀ outer : List LoopVariableId, (∀ id ∈ counters, id ∉ outer) →
    BlockSpares outer block → BlockSpares outer (nested (counters.zip dimensions) block)

/-- A nest around a block that neither leaves the function nor runs a loop over a variable of the
nest enumerates the index tuples of its dimensions. -/
theorem Writing.nest_enumerates {dimensions : List Nat} {build : List Index → Writing Unit}
    {bodies : OpenBodies} {before after : Allocation} {counters : List LoopVariableId}
    {block : List Instruction} (room : dimensions.length ≤ Handle.wordSize)
    (counters_eq : counters = before.nextLoopVariable.following dimensions.length)
    (spares : BlockSpares counters block)
    (written : build (counters.map .loopVariable) (bodies.opened dimensions.length)
      (Lowering.counting before 0 dimensions.length) =
        .ok ((⟨⟩, (bodies.opened dimensions.length).append block), after)) :
    ∃ outcome, nest dimensions build bodies before = .ok ((⟨⟩, outcome), after) ∧
      Enumerates dimensions counters block bodies outcome := by
  have length_eq : counters.length = dimensions.length := by
    rw [counters_eq, Handle.length_following]
  have distinct : counters.Nodup := by
    rw [counters_eq]
    exact Handle.nodup_following room
  have sweep (function : Function) (state : RunState)
      (inside : ∀ id ∈ counters, id.index < state.counters.size) :=
    function.sweep_zip length_eq distinct spares inside
  refine ⟨_, nest_eq_ok (counters_eq ▸ written), ?_⟩
  rw [← counters_eq]
  exact {
    depth_eq := rfl
    written_eq := rfl
    length_eq
    distinct
    mem_iff := fun _ => Shape.mem_indexTuples.trans Shape.within_iff
    ascending := Shape.ascending_indexTuples dimensions
    empty_iff := Shape.indexTuples_eq_nil_iff
    sweep
    completes := fun function state _ inside start stable total =>
      (sweep function state inside).completes start stable total
    spares := fun outer apart outer_spares => blockSpares_nested
      (fun pair member => apart pair.1 (List.of_mem_zip member).1) outer_spares }

theorem Writing.nest_enumerates_innerNest :
    [2, 3].length ≤ Handle.wordSize ∧
      BlockSpares [⟨0⟩, ⟨1⟩] [.loop ⟨2⟩ 0 4 1 [.load ⟨0⟩ ⟨0⟩
        [.loopVariable ⟨0⟩, .loopVariable ⟨1⟩, .loopVariable ⟨2⟩]]] ∧
      ∃ outcome, nest [2, 3]
          (fun outer => nest [4] fun inner => write [.load ⟨0⟩ ⟨0⟩ (outer ++ inner)])
          ⟨[.alloc ⟨0⟩], []⟩ .start = .ok ((⟨⟩, outcome), Lowering.counting .start 0 3) ∧
        Enumerates [2, 3] [⟨0⟩, ⟨1⟩] [.loop ⟨2⟩ 0 4 1 [.load ⟨0⟩ ⟨0⟩
          [.loopVariable ⟨0⟩, .loopVariable ⟨1⟩, .loopVariable ⟨2⟩]]] ⟨[.alloc ⟨0⟩], []⟩
            outcome := by
  have room : [2, 3].length ≤ Handle.wordSize := by decide
  have spares : BlockSpares [⟨0⟩, ⟨1⟩] [.loop ⟨2⟩ 0 4 1 [.load ⟨0⟩ ⟨0⟩
      [.loopVariable ⟨0⟩, .loopVariable ⟨1⟩, .loopVariable ⟨2⟩]]] := by
    simp [BlockSpares, Instruction.Spares]
  have counters_eq : [⟨0⟩, ⟨1⟩] = Allocation.start.nextLoopVariable.following [2, 3].length := rfl
  exact ⟨room, spares, nest_enumerates room counters_eq spares rfl⟩

end Loop

end TensorLang
