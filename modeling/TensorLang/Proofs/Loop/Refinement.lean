import TensorLang.Proofs.Loop.Simulation

/-!
# Runs of lowered functions

The instructions of all operations run between the allocation and the release of all buffers.  A
lowered function prints the lines that its dataflow function calls for, and nothing else.
-/

namespace TensorLang

namespace Loop

open RunState

namespace Lowering

/-- A kind that is lowered is no call. -/
theorem Lowers.callee?_eq_none {source : Dataflow.Function} {operation : Dataflow.Operation}
    {before after : Allocation} {block : List Instruction}
    (lowers : Lowers source operation before after block) : operation.kind.callee? = none := by
  cases lowers with
  | @combination operator _ _ _ _ _ _ _ kind_eq =>
      rw [kind_eq]
      cases operator with
      | add => rfl
      | multiply => rfl
  | constant kind_eq => rw [kind_eq]; rfl
  | matmul kind_eq => rw [kind_eq]; rfl
  | transpose kind_eq => rw [kind_eq]; rfl
  | reshape kind_eq => rw [kind_eq]; rfl
  | cast kind_eq => rw [kind_eq]; rfl
  | print kind_eq => rw [kind_eq]; rfl
  | leave kind_eq => rw [kind_eq]; rfl

/-- What lowering does with operations in order. -/
inductive LowersAll (source : Dataflow.Function) :
    List Dataflow.Operation → Allocation → Allocation → List Instruction → Prop
  | nil {allocation : Allocation} : LowersAll source [] allocation allocation []
  | cons {operation : Dataflow.Operation} {code : List Dataflow.Operation}
      {before middle after : Allocation} {block others : List Instruction}
      (returns_nothing : operation.kind.isLeave = true → operation.operands = [])
      (first : Lowers source operation before middle block)
      (rest : LowersAll source code middle after others) :
      LowersAll source (operation :: code) before after (block ++ others)

variable {source : Dataflow.Function} {lowered : Function} {operation : Dataflow.Operation}
variable {code : List Dataflow.Operation} {available : List Dataflow.ValueId}
variable {before after : Allocation} {block : List Instruction}

private theorem checkExpressible_leave (accepted : checkExpressible source operation = .ok ())
    (leaves : operation.kind.isLeave = true) : operation.operands = [] := by
  simp only [checkExpressible, Except.bind_eq_ok_iff] at accepted
  obtain ⟨unranked?, -, accepted⟩ := accepted
  cases unranked? with
  | some value => cases accepted
  | none =>
      cases kind_eq : operation.kind with
      | leave =>
          simp only [kind_eq] at accepted
          split at accepted
          · exact List.isEmpty_iff.mp (by assumption)
          · cases accepted
      | _ =>
          rw [kind_eq] at leaves
          cases leaves

theorem ofOperations_eq_ok (success : ofOperations source code before = .ok (block, after)) :
    LowersAll source code before after block := by
  induction code generalizing before block with
  | nil =>
      obtain ⟨rfl, rfl⟩ := Prod.mk.inj (StateT.pure_eq_ok_iff.mp success)
      exact .nil
  | cons operation rest induction =>
      simp only [ofOperations, StateT.bind_eq_ok_iff, StateT.lift_eq_ok_iff,
        StateT.pure_eq_ok_iff] at success
      obtain ⟨_, _, ⟨_, expressible, ⟨⟩⟩, first, middle, first_eq, others, _, others_eq, ⟨⟩⟩ :=
        success
      exact .cons (checkExpressible_leave expressible) (ofOperation_eq_ok first_eq)
        (induction others_eq)

namespace LowersAll

theorem callee?_eq_none (lowers : LowersAll source code before after block) :
    ∀ operation ∈ code, operation.kind.callee? = none := by
  induction lowers with
  | nil => simp
  | cons _ first _ induction => exact List.forall_mem_cons.mpr ⟨first.callee?_eq_none, induction⟩

theorem grows (lowers : LowersAll source code before after block) : Grows before after := by
  induction lowers with
  | nil => exact Grows.refl _
  | cons _ first _ induction => exact first.grows.trans induction

/-- All operations keep everything in memory. -/
theorem fits (lowers : LowersAll source code before after block)
    (fits : Fits source available before)
    (proper : ∀ operation ∈ code, operation.Proper)
    (typed : ∀ operation ∈ code, ∃ shapes resolution, operation.Typed source shapes resolution)
    (dominated : Dataflow.Dominated available code)
    (square : ∀ operation ∈ code, SquareRight source operation) :
    Fits source (available ++ code.flatMap Dataflow.Operation.results) after := by
  induction lowers generalizing available with
  | nil => simpa using fits
  | cons returns_nothing first rest induction =>
      rw [List.forall_mem_cons] at proper typed square
      obtain ⟨_, _, first_typed⟩ := typed.1
      rw [List.flatMap_cons, ← List.append_assoc]
      exact induction (first.fits fits proper.1 first_typed dominated.1 square.1) proper.2 typed.2
        dominated.2 square.2

/-- The right operands of accepted matrix products are square. -/
theorem square (lowers : LowersAll source code before after block)
    (kept : ∀ id found, after.buffers.get? id = some found →
      lowered.buffers.get? id = some found)
    (fits : Fits source available before)
    (proper : ∀ operation ∈ code, operation.Proper)
    (typed : ∀ operation ∈ code, ∃ shapes resolution, operation.Typed source shapes resolution)
    (dominated : Dataflow.Dominated available code) {progress finished : Progress}
    (checked : lowered.checkBlock .outside progress block = .ok finished) :
    ∀ operation ∈ code, SquareRight source operation := by
  induction lowers generalizing available progress with
  | nil => simp
  | cons returns_nothing first rest induction =>
      rw [List.forall_mem_cons] at proper typed
      obtain ⟨_, first_checked, rest_checked⟩ := Function.checkBlock_append_eq_ok checked
      obtain ⟨_, _, first_typed⟩ := typed.1
      have first_square := first.squareRight
        (fun id found found_eq => kept id found (rest.grows id found found_eq)) fits first_typed
        dominated.1 first_checked
      exact List.forall_mem_cons.mpr ⟨first_square, induction kept
        (first.fits fits proper.1 first_typed dominated.1 first_square) proper.2 typed.2
        dominated.2 rest_checked⟩

theorem faithful (lowers : LowersAll source code before after block)
    (kept : ∀ id found, after.buffers.get? id = some found →
      lowered.buffers.get? id = some found)
    {environment : Dataflow.Environment} {state final : RunState} {control : Control}
    (simulates : Simulates source lowered available before environment state)
    (ending : Dataflow.Ending code) (proper : ∀ operation ∈ code, operation.Proper)
    (typed : ∀ operation ∈ code, ∃ shapes resolution, operation.Typed source shapes resolution)
    (dominated : Dataflow.Dominated available code)
    (distinct : (available ++ code.flatMap Dataflow.Operation.results).Nodup)
    {progress finished : Progress}
    (checked : lowered.checkBlock .outside progress block = .ok finished)
    (success : lowered.runBlock block state = .ok control final) :
    control = .proceed ∧ ∃ effects : Dataflow.Effects,
      (∀ calls, Dataflow.evaluateCode calls code environment = .ok effects) ∧
      final.output = state.output ++ linesOf effects.printed := by
  induction lowers generalizing available progress environment state with
  | nil => exact ending.elim
  | @cons operation code _ _ _ block others returns_nothing first rest induction =>
      obtain ⟨_, first_checked, rest_checked⟩ := Function.checkBlock_append_eq_ok checked
      obtain ⟨first_control, middle, first_ran, rest_ran⟩ :=
        Function.runBlock_append_eq_ok_iff.mp success
      obtain ⟨_, _, first_typed⟩ := typed operation List.mem_cons_self
      rw [List.flatMap_cons, ← List.append_assoc] at distinct
      have fresh : ∀ id ∈ available, id ∉ operation.results := fun id member defined =>
        (List.nodup_append.mp (List.nodup_append.mp distinct).1).2.2 id member id defined rfl
      obtain ⟨rfl, effects, performs, output_eq, next⟩ := lowers_faithful first
        (fun id found found_eq => kept id found (rest.grows id found found_eq)) simulates
        (proper operation List.mem_cons_self) first_typed dominated.1 fresh first_checked first_ran
      cases leaves : operation.kind.isLeave with
      | true =>
          have kind_eq : operation.kind = .leave := by
            cases kind_eq : operation.kind with
            | leave => rfl
            | _ =>
                rw [kind_eq] at leaves
                cases leaves
          cases code with
          | cons next code => exact absurd ending.1 (by simp [leaves])
          | nil =>
              cases rest
              obtain ⟨rfl, rfl⟩ := Function.runBlock_nil_eq_ok_iff.mp rest_ran
              have effects_eq := performs fun _ _ => .error .depth
              rw [kind_eq] at effects_eq
              obtain rfl := Except.ok.inj effects_eq
              refine ⟨rfl, ⟨[], []⟩, fun calls => ?_, output_eq⟩
              rw [Dataflow.evaluateCode, if_pos leaves, returns_nothing leaves]
              rfl
      | false =>
          have later : Dataflow.Ending code := by
            cases code with
            | nil =>
                have last : operation.kind.isLeave = true := ending
                rw [leaves] at last
                cases last
            | cons next code => exact ending.2
          obtain ⟨proceeds, remaining, evaluates, rest_output⟩ := induction kept next later
            (fun other member => proper other (List.mem_cons_of_mem _ member))
            (fun other member => typed other (List.mem_cons_of_mem _ member))
            dominated.2 distinct rest_checked rest_ran
          refine ⟨proceeds, ⟨effects.printed ++ remaining.printed, remaining.values⟩,
            fun calls => ?_, ?_⟩
          · rw [Dataflow.evaluateCode, if_neg (by simp [leaves]), performs]
            simp only [Bind.bind, Except.bind, evaluates]
            rfl
          · rw [rest_output, output_eq, String.append_assoc, linesOf, linesOf, linesOf,
              List.map_append, String.join_append]

end LowersAll

end Lowering

namespace Function

variable {function : Function} {state final : RunState} {control : Control}

/-- A buffer is ready and has the elements of its shape. -/
def Ready (state : RunState) (buffer : BufferId) (found : Buffer) : Prop :=
  ∃ cells, state.elements? buffer = some cells ∧ cells.size = found.shape.size

theorem size_of_zeros? {shape : Shape} {cells : Cells Float} (found : zeros? shape = some cells) :
    cells.size = shape.size := by
  simp only [zeros?, Option.bind_eq_bind, Option.bind_eq_some_iff] at found
  obtain ⟨count, count_eq, allocated⟩ := found
  rw [Cells.allocate?] at allocated
  split at allocated
  · obtain rfl := Option.some.inj allocated
    exact Shape.size_of_boundedSize? count_eq
  · cases allocated

theorem runBlock_allocs {buffers : List BufferId}
    (slots : state.buffers.size = function.buffers.size)
    (success : function.runBlock (buffers.map .alloc) state = .ok control final) :
    control = .proceed ∧ final.output = state.output ∧
      ∀ buffer found, function.buffers.get? buffer = some found →
        buffer ∈ buffers ∨ Ready state buffer found → Ready final buffer found := by
  induction buffers generalizing state with
  | nil =>
      obtain ⟨rfl, rfl⟩ := runBlock_nil_eq_ok_iff.mp success
      exact ⟨rfl, rfl, fun _ _ _ ready => ready.resolve_left List.not_mem_nil⟩
  | cons first rest induction =>
      obtain ⟨_, middle, first_eq, rest_eq⟩ := runBlock_cons_eq_ok_iff.mp success
      obtain ⟨known, cells, known_eq, cells_eq, rfl, rfl⟩ :=
        runInstruction_alloc_eq_ok_iff.mp first_eq
      have there : first.index < state.buffers.size := by
        rw [slots]
        exact Arena.lt_size_of_get? known_eq
      have slots_kept : (state.withSlot first (.live cells)).buffers.size =
          function.buffers.size := by
        rw [withSlot, Array.size_setIfInBounds]
        exact slots
      obtain ⟨proceeds, output_eq, ready⟩ := induction slots_kept rest_eq
      refine ⟨proceeds, output_eq,
        fun buffer found found_eq either => ready buffer found found_eq ?_⟩
      rw [Ready, elements?_withSlot _ _ _ _ there]
      by_cases same : buffer = first
      · subst same
        obtain rfl := Option.some.inj (found_eq.symm.trans known_eq)
        exact .inr ⟨cells, if_pos rfl, size_of_zeros? cells_eq⟩
      · rw [if_neg same]
        exact either.imp_left fun member => (List.mem_cons.mp member).resolve_left same

private theorem runBlock_deallocs {buffers : List BufferId}
    (success : function.runBlock (buffers.map .dealloc) state = .ok control final) :
    control = .proceed ∧ final.output = state.output := by
  induction buffers generalizing state with
  | nil =>
      obtain ⟨rfl, rfl⟩ := runBlock_nil_eq_ok_iff.mp success
      exact ⟨rfl, rfl⟩
  | cons first rest induction =>
      obtain ⟨_, middle, first_eq, rest_eq⟩ := runBlock_cons_eq_ok_iff.mp success
      obtain ⟨cells, -, rfl, rfl⟩ := runInstruction_dealloc_eq_ok_iff.mp first_eq
      have released := induction rest_eq
      exact released

end Function

open Lowering

variable {source : Dataflow.Function} {lowered : Function}

/-- A lowered function allocates all buffers, runs the instructions of the operations, releases all
buffers and returns. -/
theorem Function.ofDataflow_eq_ok (wellFormed : source.WellFormed)
    (success : Function.ofDataflow source = .ok lowered) :
    ∃ body after, LowersAll source source.code .start after body ∧
      lowered.buffers = after.buffers ∧ lowered.registerCount = after.nextRegister.index ∧
      lowered.loopVariableCount = after.nextLoopVariable.index ∧ lowered.name = source.name ∧
      lowered.body = after.buffers.ids.map .alloc ++ body ++
        after.buffers.ids.reverse.map .dealloc ++ [.leave] := by
  simp only [Function.ofDataflow, Except.bind_eq_ok_iff, Except.pure_eq_ok_iff,
    Dataflow.Function.bodyOperations_eq wellFormed.live] at success
  obtain ⟨_, ⟨⟩, ⟨body, after⟩, lowers, rfl⟩ := success
  exact ⟨body, after, ofOperations_eq_ok lowers, rfl, rfl, rfl, rfl, rfl⟩

/-- A run of a lowered function that succeeds prints the lines that the dataflow function calls
for. -/
theorem Function.runBlock_ofDataflow (wellFormed : source.WellFormed) (proper : source.Proper)
    (typed : source.Typed) (no_arguments : source.arguments = [])
    (lowering : Function.ofDataflow source = .ok lowered) (verified : lowered.verify = .ok ())
    {start final : RunState} {control : Control} (start_eq : RunState.start? lowered = some start)
    (success : lowered.runBlock lowered.body start = .ok control final) :
    ∃ effects : Dataflow.Effects, (∀ calls, source.evaluate calls [] = .ok effects) ∧
      effects.printed.length = source.code.countP (·.kind.isPrint) ∧
      final.output = linesOf effects.printed := by
  obtain ⟨body, after, lowers, buffers_eq, -, -, -, body_eq⟩ :=
    ofDataflow_eq_ok wellFormed lowering
  obtain ⟨progress, checked, -⟩ := verify_eq_ok verified
  rw [body_eq] at checked success
  obtain ⟨_, checked, -⟩ := checkBlock_append_eq_ok checked
  obtain ⟨_, checked, -⟩ := checkBlock_append_eq_ok checked
  obtain ⟨_, -, checked⟩ := checkBlock_append_eq_ok checked
  obtain ⟨slots, empty⟩ : start.buffers.size = lowered.buffers.size ∧ start.output = "" := by
    simp only [RunState.start?, Option.bind_eq_bind, Option.bind_eq_some_iff, Option.pure_def,
      Option.some.injEq] at start_eq
    obtain ⟨_, -, _, -, rfl⟩ := start_eq
    exact ⟨Array.size_replicate, rfl⟩
  obtain ⟨released, fourth, success, left⟩ := runBlock_append_eq_ok_iff.mp success
  obtain ⟨computed, third, success, releases⟩ := runBlock_append_eq_ok_iff.mp success
  obtain ⟨allocated, second, allocs, success⟩ := runBlock_append_eq_ok_iff.mp success
  obtain ⟨rfl, second_output, ready⟩ := runBlock_allocs slots allocs
  have simulates : Simulates source lowered source.arguments .start
      (Dataflow.Environment.empty.define source.arguments []) second := by
    refine ⟨by simp [no_arguments], fun buffer found found_eq => ready buffer found found_eq ?_⟩
    refine .inl (List.mem_map.mpr ⟨buffer.index, List.mem_range.mpr ?_, rfl⟩)
    rw [← buffers_eq]
    exact Arena.lt_size_of_get? found_eq
  obtain ⟨rfl, effects, evaluates, third_output⟩ := lowers.faithful
    (fun id found found_eq => by rw [buffers_eq, found_eq]) simulates wellFormed.ending proper typed
    wellFormed.dominated wellFormed.distinct checked success
  obtain ⟨rfl, fourth_output⟩ := runBlock_deallocs releases
  obtain ⟨_, _, leave, rest⟩ := runBlock_cons_eq_ok_iff.mp left
  obtain ⟨rfl, rfl⟩ := runInstruction_leave_eq_ok_iff.mp leave
  obtain ⟨rfl, rfl⟩ := rest
  refine ⟨effects, fun calls => ?_, ?_, ?_⟩
  · rw [Dataflow.Function.evaluate, if_pos (by rw [no_arguments]; rfl), evaluates]
  · exact Dataflow.length_printed wellFormed.ending proper lowers.callee?_eq_none
      (evaluates fun _ _ => .error .depth)
  · rw [fourth_output, third_output, second_output, empty, String.empty_append]

theorem Function.fitsMemory_ofDataflow (wellFormed : source.WellFormed) (proper : source.Proper)
    (typed : source.Typed) (no_arguments : source.arguments = [])
    (counted : ∀ id shape, source.typeOf id = .ok (.ranked shape) →
      shape.nonzeroSize < countBound)
    (lowering : Function.ofDataflow source = .ok lowered) (verified : lowered.verify = .ok ()) :
    lowered.FitsMemory := by
  obtain ⟨body, after, lowers, buffers_eq, registers_eq, counters_eq, -, body_eq⟩ :=
    ofDataflow_eq_ok wellFormed lowering
  obtain ⟨progress, checked, -⟩ := verify_eq_ok verified
  rw [body_eq] at checked
  obtain ⟨_, checked, -⟩ := checkBlock_append_eq_ok checked
  obtain ⟨_, checked, -⟩ := checkBlock_append_eq_ok checked
  obtain ⟨_, -, checked⟩ := checkBlock_append_eq_ok checked
  have start : Fits source source.arguments .start := no_arguments ▸ Fits.start source
  have square := lowers.square (fun id found found_eq => by rw [buffers_eq, found_eq]) start proper
    typed wellFormed.dominated checked
  have fits := lowers.fits start proper typed wellFormed.dominated square
  refine ⟨fits.fitsNames registers_eq counters_eq, fun buffer found found_eq => ?_,
    fun buffer found found_eq => ?_⟩
  · rw [buffers_eq] at found_eq
    obtain ⟨id, type_eq⟩ := fits.typed buffer found found_eq
    exact counted id found.shape type_eq
  · rw [buffers_eq] at found_eq
    exact fits.stored buffer found found_eq

/-- Only a function without arguments is lowered, and what comes out is verified. -/
theorem Module.ofDataflow_eq_ok {entry : String} {module : Module}
    (success : Module.ofDataflow ⟨[source]⟩ entry = .ok module) :
    source.name = entry ∧ source.arguments = [] ∧ ∃ lowered,
      Function.ofDataflow source = .ok lowered ∧ lowered.verify = .ok () ∧
      module = ⟨[lowered]⟩ := by
  simp only [Module.ofDataflow] at success
  split at success
  · cases success
  · rename_i named
    split at success
    · cases success
    · rename_i closed
      simp only [Except.bind_eq_ok_iff, Except.pure_eq_ok_iff] at success
      obtain ⟨lowered, lowering, _, verified, rfl⟩ := success
      simp only [Bool.or_eq_true, Bool.not_eq_true', not_or, Bool.not_eq_false,
        List.isEmpty_iff] at closed
      exact ⟨Decidable.not_not.mp named, closed.1, lowered, lowering, verified, rfl⟩

/-- Whatever is lowered is verified. -/
theorem Module.verify_of_ofDataflow {module : Dataflow.Module} {entry : String} {lowered : Module}
    (success : Module.ofDataflow module entry = .ok lowered) :
    ∀ function ∈ lowered.functions, function.verify = .ok () := by
  obtain ⟨functions⟩ := module
  rcases functions with _ | ⟨source, _ | ⟨other, rest⟩⟩
  · cases success
  · obtain ⟨-, -, function, -, verified, rfl⟩ := ofDataflow_eq_ok success
    exact List.forall_mem_singleton.mpr verified
  · cases success

/-- Only a function without results is lowered. -/
theorem Module.resultTypes_of_ofDataflow {entry : String} {module : Module}
    (success : Module.ofDataflow ⟨[source]⟩ entry = .ok module) : source.resultTypes = [] := by
  simp only [Module.ofDataflow] at success
  split at success
  · cases success
  · split at success
    · cases success
    · rename_i closed
      simp only [Bool.or_eq_true, Bool.not_eq_true', not_or, Bool.not_eq_false,
        List.isEmpty_iff] at closed
      exact closed.2

/-- Lowering preserves meaning: the loop function of a dataflow function whose types are inferred
runs without failing and prints one line for each print operation, in body order, which shows the
tensor of its operand. -/
theorem Module.ofDataflow_preserves_meaning {before : Dataflow.Function} {entry : String}
    {module : Module} (verified : source.verify = .ok ()) (proper : source.Proper)
    (inferred : Dataflow.Edit.inferTypes before = .ok () source)
    (counted : ∀ id shape, source.typeOf id = .ok (.ranked shape) →
      shape.nonzeroSize < countBound)
    (success : Module.ofDataflow ⟨[source]⟩ entry = .ok module) :
    ∃ effects : Dataflow.Effects, (∀ calls, source.evaluate calls [] = .ok effects) ∧
      effects.printed.length = source.code.countP (·.kind.isPrint) ∧
      module.run entry = (linesOf effects.printed, .ok ()) := by
  have wellFormed := Dataflow.Function.wellFormed_of_verify verified
  have typed := (Dataflow.Inference.inferTypes_eq_ok inferred).2
  obtain ⟨named, no_arguments, lowered, lowering, checked, rfl⟩ := ofDataflow_eq_ok success
  have fits := Function.fitsMemory_ofDataflow wellFormed proper typed no_arguments counted lowering
    checked
  obtain ⟨start, final, start_eq, ran⟩ := Function.exists_runBlock_of_verify checked fits
  obtain ⟨effects, evaluates, count, output_eq⟩ :=
    Function.runBlock_ofDataflow wellFormed proper typed no_arguments lowering checked start_eq ran
  refine ⟨effects, evaluates, count, ?_⟩
  obtain ⟨_, _, _, _, _, _, name_eq, -⟩ := Function.ofDataflow_eq_ok wellFormed lowering
  have found : Module.function? ⟨[lowered]⟩ entry = some lowered := by
    rw [Module.function?, List.find?_cons, name_eq, named]
    simp
  simp only [Module.run, found, Function.run, start_eq, ran, output_eq]

/-- Prints the sum of a tensor and itself.  The type of the sum is not known yet. -/
def printingSum : Dataflow.Function :=
  let build : Dataflow.Edit Unit := do
    let tensor ← Dataflow.Edit.appendValue (.constant ⟨⟨⟨[2]⟩, [1, 2], rfl⟩, by decide⟩) []
      (.ranked ⟨[2]⟩) ⟨"main", 1, 1⟩
    let sum ← Dataflow.Edit.appendValue .add [tensor, tensor] .unranked ⟨"main", 2, 1⟩
    let _ ← Dataflow.Edit.append .print [sum] [] ⟨"main", 3, 1⟩
    let _ ← Dataflow.Edit.append .leave [] [] ⟨"main", 1, 1⟩
  (build.outcome (Dataflow.Function.new "main" ⟨"main", 1, 1⟩)).1

theorem Module.ofDataflow_preserves_meaning_printingSum :
    ∃ source module, Dataflow.Edit.inferTypes printingSum = .ok () source ∧
      source.verify = .ok () ∧ source.Proper ∧
      (∀ id shape, source.typeOf id = .ok (.ranked shape) → shape.nonzeroSize < countBound) ∧
      Module.ofDataflow ⟨[source]⟩ "main" = .ok module ∧
      module.run "main" = ("[2,4]\n", .ok ()) := by
  let source := (Dataflow.Edit.inferTypes.outcome printingSum).1
  have inferred : Dataflow.Edit.inferTypes printingSum = .ok () source := by rfl
  have verified : source.verify = .ok () := by rfl
  have proper : source.Proper := by decide
  have counted : ∀ id shape, source.typeOf id = .ok (.ranked shape) →
      shape.nonzeroSize < countBound := by
    intro id shape type_eq
    obtain ⟨value, value_eq, type_eq⟩ := Dataflow.Function.typeOf_eq_ok_iff.mp type_eq
    have all : ∀ value ∈ source.values.toList, value.type = .ranked ⟨[2]⟩ := by decide
    rw [all value (Arena.mem_toList_of_get? value_eq)] at type_eq
    obtain rfl := TensorType.ranked.inj type_eq
    decide
  have printed : ((Module.ofDataflow ⟨[source]⟩ "main").toOption.map fun module =>
      (module.run "main").1) = some "[2,4]\n" := by decide +kernel
  obtain ⟨module, success, printed⟩ := Option.map_eq_some_iff.mp printed
  have success := Except.toOption_eq_some_iff.mp success
  obtain ⟨effects, evaluates, count, run_eq⟩ :=
    Module.ofDataflow_preserves_meaning verified proper inferred counted success
  rw [run_eq] at printed
  exact ⟨source, module, inferred, verified, proper, counted, success, printed ▸ run_eq⟩

end Loop

end TensorLang
