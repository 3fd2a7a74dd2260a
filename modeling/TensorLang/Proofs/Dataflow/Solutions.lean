import TensorLang.Proofs.Dataflow.WellFormed

/-!
# Evaluations as solutions

No value is defined twice, so an evaluation assigns one value to each handle, and every operation
is an equation between the values of its operands and those of its results.  An assignment that
solves all equations says what an evaluation prints and returns, whatever the order in which the
operations are looked at.
-/

namespace TensorLang

namespace Dataflow

namespace Operation

/-- What an operation does under an assignment. -/
def effects (calls : Calls) (assignment : Environment) (operation : Operation) :
    Except Fault Effects :=
  operation.kind.perform calls (operation.operands.map assignment)

/-- What an operation prints under an assignment. -/
def printed (calls : Calls) (assignment : Environment) (operation : Operation) : List Tensor :=
  match operation.effects calls assignment with
  | .ok effects => effects.printed
  | .error _ => []

/-- The results have the values that the operation gives them. -/
def Holds (calls : Calls) (assignment : Environment) (operation : Operation) : Prop :=
  ∃ effects, operation.effects calls assignment = .ok effects ∧
    ∀ id ∈ operation.results,
      assignment id = Environment.empty.define operation.results effects.values id

end Operation

/-- What operations print under an assignment. -/
def printedBy (calls : Calls) (assignment : Environment) (code : List Operation) : List Tensor :=
  code.flatMap (Operation.printed calls assignment)

/-- The values that the last operation reads; they are returned. -/
def returnedBy (assignment : Environment) (code : List Operation) : List (Option Tensor) :=
  (code.getLast?.elim [] Operation.operands).map assignment

/-- All equations hold. -/
def Solves (calls : Calls) (assignment : Environment) (code : List Operation) : Prop :=
  ∀ operation ∈ code, operation.Holds calls assignment

variable {calls : Calls} {assignment environment : Environment} {code : List Operation}

theorem Operation.printed_of_effects {operation : Operation} {effects : Effects}
    (effects_eq : operation.effects calls assignment = .ok effects) :
    operation.printed calls assignment = effects.printed := by
  rw [printed, effects_eq]

theorem Operation.effects_congr {operation other : Operation} {alternative : Environment}
    (kind_eq : other.kind = operation.kind)
    (values_eq : other.operands.map alternative = operation.operands.map assignment) :
    other.effects calls alternative = operation.effects calls assignment := by
  rw [effects, effects, kind_eq, values_eq]

theorem Operation.printed_congr {operation other : Operation} {alternative : Environment}
    (kind_eq : other.kind = operation.kind)
    (values_eq : other.operands.map alternative = operation.operands.map assignment) :
    other.printed calls alternative = operation.printed calls assignment := by
  rw [printed, printed, effects_congr kind_eq values_eq]

/-- An equation goes on holding when the values of its handles are kept. -/
theorem Operation.Holds.congr {operation other : Operation} {alternative : Environment}
    (holds : operation.Holds calls assignment) (kind_eq : other.kind = operation.kind)
    (values_eq : other.operands.map alternative = operation.operands.map assignment)
    (results_eq : other.results = operation.results)
    (kept : ∀ id ∈ operation.results, alternative id = assignment id) :
    other.Holds calls alternative := by
  obtain ⟨effects, effects_eq, defined⟩ := holds
  refine ⟨effects, (effects_congr kind_eq values_eq).trans effects_eq, fun id member => ?_⟩
  rw [results_eq] at member ⊢
  rw [kept id member, defined id member]

/-- The only result of an operation has its first value. -/
theorem Environment.define_singleton (environment : Environment) (id : ValueId)
    (values : List (Option Tensor)) : environment.define [id] values id = values[0]?.join := by
  simp [define, List.idxOf?_cons]

/-- Handles that are defined as given values have them. -/
theorem Environment.map_define {ids : List ValueId} {values : List (Option Tensor)}
    (distinct : ids.Nodup) (count : values.length = ids.length) :
    ids.map (environment.define ids values) = values := by
  apply List.ext_getElem (by rw [List.length_map, count])
  intro position inside _
  rw [List.length_map] at inside
  rw [List.getElem_map,
    Environment.define_of_getElem? distinct (List.getElem?_eq_getElem inside),
    List.getElem?_eq_getElem (by omega)]
  rfl

/-! ### Single operations -/

/-- An operation without effects prints nothing. -/
theorem Operation.Holds.silent {operation : Operation} (holds : operation.Holds calls assignment)
    (pure : operation.kind.hasEffects = false) : operation.printed calls assignment = [] := by
  obtain ⟨effects, effects_eq, -⟩ := holds
  rw [printed_of_effects effects_eq]
  rw [Operation.effects] at effects_eq
  cases kind_eq : operation.kind with
  | print | leave | call =>
      rw [kind_eq] at pure
      cases pure
  | cast =>
      rw [kind_eq] at effects_eq
      obtain rfl := Except.ok.inj effects_eq
      rfl
  | constant | add | multiply | matmul | transpose | reshape =>
      rw [kind_eq] at effects_eq
      obtain ⟨_, _, -, -, rfl⟩ := (OperationKind.perform_eq_ok_iff rfl).mp effects_eq
      rfl

/-- What a computing operation assigns to its result. -/
theorem Operation.Holds.computed {operation : Operation} (holds : operation.Holds calls assignment)
    (computes : operation.kind.computes = true) {result : ValueId}
    (results_eq : operation.results = [result]) :
    ∃ tensors tensor, operation.operands.map assignment = tensors.map some ∧
      operation.kind.compute? tensors = some tensor ∧ assignment result = some tensor := by
  obtain ⟨effects, effects_eq, defined⟩ := holds
  obtain ⟨tensors, tensor, read, computed, rfl⟩ :=
    (OperationKind.perform_eq_ok_iff computes).mp effects_eq
  refine ⟨tensors, tensor, read, computed, ?_⟩
  rw [defined result (by simp [results_eq]), results_eq, Environment.define_singleton]
  rfl

/-- The result of a reshape has the elements of the operand. -/
theorem Operation.Holds.reshaped {operation : Operation} (holds : operation.Holds calls assignment)
    {shape : Shape} (kind_eq : operation.kind = .reshape shape) {operand result : ValueId}
    (operands_eq : operation.operands = [operand]) (results_eq : operation.results = [result]) :
    ∃ tensor reshaped : Tensor, assignment operand = some tensor ∧
      assignment result = some reshaped ∧ reshaped.shape = shape ∧
      reshaped.values = tensor.values := by
  have computes : operation.kind.computes = true := by rw [kind_eq]; rfl
  obtain ⟨tensors, reshaped, read, computed, result_eq⟩ := holds.computed computes results_eq
  rw [operands_eq, List.map_singleton] at read
  obtain ⟨tensor, rfl, tensor_eq⟩ := List.map_eq_singleton_iff.mp read.symm
  rw [kind_eq] at computed
  refine ⟨tensor, reshaped, tensor_eq.symm, result_eq, Tensor.shape_of_reshape? computed, ?_⟩
  change tensor.reshape? shape = _ at computed
  rw [Tensor.reshape?, Tensor.ofValues?] at computed
  split at computed
  · obtain rfl := Option.some.inj computed
    rfl
  · cases computed

/-- The result of a constant is its tensor. -/
theorem Operation.Holds.constant {operation : Operation} (holds : operation.Holds calls assignment)
    {literal : TensorLiteral} (kind_eq : operation.kind = .constant literal) {result : ValueId}
    (results_eq : operation.results = [result]) : assignment result = some literal.toTensor := by
  have computes : operation.kind.computes = true := by rw [kind_eq]; rfl
  obtain ⟨tensors, tensor, -, computed, result_eq⟩ := holds.computed computes results_eq
  rw [kind_eq, OperationKind.compute?.eq_def] at computed
  cases tensors with
  | nil => rw [result_eq, ← computed]
  | cons => cases computed

/-- The result of a cast is the operand. -/
theorem Operation.Holds.cast {operation : Operation} (holds : operation.Holds calls assignment)
    (kind_eq : operation.kind = .cast) {operand result : ValueId}
    (operands_eq : operation.operands = [operand]) (results_eq : operation.results = [result]) :
    assignment result = assignment operand := by
  obtain ⟨effects, effects_eq, defined⟩ := holds
  rw [Operation.effects, kind_eq, operands_eq] at effects_eq
  obtain rfl := Except.ok.inj effects_eq
  rw [defined result (by simp [results_eq]), results_eq, Environment.define_singleton]
  rfl

/-- Operations that do the same give the same value. -/
theorem Operation.Holds.result_eq {first second : Operation} (left : first.Holds calls assignment)
    (right : second.Holds calls assignment) (kind_eq : first.kind = second.kind)
    (operands_eq : first.operands = second.operands) {kept duplicate : ValueId}
    (first_results : first.results = [kept]) (second_results : second.results = [duplicate]) :
    assignment duplicate = assignment kept := by
  obtain ⟨effects, effects_eq, first_defined⟩ := left
  obtain ⟨others, others_eq, second_defined⟩ := right
  rw [Operation.effects, kind_eq, operands_eq] at effects_eq
  obtain rfl := Except.ok.inj (effects_eq.symm.trans others_eq)
  rw [first_defined kept (by simp [first_results]),
    second_defined duplicate (by simp [second_results]), first_results, second_results,
    Environment.define_singleton, Environment.define_singleton]

theorem flatMap_congr {α β : Type} {items : List α} {first second : α → List β}
    (same : ∀ item ∈ items, first item = second item) :
    items.flatMap first = items.flatMap second := by
  rw [List.flatMap_def, List.flatMap_def, List.map_congr_left same]

theorem returnedBy_append (assignment : Environment) (front : List Operation)
    {back : List Operation} (nonempty : back ≠ []) :
    returnedBy assignment (front ++ back) = returnedBy assignment back := by
  rw [returnedBy, returnedBy, List.getLast?_append, List.getLast?_eq_some_getLast nonempty,
    Option.some_or]

/-! ### Evaluations and solutions -/

theorem Solves.evaluateCode_eq {available : List ValueId} (solves : Solves calls assignment code)
    (ending : Ending code) (dominated : Dominated available code)
    (agree : ∀ id ∈ available, environment id = assignment id) :
    evaluateCode calls code environment =
      .ok ⟨printedBy calls assignment code, returnedBy assignment code⟩ := by
  induction code generalizing available environment with
  | nil => exact ending.elim
  | cons operation rest induction =>
      have read : operation.operands.map environment = operation.operands.map assignment :=
        List.map_congr_left fun operand member => agree operand (dominated.1 operand member)
      obtain ⟨effects, effects_eq, defined⟩ := solves operation List.mem_cons_self
      rw [evaluateCode, read]
      cases rest with
      | nil =>
          have leaves : operation.kind.isLeave = true := ending
          rw [if_pos leaves]
          have silent : operation.printed calls assignment = [] := by
            cases kind_eq : operation.kind with
            | leave =>
                rw [Operation.printed, Operation.effects, kind_eq]
                rfl
            | _ =>
                rw [kind_eq] at leaves
                cases leaves
          simp [printedBy, returnedBy, silent]
      | cons next rest =>
          have proceeds : ¬ operation.kind.isLeave = true := by
            rw [ending.1]
            exact Bool.false_ne_true
          have agree_later : ∀ id ∈ available ++ operation.results,
              environment.define operation.results effects.values id = assignment id := by
            intro id member
            by_cases fresh : id ∈ operation.results
            · rw [defined id fresh]
              exact Environment.define_congr fresh
            · rw [Environment.define_of_notMem fresh]
              exact agree id ((List.mem_append.mp member).resolve_right fresh)
          have later := induction (fun other member => solves other (List.mem_cons_of_mem _ member))
            ending.2 dominated.2 agree_later
          have whole : printedBy calls assignment (operation :: next :: rest) =
              effects.printed ++ printedBy calls assignment (next :: rest) := by
            rw [printedBy, List.flatMap_cons, Operation.printed_of_effects effects_eq]
            rfl
          rw [Operation.effects] at effects_eq
          rw [if_neg proceeds, effects_eq, whole]
          simp only [bind, Except.bind, later]
          rfl

/-- An evaluation that succeeds gives a solution. -/
theorem exists_solves {available : List ValueId} {effects : Effects} (ending : Ending code)
    (leaves_alone : ∀ operation ∈ code, operation.kind.isLeave = true → operation.results = [])
    (dominated : Dominated available code)
    (distinct : (available ++ code.flatMap Operation.results).Nodup)
    (success : evaluateCode calls code environment = .ok effects) :
    ∃ assignment, (∀ id ∈ available, assignment id = environment id) ∧
      Solves calls assignment code := by
  induction code generalizing available environment effects with
  | nil => exact ending.elim
  | cons operation rest induction =>
      rw [evaluateCode] at success
      split at success
      · rename_i leaves
        cases rest with
        | cons next rest => exact absurd ending.1 (by simp [leaves])
        | nil =>
            refine ⟨environment, fun _ _ => rfl, ?_⟩
            rintro other member
            obtain rfl := List.mem_singleton.mp member
            have silent : other.effects calls environment = .ok ⟨[], []⟩ := by
              cases kind_eq : other.kind with
              | leave =>
                  rw [Operation.effects, kind_eq]
                  rfl
              | _ =>
                  rw [kind_eq] at leaves
                  cases leaves
            refine ⟨_, silent, fun id member => ?_⟩
            rw [leaves_alone other List.mem_cons_self leaves] at member
            cases member
      · rename_i proceeds
        simp only [Except.bind_eq_ok_iff] at success
        obtain ⟨first, first_eq, later, later_eq, -⟩ := success
        have ending_rest : Ending rest := by
          cases rest with
          | nil => exact absurd ending proceeds
          | cons next rest => exact ending.2
        rw [List.flatMap_cons, ← List.append_assoc] at distinct
        obtain ⟨assignment, agree, solves⟩ := induction ending_rest
          (fun other member => leaves_alone other (List.mem_cons_of_mem _ member))
          dominated.2 distinct later_eq
        have apart : ∀ id ∈ available, id ∉ operation.results := fun id member defined =>
          (List.nodup_append.mp (List.nodup_append.mp distinct).1).2.2 id member id defined rfl
        have kept : ∀ id ∈ available, assignment id = environment id := by
          intro id member
          rw [agree id (List.mem_append_left _ member),
            Environment.define_of_notMem (apart id member)]
        refine ⟨assignment, kept, List.forall_mem_cons.mpr ⟨⟨first, ?_, ?_⟩, solves⟩⟩
        · rw [Operation.effects, ← first_eq]
          exact congrArg _ (List.map_congr_left fun operand member =>
            kept operand (dominated.1 operand member))
        · intro id member
          rw [agree id (List.mem_append_right _ member)]
          exact Environment.define_congr member

namespace Function

variable {function : Function} {values : List (Option Tensor)}

/-- A solution that starts with the arguments tells what the function prints and returns. -/
theorem WellFormed.evaluate_eq (wellFormed : function.WellFormed)
    (given : function.arguments.map assignment = values)
    (solves : Solves calls assignment function.code) :
    function.evaluate calls values =
      .ok ⟨printedBy calls assignment function.code, returnedBy assignment function.code⟩ := by
  have count : values.length = function.arguments.length := by rw [← given, List.length_map]
  rw [evaluate, if_pos count]
  refine solves.evaluateCode_eq wellFormed.ending wellFormed.dominated fun id member => ?_
  have distinct := (List.nodup_append.mp wellFormed.distinct).1
  rw [← given] at count ⊢
  exact List.map_inj_left.mp (Environment.map_define distinct count) id member

/-- An evaluation of a function that succeeds gives a solution that starts with the arguments. -/
theorem WellFormed.exists_solves (wellFormed : function.WellFormed) (proper : function.Proper)
    {effects : Effects} (success : function.evaluate calls values = .ok effects) :
    ∃ assignment, function.arguments.map assignment = values ∧
      Solves calls assignment function.code := by
  rw [evaluate] at success
  split at success
  · rename_i count
    have leaves_alone : ∀ operation ∈ function.code, operation.kind.isLeave = true →
        operation.results = [] := by
      intro operation member leaves
      have results := (proper operation member).results
      cases kind_eq : operation.kind with
      | leave =>
          rw [kind_eq] at results
          exact List.length_eq_zero_iff.mp results
      | _ =>
          rw [kind_eq] at leaves
          cases leaves
    obtain ⟨assignment, agree, solves⟩ := Dataflow.exists_solves wellFormed.ending leaves_alone
      wellFormed.dominated wellFormed.distinct success
    refine ⟨assignment, ?_, solves⟩
    rw [List.map_congr_left agree]
    exact Environment.map_define (List.nodup_append.mp wellFormed.distinct).1 count
  · cases success

end Function

end Dataflow

end TensorLang
