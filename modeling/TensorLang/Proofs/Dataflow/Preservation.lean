import TensorLang.Proofs.Dataflow.Progress
import TensorLang.Proofs.Dataflow.Reductions

/-!
# Reductions preserve meaning

In every model of a typed function the value that replaces the result of an operation is the result
itself.  So a model of the function, together with this value for a new operation, is a model of the
reduced function, which prints and returns the same.
-/

namespace TensorLang

namespace Dataflow

variable {calls : Calls} {assignment : Environment} {function changed : Function}

/-- A new operation holds when its value is what it computes. -/
theorem Function.holds_nextOperation {kind : OperationKind} {operands : List ValueId}
    {location : Location} {tensor : Tensor}
    (performs : kind.perform calls (operands.map assignment) = .ok ⟨[], [some tensor]⟩)
    (defined : assignment ⟨function.values.size⟩ = some tensor) :
    (function.nextOperation kind operands 1 location).Holds calls assignment := by
  refine ⟨_, performs, fun id member => ?_⟩
  have results_eq : (function.nextOperation kind operands 1 location).results =
      [⟨function.values.size⟩] := rfl
  rw [results_eq] at member ⊢
  rw [List.mem_singleton.mp member, Environment.define_singleton]
  exact defined

namespace Function.Spot

variable {spot : function.Spot} {replacement : Replacement}

/-- The assignment with the value of the result for what is read in its place. -/
def extended (spot : function.Spot) (replacement : Replacement) (assignment : Environment) :
    Environment := fun id =>
  if id = replacement.target function then assignment spot.result else assignment id

theorem extended_redirect (id : ValueId) :
    spot.extended replacement assignment
        (redirect spot.result (replacement.target function) id) =
      spot.extended replacement assignment id := by
  rw [redirect]
  split
  · rename_i same
    rw [extended, extended, if_pos rfl, same, ite_self]
  · rfl

private theorem Replaceable.assignment_target (replaceable : spot.Replaceable Eq replacement)
    (models : Models calls assignment function)
    (existing : (replacement.target function).index < function.values.size) :
    assignment (replacement.target function) = assignment spot.result := by
  have holds := models.solves spot.operation spot.mem_code
  cases replaceable with
  | unread => rfl
  | cast kind_eq operands_eq => exact (holds.cast kind_eq operands_eq spot.results_eq).symm
  | @reshape shape operand type kind_eq operands_eq result_type operand_type =>
      obtain ⟨tensor, reshaped, tensor_eq, reshaped_eq, -, values_eq⟩ :=
        holds.reshaped kind_eq operands_eq spot.results_eq
      obtain ⟨known, known_eq, known_type⟩ :=
        models.read spot.operation spot.mem_code operand (by simp [operands_eq])
      obtain ⟨result, result_eq, type_eq⟩ :=
        models.defined spot.operation spot.mem_code spot.result spot.defines
      obtain rfl := Option.some.inj (tensor_eq.symm.trans known_eq)
      obtain rfl := Option.some.inj (reshaped_eq.symm.trans result_eq)
      rw [operand_type, ← result_type, type_eq] at known_type
      have shapes := TensorType.ranked.inj (Except.ok.inj known_type)
      rw [Replacement.target_value, tensor_eq, reshaped_eq,
        Tensor.eq_of_values shapes values_eq]
  | constant | reshapes => exact absurd existing (Nat.lt_irrefl _)
  | equal earlier_mem same operands_eq results_eq =>
      exact ((models.solves _ (spot.front_subset earlier_mem)).result_eq holds same operands_eq
        results_eq spot.results_eq).symm

theorem Replaceable.extended_of_lt (replaceable : spot.Replaceable Eq replacement)
    (models : Models calls assignment function) {id : ValueId}
    (existing : id.index < function.values.size) :
    spot.extended replacement assignment id = assignment id := by
  rw [extended]
  split
  · rename_i same
    subst same
    exact (replaceable.assignment_target models existing).symm
  · rfl

/-- A new operation computes the result. -/
theorem Replaceable.holds (replaceable : spot.Replaceable Eq replacement)
    (models : Models calls assignment function) (verified : function.Verified) {new : Operation}
    (member : new ∈ replacement.operations function spot.operation.location) :
    new.Holds calls (spot.extended replacement assignment) ∧ new.kind.hasEffects = false := by
  have old : ∀ id : ValueId, id.index < function.values.size →
      spot.extended replacement assignment id = assignment id :=
    fun _ existing => replaceable.extended_of_lt models existing
  have holds := models.solves spot.operation spot.mem_code
  cases replaceable with
  | unread | reshape | cast | equal => cases member
  | @constant inner shape operand literal reshaped inner_mem kind_eq operands_eq inner_kind
      inner_results reshaped_eq =>
      obtain rfl := List.mem_singleton.mp member
      have inner_eq :=
        (models.solves inner (spot.front_subset inner_mem)).constant inner_kind inner_results
      obtain ⟨tensor, result, tensor_eq, result_eq, result_shape, values_eq⟩ :=
        holds.reshaped kind_eq operands_eq spot.results_eq
      obtain rfl := Option.some.inj (inner_eq.symm.trans tensor_eq)
      obtain ⟨shape_eq, same_values⟩ := TensorLiteral.withShape?_eq_some reshaped_eq
      have same : reshaped.toTensor = result := Tensor.eq_of_values
        (shape_eq.trans result_shape.symm) (same_values.trans values_eq.symm)
      refine ⟨holds_nextOperation ?_ ((if_pos rfl).trans result_eq), rfl⟩
      exact (OperationKind.perform_eq_ok_iff rfl).mpr ⟨[], result, rfl, congrArg some same, rfl⟩
  | @reshapes inner shape innerShape operand origin type inner_mem kind_eq operands_eq inner_kind
      inner_operands inner_results result_type =>
      obtain rfl := List.mem_singleton.mp member
      have inner_code := spot.front_subset inner_mem
      obtain ⟨tensor, middle, tensor_eq, middle_eq, -, inner_values⟩ :=
        (models.solves inner inner_code).reshaped inner_kind inner_operands inner_results
      obtain ⟨known, result, known_eq, result_eq, result_shape, values_eq⟩ :=
        holds.reshaped kind_eq operands_eq spot.results_eq
      obtain rfl := Option.some.inj (middle_eq.symm.trans known_eq)
      have origin_eq := (old origin (verified.lt_size_of_operand inner_code
        (by simp [inner_operands]))).trans tensor_eq
      have filled : tensor.values.length = shape.size := by
        rw [← inner_values, ← values_eq, result.filled, result_shape]
      have computed : (OperationKind.reshape shape).compute? [tensor] = some result :=
        (dif_pos filled).trans (congrArg some
          (Tensor.eq_of_values result_shape.symm (inner_values.symm.trans values_eq.symm)))
      refine ⟨holds_nextOperation ?_ ((if_pos rfl).trans result_eq), rfl⟩
      exact (OperationKind.perform_eq_ok_iff rfl).mpr
        ⟨[tensor], result, congrArg (fun value => [value]) origin_eq, computed, rfl⟩

/-- What a new operation reads was read before. -/
theorem Replaceable.exists_reader (replaceable : spot.Replaceable Eq replacement) {new : Operation}
    (member : new ∈ replacement.operations function spot.operation.location) {operand : ValueId}
    (reads : operand ∈ new.operands) :
    ∃ inner ∈ function.code, operand ∈ inner.operands := by
  cases replaceable with
  | unread | reshape | cast | equal => cases member
  | constant =>
      obtain rfl := List.mem_singleton.mp member
      cases reads
  | reshapes inner_mem _ _ _ inner_operands =>
      obtain rfl := List.mem_singleton.mp member
      exact ⟨_, spot.front_subset inner_mem, inner_operands ▸ reads⟩

end Function.Spot

namespace Function.Spot

section Reduced

variable {spot : function.Spot} {replacement : Replacement} {operation : Operation}

theorem Replaceable.map_operands (replaceable : spot.Replaceable Eq replacement)
    (models : Models calls assignment function) (verified : function.Verified)
    (member : operation ∈ function.code) :
    operation.operands.map (spot.extended replacement assignment) =
      operation.operands.map assignment :=
  List.map_congr_left fun _ reads =>
    replaceable.extended_of_lt models (verified.lt_size_of_operand member reads)

theorem Replaceable.map_redirected (replaceable : spot.Replaceable Eq replacement)
    (models : Models calls assignment function) (verified : function.Verified)
    (member : operation ∈ function.code) :
    (operation.redirected spot.result (replacement.target function)).operands.map
        (spot.extended replacement assignment) = operation.operands.map assignment := by
  rw [← replaceable.map_operands models verified member]
  exact List.map_map.trans (List.map_congr_left fun operand _ => extended_redirect operand)

/-- Values that were there keep their shapes. -/
theorem Replaceable.shaped (replaceable : spot.Replaceable Eq replacement)
    (replaced : spot.Replaced replacement changed) (models : Models calls assignment function)
    {id : ValueId} (existing : id.index < function.values.size)
    (shaped : Shaped function assignment id) :
    Shaped changed (spot.extended replacement assignment) id := by
  obtain ⟨tensor, tensor_eq, type_eq⟩ := shaped
  exact ⟨tensor, (replaceable.extended_of_lt models existing).trans tensor_eq,
    (replaced.extension.typeOf existing).trans type_eq⟩

private theorem Replaceable.shaped_target (replaceable : spot.Replaceable Eq replacement)
    (replaced : spot.Replaced replacement changed) (models : Models calls assignment function)
    (verified : function.Verified) (typed : function.Typed) :
    Shaped changed (spot.extended replacement assignment) (replacement.target function) := by
  obtain ⟨tensor, tensor_eq, type_eq⟩ :=
    models.defined spot.operation spot.mem_code spot.result spot.defines
  exact ⟨tensor, (if_pos rfl).trans tensor_eq,
    (replaceable.typeOf_target replaced verified typed).trans type_eq⟩

/-- The extended assignment is a model of the reduced function. -/
theorem Replaceable.models (replaceable : spot.Replaceable Eq replacement)
    (replaced : spot.Replaced replacement changed) (models : Models calls assignment function)
    (verified : function.Verified) (typed : function.Typed) :
    Models calls (spot.extended replacement assignment) changed := by
  have kept : ∀ operation ∈ function.code, ∀ result ∈ operation.results,
      spot.extended replacement assignment result = assignment result :=
    fun _ member _ defines =>
      replaceable.extended_of_lt models (verified.lt_size_of_result member defines)
  have read : ∀ operation ∈ function.code, ∀ operand ∈ operation.operands,
      Shaped changed (spot.extended replacement assignment) operand :=
    fun operation member operand reads => replaceable.shaped replaced models
      (verified.lt_size_of_operand member reads) (models.read operation member operand reads)
  have defined : ∀ operation ∈ function.code, ∀ result ∈ operation.results,
      Shaped changed (spot.extended replacement assignment) result :=
    fun operation member result defines => replaceable.shaped replaced models
      (verified.lt_size_of_result member defines) (models.defined operation member result defines)
  have target := replaceable.shaped_target replaced models verified typed
  refine ⟨fun operation member => ?_, fun operation member operand reads => ?_,
    fun operation member result defines => ?_⟩
  · rcases replaced.mem_code member with earlier | new | ⟨before, before_mem, rfl⟩
    · have old := spot.front_subset earlier
      exact (models.solves operation old).congr rfl (replaceable.map_operands models verified old)
        rfl (kept operation old)
    · exact (replaceable.holds models verified new).1
    · have old := spot.back_subset before_mem
      exact (models.solves before old).congr rfl (replaceable.map_redirected models verified old)
        rfl (kept before old)
  · rcases replaced.mem_code member with earlier | new | ⟨before, before_mem, rfl⟩
    · exact read operation (spot.front_subset earlier) operand reads
    · obtain ⟨inner, inner_mem, inner_reads⟩ := replaceable.exists_reader new reads
      exact read inner inner_mem operand inner_reads
    · obtain ⟨original, original_reads, rfl⟩ := List.mem_map.mp reads
      rw [redirect]
      split
      · exact target
      · exact read before (spot.back_subset before_mem) original original_reads
  · rcases replaced.mem_code member with earlier | new | ⟨before, before_mem, rfl⟩
    · exact defined operation (spot.front_subset earlier) result defines
    · cases replacement with
      | value id => cases new
      | made kind operands type =>
          rw [List.mem_singleton.mp new] at defines
          rw [show result = _ from List.mem_singleton.mp defines]
          exact target
    · exact defined before (spot.back_subset before_mem) result defines

private theorem Replaceable.printedBy_eq (replaceable : spot.Replaceable Eq replacement)
    (replaced : spot.Replaced replacement changed) (models : Models calls assignment function)
    (verified : function.Verified) :
    printedBy calls (spot.extended replacement assignment) changed.code =
      printedBy calls assignment function.code := by
  have silent := (models.solves spot.operation spot.mem_code).silent spot.pure
  have news_silent : printedBy calls (spot.extended replacement assignment)
      (replacement.operations function spot.operation.location) = [] :=
    List.flatMap_eq_nil_iff.mpr fun new member =>
      have holding := replaceable.holds models verified member
      holding.1.silent holding.2
  rw [replaced.code_eq, spot.code_eq, printedBy, printedBy, List.flatMap_append,
    List.flatMap_append, List.flatMap_append, List.flatMap_cons, List.flatMap_map, silent,
    ← printedBy, ← printedBy, news_silent, List.append_nil, List.nil_append]
  refine congr (congrArg _ ?_) ?_
  · exact flatMap_congr fun operation member => Operation.printed_congr rfl
      (replaceable.map_operands models verified (spot.front_subset member))
  · exact flatMap_congr fun operation member => Operation.printed_congr rfl
      (replaceable.map_redirected models verified (spot.back_subset member))

private theorem Replaceable.returnedBy_eq (replaceable : spot.Replaceable Eq replacement)
    (replaced : spot.Replaced replacement changed) (models : Models calls assignment function)
    (verified : function.Verified) :
    returnedBy (spot.extended replacement assignment) changed.code =
      returnedBy assignment function.code := by
  have back_nonempty : spot.back ≠ [] := by
    intro empty
    have ending := verified.ending
    rw [spot.code_eq, empty, ending_append_iff (List.cons_ne_nil _ _)] at ending
    exact absurd ending.2 (by simp [Ending, OperationKind.isLeave_of_hasEffects spot.pure])
  rw [replaced.code_eq, spot.code_eq, List.append_cons spot.front,
    returnedBy_append _ _ back_nonempty, returnedBy_append _ _ (by simpa using back_nonempty),
    returnedBy, returnedBy, List.getLast?_map, List.getLast?_eq_some_getLast back_nonempty]
  exact replaceable.map_redirected models verified
    (spot.back_subset (List.getLast_mem back_nonempty))

end Reduced

end Function.Spot

/-- Reductions keep models, and with them what is printed and returned. -/
theorem Models.reduces {count : Nat} (models : Models calls assignment function)
    (reduces : Reduces Eq count function changed) (verified : function.Verified)
    (typed : function.Typed) :
    ∃ extended, Models calls extended changed ∧
      (∀ id : ValueId, id.index < function.values.size → extended id = assignment id) ∧
      printedBy calls extended changed.code = printedBy calls assignment function.code ∧
      returnedBy extended changed.code = returnedBy assignment function.code := by
  induction reduces generalizing assignment with
  | refl => exact ⟨assignment, models, fun _ _ => rfl, rfl, rfl⟩
  | step first _ induction =>
      have middle_verified := (Reduces.single first).verified verified
      have middle_typed := typed.reduction first verified
      obtain ⟨spot, replacement, replaceable, replaced⟩ := first
      obtain ⟨extended, extended_models, kept, printed_eq, returned_eq⟩ := induction
        (replaceable.models replaced models verified typed) middle_verified middle_typed
      refine ⟨extended, extended_models, fun id existing => ?_,
        printed_eq.trans (replaceable.printedBy_eq replaced models verified),
        returned_eq.trans (replaceable.returnedBy_eq replaced models verified)⟩
      rw [kept id (Nat.lt_of_lt_of_le existing replaced.extension.size)]
      exact replaceable.extended_of_lt models existing

/-- Reductions keep what a typed function prints and returns, and it does print and return
something. -/
theorem Reduces.evaluate_eq {count : Nat} (reduces : Reduces Eq count function changed)
    (calls : Calls) (verified : function.Verified) (proper : function.Proper)
    (typed : function.Typed) {values : List (Option Tensor)} (accepts : function.Accepts values) :
    ∃ effects, function.evaluate calls values = .ok effects ∧
      changed.evaluate calls values = .ok effects := by
  obtain ⟨assignment, given, models⟩ :=
    typed.exists_models calls verified.wellFormed proper accepts
  obtain ⟨extended, extended_models, kept, printed_eq, returned_eq⟩ :=
    models.reduces reduces verified typed
  have arguments_eq : changed.arguments.map extended = values := by
    rw [reduces.extension.arguments, ← given]
    exact List.map_congr_left fun id argument =>
      kept id (verified.wellFormed.known id (List.mem_append_left _ argument))
  refine ⟨_, verified.wellFormed.evaluate_eq given models.solves, ?_⟩
  rw [← printed_eq, ← returned_eq]
  exact (reduces.verified verified).wellFormed.evaluate_eq arguments_eq extended_models.solves

end Dataflow

end TensorLang
