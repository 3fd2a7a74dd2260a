import TensorLang.Proofs.Dataflow.InferenceRefusals
import TensorLang.Proofs.Dataflow.Merging
import TensorLang.Proofs.Dataflow.Simplification

/-!
# Normal forms

A worklist that is worked through without a single application has shown every operation to every
rule, and sharing leaves no two operations that compute the same.  So a typed function to which
neither has anything to do is in normal form: it has no casts, no reshapes that can be done without,
no results that nobody reads, and it computes nothing twice.
-/

namespace TensorLang

namespace Dataflow

variable {function changed : Function}

/-- Nothing is left to infer, to simplify or to share. -/
structure Function.Normal (function : Function) : Prop where
  /-- Verification accepts the function. -/
  verified : function.verify = .ok ()
  /-- The shapes of operands are known. -/
  ranked_operands : ∀ operation ∈ function.code, ∀ operand ∈ operation.operands,
    ∃ shape, function.typeOf operand = .ok (.ranked shape)
  /-- The shapes of results are known. -/
  ranked_results : ∀ operation ∈ function.code, ∀ result ∈ operation.results,
    ∃ shape, function.typeOf result = .ok (.ranked shape)
  /-- No function is called. -/
  no_calls : ∀ operation ∈ function.code, operation.kind.callee? = none
  /-- There are no casts. -/
  no_casts : ∀ operation ∈ function.code, operation.kind.isCast = false
  /-- A reshape changes the type, and its operand is no constant and no other reshape. -/
  reshapes : ∀ operation ∈ function.code, operation.kind.reshapeTarget?.isSome = true →
    ∀ operand ∈ operation.operands,
      (∀ result ∈ operation.results, function.typeOf operand ≠ function.typeOf result) ∧
      ∀ definer ∈ function.code, operand ∈ definer.results →
        definer.kind.literal? = none ∧ definer.kind.reshapeTarget? = none
  /-- What an operation without effects computes is read. -/
  used : ∀ operation ∈ function.code, operation.kind.hasEffects = false →
    ∃ result ∈ operation.results, ∃ reader ∈ function.code, result ∈ reader.operands
  /-- No two operations without effects have the same kind, operands and types of results. -/
  distinct : function.code.Pairwise fun left right =>
    ¬ (left.kind.hasEffects = false ∧ right.kind.hasEffects = false ∧
      left.kind.agrees right.kind = true ∧ left.operands = right.operands ∧
      left.results.map function.typeOf = right.results.map function.typeOf)

/-! ### Simplification without an application -/

namespace Simplification

/-- No rule applies to any operation. -/
def Idle (function : Function) : Prop :=
  ∀ operation ∈ function.code, ∀ rule : SimplificationRule,
    rule.applies function operation = .ok false

variable {id : OperationId} {worklist : List OperationId} {budget applied total : Nat}

/-- A step that applies no rule has tried all of them and changes nothing. -/
theorem step_eq_none (stepped : step id function = .ok none changed) :
    changed = function ∧ ∀ operation, function.operation? id = some operation →
      SimplificationRule.first? function operation = .ok none := by
  simp only [step, EStateM.bind_eq_ok_iff, EStateM.get_eq_ok_iff] at stepped
  obtain ⟨_, _, ⟨rfl, rfl⟩, stepped⟩ := stepped
  cases found : function.operation? id with
  | none =>
      simp only [found] at stepped
      exact ⟨(EStateM.pure_eq_ok_iff.mp stepped).2.symm, nofun⟩
  | some operation =>
      simp only [found, EStateM.bind_eq_ok_iff, Edit.query_eq_ok_iff] at stepped
      obtain ⟨rule?, _, ⟨first_eq, rfl⟩, stepped⟩ := stepped
      cases rule? with
      | none =>
          refine ⟨(EStateM.pure_eq_ok_iff.mp stepped).2.symm, fun other other_eq => ?_⟩
          rw [← Option.some.inj other_eq]
          exact first_eq
      | some rule =>
          simp only [EStateM.bind_eq_ok_iff, EStateM.pure_eq_ok_iff] at stepped
          obtain ⟨_, _, -, _, _, -, refused, -⟩ := stepped
          cases refused

private theorem advance?_eq_none (advanced : advance? worklist function = .ok none changed) :
    changed = function ∧ ∀ id ∈ worklist, step id function = .ok none function := by
  induction worklist with
  | nil => exact ⟨(EStateM.pure_eq_ok_iff.mp advanced).2.symm, nofun⟩
  | cons id worklist induction =>
      rw [advance?, EStateM.bind_eq_ok_iff] at advanced
      obtain ⟨touched?, _, stepped, advanced⟩ := advanced
      cases touched? with
      | none =>
          obtain rfl := (step_eq_none stepped).1
          obtain ⟨same, each⟩ := induction advanced
          exact ⟨same, List.forall_mem_cons.mpr ⟨stepped, each⟩⟩
      | some touched => cases (EStateM.pure_eq_ok_iff.mp advanced).1

/-- Applications are counted, so a count that stays where it was means that there was none. -/
theorem run_eq_ok (ran : run budget applied worklist function = .ok total changed) :
    applied ≤ total ∧ (total = applied → advance? worklist function = .ok none changed) := by
  induction budget generalizing applied worklist function with
  | zero =>
      rw [run, EStateM.bind_eq_ok_iff] at ran
      obtain ⟨rest?, _, advanced, ran⟩ := ran
      cases rest? with
      | none =>
          obtain ⟨rfl, rfl⟩ := EStateM.pure_eq_ok_iff.mp ran
          exact ⟨Nat.le_refl _, fun _ => advanced⟩
      | some rest => exact absurd ran EStateM.throw_ne_ok
  | succ budget induction =>
      rw [run, EStateM.bind_eq_ok_iff] at ran
      obtain ⟨rest?, _, advanced, ran⟩ := ran
      cases rest? with
      | none =>
          obtain ⟨rfl, rfl⟩ := EStateM.pure_eq_ok_iff.mp ran
          exact ⟨Nat.le_refl _, fun _ => advanced⟩
      | some rest =>
          have later := (induction ran).1
          exact ⟨by omega, by omega⟩

theorem idle_of_simplify (verified : function.Verified)
    (simplifies : Edit.simplify function = .ok 0 changed) : Idle function := by
  intro operation member rule
  simp only [Edit.simplify, EStateM.bind_eq_ok_iff, EStateM.get_eq_ok_iff] at simplifies
  obtain ⟨_, _, ⟨rfl, rfl⟩, ran⟩ := simplifies
  have listed : operation.id ∈ function.body := by
    rw [Function.body_eq_code verified.live]
    exact List.mem_map_of_mem member
  have stepped := (advance?_eq_none ((run_eq_ok ran).2 rfl)).2 operation.id
    (mem_enqueue.mpr (.inr listed))
  have none_fits := (step_eq_none stepped).2 operation
    (verified.toRecorded.operation?_of_mem member)
  exact Except.findM?_eq_none_iff.mp none_fits rule (by cases rule <;> decide)

section Idle

variable {operation : Operation} {operand result : ValueId}

theorem keepsType_of_ranked {shape : Shape} {type : TensorType}
    (operands_eq : operation.operands = [operand]) (results_eq : operation.results = [result])
    (result_type : function.typeOf result = .ok (.ranked shape))
    (operand_type : function.typeOf operand = .ok type) :
    SimplificationRule.keepsType function operation = .ok (decide (.ranked shape = type)) := by
  simp only [SimplificationRule.keepsType, operands_eq, results_eq, Except.bind_eq_ok_iff]
  exact ⟨_, result_type, Except.bind_eq_ok_iff.mpr ⟨_, operand_type, rfl⟩⟩

theorem Idle.isCast_eq_false (idle : Idle function) (typed : function.Typed)
    (member : operation ∈ function.code) : operation.kind.isCast = false := by
  refine (Bool.not_eq_true _).mp fun casts => ?_
  obtain ⟨shapes, resolution, rule⟩ := typed operation member
  have resolved := rule.resolved
  rw [OperationKind.eq_of_isCast casts] at resolved
  obtain ⟨shape, rfl, is_result⟩ := OperationKind.resolve_cast resolved
  obtain ⟨result, results_eq, result_type⟩ := rule.result shape is_result
  obtain ⟨operand, operands_eq, operand_type⟩ := List.map_eq_singleton_iff.mp rule.operands
  have fails := idle operation member .redundantCast
  simp only [SimplificationRule.applies, casts, if_true,
    keepsType_of_ranked operands_eq results_eq result_type operand_type] at fails
  simp at fails

/-- A reshape that is left over is neither redundant nor the reshape of a constant or a reshape. -/
theorem Idle.reshape (idle : Idle function) (verified : function.Verified)
    (typed : function.Typed) (member : operation ∈ function.code)
    (reshapes : operation.kind.reshapeTarget?.isSome = true)
    (reads : operand ∈ operation.operands) :
    (∀ result ∈ operation.results, function.typeOf operand ≠ function.typeOf result) ∧
      ∀ definer ∈ function.code, operand ∈ definer.results →
        definer.kind.literal? = none ∧ definer.kind.reshapeTarget? = none := by
  obtain ⟨target, target_eq⟩ := Option.isSome_iff_exists.mp reshapes
  have fails := idle operation member
  simp only [SimplificationRule.applies, target_eq] at fails
  obtain ⟨shapes, resolution, rule⟩ := typed operation member
  have resolved := rule.resolved
  rw [OperationKind.eq_of_reshapeTarget? target_eq] at resolved
  obtain ⟨shape, count, rfl, shape_count, target_count, is_result⟩ :=
    OperationKind.resolve_reshape resolved
  obtain ⟨only, results_eq, result_type⟩ := rule.result target is_result
  obtain ⟨first, operands_eq, operand_type⟩ := List.map_eq_singleton_iff.mp rule.operands
  obtain rfl : operand = first := by simpa [operands_eq] using reads
  refine ⟨fun result defines same => ?_, fun definer definer_mem defines => ?_⟩
  · obtain rfl : result = only := by simpa [results_eq] using defines
    have keeps := fails .redundantReshape
    simp only [keepsType_of_ranked operands_eq results_eq result_type operand_type] at keeps
    have types := Except.ok.inj (operand_type.symm.trans (same.trans result_type))
    simp [types] at keeps
  · have definition : SimplificationRule.operandDefinition? function operation =
        .ok (some definer) := by
      rw [SimplificationRule.operandDefinition?,
        Operation.onlyOperand?_eq_some_iff.mpr operands_eq]
      exact verified.toRecorded.definer?_of_mem definer_mem defines
    constructor
    · refine Option.eq_none_iff_forall_ne_some.mpr fun literal literal_eq => ?_
      -- The constant has the shape of the operand, so it has as many elements as the target.
      obtain ⟨_, _, definer_rule⟩ := typed definer definer_mem
      have definer_resolved := definer_rule.resolved
      rw [OperationKind.eq_of_literal? literal_eq] at definer_resolved
      obtain ⟨value, value_eq, value_type⟩ :=
        definer_rule.result _ (OperationKind.resolve_constant definer_resolved)
      obtain rfl : operand = value := by simpa [value_eq] using defines
      obtain rfl := TensorType.ranked.inj (Except.ok.inj (operand_type.symm.trans value_type))
      have sizes : literal.shape.size = target.size :=
        (Shape.size_of_boundedSize? shape_count).symm.trans
          (Shape.size_of_boundedSize? target_count)
      have folds := fails .reshapeOfConstant
      simp only [definition] at folds
      simp [literal_eq, sizes, bind, Except.bind, pure, Except.pure] at folds
    · have merges := fails .reshapeOfReshape
      simp only [definition] at merges
      simpa [bind, Except.bind, pure, Except.pure] using merges

/-- An operation that is left over has effects, or one of its results is read. -/
theorem Idle.exists_reader (idle : Idle function) (verified : function.Verified)
    (member : operation ∈ function.code) (pure : operation.kind.hasEffects = false) :
    ∃ result ∈ operation.results, ∃ reader ∈ function.code, result ∈ reader.operands := by
  have fails := Except.pure_eq_ok_iff.mp (idle operation member .deadOperation)
  rw [pure, Bool.not_false, Bool.true_and, List.all_eq_false] at fails
  obtain ⟨result, defines, used⟩ := fails
  have users : function.usersOf result ≠ [] := by simpa [Function.isUsed] using used
  obtain ⟨user, uses⟩ := List.exists_mem_of_ne_nil _ users
  obtain ⟨reader, reader_mem, reads, -⟩ :=
    mem_readers_iff.mp ((verified.users result).mem_iff.mp uses)
  exact ⟨result, defines, reader, reader_mem, reads⟩

end Idle

end Simplification

/-! ### Sharing without a merge -/

private theorem Sharing.distinct_of_share (verified : function.Verified)
    (shares : Edit.share function = .ok 0 changed) :
    function.code.Pairwise (Sharing.Distinct function) := by
  obtain ⟨count, shared, rename, success, merged⟩ := Sharing.exists_share_merged verified
  obtain ⟨rfl, rfl⟩ := EStateM.Result.ok.inj (shares.symm.trans success)
  rw [← merged.unchanged rfl]
  exact merged.distinct

theorem Sharing.shareable_of_proper (proper : function.Proper) {operation : Operation}
    (member : operation ∈ function.code) (pure : operation.kind.hasEffects = false) :
    Sharing.Shareable operation := by
  refine ⟨pure, fun empty => ?_⟩
  have counted := (proper operation member).results
  rw [empty, OperationKind.resultCount_of_hasEffects pure] at counted
  cases counted

/-! ### Both -/

/-- A typed function to which neither simplification nor sharing has anything to do is in normal
form. -/
theorem Function.normal_of_zero (verified : function.Verified) (proper : function.Proper)
    (typed : function.Typed) (simplifies : Edit.simplify function = .ok 0 function)
    (shares : Edit.share function = .ok 0 function) : function.Normal := by
  have idle := Simplification.idle_of_simplify verified simplifies
  refine ⟨verify_eq_ok_iff.mpr verified, fun operation member operand reads => ?_,
    fun operation member result defines => ?_, fun operation member => ?_,
    fun operation member => idle.isCast_eq_false typed member,
    fun operation member reshapes operand => idle.reshape verified typed member reshapes,
    fun operation member => idle.exists_reader verified member, ?_⟩
  · obtain ⟨shapes, resolution, rule⟩ := typed operation member
    have known := List.mem_map_of_mem (f := function.typeOf) reads
    rw [rule.operands] at known
    obtain ⟨shape, -, type_eq⟩ := List.mem_map.mp known
    exact ⟨shape, type_eq.symm⟩
  · obtain ⟨shapes, resolution, rule⟩ := typed operation member
    exact Inference.ranked_of_typed rule (proper operation member) defines
  · obtain ⟨shapes, resolution, rule⟩ := typed operation member
    have resolved := rule.resolved
    cases kind_eq : operation.kind with
    | call callee =>
        rw [kind_eq] at resolved
        exact absurd (Except.ok.inj resolved).symm rule.known
    | _ => rfl
  · refine (Sharing.distinct_of_share verified shares).imp_of_mem
      fun left_mem right_mem distinct same => ?_
    obtain ⟨left_pure, right_pure, agrees, operands_eq, types⟩ := same
    have differs := distinct (Sharing.shareable_of_proper proper left_mem left_pure)
      (Sharing.shareable_of_proper proper right_mem right_pure)
    have equal := (Sharing.sameComputation_eq_ok_iff verified left_mem right_mem).mpr
      ⟨agrees, operands_eq, types⟩
    cases equal.symm.trans differs

end Dataflow

end TensorLang
