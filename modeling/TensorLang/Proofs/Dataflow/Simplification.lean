import TensorLang.Proofs.Dataflow.Chains
import TensorLang.Proofs.Dataflow.Inference
import TensorLang.Proofs.Dataflow.Preservation

/-!
# Simplification reduces

On a verified function each rule that applies is a reduction, and none of its edits can fail.  What
a worklist holds is listed in the body or gone, so a step finds its operation where the rules expect
it.  The weight of the function bounds the steps, and so simplification always comes to an end.
-/

namespace TensorLang

namespace Dataflow

/-! ### Kinds -/

theorem OperationKind.eq_of_reshapeTarget? {kind : OperationKind} {shape : Shape}
    (target : kind.reshapeTarget? = some shape) : kind = .reshape shape := by
  cases kind <;> cases target
  rfl

theorem OperationKind.eq_of_literal? {kind : OperationKind} {literal : TensorLiteral}
    (found : kind.literal? = some literal) : kind = .constant literal := by
  cases kind <;> cases found
  rfl

theorem OperationKind.eq_of_isCast {kind : OperationKind} (casts : kind.isCast = true) :
    kind = .cast := by
  cases kind <;> cases casts
  rfl

theorem Operation.onlyOperand?_eq_some_iff {operation : Operation} {operand : ValueId} :
    operation.onlyOperand? = some operand ↔ operation.operands = [operand] := by
  rw [Operation.onlyOperand?]
  split
  · rename_i only only_eq
    simp [only_eq]
  · rename_i several
    exact iff_of_false (by simp) (several operand)

variable {alike : OperationKind → OperationKind → Prop} {function changed : Function}

namespace Function

/-! ### Lookups -/

/-- The operation that defines a result is found. -/
theorem Recorded.definer?_of_mem (recorded : function.Recorded) {definer : Operation}
    (member : definer ∈ function.code) {result : ValueId} (defines : result ∈ definer.results) :
    function.definer? result = .ok (some definer) := by
  obtain ⟨position, found⟩ := List.mem_iff_getElem?.mp defines
  obtain ⟨value, value_eq, defined⟩ :=
    Option.map_eq_some_iff.mp (recorded.resultsDefined definer member position result found)
  refine Except.bind_eq_ok_iff.mpr ⟨value, value_eq_ok_iff.mpr value_eq, ?_⟩
  rw [defined]
  exact congrArg Except.ok (recorded.operation?_of_mem member)

/-- An operand is an argument, or an operation in front defines it. -/
theorem Verified.exists_definer? (verified : function.Verified) {front back : List Operation}
    {operation : Operation} (code_eq : function.code = front ++ operation :: back)
    {operand : ValueId} (reads : operand ∈ operation.operands) :
    ∃ definer?, function.definer? operand = .ok definer? ∧
      ∀ definer, definer? = some definer → definer ∈ front ∧ operand ∈ definer.results := by
  have dominated := Function.dominated_of_code_eq verified.dominated code_eq
  rcases List.mem_append.mp (dominated.2.1 operand reads) with argument | result
  · obtain ⟨position, found⟩ := List.mem_iff_getElem?.mp argument
    obtain ⟨value, value_eq, defined⟩ :=
      Option.map_eq_some_iff.mp (verified.argumentsDefined position operand found)
    refine ⟨none, Except.bind_eq_ok_iff.mpr ⟨value, value_eq_ok_iff.mpr value_eq, ?_⟩, nofun⟩
    rw [defined]
    rfl
  · obtain ⟨definer, definer_mem, defines⟩ := List.mem_flatMap.mp result
    have member : definer ∈ function.code := by
      rw [code_eq]
      exact List.mem_append_left _ definer_mem
    refine ⟨some definer, verified.toRecorded.definer?_of_mem member defines, ?_⟩
    rintro _ ⟨⟩
    exact ⟨definer_mem, defines⟩

theorem Verified.not_stray_of_uses (verified : function.Verified) {value : ValueId}
    {user : OperationId} (uses : user ∈ function.usersOf value) : ¬ function.Stray user := by
  obtain ⟨reader, member, -, rfl⟩ := mem_readers_iff.mp ((verified.users value).mem_iff.mp uses)
  exact verified.toRecorded.not_stray member

end Function

namespace SimplificationRule

variable {spot : function.Spot}

/-- The operation that defines the only operand stands in front, and defines nothing else. -/
theorem exists_operandDefinition? (verified : function.Verified) (proper : function.Proper)
    (spot : function.Spot) :
    ∃ inner?, operandDefinition? function spot.operation = .ok inner? ∧
      ∀ inner, inner? = some inner → inner ∈ spot.front ∧
        ∃ operand, spot.operation.operands = [operand] ∧ inner.results = [operand] := by
  rw [operandDefinition?]
  split
  · rename_i operand only
    have operands_eq := Operation.onlyOperand?_eq_some_iff.mp only
    have reads : operand ∈ spot.operation.operands := by simp [operands_eq]
    obtain ⟨inner?, inner_eq, found⟩ := verified.exists_definer? spot.code_eq reads
    refine ⟨inner?, inner_eq, fun inner some_eq => ?_⟩
    obtain ⟨inner_mem, defines⟩ := found inner some_eq
    exact ⟨inner_mem, operand, operands_eq,
      (proper inner (spot.front_subset inner_mem)).results_eq defines⟩
  · exact ⟨none, rfl, nofun⟩

private theorem exists_keepsType (verified : function.Verified) (spot : function.Spot) :
    ∃ keeps, keepsType function spot.operation = .ok keeps := by
  rw [keepsType]
  split
  · rename_i operand result operands_eq results_eq
    have defines : result ∈ spot.operation.results := by simp [results_eq]
    have reads : operand ∈ spot.operation.operands := by simp [operands_eq]
    obtain ⟨type, type_eq⟩ :=
      Function.exists_typeOf (verified.lt_size_of_result spot.mem_code defines)
    obtain ⟨operand_type, operand_type_eq⟩ :=
      Function.exists_typeOf (verified.lt_size_of_operand spot.mem_code reads)
    rw [type_eq, operand_type_eq]
    cases type <;> exact ⟨_, rfl⟩
  · exact ⟨_, rfl⟩

theorem exists_applies (verified : function.Verified) (proper : function.Proper)
    (spot : function.Spot) (rule : SimplificationRule) :
    ∃ applies, rule.applies function spot.operation = .ok applies := by
  obtain ⟨inner?, inner_eq, -⟩ := exists_operandDefinition? verified proper spot
  obtain ⟨keeps, keeps_eq⟩ := exists_keepsType verified spot
  cases target : spot.operation.kind.reshapeTarget? with
  | none =>
      cases rule <;> simp only [SimplificationRule.applies, target]
      case redundantCast =>
        split
        · exact ⟨keeps, keeps_eq⟩
        · exact ⟨_, rfl⟩
      all_goals exact ⟨_, rfl⟩
  | some shape =>
      cases rule <;> simp only [SimplificationRule.applies, target, inner_eq, keeps_eq]
      case reshapeOfConstant =>
        cases found : inner?.bind fun inner => inner.kind.literal? with
        | none => exact ⟨false, Except.bind_eq_ok_iff.mpr ⟨inner?, rfl, by rw [found]; rfl⟩⟩
        | some literal =>
            exact ⟨_, Except.bind_eq_ok_iff.mpr ⟨inner?, rfl, by rw [found]; rfl⟩⟩
      case redundantCast => split <;> exact ⟨_, rfl⟩
      all_goals exact ⟨_, rfl⟩

/-- No rule applies to an operation with effects. -/
theorem first?_of_hasEffects {operation : Operation}
    (effects : operation.kind.hasEffects = true) : first? function operation = .ok none := by
  obtain ⟨id, kind, operands, results, location⟩ := operation
  refine Except.findM?_eq_none_iff.mpr fun rule _ => ?_
  cases kind <;> cases effects <;> cases rule <;> rfl

/-! ### Edits -/

/-- The edit replaces the operation.  What it gives is listed or gone, and holds all operations that
are not as they were. -/
def Performs (spot : function.Spot) (edit : Edit (List OperationId)) (replacement : Replacement) :
    Prop :=
  ∃ touched changed, edit function = .ok touched changed ∧ spot.Replaced replacement changed ∧
    (∀ id ∈ touched, ¬ changed.Stray id) ∧
    ∀ operation ∈ changed.code, operation.id ∈ touched ∨ operation ∈ function.code

/-- After a replacement, an operation that does not use what is read instead of the result is as it
was or new. -/
theorem mem_code_of_replaced {replacement : Replacement}
    (replaced : spot.Replaced replacement changed)
    {operation : Operation} (member : operation ∈ changed.code) :
    operation.id ∈ changed.usersOf (replacement.target function) ∨
      operation ∈ replacement.operations function spot.operation.location ∨
      operation ∈ function.code := by
  rcases replaced.mem_code member with earlier | made | ⟨before, before_mem, rfl⟩
  · exact .inr (.inr (spot.front_subset earlier))
  · exact .inr (.inl made)
  · by_cases reads : spot.result ∈ before.operands
    · refine .inl ((replaced.verified.users _).mem_iff.mpr ?_)
      exact mem_readers_iff.mpr ⟨_, member, List.mem_map.mpr ⟨spot.result, reads, if_pos rfl⟩, rfl⟩
    · rw [Operation.redirected_of_notMem reads]
      exact .inr (.inr (spot.back_subset before_mem))

private theorem performs_substitute (verified : function.Verified) {value : ValueId}
    (usable : value ∈ function.availableAfter spot.front) :
    Performs spot (substitute spot.operation.id value) (.value value) := by
  obtain ⟨middle, changed, replaced, erased, done⟩ := spot.exists_substitution verified usable
  refine ⟨changed.usersOf value, changed, ?_, done, fun id => done.verified.not_stray_of_uses,
    fun operation member => (mem_code_of_replaced done member).imp_right (Or.resolve_left · nofun)⟩
  simp only [substitute, EStateM.bind_eq_ok_iff, Edit.query_eq_ok_iff, Edit.lift_eq_ok_iff,
    EStateM.get_eq_ok_iff, EStateM.pure_eq_ok_iff]
  exact ⟨spot.operation, function, ⟨Outcome.promised_eq_ok_iff.mpr
    (verified.toRecorded.operation?_of_mem spot.mem_code), rfl⟩, spot.result, function,
    ⟨Operation.result_eq_ok_iff.mpr spot.results_eq, rfl⟩, (), middle, replaced, (), changed,
    erased, changed, changed, ⟨rfl, rfl⟩, rfl, rfl⟩

theorem performs_replaceByNew (verified : function.Verified) (spot : function.Spot)
    (kind : OperationKind) {operands : List ValueId} (type : TensorType)
    (usable : ∀ operand ∈ operands, operand ∈ function.availableAfter spot.front)
    (stays : kind.isLeave = false) :
    Performs spot (replaceByNew spot.operation.id kind operands type spot.operation.location)
      (.made kind operands type) := by
  obtain ⟨inserted, middle, changed, insertion, new_eq, still, replaced, erased, done⟩ :=
    spot.exists_replacement verified usable stays
  have new_mem : function.nextOperation kind operands 1 spot.operation.location ∈ changed.code := by
    rw [done.code_eq]
    exact List.mem_append_left _ (List.mem_append_right _ (List.mem_singleton_self _))
  refine ⟨changed.usersOf ⟨function.values.size⟩ ++ [function.operations.nextId], changed, ?_, done,
    fun id touched => ?_, fun operation member => ?_⟩
  · simp only [replaceByNew, substitute, EStateM.bind_eq_ok_iff, Edit.query_eq_ok_iff,
      Edit.lift_eq_ok_iff, EStateM.get_eq_ok_iff, EStateM.pure_eq_ok_iff]
    exact ⟨function.operations.nextId, inserted, insertion, _, inserted,
      ⟨Outcome.promised_eq_ok_iff.mpr new_eq, rfl⟩, ⟨function.values.size⟩, inserted, ⟨rfl, rfl⟩,
      changed.usersOf ⟨function.values.size⟩, changed, ⟨spot.operation, inserted,
        ⟨Outcome.promised_eq_ok_iff.mpr still, rfl⟩, spot.result, inserted,
        ⟨Operation.result_eq_ok_iff.mpr spot.results_eq, rfl⟩, (), middle, replaced, (), changed,
        erased, changed, changed, ⟨rfl, rfl⟩, rfl, rfl⟩, rfl, rfl⟩
  · rcases List.mem_append.mp touched with user | new
    · exact done.verified.not_stray_of_uses user
    · rw [List.mem_singleton.mp new]
      exact done.verified.toRecorded.not_stray new_mem
  · rcases mem_code_of_replaced done member with user | new | old
    · exact .inl (List.mem_append_left _ user)
    · rw [List.mem_singleton.mp new]
      exact .inl (List.mem_append_right _ (List.mem_singleton_self _))
    · exact .inr old

theorem performs_bypass (verified : function.Verified) {operand : ValueId}
    (operands_eq : spot.operation.operands = [operand]) :
    Performs spot (bypass spot.operation.id) (.value operand) := by
  have dominated := Function.dominated_of_code_eq verified.dominated spot.code_eq
  obtain ⟨touched, changed, success, rest⟩ := performs_substitute verified
    (dominated.2.1 operand (by simp [operands_eq]))
  refine ⟨touched, changed, ?_, rest⟩
  simp only [bypass, EStateM.bind_eq_ok_iff, Edit.query_eq_ok_iff, Edit.lift_eq_ok_iff]
  exact ⟨spot.operation, function, ⟨Outcome.promised_eq_ok_iff.mpr
    (verified.toRecorded.operation?_of_mem spot.mem_code), rfl⟩, operand, function,
    ⟨Outcome.promised_eq_ok_iff.mpr (by rw [operands_eq]; rfl), rfl⟩, success⟩

/-! ### Rules -/

private theorem keepsType_eq_ok {operation : Operation}
    (keeps : keepsType function operation = .ok true) :
    ∃ operand result type, operation.operands = [operand] ∧ operation.results = [result] ∧
      function.typeOf result = .ok type ∧ function.typeOf operand = .ok type := by
  rw [keepsType] at keeps
  split at keeps
  · rename_i operand result operands_eq results_eq
    obtain ⟨type, type_eq, keeps⟩ := Except.bind_eq_ok_iff.mp keeps
    split at keeps
    · obtain ⟨operand_type, operand_type_eq, same⟩ := Except.bind_eq_ok_iff.mp keeps
      have same := of_decide_eq_true (Except.pure_eq_ok_iff.mp same)
      exact ⟨operand, result, type, operands_eq, results_eq, type_eq, same ▸ operand_type_eq⟩
    · cases keeps
  · cases keeps

/-- The types of the operand and of the result are the same. -/
theorem keepsType_spot (keeps : keepsType function spot.operation = .ok true) :
    ∃ operand type, spot.operation.operands = [operand] ∧
      function.typeOf spot.result = .ok type ∧ function.typeOf operand = .ok type := by
  obtain ⟨operand, result, type, operands_eq, results_eq, result_type, operand_type⟩ :=
    keepsType_eq_ok keeps
  obtain rfl := List.singleton_inj.mp (spot.results_eq.symm.trans results_eq)
  exact ⟨operand, type, operands_eq, result_type, operand_type⟩

/-- The rule replaces the operation by something that is as good. -/
def Replaces (alike : OperationKind → OperationKind → Prop) (rule : SimplificationRule)
    (spot : function.Spot) : Prop :=
  ∃ replacement, spot.Replaceable alike replacement ∧
    Performs spot (rule.apply spot.operation.id) replacement

theorem redundantReshape_replaces (verified : function.Verified)
    (applies : redundantReshape.applies function spot.operation = .ok true) :
    redundantReshape.Replaces alike spot := by
  cases target : spot.operation.kind.reshapeTarget? with
  | none =>
      simp only [SimplificationRule.applies, target] at applies
      cases applies
  | some shape =>
      simp only [SimplificationRule.applies, target] at applies
      obtain ⟨operand, type, operands_eq, result_type, operand_type⟩ := keepsType_spot applies
      exact ⟨_, .reshape (OperationKind.eq_of_reshapeTarget? target) operands_eq result_type
        operand_type, performs_bypass verified operands_eq⟩

theorem redundantCast_replaces (verified : function.Verified)
    (applies : redundantCast.applies function spot.operation = .ok true) :
    redundantCast.Replaces alike spot := by
  simp only [SimplificationRule.applies] at applies
  split at applies
  · rename_i casts
    obtain ⟨operand, type, operands_eq, result_type, operand_type⟩ := keepsType_spot applies
    exact ⟨_, .cast (OperationKind.eq_of_isCast casts) operands_eq result_type operand_type,
      performs_bypass verified operands_eq⟩
  · cases applies

theorem deadOperation_replaces (verified : function.Verified)
    (applies : deadOperation.applies function spot.operation = .ok true) :
    deadOperation.Replaces alike spot := by
  simp only [SimplificationRule.applies] at applies
  have checked := Except.pure_eq_ok_iff.mp applies
  rw [Bool.and_eq_true, spot.results_eq, List.all_cons, Bool.and_eq_true] at checked
  have unused : function.usersOf spot.result = [] := by simpa [Function.isUsed] using checked.2.1
  have unread : ∀ reader ∈ function.code, spot.result ∉ reader.operands := by
    intro reader member reads
    have user := (verified.users spot.result).mem_iff.mpr
      (mem_readers_iff.mpr ⟨reader, member, reads, rfl⟩)
    rw [unused] at user
    cases user
  obtain ⟨changed, erased, done⟩ := spot.exists_erase verified unread
  refine ⟨_, .unread unread, [], changed, EStateM.bind_eq_ok_iff.mpr ⟨(), changed, erased, rfl⟩,
    done, nofun, fun operation member => .inr ?_⟩
  rcases done.mem_code member with earlier | made | ⟨before, before_mem, rfl⟩
  · exact spot.front_subset earlier
  · cases made
  · rw [Replacement.target_value, Operation.redirected_self]
    exact spot.back_subset before_mem

private theorem reshapeOfConstant_applies
    (applies : reshapeOfConstant.applies function spot.operation = .ok true) :
    ∃ shape inner literal reshaped, spot.operation.kind = .reshape shape ∧
      operandDefinition? function spot.operation = .ok (some inner) ∧
      inner.kind = .constant literal ∧ literal.withShape? shape = some reshaped := by
  cases target : spot.operation.kind.reshapeTarget? with
  | none =>
      simp only [SimplificationRule.applies, target] at applies
      cases applies
  | some shape =>
      simp only [SimplificationRule.applies, target] at applies
      obtain ⟨inner?, inner_eq, applies⟩ := Except.bind_eq_ok_iff.mp applies
      cases found : inner?.bind fun inner => inner.kind.literal? with
      | none =>
          simp only [found] at applies
          cases applies
      | some literal =>
          simp only [found] at applies
          obtain ⟨inner, rfl, literal_eq⟩ := Option.bind_eq_some_iff.mp found
          have fits : literal.values.length = shape.size :=
            literal.filled.trans (eq_of_beq (Except.pure_eq_ok_iff.mp applies))
          exact ⟨shape, inner, literal, _, OperationKind.eq_of_reshapeTarget? target, inner_eq,
            OperationKind.eq_of_literal? literal_eq, dif_pos fits⟩

private theorem reshapeOfConstant_replaces (verified : function.Verified) (proper : function.Proper)
    (applies : reshapeOfConstant.applies function spot.operation = .ok true) :
    reshapeOfConstant.Replaces alike spot := by
  obtain ⟨shape, inner, literal, reshaped, kind_eq, inner_eq, inner_kind, reshaped_eq⟩ :=
    reshapeOfConstant_applies applies
  obtain ⟨inner?, same, found⟩ := exists_operandDefinition? verified proper spot
  obtain rfl := Except.ok.inj (inner_eq.symm.trans same)
  obtain ⟨inner_mem, operand, operands_eq, inner_results⟩ := found inner rfl
  have usable : ∀ id ∈ ([] : List ValueId), id ∈ function.availableAfter spot.front := nofun
  obtain ⟨touched, changed, success, rest⟩ :=
    performs_replaceByNew verified spot (.constant reshaped) (.ranked shape) usable rfl
  refine ⟨_, .constant inner_mem kind_eq operands_eq inner_kind inner_results reshaped_eq, touched,
    changed, ?_, rest⟩
  simp only [apply, foldConstant, EStateM.bind_eq_ok_iff, Edit.query_eq_ok_iff]
  refine ⟨spot.operation, function, ⟨Outcome.promised_eq_ok_iff.mpr
    (verified.toRecorded.operation?_of_mem spot.mem_code), rfl⟩, some inner, function,
    ⟨inner_eq, rfl⟩, ?_⟩
  simp only [kind_eq, inner_kind, OperationKind.reshapeTarget?, OperationKind.literal?,
    Option.bind_some, reshaped_eq]
  exact success

private theorem reshapeOfReshape_applies
    (applies : reshapeOfReshape.applies function spot.operation = .ok true) :
    ∃ shape inner innerShape, spot.operation.kind = .reshape shape ∧
      operandDefinition? function spot.operation = .ok (some inner) ∧
      inner.kind = .reshape innerShape := by
  cases target : spot.operation.kind.reshapeTarget? with
  | none =>
      simp only [SimplificationRule.applies, target] at applies
      cases applies
  | some shape =>
      simp only [SimplificationRule.applies, target] at applies
      obtain ⟨_ | inner, inner_eq, applies⟩ := Except.bind_eq_ok_iff.mp applies
      · cases applies
      · obtain ⟨innerShape, inner_target⟩ :=
          Option.isSome_iff_exists.mp (Except.pure_eq_ok_iff.mp applies)
        exact ⟨shape, inner, innerShape, OperationKind.eq_of_reshapeTarget? target, inner_eq,
          OperationKind.eq_of_reshapeTarget? inner_target⟩

private theorem reshapeOfReshape_replaces (verified : function.Verified) (proper : function.Proper)
    (applies : reshapeOfReshape.applies function spot.operation = .ok true) :
    reshapeOfReshape.Replaces alike spot := by
  obtain ⟨shape, inner, innerShape, kind_eq, inner_eq, inner_kind⟩ :=
    reshapeOfReshape_applies applies
  obtain ⟨inner?, same, found⟩ := exists_operandDefinition? verified proper spot
  obtain rfl := Except.ok.inj (inner_eq.symm.trans same)
  obtain ⟨inner_mem, operand, operands_eq, inner_results⟩ := found inner rfl
  obtain ⟨origin, inner_operands⟩ := List.length_eq_one_iff.mp
    ((proper inner (spot.front_subset inner_mem)).operands 1 (by rw [inner_kind]; rfl))
  obtain ⟨type, type_eq⟩ := Function.exists_typeOf
    (verified.lt_size_of_result spot.mem_code spot.defines)
  have usable : ∀ id ∈ inner.operands, id ∈ function.availableAfter spot.front := by
    intro id reads
    have dominated := Function.dominated_of_code_eq verified.dominated spot.code_eq
    exact dominated.1.operand_mem inner_mem reads
  obtain ⟨touched, changed, success, rest⟩ :=
    performs_replaceByNew verified spot (.reshape shape) type usable rfl
  rw [inner_operands] at rest
  refine ⟨_, .reshapes inner_mem kind_eq operands_eq inner_kind inner_operands inner_results
    type_eq, touched, changed, ?_, rest⟩
  simp only [apply, skipInnerReshape, EStateM.bind_eq_ok_iff, Edit.query_eq_ok_iff]
  refine ⟨spot.operation, function, ⟨Outcome.promised_eq_ok_iff.mpr
    (verified.toRecorded.operation?_of_mem spot.mem_code), rfl⟩, some inner, function,
    ⟨inner_eq, rfl⟩, ?_⟩
  simp only [EStateM.bind_eq_ok_iff, Edit.query_eq_ok_iff, Edit.lift_eq_ok_iff]
  refine ⟨spot.result, function, ⟨Operation.result_eq_ok_iff.mpr spot.results_eq, rfl⟩, type,
    function, ⟨type_eq, rfl⟩, ?_⟩
  rw [kind_eq]
  exact success

/-- A rule that applies is a reduction. -/
theorem replaces_of_applies (alike : OperationKind → OperationKind → Prop)
    (verified : function.Verified) (proper : function.Proper)
    {rule : SimplificationRule} (applies : rule.applies function spot.operation = .ok true) :
    rule.Replaces alike spot := by
  cases rule with
  | reshapeOfConstant => exact reshapeOfConstant_replaces verified proper applies
  | redundantReshape => exact redundantReshape_replaces verified applies
  | reshapeOfReshape => exact reshapeOfReshape_replaces verified proper applies
  | redundantCast => exact redundantCast_replaces verified applies
  | deadOperation => exact deadOperation_replaces verified applies

theorem exists_first? (verified : function.Verified) (proper : function.Proper)
    (spot : function.Spot) :
    ∃ rule?, first? function spot.operation = .ok rule? ∧
      ∀ rule : SimplificationRule, rule? = some rule →
        rule.applies function spot.operation = .ok true := by
  have total : ∀ rule ∈ all, ∃ applies,
      SimplificationRule.applies rule function spot.operation = .ok applies :=
    fun rule _ => exists_applies verified proper spot rule
  obtain ⟨rule?, first_eq⟩ := Except.exists_findM? total
  refine ⟨rule?, first_eq, ?_⟩
  rintro rule rfl
  exact (Except.findM?_eq_some first_eq).2

end SimplificationRule

namespace Simplification

/-! ### Steps -/

variable {id : OperationId} {operation : Operation}

private theorem step_of_missing (missing : function.operation? id = none) :
    step id function = .ok none function := by
  refine EStateM.bind_eq_ok_iff.mpr ⟨function, function, rfl, ?_⟩
  simp only [missing]
  rfl

theorem step_of_first?_none (found : function.operation? id = some operation)
    (first_eq : SimplificationRule.first? function operation = .ok none) :
    step id function = .ok none function := by
  refine EStateM.bind_eq_ok_iff.mpr ⟨function, function, rfl, ?_⟩
  simp only [found]
  exact EStateM.bind_eq_ok_iff.mpr
    ⟨none, function, Edit.query_eq_ok_iff.mpr ⟨first_eq, rfl⟩, rfl⟩

private theorem step_of_first?_some (found : function.operation? id = some operation)
    {rule : SimplificationRule}
    (first_eq : SimplificationRule.first? function operation = .ok (some rule))
    {definitions : List (Option Operation)}
    (definitions_eq : operation.operands.mapM function.definer? = .ok definitions)
    {touched : List OperationId} (applied : rule.apply id function = .ok touched changed) :
    step id function = .ok (some (touched ++ definitions.filterMap fun definition? =>
      definition?.map Operation.id)) changed := by
  refine EStateM.bind_eq_ok_iff.mpr ⟨function, function, rfl, ?_⟩
  simp only [found]
  refine EStateM.bind_eq_ok_iff.mpr
    ⟨some rule, function, Edit.query_eq_ok_iff.mpr ⟨first_eq, rfl⟩, ?_⟩
  refine EStateM.bind_eq_ok_iff.mpr
    ⟨definitions, function, Edit.query_eq_ok_iff.mpr ⟨definitions_eq, rfl⟩, ?_⟩
  exact EStateM.bind_eq_ok_iff.mpr ⟨touched, changed, applied, rfl⟩

private theorem exists_definitions (verified : function.Verified) (spot : function.Spot) :
    ∃ definitions, spot.operation.operands.mapM function.definer? = .ok definitions ∧
      ∀ definer, some definer ∈ definitions → definer ∈ function.code := by
  have each : ∀ operand ∈ spot.operation.operands, ∃ definer?,
      function.definer? operand = .ok definer? := by
    intro operand reads
    obtain ⟨definer?, definer_eq, -⟩ := verified.exists_definer? spot.code_eq reads
    exact ⟨definer?, definer_eq⟩
  obtain ⟨definitions, definitions_eq⟩ := Except.exists_mapM each
  refine ⟨definitions, definitions_eq, fun definer member => ?_⟩
  have found := List.mem_map_of_mem (f := Except.ok (ε := Failure)) member
  rw [← Except.mapM_eq_ok_iff.mp definitions_eq] at found
  obtain ⟨operand, reads, definer_eq⟩ := List.mem_map.mp found
  obtain ⟨definer?, same, definers⟩ := verified.exists_definer? spot.code_eq reads
  exact spot.front_subset (definers definer (Except.ok.inj (same.symm.trans definer_eq))).1

/-- A step at an operation that is listed or gone makes one reduction, or it finds no rule to apply
and changes nothing. -/
theorem exists_step (alike : OperationKind → OperationKind → Prop) (verified : function.Verified)
    (proper : function.Proper) (listed : ¬ function.Stray id) :
    step id function = .ok none function ∨
      ∃ touched changed, step id function = .ok (some touched) changed ∧
        Reduction alike function changed ∧ (∀ other, changed.Stray other → function.Stray other) ∧
        ∀ other ∈ touched, ¬ changed.Stray other := by
  cases found : function.operation? id with
  | none => exact .inl (step_of_missing found)
  | some operation =>
      have id_mem : id ∈ function.body :=
        Decidable.not_not.mp fun unlisted => listed ⟨by rw [found]; rfl, unlisted⟩
      obtain ⟨known, known_eq, rfl⟩ := verified.live id id_mem
      obtain rfl := Option.some.inj (found.symm.trans known_eq)
      by_cases pure : operation.kind.hasEffects = true
      · exact .inl (step_of_first?_none found (SimplificationRule.first?_of_hasEffects pure))
      · obtain ⟨spot, rfl⟩ := Function.Spot.exists_of_mem proper
          (Function.mem_code_iff.mpr ⟨_, id_mem, found⟩) ((Bool.not_eq_true _).mp pure)
        obtain ⟨rule?, first_eq, applies⟩ :=
          SimplificationRule.exists_first? verified proper spot
        cases rule? with
        | none => exact .inl (step_of_first?_none found first_eq)
        | some rule =>
            obtain ⟨replacement, replaceable, touched, changed, applied, replaced, kept, -⟩ :=
              SimplificationRule.replaces_of_applies alike verified proper (applies rule rfl)
            obtain ⟨definitions, definitions_eq, definers⟩ := exists_definitions verified spot
            refine .inr ⟨_, changed, step_of_first?_some found first_eq definitions_eq applied,
              ⟨spot, replacement, replaceable, replaced⟩, replaced.strays, fun other member => ?_⟩
            rcases List.mem_append.mp member with one | around
            · exact kept other one
            · obtain ⟨_ | definer, definer_mem, same⟩ := List.mem_filterMap.mp around
              · cases same
              · obtain rfl := Option.some.inj same
                exact fun stray => verified.toRecorded.not_stray (definers definer definer_mem)
                  (replaced.strays _ stray)

/-! ### Worklists -/

theorem mem_enqueue {worklist ids : List OperationId} {id : OperationId} :
    id ∈ enqueue worklist ids ↔ id ∈ worklist ∨ id ∈ ids := by
  rw [enqueue]
  induction ids generalizing worklist with
  | nil => simp
  | cons first rest induction =>
      rw [List.foldl_cons, induction]
      split
      · rename_i known
        rw [List.contains_iff_mem] at known
        rw [List.mem_cons]
        exact ⟨fun member => member.imp_right .inr, fun member => member.elim .inl fun later =>
          later.elim (fun same => .inl (same ▸ known)) .inr⟩
      · rw [List.mem_append, List.mem_singleton, List.mem_cons, or_assoc]

/-- The worklist up to the first reduction, or to its end. -/
theorem exists_advance? (alike : OperationKind → OperationKind → Prop)
    (verified : function.Verified) (proper : function.Proper) {worklist : List OperationId}
    (listed : ∀ id ∈ worklist, ¬ function.Stray id) :
    advance? worklist function = .ok none function ∨
      ∃ rest changed, advance? worklist function = .ok (some rest) changed ∧
        Reduction alike function changed ∧ ∀ id ∈ rest, ¬ changed.Stray id := by
  induction worklist with
  | nil => exact .inl rfl
  | cons id rest induction =>
      rw [List.forall_mem_cons] at listed
      rcases exists_step alike verified proper listed.1 with
        stays | ⟨touched, changed, stepped, reduction, strays, kept⟩
      · rcases induction listed.2 with ends | ⟨later, changed, advanced, reduction, kept⟩
        · exact .inl (EStateM.bind_eq_ok_iff.mpr ⟨none, function, stays, ends⟩)
        · exact .inr ⟨later, changed, EStateM.bind_eq_ok_iff.mpr ⟨none, function, stays, advanced⟩,
            reduction, kept⟩
      · refine .inr ⟨enqueue rest touched, changed,
          EStateM.bind_eq_ok_iff.mpr ⟨some touched, changed, stepped, rfl⟩, reduction,
          fun other member => ?_⟩
        rcases mem_enqueue.mp member with old | new
        · exact fun stray => listed.2 other old (strays other stray)
        · exact kept other new

/-- A run that may apply as many rules as the function weighs comes to its end. -/
theorem exists_run (links : ∀ left right, alike left right → left.isLink = right.isLink)
    (verified : function.Verified) (proper : function.Proper) {rank : ValueId → Nat}
    (ranks : Ranks rank function.code) {budget : Nat} (enough : weight rank function.code ≤ budget)
    (applied : Nat) {worklist : List OperationId}
    (listed : ∀ id ∈ worklist, ¬ function.Stray id) :
    ∃ count changed, run budget applied worklist function = .ok (applied + count) changed ∧
      Reduces alike count function changed := by
  induction budget generalizing function rank applied worklist with
  | zero =>
      rcases exists_advance? alike verified proper listed with
        ends | ⟨rest, middle, -, reduction, -⟩
      · refine ⟨0, function, ?_, .refl function⟩
        rw [run]
        exact EStateM.bind_eq_ok_iff.mpr ⟨none, function, ends, rfl⟩
      · obtain ⟨_, -, less⟩ := (Reduces.single reduction).exists_ranks links verified ranks
        omega
  | succ budget induction =>
      rcases exists_advance? alike verified proper listed with
        ends | ⟨rest, middle, advanced, reduction, kept⟩
      · refine ⟨0, function, ?_, .refl function⟩
        rw [run]
        exact EStateM.bind_eq_ok_iff.mpr ⟨none, function, ends, rfl⟩
      · obtain ⟨lower, lower_ranks, less⟩ :=
          (Reduces.single reduction).exists_ranks links verified ranks
        obtain ⟨count, changed, ran, reduces⟩ := induction
          ((Reduces.single reduction).verified verified) (proper.reduction reduction) lower_ranks
          (by omega) (applied + 1) kept
        refine ⟨count + 1, changed, ?_, .step reduction reduces⟩
        rw [run, Nat.add_comm count, ← Nat.add_assoc]
        exact EStateM.bind_eq_ok_iff.mpr ⟨some rest, middle, advanced, ran⟩

/-- Simplification of a verified function succeeds, and all it does are reductions. -/
theorem exists_simplify (links : ∀ left right, alike left right → left.isLink = right.isLink)
    (verified : function.Verified) (proper : function.Proper) :
    ∃ count simplified, Edit.simplify function = .ok count simplified ∧
      Reduces alike count function simplified := by
  obtain ⟨rank, ranks, enough⟩ := verified.exists_ranks proper
  have listed : ∀ id ∈ enqueue [] function.body, ¬ function.Stray id := fun id member =>
    Function.not_stray_of_mem ((mem_enqueue.mp member).resolve_left nofun)
  obtain ⟨count, simplified, ran, reduces⟩ :=
    exists_run links verified proper ranks enough 0 listed
  rw [Nat.zero_add] at ran
  exact ⟨count, simplified, EStateM.bind_eq_ok_iff.mpr ⟨function, function, rfl, ran⟩, reduces⟩

end Simplification

namespace Function

/-- Simplification preserves meaning: once the types of a function are inferred, it succeeds, and
for all values that the arguments may take the simplified function prints and returns the same
tensors. -/
theorem simplify_preserves_meaning {inferred : Function} (accepted : function.verify = .ok ())
    (proper : function.Proper) (success : Edit.inferTypes function = .ok () inferred) :
    ∃ count simplified, Edit.simplify inferred = .ok count simplified ∧
      simplified.arguments = inferred.arguments ∧
      ∀ calls values, inferred.Accepts values →
        ∃ effects, inferred.evaluate calls values = .ok effects ∧
          simplified.evaluate calls values = .ok effects := by
  obtain ⟨refines, typed⟩ := Inference.inferTypes_eq_ok success
  have verified := refines.verified (verify_eq_ok_iff.mp accepted)
  have inferred_proper := refines.proper proper
  have links : ∀ left right : OperationKind, left = right → left.isLink = right.isLink :=
    fun _ _ => congrArg OperationKind.isLink
  obtain ⟨count, simplified, simplifies, reduces⟩ :=
    Simplification.exists_simplify links verified inferred_proper
  exact ⟨count, simplified, simplifies, reduces.extension.arguments,
    fun calls values accepts => reduces.evaluate_eq calls verified inferred_proper typed accepts⟩

/-- Prints a matrix as one column, after two reshapes and a cast, and returns its elements as one
row. -/
def layingOutColumn : Function :=
  let build : Edit Unit := do
    let matrix ← Edit.pushArgument (.ranked ⟨[2, 2]⟩)
    let row ← Edit.appendValue (.reshape ⟨[4]⟩) [matrix] .unranked ⟨"main", 1, 1⟩
    let column ← Edit.appendValue (.reshape ⟨[4, 1]⟩) [row] .unranked ⟨"main", 2, 1⟩
    let same ← Edit.appendValue .cast [column] .unranked ⟨"main", 2, 1⟩
    let _ ← Edit.append .print [same] [] ⟨"main", 3, 1⟩
    let _ ← Edit.append .leave [row] [] ⟨"main", 4, 1⟩
    modify fun function => { function with resultTypes := [.unranked] }
  (build.outcome (Function.new "main" ⟨"main", 1, 1⟩)).1

theorem simplify_preserves_meaning_layingOutColumn :
    layingOutColumn.verify = .ok () ∧ layingOutColumn.Proper ∧
      ∃ inferred count simplified, Edit.inferTypes layingOutColumn = .ok () inferred ∧
        Edit.simplify inferred = .ok count simplified ∧
        ∀ tensor : Tensor, tensor.shape = ⟨[2, 2]⟩ → ∀ calls,
          ∃ effects, inferred.evaluate calls [some tensor] = .ok effects ∧
            simplified.evaluate calls [some tensor] = .ok effects := by
  have accepted : layingOutColumn.verify = .ok () := by rfl
  have proper : layingOutColumn.Proper := by decide
  let inferred := (Edit.inferTypes.outcome layingOutColumn).1
  have success : Edit.inferTypes layingOutColumn = .ok () inferred := by rfl
  obtain ⟨count, simplified, simplifies, -, same⟩ :=
    simplify_preserves_meaning accepted proper success
  refine ⟨accepted, proper, inferred, count, simplified, success, simplifies,
    fun tensor shape_eq calls => same calls [some tensor] ⟨rfl, ?_⟩⟩
  rintro (_ | _) argument shape found known
  · obtain rfl : ⟨0⟩ = argument := Option.some.inj found
    exact ⟨tensor, rfl, shape_eq.trans (TensorType.ranked.inj (Except.ok.inj known))⟩
  · cases found

end Function

end Dataflow

end TensorLang
