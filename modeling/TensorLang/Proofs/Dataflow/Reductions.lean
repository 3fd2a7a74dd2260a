import TensorLang.Proofs.Dataflow.Replacement
import TensorLang.Proofs.Dataflow.Typing

/-!
# Reductions

A reduction replaces an operation whose value can be had in another way.  There are six such ways;
simplification takes the first five, and sharing the last one.  Whatever is kept by every reduction
is kept by both passes, however long they run: the kinds of operations that there are, the numbers
of operands and results, and the types.
-/

namespace TensorLang

theorem TensorLiteral.withShape?_eq_some {literal reshaped : TensorLiteral} {shape : Shape}
    (found : literal.withShape? shape = some reshaped) :
    reshaped.shape = shape ∧ reshaped.values = literal.values := by
  rw [withShape?] at found
  split at found
  · obtain rfl := Option.some.inj found
    exact ⟨rfl, rfl⟩
  · cases found

namespace Dataflow

/-- A way to get at the value of an operation without the operation.  Operations may stand for each
other if their kinds are alike. -/
inductive Function.Spot.Replaceable (alike : OperationKind → OperationKind → Prop)
    {function : Function} (spot : function.Spot) : Replacement → Prop
  /-- Nobody reads the value. -/
  | unread (unread : ∀ reader ∈ function.code, spot.result ∉ reader.operands) :
      Replaceable alike spot (.value spot.result)
  /-- A reshape keeps the type of its operand. -/
  | reshape {shape : Shape} {operand : ValueId} {type : TensorType}
      (kind_eq : spot.operation.kind = .reshape shape)
      (operands_eq : spot.operation.operands = [operand])
      (result_type : function.typeOf spot.result = .ok type)
      (operand_type : function.typeOf operand = .ok type) : Replaceable alike spot (.value operand)
  /-- A cast keeps the type of its operand. -/
  | cast {operand : ValueId} {type : TensorType} (kind_eq : spot.operation.kind = .cast)
      (operands_eq : spot.operation.operands = [operand])
      (result_type : function.typeOf spot.result = .ok type)
      (operand_type : function.typeOf operand = .ok type) : Replaceable alike spot (.value operand)
  /-- A constant is reshaped. -/
  | constant {inner : Operation} {shape : Shape} {operand : ValueId}
      {literal reshaped : TensorLiteral} (inner_mem : inner ∈ spot.front)
      (kind_eq : spot.operation.kind = .reshape shape)
      (operands_eq : spot.operation.operands = [operand])
      (inner_kind : inner.kind = .constant literal) (inner_results : inner.results = [operand])
      (reshaped_eq : literal.withShape? shape = some reshaped) :
      Replaceable alike spot (.made (.constant reshaped) [] (.ranked shape))
  /-- A reshape is reshaped. -/
  | reshapes {inner : Operation} {shape innerShape : Shape} {operand origin : ValueId}
      {type : TensorType} (inner_mem : inner ∈ spot.front)
      (kind_eq : spot.operation.kind = .reshape shape)
      (operands_eq : spot.operation.operands = [operand])
      (inner_kind : inner.kind = .reshape innerShape) (inner_operands : inner.operands = [origin])
      (inner_results : inner.results = [operand])
      (result_type : function.typeOf spot.result = .ok type) :
      Replaceable alike spot (.made (.reshape shape) [origin] type)
  /-- An earlier operation does the same. -/
  | equal {earlier : Operation} {value : ValueId} {type : TensorType}
      (earlier_mem : earlier ∈ spot.front) (same : alike earlier.kind spot.operation.kind)
      (operands_eq : earlier.operands = spot.operation.operands)
      (results_eq : earlier.results = [value]) (value_type : function.typeOf value = .ok type)
      (result_type : function.typeOf spot.result = .ok type) : Replaceable alike spot (.value value)

/-- One operation is replaced. -/
def Reduction (alike : OperationKind → OperationKind → Prop) (function changed : Function) : Prop :=
  ∃ (spot : function.Spot) (replacement : Replacement),
    spot.Replaceable alike replacement ∧ spot.Replaced replacement changed

/-- A number of operations are replaced, one after the other. -/
inductive Reduces (alike : OperationKind → OperationKind → Prop) :
    Nat → Function → Function → Prop
  /-- Nothing is replaced. -/
  | refl (function : Function) : Reduces alike 0 function function
  /-- One operation is replaced, and then others. -/
  | step {count : Nat} {function middle changed : Function}
      (first : Reduction alike function middle) (rest : Reduces alike count middle changed) :
      Reduces alike (count + 1) function changed

namespace Reduces

variable {alike : OperationKind → OperationKind → Prop} {count more : Nat}
variable {function middle changed : Function}

theorem single (reduction : Reduction alike function changed) : Reduces alike 1 function changed :=
  .step reduction (.refl changed)

theorem trans (early : Reduces alike count function middle)
    (late : Reduces alike more middle changed) : Reduces alike (count + more) function changed := by
  induction early with
  | refl => rwa [Nat.zero_add]
  | step first _ induction =>
      rw [Nat.succ_add]
      exact .step first (induction late)

theorem eq_of_zero (reduces : Reduces alike 0 function changed) : changed = function := by
  cases reduces
  rfl

/-- What each reduction keeps is kept. -/
theorem keeps {property : Function → Prop}
    (each : ∀ before after, Reduction alike before after → property before → property after)
    (reduces : Reduces alike count function changed) (holds : property function) :
    property changed := by
  induction reduces with
  | refl => exact holds
  | step first _ induction => exact induction (each _ _ first holds)

theorem verified (reduces : Reduces alike count function changed) (verified : function.Verified) :
    changed.Verified :=
  reduces.keeps (fun _ _ ⟨_, _, _, replaced⟩ _ => replaced.verified) verified

theorem extension (reduces : Reduces alike count function changed) : Extends function changed := by
  induction reduces with
  | refl => exact Extends.refl _
  | step first _ induction =>
      obtain ⟨_, _, _, replaced⟩ := first
      exact replaced.extension.trans induction

end Reduces

/-- An operation that finds the same types obeys the same rule. -/
theorem Operation.Typed.congr {function changed : Function} {operation other : Operation}
    {shapes : List Shape} {resolution : Resolution}
    (typed : operation.Typed function shapes resolution) (kind_eq : other.kind = operation.kind)
    (operands : other.operands.map changed.typeOf = operation.operands.map function.typeOf)
    (results_eq : other.results = operation.results)
    (results : ∀ result ∈ operation.results, changed.typeOf result = function.typeOf result)
    (signature : changed.resultTypes = function.resultTypes) :
    other.Typed changed shapes resolution where
  operands := operands.trans typed.operands
  resolved := kind_eq ▸ typed.resolved
  known := typed.known
  result := by
    intro shape is_result
    obtain ⟨result, only, type_eq⟩ := typed.result shape is_result
    exact ⟨result, results_eq.trans only, (results result (by simp [only])).trans type_eq⟩
  counted := typed.counted
  returned := by
    rw [signature]
    exact typed.returned

/-- A constant that is reshaped stays allowed where the reshape is. -/
def Reshapable (allowed : OperationKind → Prop) : Prop :=
  ∀ (literal reshaped : TensorLiteral) (shape : Shape), literal.withShape? shape = some reshaped →
    allowed (.constant literal) → allowed (.reshape shape) → allowed (.constant reshaped)

namespace Function

variable {alike : OperationKind → OperationKind → Prop} {function changed : Function}
variable {spot : function.Spot} {replacement : Replacement}

/-- Where the operations after a replacement come from. -/
theorem Spot.Replaced.mem_code (replaced : spot.Replaced replacement changed)
    {operation : Operation} (member : operation ∈ changed.code) :
    operation ∈ spot.front ∨
      operation ∈ replacement.operations function spot.operation.location ∨
      ∃ before ∈ spot.back,
        operation = before.redirected spot.result (replacement.target function) := by
  rw [replaced.code_eq, List.mem_append, List.mem_append, List.mem_map, or_assoc] at member
  refine member.imp_right (Or.imp_right ?_)
  rintro ⟨before, before_mem, rfl⟩
  exact ⟨before, before_mem, rfl⟩

/-! ### Kinds -/

/-- The kinds of all operations are allowed. -/
def Among (allowed : OperationKind → Prop) (function : Function) : Prop :=
  ∀ operation ∈ function.code, allowed operation.kind

theorem Among.reduction {allowed : OperationKind → Prop} (reshapable : Reshapable allowed)
    (reduction : Reduction alike function changed) (among : function.Among allowed) :
    changed.Among allowed := by
  obtain ⟨spot, replacement, replaceable, replaced⟩ := reduction
  intro operation member
  rcases replaced.mem_code member with earlier | new | ⟨before, before_mem, rfl⟩
  · exact among operation (spot.front_subset earlier)
  · cases replaceable with
    | unread | reshape | cast | equal => cases new
    | constant inner_mem kind_eq _ inner_kind _ reshaped_eq =>
        rw [List.mem_singleton.mp new]
        exact reshapable _ _ _ reshaped_eq (inner_kind ▸ among _ (spot.front_subset inner_mem))
          (kind_eq ▸ among _ spot.mem_code)
    | reshapes _ kind_eq =>
        rw [List.mem_singleton.mp new]
        have kept := among _ spot.mem_code
        rw [kind_eq] at kept
        exact kept
  · exact among before (spot.back_subset before_mem)

theorem Among.reduces {allowed : OperationKind → Prop} (reshapable : Reshapable allowed)
    {count : Nat} (reduces : Reduces alike count function changed)
    (among : function.Among allowed) : changed.Among allowed :=
  reduces.keeps (fun _ _ first => Among.reduction reshapable first) among

theorem Proper.reduction (reduction : Reduction alike function changed)
    (proper : function.Proper) : changed.Proper := by
  obtain ⟨spot, replacement, replaceable, replaced⟩ := reduction
  intro operation member
  rcases replaced.mem_code member with earlier | new | ⟨before, before_mem, rfl⟩
  · exact proper operation (spot.front_subset earlier)
  · cases replaceable with
    | unread | reshape | cast | equal => cases new
    | constant | reshapes =>
        rw [List.mem_singleton.mp new]
        exact ⟨fun count counted => Option.some.inj counted, rfl⟩
  · have known := proper before (spot.back_subset before_mem)
    exact ⟨fun count counted => (List.length_map _).trans (known.operands count counted),
      known.results⟩

theorem Proper.reduces {count : Nat} (reduces : Reduces alike count function changed)
    (proper : function.Proper) : changed.Proper :=
  reduces.keeps (fun _ _ first => Proper.reduction first) proper

/-- Verification accepts the function, whose operations are of allowed kinds and have as many
operands and results as these call for. -/
structure InOrder (allowed : OperationKind → Prop) (function : Function) : Prop where
  /-- Verification accepts the function. -/
  verified : function.Verified
  /-- Operands and results have the right numbers. -/
  proper : function.Proper
  /-- The kinds of all operations are allowed. -/
  among : function.Among allowed

theorem inOrder_of_verify (accepted : function.verify = .ok ()) (proper : function.Proper) :
    function.InOrder fun _ => True :=
  ⟨verify_eq_ok_iff.mp accepted, proper, fun _ _ => trivial⟩

theorem InOrder.reduces {allowed : OperationKind → Prop} (reshapable : Reshapable allowed)
    {count : Nat} (reduces : Reduces alike count function changed)
    (inOrder : function.InOrder allowed) : changed.InOrder allowed :=
  ⟨reduces.verified inOrder.verified, inOrder.proper.reduces reduces,
    inOrder.among.reduces reshapable reduces⟩

/-! ### Types -/

/-- What an operation reads exists. -/
theorem Verified.lt_size_of_operand (verified : function.Verified) {operation : Operation}
    (member : operation ∈ function.code) {operand : ValueId}
    (reads : operand ∈ operation.operands) :
    operand.index < function.values.size :=
  verified.wellFormed.existing operation member operand reads

/-- What an operation defines exists. -/
theorem Verified.lt_size_of_result (verified : function.Verified) {operation : Operation}
    (member : operation ∈ function.code) {result : ValueId} (defines : result ∈ operation.results) :
    result.index < function.values.size :=
  verified.wellFormed.known result
    (List.mem_append_right _ (List.mem_flatMap.mpr ⟨operation, member, defines⟩))

/-- The value that is read in place of the result has the type of the result. -/
theorem Spot.Replaceable.typeOf_target (replaceable : spot.Replaceable alike replacement)
    (replaced : spot.Replaced replacement changed) (verified : function.Verified)
    (typed : function.Typed) :
    changed.typeOf (replacement.target function) = function.typeOf spot.result := by
  have result_kept : changed.typeOf spot.result = function.typeOf spot.result :=
    replaced.extension.typeOf (verified.lt_size_of_result spot.mem_code spot.defines)
  cases replaceable with
  | unread => exact result_kept
  | reshape _ operands_eq result_type operand_type
  | cast _ operands_eq result_type operand_type =>
      rw [Replacement.target_value]
      exact (replaced.extension.typeOf (verified.lt_size_of_operand spot.mem_code
        (by simp [operands_eq]))).trans (operand_type.trans result_type.symm)
  | constant _ kind_eq =>
      obtain ⟨shapes, resolution, rule⟩ := typed spot.operation spot.mem_code
      have resolved := rule.resolved
      rw [kind_eq] at resolved
      obtain ⟨_, _, -, -, -, is_result⟩ := OperationKind.resolve_reshape resolved
      obtain ⟨result, only, known⟩ := rule.result _ is_result
      obtain rfl := List.singleton_inj.mp (spot.results_eq.symm.trans only)
      exact (replaced.type _ _ _ rfl).trans known.symm
  | reshapes _ _ _ _ _ _ result_type => exact (replaced.type _ _ _ rfl).trans result_type.symm
  | equal earlier_mem _ _ results_eq value_type result_type =>
      rw [Replacement.target_value]
      exact (replaced.extension.typeOf (verified.lt_size_of_result (spot.front_subset earlier_mem)
        (by simp [results_eq]))).trans (value_type.trans result_type.symm)

/-- What is read after a replacement has the type of what was read before it. -/
theorem Spot.Replaceable.typeOf_redirect (replaceable : spot.Replaceable alike replacement)
    (replaced : spot.Replaced replacement changed) (verified : function.Verified)
    (typed : function.Typed) {operand : ValueId} (existing : operand.index < function.values.size) :
    changed.typeOf (redirect spot.result (replacement.target function) operand) =
      function.typeOf operand := by
  rw [redirect]
  split
  · rename_i same
    rw [replaceable.typeOf_target replaced verified typed, same]
  · exact replaced.extension.typeOf existing

/-- A new operation obeys its rule. -/
theorem Spot.Replaceable.typed (replaceable : spot.Replaceable alike replacement)
    (replaced : spot.Replaced replacement changed) (verified : function.Verified)
    (typed : function.Typed) {operation : Operation}
    (new : operation ∈ replacement.operations function spot.operation.location) :
    ∃ shapes resolution, operation.Typed changed shapes resolution := by
  cases replaceable with
  | unread | reshape | cast | equal => cases new
  | @constant inner shape operand literal reshaped inner_mem kind_eq operands_eq inner_kind
      inner_results reshaped_eq =>
      obtain rfl := List.mem_singleton.mp new
      obtain ⟨shapes, resolution, rule⟩ := typed spot.operation spot.mem_code
      have resolved := rule.resolved
      rw [kind_eq] at resolved
      obtain ⟨_, _, -, -, -, is_result⟩ := OperationKind.resolve_reshape resolved
      obtain ⟨shape_eq, -⟩ := TensorLiteral.withShape?_eq_some reshaped_eq
      refine ⟨[], .result shape, rfl, ?_, nofun, ?_, ?_, nofun⟩
      · exact congrArg (fun shape => Except.ok (Resolution.result shape)) shape_eq
      · rintro _ ⟨⟩
        exact ⟨⟨function.values.size⟩, rfl, replaced.type _ _ _ rfl⟩
      · rintro _ ⟨⟩
        exact rule.counted shape is_result
  | @reshapes inner shape innerShape operand origin type inner_mem kind_eq operands_eq inner_kind
      inner_operands inner_results result_type =>
      obtain rfl := List.mem_singleton.mp new
      obtain ⟨shapes, resolution, rule⟩ := typed spot.operation spot.mem_code
      obtain ⟨innerShapes, innerResolution, inner_rule⟩ :=
        typed inner (spot.front_subset inner_mem)
      have resolved := rule.resolved
      have inner_resolved := inner_rule.resolved
      rw [kind_eq] at resolved
      rw [inner_kind] at inner_resolved
      obtain ⟨middle, count, rfl, middle_count, shape_count, is_result⟩ :=
        OperationKind.resolve_reshape resolved
      obtain ⟨first, innerCount, rfl, first_count, inner_count, inner_is_result⟩ :=
        OperationKind.resolve_reshape inner_resolved
      obtain ⟨result, only, known⟩ := rule.result _ is_result
      obtain rfl := List.singleton_inj.mp (spot.results_eq.symm.trans only)
      obtain ⟨_, inner_only, inner_known⟩ := inner_rule.result _ inner_is_result
      obtain rfl := List.singleton_inj.mp (inner_results.symm.trans inner_only)
      have middle_type := rule.operands
      rw [operands_eq, List.map_singleton, List.map_singleton, List.singleton_inj,
        inner_known] at middle_type
      obtain rfl := TensorType.ranked.inj (Except.ok.inj middle_type)
      obtain rfl := Option.some.inj (middle_count.symm.trans inner_count)
      have origin_type := inner_rule.operands
      rw [inner_operands, List.map_singleton, List.map_singleton, List.singleton_inj] at origin_type
      have origin_reads : origin ∈ inner.operands := by simp [inner_operands]
      have origin_kept := replaced.extension.typeOf
        (verified.lt_size_of_operand (spot.front_subset inner_mem) origin_reads)
      refine ⟨[first], .result shape, ?_, ?_, nofun, ?_, ?_, nofun⟩
      · exact congrArg (fun type => [type]) (origin_kept.trans origin_type)
      · simp only [OperationKind.resolve, nextOperation, first_count, shape_count, if_true]
      · rintro _ ⟨⟩
        exact ⟨⟨function.values.size⟩, rfl,
          (replaced.type _ _ _ rfl).trans (result_type.symm.trans known)⟩
      · rintro _ ⟨⟩
        exact rule.counted shape is_result

/-- Reductions keep the types. -/
theorem Typed.reduction (reduction : Reduction alike function changed)
    (verified : function.Verified) (typed : function.Typed) : changed.Typed := by
  obtain ⟨spot, replacement, replaceable, replaced⟩ := reduction
  have kept : ∀ operation ∈ function.code, ∀ result ∈ operation.results,
      changed.typeOf result = function.typeOf result := fun operation member result defines =>
    replaced.extension.typeOf (verified.lt_size_of_result member defines)
  have read : ∀ operation ∈ function.code, ∀ operand ∈ operation.operands,
      changed.typeOf operand = function.typeOf operand := fun operation member operand reads =>
    replaced.extension.typeOf (verified.lt_size_of_operand member reads)
  intro operation member
  rcases replaced.mem_code member with earlier | new | ⟨before, before_mem, rfl⟩
  · have old := spot.front_subset earlier
    obtain ⟨shapes, resolution, rule⟩ := typed operation old
    exact ⟨shapes, resolution, rule.congr rfl (List.map_congr_left (read operation old)) rfl
      (kept operation old) replaced.extension.resultTypes⟩
  · exact replaceable.typed replaced verified typed new
  · have old := spot.back_subset before_mem
    obtain ⟨shapes, resolution, rule⟩ := typed before old
    refine ⟨shapes, resolution, rule.congr rfl ?_ rfl (kept before old)
      replaced.extension.resultTypes⟩
    exact List.map_map.trans (List.map_congr_left fun operand reads =>
      replaceable.typeOf_redirect replaced verified typed (verified.lt_size_of_operand old reads))

theorem Typed.reduces {count : Nat} (reduces : Reduces alike count function changed)
    (verified : function.Verified) (typed : function.Typed) : changed.Typed := by
  have each : ∀ before after : Function, Reduction alike before after →
      before.Verified ∧ before.Typed → after.Verified ∧ after.Typed := by
    rintro before after first ⟨verified, typed⟩
    exact ⟨(Reduces.single first).verified verified, typed.reduction first verified⟩
  exact (reduces.keeps each ⟨verified, typed⟩).2

end Function

end Dataflow

end TensorLang
