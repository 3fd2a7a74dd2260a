import TensorLang.Proofs.Dataflow.Solutions
import TensorLang.Proofs.Dataflow.Typing

/-!
# Typed functions have solutions

When the rules of all operations hold, no operation fails: its operands are there and have the
shapes that it needs.  Given tensors for its arguments, the whole function then evaluates, and the
shapes of its values are those of their types.
-/

namespace TensorLang

namespace Dataflow

variable {function : Function} {environment : Environment}

/-- The value is there and has the shape of its type. -/
def Shaped (function : Function) (environment : Environment) (id : ValueId) : Prop :=
  ∃ tensor, environment id = some tensor ∧ function.typeOf id = .ok (.ranked tensor.shape)

private theorem tensors_of_shaped {ids : List ValueId} {shapes : List Shape}
    (shaped : ∀ id ∈ ids, Shaped function environment id)
    (types : ids.map function.typeOf = shapes.map fun shape => .ok (.ranked shape)) :
    ∃ tensors : List Tensor, ids.map environment = tensors.map some ∧
      tensors.map Tensor.shape = shapes := by
  induction ids generalizing shapes with
  | nil =>
      obtain rfl := List.map_eq_nil_iff.mp types.symm
      exact ⟨[], rfl, rfl⟩
  | cons id rest induction =>
      cases shapes with
      | nil => cases types
      | cons shape shapes =>
          rw [List.map_cons, List.map_cons, List.cons.injEq] at types
          obtain ⟨tensor, tensor_eq, type_eq⟩ := shaped id List.mem_cons_self
          obtain ⟨tensors, tensors_eq, rfl⟩ :=
            induction (fun other member => shaped other (List.mem_cons_of_mem _ member)) types.2
          rw [type_eq] at types
          obtain rfl := TensorType.ranked.inj (Except.ok.inj types.1)
          exact ⟨tensor :: tensors, by rw [List.map_cons, tensor_eq, tensors_eq]; rfl, rfl⟩

private theorem OperationKind.exists_compute? {kind : OperationKind} {tensors : List Tensor}
    {resolution : Resolution} (computes : kind.computes = true)
    (count : ∀ count, kind.operandCount? = some count → tensors.length = count)
    (resolved : kind.resolve (tensors.map Tensor.shape) = .ok resolution) :
    ∃ tensor, kind.compute? tensors = some tensor ∧ resolution = .result tensor.shape := by
  cases kind with
  | call | leave | cast | print => cases computes
  | constant literal =>
      obtain rfl := List.length_eq_zero_iff.mp (count 0 rfl)
      exact ⟨literal.toTensor, rfl, resolve_constant resolved⟩
  | add =>
      obtain ⟨shape, shapes_eq, rfl⟩ := resolve_add resolved
      obtain ⟨left, _, rfl, left_shape, others⟩ := List.map_eq_cons_iff.mp shapes_eq
      obtain ⟨right, rfl, right_shape⟩ := List.map_eq_singleton_iff.mp others
      subst left_shape
      exact ⟨_, if_pos right_shape.symm, rfl⟩
  | multiply =>
      obtain ⟨shape, shapes_eq, rfl⟩ := resolve_multiply resolved
      obtain ⟨left, _, rfl, left_shape, others⟩ := List.map_eq_cons_iff.mp shapes_eq
      obtain ⟨right, rfl, right_shape⟩ := List.map_eq_singleton_iff.mp others
      subst left_shape
      exact ⟨_, if_pos right_shape.symm, rfl⟩
  | matmul =>
      obtain ⟨rows, inner, columns, shapes_eq, rfl⟩ := resolve_matmul resolved
      obtain ⟨left, _, rfl, left_shape, others⟩ := List.map_eq_cons_iff.mp shapes_eq
      obtain ⟨right, rfl, right_shape⟩ := List.map_eq_singleton_iff.mp others
      exact ⟨_, Tensor.matmul?_of_shapes left_shape right_shape, rfl⟩
  | transpose =>
      obtain ⟨shape, shapes_eq, rfl⟩ := resolve_transpose resolved
      obtain ⟨tensor, rfl, rfl⟩ := List.map_eq_singleton_iff.mp shapes_eq
      exact ⟨tensor.transpose, rfl, rfl⟩
  | reshape target =>
      obtain ⟨shape, size, shapes_eq, size_eq, target_eq, rfl⟩ := resolve_reshape resolved
      obtain ⟨tensor, rfl, rfl⟩ := List.map_eq_singleton_iff.mp shapes_eq
      have filled : tensor.values.length = target.size := by
        rw [tensor.filled, ← Shape.size_of_boundedSize? size_eq,
          Shape.size_of_boundedSize? target_eq]
      exact ⟨⟨target, tensor.values, filled⟩, dif_pos filled, rfl⟩

private theorem Operation.Typed.exists_effects (calls : Calls) {operation : Operation}
    {shapes : List Shape}
    {resolution : Resolution} (typed : operation.Typed function shapes resolution)
    (proper : operation.Proper)
    (shaped : ∀ operand ∈ operation.operands, Shaped function environment operand) :
    ∃ effects, operation.effects calls environment = .ok effects ∧
      ∀ id ∈ operation.results,
        Shaped function (environment.define operation.results effects.values) id := by
  obtain ⟨tensors, tensors_eq, rfl⟩ := tensors_of_shaped shaped typed.operands
  have count : ∀ count, operation.kind.operandCount? = some count → tensors.length = count := by
    intro count counted
    rw [← proper.operands count counted, ← List.length_map (f := environment), tensors_eq,
      List.length_map]
  have resolved := typed.resolved
  rw [Operation.effects, tensors_eq]
  have shaped_of_result : ∀ tensor : Tensor, resolution = .result tensor.shape →
      ∀ id ∈ operation.results,
        Shaped function (environment.define operation.results [some tensor]) id := by
    intro tensor is_result id member
    obtain ⟨result, results_eq, type_eq⟩ := typed.result tensor.shape is_result
    rw [results_eq] at member ⊢
    obtain rfl := List.mem_singleton.mp member
    exact ⟨tensor, Environment.define_singleton environment id _, type_eq⟩
  cases computes : operation.kind.computes with
  | true =>
      obtain ⟨tensor, tensor_eq, is_result⟩ :=
        OperationKind.exists_compute? computes count resolved
      exact ⟨_, (OperationKind.perform_eq_ok_iff computes).mpr
        ⟨tensors, tensor, rfl, tensor_eq, rfl⟩, shaped_of_result tensor is_result⟩
  | false =>
      have returned := proper.results
      cases kind_eq : operation.kind with
      | constant | add | multiply | matmul | transpose | reshape =>
          rw [kind_eq] at computes
          cases computes
      | call callee =>
          have no_call := typed.callee?_eq_none
          rw [kind_eq] at no_call
          cases no_call
      | cast =>
          rw [kind_eq] at resolved
          obtain ⟨shape, shapes_eq, is_result⟩ := OperationKind.resolve_cast resolved
          obtain ⟨tensor, rfl, rfl⟩ := List.map_eq_singleton_iff.mp shapes_eq
          exact ⟨_, rfl, shaped_of_result tensor is_result⟩
      | leave =>
          rw [kind_eq] at returned
          rw [List.length_eq_zero_iff.mp returned]
          exact ⟨_, rfl, by simp⟩
      | print =>
          rw [kind_eq] at returned
          rw [List.length_eq_zero_iff.mp returned]
          refine ⟨⟨tensors, []⟩, ?_, by simp⟩
          rw [OperationKind.perform, present_eq_ok_iff.mpr rfl]
          rfl

/-- Operations that obey their rules have a solution, one operation after the other.  Nothing is
asked of values that no operation reads. -/
theorem exists_shaped_solution (calls : Calls) {code : List Operation} {available : List ValueId}
    (typed : ∀ operation ∈ code, ∃ shapes resolution, operation.Typed function shapes resolution)
    (proper : ∀ operation ∈ code, operation.Proper)
    (dominated : Dominated available code)
    (distinct : (available ++ code.flatMap Operation.results).Nodup)
    (shaped : ∀ operation ∈ code, ∀ operand ∈ operation.operands, operand ∈ available →
      Shaped function environment operand) :
    ∃ assignment, Solves calls assignment code ∧
      (∀ id ∈ code.flatMap Operation.results, Shaped function assignment id) ∧
      ∀ id, id ∉ code.flatMap Operation.results → assignment id = environment id := by
  induction code generalizing available environment with
  | nil => exact ⟨environment, by simp [Solves], by simp, fun _ _ => rfl⟩
  | cons operation rest induction =>
      obtain ⟨shapes, resolution, first_typed⟩ := typed operation List.mem_cons_self
      obtain ⟨effects, effects_eq, results_shaped⟩ := first_typed.exists_effects calls
        (proper operation List.mem_cons_self) fun operand reads =>
          shaped operation List.mem_cons_self operand reads (dominated.1 operand reads)
      rw [List.flatMap_cons, ← List.append_assoc] at distinct
      obtain ⟨-, -, apart⟩ := List.nodup_append.mp distinct
      obtain ⟨-, -, fresh⟩ := List.nodup_append.mp (List.nodup_append.mp distinct).1
      have kept : ∀ id ∈ available,
          environment.define operation.results effects.values id = environment id :=
        fun id member => Environment.define_of_notMem fun defined => fresh id member id defined rfl
      have shaped_later : ∀ other ∈ rest, ∀ operand ∈ other.operands,
          operand ∈ available ++ operation.results →
          Shaped function (environment.define operation.results effects.values) operand := by
        intro other member operand reads place
        rcases List.mem_append.mp place with old | new
        · rw [Shaped, kept operand old]
          exact shaped other (List.mem_cons_of_mem _ member) operand reads old
        · exact results_shaped operand new
      obtain ⟨assignment, solves, rest_shaped, agree⟩ := induction
        (fun other member => typed other (List.mem_cons_of_mem _ member))
        (fun other member => proper other (List.mem_cons_of_mem _ member)) dominated.2 distinct
        shaped_later
      have early : ∀ id ∈ available ++ operation.results,
          assignment id = environment.define operation.results effects.values id :=
        fun id member => agree id fun later => apart id member id later rfl
      have read : operation.operands.map assignment = operation.operands.map environment :=
        List.map_congr_left fun operand member => by
          have available_operand := dominated.1 operand member
          rw [early operand (List.mem_append_left _ available_operand),
            kept operand available_operand]
      refine ⟨assignment, List.forall_mem_cons.mpr ⟨⟨effects, ?_, ?_⟩, solves⟩, ?_, ?_⟩
      · rw [Operation.effects, read]
        exact effects_eq
      · intro id member
        rw [early id (List.mem_append_right _ member)]
        exact Environment.define_congr member
      · intro id member
        rw [List.flatMap_cons] at member
        rcases List.mem_append.mp member with first | later
        · rw [Shaped, early id (List.mem_append_right _ first)]
          exact results_shaped id first
        · exact rest_shaped id later
      · intro id absent
        rw [List.flatMap_cons, List.mem_append, not_or] at absent
        rw [agree id absent.2, Environment.define_of_notMem absent.1]

/-! ### Models -/

/-- The assignment solves all operations, and what they read and define is there in the shapes of
its types. -/
structure Models (calls : Calls) (assignment : Environment) (function : Function) : Prop where
  /-- All equations hold. -/
  solves : Solves calls assignment function.code
  /-- Operands have the shapes of their types. -/
  read : ∀ operation ∈ function.code, ∀ operand ∈ operation.operands,
    Shaped function assignment operand
  /-- Results have the shapes of their types. -/
  defined : ∀ operation ∈ function.code, ∀ result ∈ operation.results,
    Shaped function assignment result

/-- The values may be passed for the arguments: an argument whose shape is known takes a tensor of
this shape, and any other argument whatever there is. -/
structure Function.Accepts (function : Function) (values : List (Option Tensor)) : Prop where
  /-- There is a value for each argument. -/
  count : values.length = function.arguments.length
  /-- Known shapes fit. -/
  fits : ∀ (position : Nat) argument shape, function.arguments[position]? = some argument →
    function.typeOf argument = .ok (.ranked shape) →
      ∃ tensor : Tensor, values[position]? = some (some tensor) ∧ tensor.shape = shape

/-- A typed function has a model that starts with the values passed for its arguments. -/
theorem Function.Typed.exists_models (calls : Calls) (typed : function.Typed)
    (wellFormed : function.WellFormed) (proper : function.Proper) {values : List (Option Tensor)}
    (accepts : function.Accepts values) :
    ∃ assignment, function.arguments.map assignment = values ∧
    Models calls assignment function := by
  have distinct := wellFormed.distinct
  obtain ⟨arguments_distinct, -, apart⟩ := List.nodup_append.mp distinct
  -- What is read has a known type, so that an argument that is read was passed a tensor.
  have passed : ∀ operation ∈ function.code, ∀ operand ∈ operation.operands,
      operand ∈ function.arguments →
      Shaped function (Environment.empty.define function.arguments values) operand := by
    intro operation member operand reads argument
    obtain ⟨shapes, resolution, rule⟩ := typed operation member
    obtain ⟨place, found⟩ := List.mem_iff_getElem?.mp reads
    obtain ⟨shape, -, known⟩ := rule.typeOf_operand found
    obtain ⟨position, argument_eq⟩ := List.mem_iff_getElem?.mp argument
    obtain ⟨tensor, value_eq, rfl⟩ := accepts.fits position operand shape argument_eq known
    refine ⟨tensor, ?_, known⟩
    rw [Environment.define_of_getElem? arguments_distinct argument_eq, value_eq]
    rfl
  obtain ⟨assignment, solves, shaped, kept⟩ :=
    exists_shaped_solution calls typed proper wellFormed.dominated distinct passed
  have argument_kept : ∀ id ∈ function.arguments,
      assignment id = Environment.empty.define function.arguments values id :=
    fun id argument => kept id fun result => apart id argument id result rfl
  refine ⟨assignment, ?_, solves, fun operation member operand reads => ?_,
    fun operation member result defines =>
      shaped result (List.mem_flatMap.mpr ⟨operation, member, defines⟩)⟩
  · rw [List.map_congr_left argument_kept]
    exact Environment.map_define arguments_distinct accepts.count
  · rcases List.mem_append.mp (wellFormed.dominated.operand_mem member reads) with
      argument | result
    · rw [Shaped, argument_kept operand argument]
      exact passed operation member operand reads argument
    · exact shaped operand result

end Dataflow

end TensorLang
