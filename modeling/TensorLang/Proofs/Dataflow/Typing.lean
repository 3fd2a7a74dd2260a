import TensorLang.Dataflow.Inference
import TensorLang.Proofs.Dataflow.Editing

/-!
# Inferred types

Inference changes nothing but types, and a type only from unranked to ranked.  When it ends without
an error, the rule of every operation holds: the type of its result follows from those of its
operands.
-/

namespace TensorLang

namespace Dataflow

/-! ### Rules -/

namespace OperationKind

variable {shapes : List Shape} {resolution : Resolution}

theorem resolve_constant {literal : TensorLiteral}
    (resolved : (constant literal).resolve shapes = .ok resolution) :
    resolution = .result literal.shape :=
  (Except.ok.inj resolved).symm

/-- The operands of a sum have one shape, and so has the sum. -/
theorem resolve_add (resolved : add.resolve shapes = .ok resolution) :
    ∃ shape, shapes = [shape, shape] ∧ resolution = .result shape := by
  simp only [resolve] at resolved
  split at resolved
  · split at resolved
    · rename_i left right same
      subst same
      exact ⟨left, rfl, (Except.ok.inj resolved).symm⟩
    · cases resolved
  · cases resolved

theorem resolve_multiply (resolved : multiply.resolve shapes = .ok resolution) :
    ∃ shape, shapes = [shape, shape] ∧ resolution = .result shape :=
  resolve_add resolved

theorem resolve_matmul (resolved : matmul.resolve shapes = .ok resolution) :
    ∃ rows inner columns, shapes = [⟨[rows, inner]⟩, ⟨[inner, columns]⟩] ∧
      resolution = .result ⟨[rows, columns]⟩ := by
  simp only [resolve] at resolved
  split at resolved
  · rename_i left right
    obtain ⟨left⟩ := left
    obtain ⟨right⟩ := right
    split at resolved
    · rename_i rows inner height columns left_eq right_eq
      simp only at left_eq right_eq
      subst left_eq right_eq
      split at resolved
      · rename_i same
        subst same
        exact ⟨rows, inner, columns, rfl, (Except.ok.inj resolved).symm⟩
      · cases resolved
    · cases resolved
  · cases resolved

theorem resolve_transpose (resolved : transpose.resolve shapes = .ok resolution) :
    ∃ shape, shapes = [shape] ∧ resolution = .result shape.reverse := by
  simp only [resolve] at resolved
  split at resolved
  · exact ⟨_, rfl, (Except.ok.inj resolved).symm⟩
  · cases resolved

theorem resolve_reshape {target : Shape}
    (resolved : (reshape target).resolve shapes = .ok resolution) :
    ∃ shape count, shapes = [shape] ∧ shape.boundedSize? = some count ∧
      target.boundedSize? = some count ∧ resolution = .result target := by
  simp only [resolve] at resolved
  split at resolved
  · split at resolved
    · rename_i found wanted found_eq wanted_eq
      split at resolved
      · rename_i same
        subst same
        exact ⟨_, found, rfl, found_eq, wanted_eq, (Except.ok.inj resolved).symm⟩
      · cases resolved
    · cases resolved
  · cases resolved

theorem resolve_cast (resolved : cast.resolve shapes = .ok resolution) :
    ∃ shape, shapes = [shape] ∧ resolution = .result shape := by
  simp only [resolve] at resolved
  split at resolved
  · exact ⟨_, rfl, (Except.ok.inj resolved).symm⟩
  · cases resolved

end OperationKind

/-! ### Typed functions -/

/-- The rule of the operation gives the type of its result for the types of its operands. -/
structure Operation.Typed (function : Function) (operation : Operation) (shapes : List Shape)
    (resolution : Resolution) : Prop where
  /-- The types of the operands. -/
  operands : operation.operands.map function.typeOf =
    shapes.map fun shape => .ok (.ranked shape)
  /-- The rule. -/
  resolved : operation.kind.resolve shapes = .ok resolution
  /-- Something is known about the result. -/
  known : resolution ≠ .unknown
  /-- The type of the result. -/
  result : ∀ shape, resolution = .result shape →
    ∃ result, operation.results = [result] ∧ function.typeOf result = .ok (.ranked shape)
  /-- The elements of the result can be counted. -/
  counted : ∀ shape, resolution = .result shape → shape.boundedSize?.isSome = true
  /-- The signature declares what is returned. -/
  returned : ∀ returned, resolution = .returned returned → ∀ (position : Nat) shape,
    returned[position]? = some shape → function.resultTypes[position]? = some (.ranked shape)

/-- The rules of all operations hold. -/
def Function.Typed (function : Function) : Prop :=
  ∀ operation ∈ function.code, ∃ shapes resolution, operation.Typed function shapes resolution

/-- The change is one of types, and only of those that are not known. -/
structure Refines (before after : Function) : Prop where
  /-- The name stays. -/
  name : after.name = before.name
  /-- The arguments stay. -/
  arguments : after.arguments = before.arguments
  /-- The body stays. -/
  body : after.body = before.body
  /-- The operations stay. -/
  operations : after.operations = before.operations
  /-- The users stay. -/
  uses : after.uses = before.uses
  /-- No value is made or lost. -/
  size : after.values.size = before.values.size
  /-- Values are defined as before. -/
  definitions : ∀ id, after.definition? id = before.definition? id
  /-- Known types stay. -/
  types : ∀ id shape, before.typeOf id = .ok (.ranked shape) →
    after.typeOf id = .ok (.ranked shape)
  /-- As many values are returned. -/
  arity : after.resultTypes.length = before.resultTypes.length
  /-- Known result types stay. -/
  resultTypes : ∀ (position : Nat) shape, before.resultTypes[position]? = some (.ranked shape) →
    after.resultTypes[position]? = some (.ranked shape)

/-- The types of all values but the results of the given operations stay. -/
def Confined (ids : List OperationId) (before after : Function) : Prop :=
  ∀ value, (∀ id ∈ ids, ∀ operation, before.operation? id = some operation →
    value ∉ operation.results) → after.typeOf value = before.typeOf value

namespace Operation.Typed

variable {function : Function} {operation : Operation} {shapes : List Shape}
variable {resolution : Resolution}

/-- The type of an operand. -/
theorem typeOf_operand (typed : operation.Typed function shapes resolution) {position : Nat}
    {operand : ValueId} (found : operation.operands[position]? = some operand) :
    ∃ shape, shapes[position]? = some shape ∧ function.typeOf operand = .ok (.ranked shape) := by
  have types := congrArg (·[position]?) typed.operands
  simp only [List.getElem?_map, found, Option.map_some] at types
  obtain ⟨shape, shape_eq, type_eq⟩ := Option.map_eq_some_iff.mp types.symm
  exact ⟨shape, shape_eq, type_eq.symm⟩

/-- Calls have no rule. -/
theorem callee?_eq_none (typed : operation.Typed function shapes resolution) :
    operation.kind.callee? = none := by
  have resolved := typed.resolved
  cases kind_eq : operation.kind with
  | call callee =>
      rw [kind_eq] at resolved
      exact absurd (Except.ok.inj resolved).symm typed.known
  | _ => rfl

/-- There is one operand for each shape. -/
theorem length_operands (typed : operation.Typed function shapes resolution) :
    operation.operands.length = shapes.length := by
  have lengths := congrArg List.length typed.operands
  rwa [List.length_map, List.length_map] at lengths

end Operation.Typed

namespace Refines

variable {first second third : Function}

theorem refl (function : Function) : Refines function function :=
  ⟨rfl, rfl, rfl, rfl, rfl, rfl, fun _ => rfl, fun _ _ known => known, rfl, fun _ _ known => known⟩

theorem trans (early : Refines first second) (late : Refines second third) :
    Refines first third where
  name := late.name.trans early.name
  arguments := late.arguments.trans early.arguments
  body := late.body.trans early.body
  operations := late.operations.trans early.operations
  uses := late.uses.trans early.uses
  size := late.size.trans early.size
  definitions := fun id => (late.definitions id).trans (early.definitions id)
  types := fun id shape known => late.types id shape (early.types id shape known)
  arity := late.arity.trans early.arity
  resultTypes := fun position shape known =>
    late.resultTypes position shape (early.resultTypes position shape known)

theorem operation?_eq (refines : Refines first second) (id : OperationId) :
    second.operation? id = first.operation? id := by
  rw [Function.operation?, Function.operation?, refines.operations]

theorem code_eq (refines : Refines first second) : second.code = first.code := by
  rw [Function.code, Function.code, refines.body]
  exact congrArg (List.filterMap · first.body) (funext refines.operation?_eq)

theorem proper (refines : Refines first second) (proper : first.Proper) : second.Proper := by
  rw [Function.Proper, refines.code_eq]
  exact proper

theorem evaluate_eq (refines : Refines first second) (calls : Calls)
    (values : List (Option Tensor)) :
    second.evaluate calls values = first.evaluate calls values := by
  rw [Function.evaluate, Function.evaluate, refines.code_eq, refines.arguments]

theorem typed {operation : Operation} {shapes : List Shape} {resolution : Resolution}
    (refines : Refines first second) (typed : operation.Typed first shapes resolution) :
    operation.Typed second shapes resolution := by
  refine ⟨?_, typed.resolved, typed.known, fun shape is_result => ?_, typed.counted,
    fun returned is_returned position shape found =>
      refines.resultTypes position shape (typed.returned returned is_returned position shape found)⟩
  · rw [← typed.operands]
    refine List.map_congr_left fun operand member => ?_
    have type_mem := List.mem_map_of_mem (f := first.typeOf) member
    rw [typed.operands] at type_mem
    obtain ⟨shape, -, type_eq⟩ := List.mem_map.mp type_mem
    rw [← type_eq]
    exact refines.types operand shape type_eq.symm
  · obtain ⟨result, results_eq, type_eq⟩ := typed.result shape is_result
    exact ⟨result, results_eq, refines.types result shape type_eq⟩

end Refines

namespace Function

variable {function : Function}

theorem typeOf_eq_ok_iff {id : ValueId} {type : TensorType} :
    function.typeOf id = .ok type ↔
      ∃ value, function.values.get? id = some value ∧ value.type = type := by
  simp only [typeOf, Except.bind_eq_ok_iff, value_eq_ok_iff, Except.pure_eq_ok_iff]

theorem exists_typeOf {id : ValueId} (existing : id.index < function.values.size) :
    ∃ type, function.typeOf id = .ok type := by
  cases found : function.values.get? id with
  | none => exact absurd existing (Nat.not_lt.mpr ((Arena.get?_eq_none_iff _ _).mp found))
  | some value => exact ⟨value.type, typeOf_eq_ok_iff.mpr ⟨value, found, rfl⟩⟩

/-- A new type says nothing about definitions. -/
theorem definition?_withType (id other : ValueId) (type : TensorType) :
    (function.withType id type).definition? other = function.definition? other := by
  rw [definition?, definition?, withType, Arena.get?_modify]
  split
  · rw [Option.map_map]
    rfl
  · rfl

theorem typeOf_withType_of_ne {id other : ValueId} {type : TensorType} (apart : other ≠ id) :
    (function.withType id type).typeOf other = function.typeOf other := by
  rw [typeOf, typeOf, value, value, withType, Arena.get?_modify, if_neg apart]

/-- A value whose type is not known may get one. -/
theorem refines_withType {id : ValueId} {shape : Shape}
    (unknown : function.typeOf id = .ok .unranked) :
    Refines function (function.withType id (.ranked shape)) ∧
      (function.withType id (.ranked shape)).typeOf id = .ok (.ranked shape) := by
  have changed : ∀ other, (function.withType id (.ranked shape)).values.get? other =
      if other = id then (function.values.get? other).map fun value =>
        { value with type := .ranked shape } else function.values.get? other :=
    fun other => Arena.get?_modify _ _ _ _
  refine ⟨⟨rfl, rfl, rfl, rfl, rfl, Arena.size_modify _ _ _,
    fun other => definition?_withType id other _, fun other known type_eq => ?_, rfl,
    fun _ _ known => known⟩, ?_⟩
  · have apart : other ≠ id := by
      rintro rfl
      rw [unknown] at type_eq
      cases type_eq
    rw [typeOf_withType_of_ne apart, type_eq]
  · obtain ⟨value, value_eq, -⟩ := typeOf_eq_ok_iff.mp unknown
    rw [typeOf_eq_ok_iff, changed, if_pos rfl, value_eq]
    exact ⟨_, rfl, rfl⟩

/-- A type of the signature that is not known may become known. -/
theorem refines_setReturned {position : Nat} {type : TensorType}
    (unknown : function.resultTypes[position]? = some .unranked) :
    Refines function { function with resultTypes := function.resultTypes.set position type } := by
  refine ⟨rfl, rfl, rfl, rfl, rfl, rfl, fun _ => rfl, fun _ _ known => known, List.length_set,
    fun other shape known => ?_⟩
  have apart : position ≠ other := by
    rintro rfl
    rw [unknown] at known
    cases known
  exact (List.getElem?_set_ne apart).trans known

end Function

namespace Inference

variable {before after : Function} {operation : Operation}

theorem allRanked_eq_ok {function : Function} {values : List ValueId}
    (ranked : allRanked function values = .ok true) :
    ∀ value ∈ values, ∃ shape, function.typeOf value = .ok (.ranked shape) := by
  rw [allRanked] at ranked
  induction values with
  | nil => simp
  | cons value rest induction =>
      simp only [List.allM, Except.bind_eq_ok_iff, Except.pure_eq_ok_iff] at ranked
      obtain ⟨known, ⟨type, type_eq, rfl⟩, others⟩ := ranked
      intro other member
      cases type with
      | unranked => cases others
      | ranked shape =>
          rcases List.mem_cons.mp member with rfl | later
          · exact ⟨shape, type_eq⟩
          · exact induction others other later

theorem map_typeOf_of_ranked {function : Function} {values : List ValueId}
    {types : List TensorType} (types_eq : values.map function.typeOf = types.map .ok)
    (ranked : ∀ value ∈ values, ∃ shape, function.typeOf value = .ok (.ranked shape)) :
    values.map function.typeOf =
      (types.filterMap TensorType.shape?).map fun shape => .ok (.ranked shape) := by
  induction values generalizing types with
  | nil =>
      obtain rfl := List.map_eq_nil_iff.mp types_eq.symm
      rfl
  | cons value rest induction =>
      cases types with
      | nil => cases types_eq
      | cons type types =>
          rw [List.map_cons, List.map_cons, List.cons.injEq] at types_eq
          obtain ⟨shape, shape_eq⟩ := ranked value List.mem_cons_self
          obtain rfl := Except.ok.inj (types_eq.1.symm.trans shape_eq)
          have others := induction types_eq.2
            fun other member => ranked other (List.mem_cons_of_mem _ member)
          rw [List.map_cons, shape_eq, others]
          rfl

theorem mismatch_ne_ok {α : Type} {reason : String} {result : α} :
    (mismatch operation reason : Outcome α) ≠ .ok result := by
  intro success
  cases success

/-- The result of an operation gets its shape. -/
theorem setResult_eq_ok {shape : Shape}
    (success : setResult operation shape before = .ok () after) :
    Refines before after ∧ shape.boundedSize?.isSome = true ∧
      (∃ result, operation.results = [result] ∧ after.typeOf result = .ok (.ranked shape)) ∧
      (∀ value, value ∉ operation.results → after.typeOf value = before.typeOf value) ∧
      after.resultTypes = before.resultTypes := by
  simp only [setResult] at success
  split at success
  · simp only [EStateM.bind_eq_ok_iff, Edit.lift_eq_ok_iff] at success
    obtain ⟨_, _, ⟨refused, -⟩, -⟩ := success
    exact absurd refused mismatch_ne_ok
  · rename_i counted
    simp only [EStateM.bind_eq_ok_iff, Edit.lift_eq_ok_iff, Edit.query_eq_ok_iff] at success
    obtain ⟨result, _, ⟨result_eq, rfl⟩, type, _, ⟨type_eq, rfl⟩, success⟩ := success
    have results_eq := Operation.result_eq_ok_iff.mp result_eq
    have counted := Option.isSome_iff_ne_none.mpr counted
    cases type with
    | ranked declared =>
        simp only at success
        split at success
        · exact absurd (Edit.lift_eq_ok_iff.mp success).1 mismatch_ne_ok
        · rename_i same
          obtain rfl := Decidable.not_not.mp same
          obtain ⟨-, rfl⟩ := EStateM.pure_eq_ok_iff.mp success
          exact ⟨Refines.refl _, counted, ⟨result, results_eq, type_eq⟩, fun _ _ => rfl, rfl⟩
    | unranked =>
        obtain rfl := Edit.setType_eq_ok success
        obtain ⟨refines, known⟩ := Function.refines_withType type_eq
        refine ⟨refines, counted, ⟨result, results_eq, known⟩, fun value apart => ?_, rfl⟩
        rw [results_eq, List.mem_singleton] at apart
        exact Function.typeOf_withType_of_ne apart

/-- A result of the signature gets its shape. -/
theorem setReturned_eq_ok {location : Location} {shape : Shape} {position : Nat}
    (success : setReturned location shape position before = .ok () after) :
    Refines before after ∧ position < before.resultTypes.length ∧
      after.resultTypes = before.resultTypes.set position (.ranked shape) ∧
      after.values = before.values := by
  simp only [setReturned, EStateM.bind_eq_ok_iff, EStateM.get_eq_ok_iff,
    Edit.lift_eq_ok_iff] at success
  obtain ⟨_, _, ⟨rfl, rfl⟩, type, _, ⟨type_eq, rfl⟩, success⟩ := success
  have type_eq := Outcome.promised_eq_ok_iff.mp type_eq
  obtain ⟨inside, type_at⟩ := List.getElem?_eq_some_iff.mp type_eq
  cases type with
  | ranked declared =>
      simp only at success
      split at success
      · exact absurd success EStateM.throw_ne_ok
      · rename_i same
        obtain rfl := Decidable.not_not.mp same
        obtain ⟨-, rfl⟩ := EStateM.pure_eq_ok_iff.mp success
        exact ⟨Refines.refl _, inside, by rw [← type_at, List.set_getElem_self], rfl⟩
  | unranked =>
      obtain rfl := EStateM.set_eq_ok_iff.mp success
      exact ⟨Function.refines_setReturned type_eq, inside, rfl, rfl⟩

theorem setAllReturned_eq_ok {location : Location} {shapes : List (Shape × Nat)}
    (success : (shapes.forM fun (shape, position) => setReturned location shape position) before =
      .ok () after) :
    Refines before after ∧ after.values = before.values ∧ ∀ shape position,
      (shape, position) ∈ shapes → after.resultTypes[position]? = some (.ranked shape) := by
  induction shapes generalizing before with
  | nil =>
      obtain ⟨-, rfl⟩ := EStateM.pure_eq_ok_iff.mp success
      exact ⟨Refines.refl _, rfl, by simp⟩
  | cons entry rest induction =>
      rw [List.forM_eq_forM, List.forM_cons, EStateM.bind_eq_ok_iff] at success
      obtain ⟨_, middle, first, success⟩ := success
      obtain ⟨early, inside, types_eq, early_values⟩ := setReturned_eq_ok first
      obtain ⟨late, late_values, others⟩ := induction success
      refine ⟨early.trans late, late_values.trans early_values, fun shape position member => ?_⟩
      rcases List.mem_cons.mp member with rfl | later
      · refine late.resultTypes _ _ ?_
        rw [types_eq, List.getElem?_set_self inside]
      · exact others shape position later

/-- An operation that is resolved obeys its rule. -/
theorem resolveOperation_eq_ok {id : OperationId} {resolved : Bool}
    (success : resolveOperation id before = .ok resolved after) :
    Refines before after ∧ Confined [id] before after ∧
      (resolved = true → ∀ operation, before.operation? id = some operation →
        ∃ shapes resolution, operation.Typed after shapes resolution) := by
  simp only [resolveOperation, EStateM.bind_eq_ok_iff, Edit.query_eq_ok_iff] at success
  obtain ⟨operation, _, ⟨operation_eq, rfl⟩, ranked, _, ⟨ranked_eq, rfl⟩, success⟩ := success
  have operation_eq := Outcome.promised_eq_ok_iff.mp operation_eq
  cases ranked with
  | false =>
      obtain ⟨rfl, rfl⟩ := EStateM.pure_eq_ok_iff.mp success
      exact ⟨Refines.refl _, fun _ _ => rfl, fun absurd => by cases absurd⟩
  | true =>
      simp only [Bool.not_true, Bool.false_eq_true, if_false, EStateM.bind_eq_ok_iff,
        Edit.query_eq_ok_iff, Except.mapM_eq_ok_iff] at success
      obtain ⟨types, _, ⟨types_eq, rfl⟩, success⟩ := success
      have operands := map_typeOf_of_ranked types_eq (allRanked_eq_ok ranked_eq)
      cases resolution_eq : operation.kind.resolve (types.filterMap TensorType.shape?) with
      | error reason =>
          rw [resolution_eq] at success
          exact absurd (Edit.lift_eq_ok_iff.mp success).1 mismatch_ne_ok
      | ok resolution =>
          rw [resolution_eq] at success
          have operands_after : ∀ {final}, Refines before final →
              operation.operands.map final.typeOf =
                (types.filterMap TensorType.shape?).map fun shape => .ok (.ranked shape) := by
            intro final refines
            rw [← operands]
            refine List.map_congr_left fun operand member => ?_
            obtain ⟨shape, shape_eq⟩ := allRanked_eq_ok ranked_eq operand member
            rw [shape_eq, refines.types operand shape shape_eq]
          have only : ∀ {final}, operation.Typed final (types.filterMap TensorType.shape?)
              resolution → resolved = true → ∀ other, before.operation? id = some other →
              ∃ shapes resolution, other.Typed final shapes resolution := by
            intro final typed _ other other_eq
            obtain rfl := Option.some.inj (operation_eq.symm.trans other_eq)
            exact ⟨_, resolution, typed⟩
          cases resolution with
          | result shape =>
              obtain ⟨_, middle, set_eq, done⟩ := EStateM.bind_eq_ok_iff.mp success
              obtain ⟨rfl, rfl⟩ := EStateM.pure_eq_ok_iff.mp done
              obtain ⟨refines, counted, result, others, -⟩ := setResult_eq_ok set_eq
              refine ⟨refines, fun value apart => others value
                (apart id (List.mem_singleton_self _) operation operation_eq), only ?_⟩
              refine ⟨operands_after refines, resolution_eq, by simp, ?_, ?_, by simp⟩
              · intro other same
                obtain rfl := Resolution.result.inj same
                exact result
              · intro other same
                obtain rfl := Resolution.result.inj same
                exact counted
          | returned shapes =>
              obtain ⟨_, middle, set_eq, done⟩ := EStateM.bind_eq_ok_iff.mp success
              obtain ⟨rfl, rfl⟩ := EStateM.pure_eq_ok_iff.mp done
              obtain ⟨refines, values_eq, each⟩ := setAllReturned_eq_ok set_eq
              refine ⟨refines, fun value _ => ?_, only ?_⟩
              · rw [Function.typeOf, Function.typeOf, Function.value, Function.value, values_eq]
              refine ⟨operands_after refines, resolution_eq, by simp, by simp, by simp, ?_⟩
              intro others same position shape found
              obtain rfl := Resolution.returned.inj same
              exact each shape position (List.mk_mem_zipIdx_iff_getElem?.mpr found)
          | settled =>
              obtain ⟨rfl, rfl⟩ := EStateM.pure_eq_ok_iff.mp success
              exact ⟨Refines.refl _, fun _ _ => rfl, only ⟨operands_after (Refines.refl _),
                resolution_eq, by simp, by simp, by simp, by simp⟩⟩
          | unknown =>
              obtain ⟨rfl, rfl⟩ := EStateM.pure_eq_ok_iff.mp success
              exact ⟨Refines.refl _, fun _ _ => rfl, fun absurd => by cases absurd⟩

/-- Of the operations that are scanned, those that are not left unresolved obey their rules. -/
theorem scan_eq_ok {ids pending : List OperationId}
    (success : scan ids before = .ok pending after) :
    Refines before after ∧ Confined ids before after ∧ pending ⊆ ids ∧
      ∀ id ∈ ids, id ∈ pending ∨ ∀ operation, before.operation? id = some operation →
        ∃ shapes resolution, operation.Typed after shapes resolution := by
  induction ids generalizing before pending with
  | nil =>
      obtain ⟨rfl, rfl⟩ := EStateM.pure_eq_ok_iff.mp success
      exact ⟨Refines.refl _, fun _ _ => rfl, List.Subset.refl _, by simp⟩
  | cons id rest induction =>
      simp only [scan, EStateM.bind_eq_ok_iff, EStateM.pure_eq_ok_iff] at success
      obtain ⟨resolved, middle, first, others, last, scanned, rfl, rfl⟩ := success
      obtain ⟨early, early_confined, typed⟩ := resolveOperation_eq_ok first
      obtain ⟨late, late_confined, subset, each⟩ := induction scanned
      have confined : Confined (id :: rest) before last := fun value apart =>
        (late_confined value fun other member operation operation_eq =>
          apart other (List.mem_cons_of_mem _ member) operation
            (by rwa [early.operation?_eq] at operation_eq)).trans
          (early_confined value fun other member =>
            apart other (List.mem_singleton.mp member ▸ List.mem_cons_self))
      refine ⟨early.trans late, confined, ?_, ?_⟩
      · cases resolved with
        | true => exact List.subset_cons_of_subset _ subset
        | false => exact List.cons_subset_cons _ subset
      · intro other member
        rcases List.mem_cons.mp member with rfl | later
        · cases resolved with
          | true =>
              refine .inr fun operation operation_eq => ?_
              obtain ⟨shapes, resolution, holds⟩ := typed rfl operation operation_eq
              exact ⟨shapes, resolution, late.typed holds⟩
          | false => exact .inl List.mem_cons_self
        · rcases each other later with left | typed_later
          · cases resolved with
            | true => exact .inl left
            | false => exact .inl (List.mem_cons_of_mem _ left)
          · refine .inr fun operation operation_eq => typed_later operation ?_
            rw [early.operation?_eq, operation_eq]

theorem settle_eq_ok {bound : Nat} {ids pending : List OperationId}
    (success : settle bound ids before = .ok pending after) :
    Refines before after ∧ Confined ids before after ∧ ∀ id ∈ ids, id ∈ pending ∨
      ∀ operation, before.operation? id = some operation →
        ∃ shapes resolution, operation.Typed after shapes resolution := by
  induction bound generalizing before ids with
  | zero =>
      obtain ⟨rfl, rfl⟩ := EStateM.pure_eq_ok_iff.mp success
      exact ⟨Refines.refl _, fun _ _ => rfl, fun _ member => .inl member⟩
  | succ bound induction =>
      simp only [settle, EStateM.bind_eq_ok_iff] at success
      obtain ⟨rest, middle, scanned, success⟩ := success
      obtain ⟨early, early_confined, subset, each⟩ := scan_eq_ok scanned
      split at success
      · obtain ⟨late, late_confined, others⟩ := induction success
        refine ⟨early.trans late, fun value apart => ?_, fun id member => ?_⟩
        · refine (late_confined value fun id member operation operation_eq => ?_).trans
            (early_confined value apart)
          rw [early.operation?_eq] at operation_eq
          exact apart id (subset member) operation operation_eq
        · rcases each id member with left | typed
          · refine (others id left).imp_right fun typed operation operation_eq =>
              typed operation ?_
            rw [early.operation?_eq, operation_eq]
          · refine .inr fun operation operation_eq => ?_
            obtain ⟨shapes, resolution, holds⟩ := typed operation operation_eq
            exact ⟨shapes, resolution, late.typed holds⟩
      · obtain ⟨rfl, rfl⟩ := EStateM.pure_eq_ok_iff.mp success
        exact ⟨early, early_confined, each⟩

theorem settle_of_inferTypes (success : Edit.inferTypes before = .ok () after) :
    settle before.body.length before.body before = .ok [] after := by
  simp only [Edit.inferTypes, EStateM.bind_eq_ok_iff, EStateM.get_eq_ok_iff] at success
  obtain ⟨_, _, ⟨rfl, rfl⟩, pending, middle, settled, success⟩ := success
  cases pending with
  | nil =>
      obtain ⟨-, rfl⟩ := EStateM.pure_eq_ok_iff.mp success
      exact settled
  | cons id rest =>
      simp only [EStateM.bind_eq_ok_iff] at success
      obtain ⟨_, _, -, refused⟩ := success
      exact absurd refused EStateM.throw_ne_ok

/-- After inference all operations obey their rules. -/
theorem inferTypes_eq_ok (success : Edit.inferTypes before = .ok () after) :
    Refines before after ∧ after.Typed := by
  obtain ⟨refines, -, each⟩ := settle_eq_ok (settle_of_inferTypes success)
  refine ⟨refines, fun operation member => ?_⟩
  rw [refines.code_eq] at member
  obtain ⟨id, id_mem, operation_eq⟩ := Function.mem_code_iff.mp member
  rcases each id id_mem with left | typed
  · cases left
  · exact typed operation operation_eq

/-- Inference gives types to results only. -/
theorem confined_of_inferTypes (success : Edit.inferTypes before = .ok () after) :
    Confined before.body before after :=
  (settle_eq_ok (settle_of_inferTypes success)).2.1

end Inference

end Dataflow

end TensorLang
