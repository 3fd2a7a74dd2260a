import TensorLang.Proofs.Dataflow.Typing
import TensorLang.Proofs.Dataflow.Verified
import TensorLang.Proofs.Tensor.Indices

/-!
# Shape inference is sound and complete

The shape rules of the operations are equations between the shapes of operands and results.
Inference succeeds just if there are shapes that solve all equations of a function and extend the
types that are known.  As operands are defined before they are read, one scan finds these shapes,
and there are no others.
-/

namespace TensorLang

namespace Dataflow

/-! ### Rules and their solutions -/

/-- The shape of the result that a kind has for the shapes of its operands. -/
inductive OperationKind.Gives : OperationKind → List Shape → Shape → Prop
  /-- A constant has the shape of its literal. -/
  | constant (literal : TensorLiteral) : Gives (.constant literal) [] literal.shape
  /-- Equal shapes are added. -/
  | add (shape : Shape) : Gives .add [shape, shape] shape
  /-- Equal shapes are multiplied. -/
  | multiply (shape : Shape) : Gives .multiply [shape, shape] shape
  /-- Matrices of one inner dimension have a product. -/
  | matmul (rows inner columns : Nat) :
      Gives .matmul [⟨[rows, inner]⟩, ⟨[inner, columns]⟩] ⟨[rows, columns]⟩
  /-- A transposition reverses the dimensions. -/
  | transpose (shape : Shape) : Gives .transpose [shape] shape.reverse
  /-- A reshape has the declared shape, of as many elements as the operand is counted to have. -/
  | reshape {shape target : Shape} (counted : shape.boundedSize? = some target.size) :
      Gives (.reshape target) [shape] target
  /-- A cast keeps the shape. -/
  | cast (shape : Shape) : Gives .cast [shape] shape

/-- Shapes for the results of operations and for the values that the function returns. -/
structure ShapeAssignment where
  /-- The shapes of results; other values have none. -/
  results : ValueId → Option Shape
  /-- The shapes of the returned values. -/
  returned : List Shape

/-- The shape of a value as far as its type is known. -/
def Function.knownShape? (function : Function) (id : ValueId) : Option Shape :=
  (function.values.get? id).bind fun value => value.type.shape?

/-- The shape of a value: that of a result is assigned, that of an argument is known. -/
def ShapeAssignment.shapeOf? (assignment : ShapeAssignment) (function : Function) (id : ValueId) :
    Option Shape :=
  (assignment.results id).or (function.knownShape? id)

/-- The assignment solves all rules of the function and extends the types that are known. -/
structure Function.Admits (function : Function) (assignment : ShapeAssignment) : Prop where
  /-- The results have shapes, and nothing else has. -/
  domain : ∀ id, (assignment.results id).isSome = true ↔
    id ∈ function.code.flatMap Operation.results
  /-- Known types of results stay. -/
  results : ∀ id declared shape, function.typeOf id = .ok (.ranked declared) →
    assignment.results id = some shape → shape = declared
  /-- As many values are returned as the signature has. -/
  arity : assignment.returned.length = function.resultTypes.length
  /-- Known types of the signature stay. -/
  signature : ∀ (position : Nat) declared,
    function.resultTypes[position]? = some (.ranked declared) →
      assignment.returned[position]? = some declared
  /-- Nothing is called. -/
  no_calls : ∀ operation ∈ function.code, operation.kind.callee? = none
  /-- The shapes of arguments that are read are known. -/
  arguments : ∀ operation ∈ function.code, ∀ operand ∈ operation.operands,
    operand ∈ function.arguments → (function.knownShape? operand).isSome = true
  /-- The rules hold. -/
  rules : ∀ operation ∈ function.code, ∀ result ∈ operation.results, ∃ shapes shape,
    operation.operands.map (assignment.shapeOf? function) = shapes.map some ∧
      assignment.results result = some shape ∧ operation.kind.Gives shapes shape
  /-- The signature has the shapes of what is returned. -/
  leaves : ∀ operation ∈ function.code, operation.kind.isLeave = true →
    operation.operands.map (assignment.shapeOf? function) = assignment.returned.map some
  /-- The elements of all results can be counted. -/
  counted : ∀ id shape, assignment.results id = some shape → shape.boundedSize?.isSome = true

/-- The function with the assigned types. -/
structure ShapeAssignment.Typing (assignment : ShapeAssignment) (before after : Function) :
    Prop where
  /-- Nothing but types changes. -/
  refines : Refines before after
  /-- Results have the assigned types. -/
  results : ∀ id shape, assignment.results id = some shape →
    after.typeOf id = .ok (.ranked shape)
  /-- Other values have the types that they had. -/
  others : ∀ id, assignment.results id = none → after.typeOf id = before.typeOf id
  /-- The signature has the assigned types. -/
  returned : after.resultTypes = assignment.returned.map .ranked

namespace OperationKind

variable {kind : OperationKind} {shapes : List Shape} {shape : Shape}

/-- Rules that hold are found to hold. -/
theorem Gives.resolve (gives : kind.Gives shapes shape)
    (counted : shape.boundedSize?.isSome = true) : kind.resolve shapes = .ok (.result shape) := by
  cases gives with
  | constant literal => rfl
  | add | multiply => exact if_pos rfl
  | matmul rows inner columns => exact if_pos rfl
  | transpose operand => rfl
  | cast => rfl
  | reshape same =>
      obtain ⟨count, count_eq⟩ := Option.isSome_iff_exists.mp counted
      rw [Shape.size_of_boundedSize? count_eq] at count_eq
      simp only [OperationKind.resolve, same, count_eq, if_true]

theorem gives_of_resolve (count : ∀ count, kind.operandCount? = some count → shapes.length = count)
    (resolved : kind.resolve shapes = .ok (.result shape)) : kind.Gives shapes shape := by
  cases kind with
  | call | leave | print =>
      cases Except.ok.inj resolved
  | constant literal =>
      obtain rfl := List.length_eq_zero_iff.mp (count 0 rfl)
      obtain rfl := Resolution.result.inj (resolve_constant resolved)
      exact .constant literal
  | add =>
      obtain ⟨operand, rfl, same⟩ := resolve_add resolved
      obtain rfl := Resolution.result.inj same
      exact .add shape
  | multiply =>
      obtain ⟨operand, rfl, same⟩ := resolve_multiply resolved
      obtain rfl := Resolution.result.inj same
      exact .multiply shape
  | matmul =>
      obtain ⟨rows, inner, columns, rfl, same⟩ := resolve_matmul resolved
      obtain rfl := Resolution.result.inj same
      exact .matmul rows inner columns
  | transpose =>
      obtain ⟨operand, rfl, same⟩ := resolve_transpose resolved
      obtain rfl := Resolution.result.inj same
      exact .transpose operand
  | reshape target =>
      obtain ⟨operand, size, rfl, size_eq, target_eq, same⟩ := resolve_reshape resolved
      obtain rfl := Resolution.result.inj same
      rw [Shape.size_of_boundedSize? target_eq] at size_eq
      exact .reshape size_eq
  | cast =>
      obtain ⟨operand, rfl, same⟩ := resolve_cast resolved
      obtain rfl := Resolution.result.inj same
      exact .cast shape

/-- Of kinds with a result, only calls have no rule. -/
theorem exists_result_of_resolve {resolution : Resolution} (one : kind.resultCount = 1)
    (resolved : kind.resolve shapes = .ok resolution) (known : resolution ≠ .unknown) :
    ∃ shape, resolution = .result shape := by
  cases kind with
  | leave | print => cases one
  | call => exact absurd (Except.ok.inj resolved).symm known
  | constant => exact ⟨_, resolve_constant resolved⟩
  | add | multiply =>
      obtain ⟨shape, -, same⟩ := resolve_add resolved
      exact ⟨shape, same⟩
  | matmul =>
      obtain ⟨rows, inner, columns, -, same⟩ := resolve_matmul resolved
      exact ⟨_, same⟩
  | transpose =>
      obtain ⟨operand, -, same⟩ := resolve_transpose resolved
      exact ⟨_, same⟩
  | reshape =>
      obtain ⟨operand, count, -, -, -, same⟩ := resolve_reshape resolved
      exact ⟨_, same⟩
  | cast =>
      obtain ⟨operand, -, same⟩ := resolve_cast resolved
      exact ⟨_, same⟩

end OperationKind

namespace Function

variable {function : Function} {id : ValueId} {shape : Shape}

theorem knownShape?_eq_some_iff :
    function.knownShape? id = some shape ↔ function.typeOf id = .ok (.ranked shape) := by
  rw [knownShape?, Option.bind_eq_some_iff, typeOf_eq_ok_iff]
  refine exists_congr fun value => and_congr_right fun _ => ?_
  cases value.type <;> simp [TensorType.shape?]

end Function

namespace ShapeAssignment

variable {assignment : ShapeAssignment} {function : Function} {id : ValueId} {shape : Shape}

theorem shapeOf?_of_result (found : assignment.results id = some shape) :
    assignment.shapeOf? function id = some shape := by
  rw [shapeOf?, found, Option.some_or]

theorem shapeOf?_of_none (absent : assignment.results id = none) :
    assignment.shapeOf? function id = function.knownShape? id := by
  rw [shapeOf?, absent, Option.none_or]

end ShapeAssignment

namespace Function.Admits

variable {function : Function} {assignment : ShapeAssignment}

theorem results_eq_none (admits : function.Admits assignment) {id : ValueId}
    (absent : id ∉ function.code.flatMap Operation.results) : assignment.results id = none := by
  rw [← Option.not_isSome_iff_eq_none, admits.domain]
  exact absent

theorem results_of_argument (admits : function.Admits assignment) (verified : function.Verified)
    {id : ValueId} (argument : id ∈ function.arguments) : assignment.results id = none :=
  admits.results_eq_none (verified.argument_notMem argument)

end Function.Admits

/-! ### Steps of inference -/

namespace Inference

variable {current next : Function} {operation : Operation} {id : OperationId} {shapes : List Shape}

theorem allRanked_of_ranked {values : List ValueId}
    (ranked : ∀ value ∈ values, ∃ shape, current.typeOf value = .ok (.ranked shape)) :
    allRanked current values = .ok true := by
  rw [allRanked]
  induction values with
  | nil => rfl
  | cons value rest induction =>
      obtain ⟨shape, shape_eq⟩ := ranked value List.mem_cons_self
      simp only [List.allM, shape_eq,
        induction fun other member => ranked other (List.mem_cons_of_mem _ member)]
      rfl

/-- With the shapes of the operands known, an operation is taken to its rule. -/
theorem resolveOperation_eq_ok_of_ranked (next : Function)
    (found : current.operation? id = some operation)
    (types : operation.operands.map current.typeOf = shapes.map fun shape => .ok (.ranked shape))
    {resolution : Resolution} (resolved : operation.kind.resolve shapes = .ok resolution) :
    (∀ shape, resolution = .result shape → setResult operation shape current = .ok () next →
      resolveOperation id current = .ok true next) ∧
    (∀ returned, resolution = .returned returned →
      (returned.zipIdx.forM fun (shape, position) =>
        setReturned operation.location shape position) current = .ok () next →
      resolveOperation id current = .ok true next) ∧
    (resolution = .settled → resolveOperation id current = .ok true current) := by
  have ranked : ∀ operand ∈ operation.operands,
      ∃ shape, current.typeOf operand = .ok (.ranked shape) := by
    intro operand member
    have type_mem := List.mem_map_of_mem (f := current.typeOf) member
    rw [types] at type_mem
    obtain ⟨shape, -, shape_eq⟩ := List.mem_map.mp type_mem
    exact ⟨shape, shape_eq.symm⟩
  have types_eq : operation.operands.mapM current.typeOf = .ok (shapes.map .ranked) := by
    rw [Except.mapM_eq_ok_iff, types, List.map_map]
    rfl
  have shapes_eq : (shapes.map TensorType.ranked).filterMap TensorType.shape? = shapes := by
    rw [List.filterMap_map]
    exact List.filterMap_some
  refine ⟨fun shape same set_eq => ?_, fun returned same set_eq => ?_, fun same => ?_⟩
  all_goals
    subst same
    simp only [resolveOperation, EStateM.bind_eq_ok_iff, Edit.query_eq_ok_iff]
    refine ⟨operation, current, ⟨Outcome.promised_eq_ok_iff.mpr found, rfl⟩, true, current,
      ⟨allRanked_of_ranked ranked, rfl⟩, ?_⟩
    simp only [Bool.not_true, Bool.false_eq_true, if_false, EStateM.bind_eq_ok_iff,
      Edit.query_eq_ok_iff]
    refine ⟨shapes.map .ranked, current, ⟨types_eq, rfl⟩, ?_⟩
    rw [shapes_eq, resolved]
  · exact EStateM.bind_eq_ok_iff.mpr ⟨(), next, set_eq, rfl⟩
  · exact EStateM.bind_eq_ok_iff.mpr ⟨(), next, set_eq, rfl⟩
  · rfl

/-- A result takes its shape unless it has another one. -/
theorem exists_setResult {result : ValueId} {shape : Shape}
    (results_eq : operation.results = [result]) (counted : shape.boundedSize?.isSome = true)
    {type : TensorType} (type_eq : current.typeOf result = .ok type)
    (free : ∀ declared, type = .ranked declared → declared = shape) :
    ∃ next, setResult operation shape current = .ok () next := by
  have result_eq := Operation.result_eq_ok_iff.mpr results_eq
  have bounded : shape.boundedSize? ≠ none := Option.isSome_iff_ne_none.mp counted
  simp only [setResult, if_neg bounded, EStateM.bind_eq_ok_iff, Edit.lift_eq_ok_iff,
    Edit.query_eq_ok_iff]
  cases type with
  | ranked declared =>
      obtain rfl := free declared rfl
      refine ⟨current, result, current, ⟨result_eq, rfl⟩, _, current, ⟨type_eq, rfl⟩, ?_⟩
      simp only [ne_eq, not_true_eq_false, if_false]
      rfl
  | unranked =>
      refine ⟨current.withType result (.ranked shape), result, current, ⟨result_eq, rfl⟩, _,
        current, ⟨type_eq, rfl⟩, ?_⟩
      obtain ⟨value, value_eq, -⟩ := Function.typeOf_eq_ok_iff.mp type_eq
      have inside : current.hasValues 0 [result] = true := by
        simpa [Function.hasValues] using Arena.lt_size_of_get? value_eq
      exact EStateM.bind_eq_ok_iff.mpr ⟨(), current, Edit.require_eq_ok_iff.mpr ⟨inside, rfl⟩, rfl⟩

/-- A result of the signature takes its shape unless it has another one. -/
theorem exists_setReturned (location : Location) {shape : Shape} {position : Nat}
    {type : TensorType} (type_eq : current.resultTypes[position]? = some type)
    (free : ∀ declared, type = .ranked declared → declared = shape) :
    ∃ next, setReturned location shape position current = .ok () next := by
  simp only [setReturned, EStateM.bind_eq_ok_iff, EStateM.get_eq_ok_iff, Edit.lift_eq_ok_iff,
    Outcome.promised_eq_ok_iff]
  cases type with
  | ranked declared =>
      obtain rfl := free declared rfl
      refine ⟨current, current, current, ⟨rfl, rfl⟩, _, current, ⟨type_eq, rfl⟩, ?_⟩
      simp only [ne_eq, not_true_eq_false, if_false]
      rfl
  | unranked => exact ⟨_, current, current, ⟨rfl, rfl⟩, _, current, ⟨type_eq, rfl⟩, rfl⟩

theorem exists_setAllReturned (location : Location) {returned : List Shape}
    {entries : List (Shape × Nat)}
    (positions : ∀ shape position, (shape, position) ∈ entries → returned[position]? = some shape)
    (arity : current.resultTypes.length = returned.length)
    (free : ∀ (position : Nat) declared, current.resultTypes[position]? = some (.ranked declared) →
      returned[position]? = some declared) :
    ∃ next, (entries.forM fun (shape, position) => setReturned location shape position) current =
      .ok () next := by
  induction entries generalizing current with
  | nil => exact ⟨current, rfl⟩
  | cons entry rest induction =>
      obtain ⟨shape, position⟩ := entry
      have shape_eq := positions shape position List.mem_cons_self
      have inside : position < current.resultTypes.length :=
        arity ▸ (List.getElem?_eq_some_iff.mp shape_eq).1
      have type_eq := List.getElem?_eq_getElem inside
      obtain ⟨middle, first⟩ : ∃ middle, setReturned location shape position current =
          .ok () middle := exists_setReturned location type_eq fun declared same => by
        rw [same] at type_eq
        exact Option.some.inj ((free position declared type_eq).symm.trans shape_eq)
      obtain ⟨-, -, types_eq, -⟩ := setReturned_eq_ok first
      obtain ⟨next, others⟩ := @induction middle
        (fun shape position member => positions shape position (List.mem_cons_of_mem _ member))
        (by rw [types_eq, List.length_set, arity]) fun other declared found => by
          rw [types_eq, List.getElem?_set] at found
          split at found
          · rename_i same
            subst same
            obtain rfl := TensorType.ranked.inj (Option.some.inj found)
            exact shape_eq
          · exact free other declared found
      rw [List.forM_eq_forM] at others ⊢
      rw [List.forM_cons]
      exact ⟨next, EStateM.bind_eq_ok_iff.mpr ⟨(), middle, first, others⟩⟩

/-! ### Typed functions -/

private theorem setResult_of_ranked {result : ValueId} {shape : Shape}
    (results_eq : operation.results = [result]) (counted : shape.boundedSize?.isSome = true)
    (known : current.typeOf result = .ok (.ranked shape)) :
    setResult operation shape current = .ok () current := by
  have bounded : shape.boundedSize? ≠ none := Option.isSome_iff_ne_none.mp counted
  simp only [setResult, if_neg bounded, EStateM.bind_eq_ok_iff, Edit.lift_eq_ok_iff,
    Edit.query_eq_ok_iff]
  refine ⟨result, current, ⟨Operation.result_eq_ok_iff.mpr results_eq, rfl⟩, .ranked shape, current,
    ⟨known, rfl⟩, ?_⟩
  simp only [ne_eq, not_true_eq_false, if_false]
  rfl

private theorem setAllReturned_of_ranked {location : Location} {entries : List (Shape × Nat)}
    (known : ∀ shape position, (shape, position) ∈ entries →
      current.resultTypes[position]? = some (.ranked shape)) :
    (entries.forM fun (shape, position) => setReturned location shape position) current =
      .ok () current := by
  induction entries with
  | nil => rfl
  | cons entry rest induction =>
      obtain ⟨shape, position⟩ := entry
      have others := induction fun shape position member =>
        known shape position (List.mem_cons_of_mem _ member)
      have first : setReturned location shape position current = .ok () current := by
        simp only [setReturned, EStateM.bind_eq_ok_iff, EStateM.get_eq_ok_iff,
          Edit.lift_eq_ok_iff, Outcome.promised_eq_ok_iff]
        refine ⟨current, current, ⟨rfl, rfl⟩, .ranked shape, current,
          ⟨known shape position List.mem_cons_self, rfl⟩, ?_⟩
        simp only [ne_eq, not_true_eq_false, if_false]
        rfl
      rw [List.forM_eq_forM] at others ⊢
      rw [List.forM_cons]
      exact EStateM.bind_eq_ok_iff.mpr ⟨(), current, first, others⟩

private theorem resolveOperation_of_typed (found : current.operation? id = some operation)
    {resolution : Resolution} (typed : operation.Typed current shapes resolution) :
    resolveOperation id current = .ok true current := by
  obtain ⟨of_result, of_returned, of_settled⟩ := resolveOperation_eq_ok_of_ranked current
    found typed.operands typed.resolved
  cases resolution with
  | result shape =>
      obtain ⟨result, results_eq, known⟩ := typed.result shape rfl
      exact of_result shape rfl (setResult_of_ranked results_eq (typed.counted shape rfl) known)
  | returned returned =>
      exact of_returned returned rfl (setAllReturned_of_ranked fun shape position member =>
        typed.returned returned rfl position shape (List.mk_mem_zipIdx_iff_getElem?.mp member))
  | settled => exact of_settled rfl
  | unknown => exact absurd rfl typed.known

private theorem scan_of_typed {ids : List OperationId}
    (typed : ∀ id ∈ ids, ∃ operation shapes resolution, current.operation? id = some operation ∧
      operation.Typed current shapes resolution) : scan ids current = .ok [] current := by
  induction ids with
  | nil => rfl
  | cons id rest induction =>
      rw [List.forall_mem_cons] at typed
      obtain ⟨operation, shapes, resolution, found, rule⟩ := typed.1
      rw [scan]
      exact EStateM.bind_eq_ok_iff.mpr ⟨true, current, resolveOperation_of_typed found rule,
        EStateM.bind_eq_ok_iff.mpr ⟨[], current, induction typed.2, rfl⟩⟩

theorem settle_nil (bound : Nat) : settle bound [] current = .ok [] current := by
  cases bound <;> rfl

/-- Inference finds nothing new in a typed function. -/
theorem inferTypes_of_typed (live : ∀ id ∈ current.body, ∃ operation,
      current.operation? id = some operation ∧ operation.id = id) (typed : current.Typed) :
    Edit.inferTypes current = .ok () current := by
  have scanned : scan current.body current = .ok [] current := by
    refine scan_of_typed fun id member => ?_
    obtain ⟨operation, found, -⟩ := live id member
    obtain ⟨shapes, resolution, rule⟩ :=
      typed operation (Function.mem_code_iff.mpr ⟨id, member, found⟩)
    exact ⟨operation, shapes, resolution, found, rule⟩
  have settled : settle current.body.length current.body current = .ok [] current := by
    cases body_eq : current.body with
    | nil => rfl
    | cons id rest =>
        rw [body_eq] at scanned
        exact EStateM.bind_eq_ok_iff.mpr ⟨[], current, scanned, settle_nil rest.length⟩
  exact EStateM.bind_eq_ok_iff.mpr ⟨current, current, rfl,
    EStateM.bind_eq_ok_iff.mpr ⟨[], current, settled, rfl⟩⟩

/-! ### Completeness -/

/-- Inference on its way to an assignment: what it found so far agrees with the assignment, and it
is done with the operations at the front of the body. -/
structure Between (function : Function) (assignment : ShapeAssignment) (front : List Operation)
    (current : Function) : Prop where
  /-- Known types stay. -/
  refines : Refines function current
  /-- Other values than results keep their types. -/
  others : ∀ id, assignment.results id = none → current.typeOf id = function.typeOf id
  /-- Results have the assigned types, or none yet. -/
  results : ∀ id declared shape, current.typeOf id = .ok (.ranked declared) →
    assignment.results id = some shape → shape = declared
  /-- The operations at the front have their results. -/
  reached : ∀ id ∈ front.flatMap Operation.results, ∃ shape,
    assignment.results id = some shape ∧ current.typeOf id = .ok (.ranked shape)
  /-- The signature has the assigned types, or none yet. -/
  signature : ∀ (position : Nat) declared,
    current.resultTypes[position]? = some (.ranked declared) →
      assignment.returned[position]? = some declared
  /-- After the return the signature is known. -/
  returned : ∀ operation ∈ front, operation.kind.isLeave = true →
    current.resultTypes = assignment.returned.map .ranked

variable {function : Function} {assignment : ShapeAssignment} {front back : List Operation}

/-- The shape of an operand is known when its operation is reached. -/
theorem Between.operand (between : Between function assignment front current)
    (admits : function.Admits assignment) (verified : function.Verified)
    (code_eq : function.code = front ++ operation :: back) {operand : ValueId}
    (reads : operand ∈ operation.operands) :
    ∃ shape, assignment.shapeOf? function operand = some shape ∧
      current.typeOf operand = .ok (.ranked shape) := by
  have dominated := Function.dominated_of_code_eq verified.dominated code_eq
  rcases List.mem_append.mp (dominated.2.1 operand reads) with argument | result
  · have absent := admits.results_of_argument verified argument
    have member : operation ∈ function.code := by simp [code_eq]
    obtain ⟨shape, known⟩ := Option.isSome_iff_exists.mp
      (admits.arguments operation member operand reads argument)
    refine ⟨shape, (ShapeAssignment.shapeOf?_of_none absent).trans known, ?_⟩
    rw [between.others operand absent]
    exact Function.knownShape?_eq_some_iff.mp known
  · obtain ⟨shape, assigned, known⟩ := between.reached operand result
    exact ⟨shape, ShapeAssignment.shapeOf?_of_result assigned, known⟩

theorem exists_shapes {ids : List ValueId} {first : ValueId → Option Shape}
    {second : ValueId → Outcome TensorType}
    (each : ∀ id ∈ ids, ∃ shape, first id = some shape ∧ second id = .ok (.ranked shape)) :
    ∃ shapes : List Shape, ids.map first = shapes.map some ∧
      ids.map second = shapes.map fun shape => .ok (.ranked shape) := by
  induction ids with
  | nil => exact ⟨[], rfl, rfl⟩
  | cons id rest induction =>
      obtain ⟨shape, first_eq, second_eq⟩ := each id List.mem_cons_self
      obtain ⟨shapes, firsts_eq, seconds_eq⟩ :=
        induction fun other member => each other (List.mem_cons_of_mem _ member)
      exact ⟨shape :: shapes, by simp [first_eq, firsts_eq], by simp [second_eq, seconds_eq]⟩

theorem eq_of_map_some {first second : List Shape} (same : first.map some = second.map some) :
    first = second :=
  (List.map_inj_right fun _ _ => Option.some.inj).mp same

theorem Between.exists_result (between : Between function assignment front current)
    (admits : function.Admits assignment) (verified : function.Verified)
    (code_eq : function.code = front ++ operation :: back)
    (types : operation.operands.map current.typeOf = shapes.map fun shape => .ok (.ranked shape))
    (assigned : operation.operands.map (assignment.shapeOf? function) = shapes.map some)
    {result : ValueId} (results_eq : operation.results = [result])
    (stays : operation.kind.isLeave = false) :
    ∃ next, resolveOperation operation.id current = .ok true next ∧
      Between function assignment (front ++ [operation]) next := by
  have member : operation ∈ function.code := by simp [code_eq]
  have defines : result ∈ operation.results := by simp [results_eq]
  obtain ⟨others, shape, others_eq, shape_eq, gives⟩ := admits.rules operation member result defines
  obtain rfl := eq_of_map_some (others_eq.symm.trans assigned)
  have counted := admits.counted result shape shape_eq
  obtain ⟨value, value_eq, defined⟩ := Option.map_eq_some_iff.mp
    (verified.resultsDefined operation member 0 result (by simp [results_eq]))
  have type_eq : function.typeOf result = .ok value.type :=
    Function.typeOf_eq_ok_iff.mpr ⟨value, value_eq, rfl⟩
  obtain ⟨present, present_eq⟩ : ∃ type, current.typeOf result = .ok type := by
    have inside := Arena.lt_size_of_get? value_eq
    rw [← between.refines.size] at inside
    obtain ⟨found, found_eq⟩ := Option.ne_none_iff_exists'.mp fun absent =>
      Nat.not_le.mpr inside ((Arena.get?_eq_none_iff _ _).mp absent)
    exact ⟨found.type, Function.typeOf_eq_ok_iff.mpr ⟨found, found_eq, rfl⟩⟩
  obtain ⟨next, set_eq⟩ := exists_setResult results_eq counted present_eq
    fun declared same => (between.results result declared shape (same ▸ present_eq) shape_eq).symm
  have found := verified.toRecorded.operation?_of_mem member
  rw [← between.refines.operation?_eq] at found
  refine ⟨next, (resolveOperation_eq_ok_of_ranked next found types
    (gives.resolve counted)).1 shape rfl set_eq, ?_⟩
  obtain ⟨refines, -, ⟨_, only_eq, known⟩, kept, resultTypes_eq⟩ := setResult_eq_ok set_eq
  obtain rfl := List.singleton_inj.mp (results_eq.symm.trans only_eq)
  rw [results_eq] at kept
  refine ⟨between.refines.trans refines, fun id absent => ?_, fun id declared other => ?_,
    fun id reached => ?_, by rw [resultTypes_eq]; exact between.signature,
    fun other other_mem => ?_⟩
  · rw [kept id fun same => ?_]
    · exact between.others id absent
    · rw [List.mem_singleton.mp same, shape_eq] at absent
      cases absent
  · intro declared_eq other_eq
    by_cases same : id = result
    · subst same
      obtain rfl := Option.some.inj (shape_eq.symm.trans other_eq)
      rw [known] at declared_eq
      exact TensorType.ranked.inj (Except.ok.inj declared_eq)
    · rw [kept id (by simpa using same)] at declared_eq
      exact between.results id declared other declared_eq other_eq
  · rw [List.flatMap_append, List.mem_append] at reached
    rcases reached with old | new
    · obtain ⟨old_shape, assigned_eq, old_known⟩ := between.reached id old
      exact ⟨old_shape, assigned_eq, refines.types id old_shape old_known⟩
    · simp only [List.flatMap_cons, results_eq, List.flatMap_nil, List.append_nil,
        List.mem_singleton] at new
      subst new
      exact ⟨shape, shape_eq, known⟩
  · intro leaves
    rw [resultTypes_eq]
    rcases List.mem_append.mp other_mem with old | new
    · exact between.returned other old leaves
    · rw [List.mem_singleton.mp new, stays] at leaves
      cases leaves

theorem Between.exists_returned (between : Between function assignment front current)
    (admits : function.Admits assignment) (verified : function.Verified)
    (code_eq : function.code = front ++ operation :: back)
    (types : operation.operands.map current.typeOf = shapes.map fun shape => .ok (.ranked shape))
    (assigned : operation.operands.map (assignment.shapeOf? function) = shapes.map some)
    (results_eq : operation.results = []) (kind_eq : operation.kind = .leave) :
    ∃ next, resolveOperation operation.id current = .ok true next ∧
      Between function assignment (front ++ [operation]) next := by
  have member : operation ∈ function.code := by simp [code_eq]
  have leaves_eq := admits.leaves operation member (by rw [kind_eq]; rfl)
  obtain rfl := eq_of_map_some (leaves_eq.symm.trans assigned)
  obtain ⟨next, set_eq⟩ := exists_setAllReturned operation.location
    (fun shape position entry => List.mk_mem_zipIdx_iff_getElem?.mp entry)
    (between.refines.arity.trans admits.arity.symm) between.signature
  have found := verified.toRecorded.operation?_of_mem member
  rw [← between.refines.operation?_eq] at found
  have resolved :
      operation.kind.resolve assignment.returned = .ok (.returned assignment.returned) := by
    rw [kind_eq]
    rfl
  refine ⟨next, (resolveOperation_eq_ok_of_ranked next found types resolved).2.1 _ rfl set_eq, ?_⟩
  obtain ⟨refines, values_eq, each⟩ := setAllReturned_eq_ok set_eq
  have kept : ∀ id, next.typeOf id = current.typeOf id := fun id => by
    rw [Function.typeOf, Function.typeOf, Function.value, Function.value, values_eq]
  have returned_eq : next.resultTypes = assignment.returned.map .ranked := by
    have arity := (refines.arity.trans between.refines.arity).trans admits.arity.symm
    apply List.ext_getElem (by rw [arity, List.length_map])
    intro position inside _
    have shape_eq := List.getElem?_eq_getElem (arity ▸ inside)
    have type_eq := each _ position (List.mk_mem_zipIdx_iff_getElem?.mpr shape_eq)
    rw [List.getElem_map]
    exact (List.getElem?_eq_some_iff.mp type_eq).2
  refine ⟨between.refines.trans refines,
    fun id absent => (kept id).trans (between.others id absent),
    fun id declared shape known => between.results id declared shape (kept id ▸ known),
    fun id reached => ?_, fun position declared known => ?_, fun _ _ _ => returned_eq⟩
  · rw [List.flatMap_append, List.flatMap_singleton, results_eq, List.append_nil] at reached
    rw [kept]
    exact between.reached id reached
  · rw [returned_eq, List.getElem?_map] at known
    obtain ⟨shape, shape_eq, same⟩ := Option.map_eq_some_iff.mp known
    rw [shape_eq, TensorType.ranked.inj same]

private theorem Between.exists_printed (between : Between function assignment front current)
    (verified : function.Verified) (code_eq : function.code = front ++ operation :: back)
    (types : operation.operands.map current.typeOf = shapes.map fun shape => .ok (.ranked shape))
    (results_eq : operation.results = []) (kind_eq : operation.kind = .print) :
    ∃ next, resolveOperation operation.id current = .ok true next ∧
      Between function assignment (front ++ [operation]) next := by
  have found := verified.toRecorded.operation?_of_mem
    (show operation ∈ function.code by simp [code_eq])
  rw [← between.refines.operation?_eq] at found
  have resolved : operation.kind.resolve shapes = .ok .settled := by
    rw [kind_eq]
    rfl
  refine ⟨current, (resolveOperation_eq_ok_of_ranked current found types resolved).2.2 rfl,
    { between with reached := fun id reached => ?_, returned := fun other member leaves => ?_ }⟩
  · rw [List.flatMap_append, List.flatMap_singleton, results_eq, List.append_nil] at reached
    exact between.reached id reached
  · rcases List.mem_append.mp member with old | new
    · exact between.returned other old leaves
    · rw [List.mem_singleton.mp new, kind_eq] at leaves
      cases leaves

/-- Each operation is resolved when it is reached. -/
theorem Between.exists_step (between : Between function assignment front current)
    (admits : function.Admits assignment) (verified : function.Verified) (proper : function.Proper)
    (code_eq : function.code = front ++ operation :: back) :
    ∃ next, resolveOperation operation.id current = .ok true next ∧
      Between function assignment (front ++ [operation]) next := by
  have member : operation ∈ function.code := by simp [code_eq]
  obtain ⟨shapes, assigned, types⟩ :=
    exists_shapes fun operand reads => between.operand admits verified code_eq reads
  have results := (proper operation member).results
  cases kind_eq : operation.kind with
  | call callee =>
      have no_call := admits.no_calls operation member
      rw [kind_eq] at no_call
      cases no_call
  | leave =>
      rw [kind_eq] at results
      exact between.exists_returned admits verified code_eq types assigned
        (List.length_eq_zero_iff.mp results) kind_eq
  | print =>
      rw [kind_eq] at results
      exact between.exists_printed verified code_eq types
        (List.length_eq_zero_iff.mp results) kind_eq
  | constant | add | multiply | matmul | transpose | reshape | cast =>
      rw [kind_eq] at results
      obtain ⟨result, results_eq⟩ := List.length_eq_one_iff.mp results
      exact between.exists_result admits verified code_eq types assigned results_eq
        (by rw [kind_eq]; rfl)

private theorem Between.exists_scan (between : Between function assignment front current)
    (admits : function.Admits assignment) (verified : function.Verified) (proper : function.Proper)
    (code_eq : function.code = front ++ back) :
    ∃ next, scan (back.map Operation.id) current = .ok [] next ∧
      Between function assignment function.code next := by
  induction back generalizing front current with
  | nil =>
      rw [List.append_nil] at code_eq
      exact ⟨current, rfl, code_eq ▸ between⟩
  | cons operation rest induction =>
      obtain ⟨middle, first, further⟩ := between.exists_step admits verified proper code_eq
      obtain ⟨next, others, done⟩ := induction further (by rw [code_eq, List.append_assoc]; rfl)
      refine ⟨next, ?_, done⟩
      simp only [List.map_cons, scan, EStateM.bind_eq_ok_iff, EStateM.pure_eq_ok_iff]
      exact ⟨true, middle, first, [], next, others, rfl, rfl⟩

/-- Before inference nothing was found that contradicts the assignment. -/
theorem Between.start (admits : function.Admits assignment) :
    Between function assignment [] function where
  refines := Refines.refl function
  others := fun _ _ => rfl
  results := admits.results
  reached := fun _ absurd => by cases absurd
  signature := admits.signature
  returned := fun _ absurd => by cases absurd

end Inference

/-- Types say nothing that verification asks about. -/
theorem Refines.verified {function after : Function} (refines : Refines function after)
    (verified : function.Verified) : after.Verified where
  live := by
    intro id member
    rw [refines.body] at member
    rw [refines.operation?_eq]
    exact verified.live id member
  nodup := refines.body ▸ verified.nodup
  argumentsDefined := by
    intro position argument found
    rw [refines.arguments] at found
    rw [refines.definitions]
    exact verified.argumentsDefined position argument found
  resultsDefined := by
    intro operation member position result found
    rw [refines.code_eq] at member
    rw [refines.definitions]
    exact verified.resultsDefined operation member position result found
  users := by
    intro value
    rw [refines.code_eq, Function.usersOf, refines.uses]
    exact verified.users value
  dominated := by
    rw [refines.code_eq, refines.arguments]
    exact verified.dominated
  ending := by
    rw [refines.code_eq]
    exact verified.ending
  returns := by
    rw [refines.code_eq, refines.arity]
    exact verified.returns

namespace Function

variable {function after : Function} {assignment : ShapeAssignment}

/-- Inference finds every assignment that a function admits. -/
theorem Admits.exists_inferTypes (admits : function.Admits assignment)
    (verified : function.Verified) (proper : function.Proper) :
    ∃ after, Edit.inferTypes function = .ok () after ∧ assignment.Typing function after := by
  obtain ⟨after, scanned, done⟩ :=
    (Inference.Between.start admits).exists_scan admits verified proper (List.nil_append _).symm
  obtain ⟨front, last, code_eq, leaves, -⟩ := verified.ending.exists_last
  rw [← body_eq_code verified.live] at scanned
  have settled : Inference.settle function.body.length function.body function = .ok [] after := by
    obtain ⟨bound, bound_eq⟩ : ∃ bound, function.body.length = bound + 1 :=
      ⟨front.length, by rw [body_eq_code verified.live, code_eq]; simp⟩
    rw [bound_eq, Inference.settle]
    refine EStateM.bind_eq_ok_iff.mpr ⟨[], after, scanned, ?_⟩
    rw [bound_eq, List.length_nil, if_pos (Nat.succ_pos bound)]
    exact Inference.settle_nil bound
  refine ⟨after, ?_, done.refines, fun id shape shape_eq => ?_, done.others,
    done.returned last (by simp [code_eq]) leaves⟩
  · simp only [Edit.inferTypes, EStateM.bind_eq_ok_iff, EStateM.get_eq_ok_iff]
    exact ⟨function, function, ⟨rfl, rfl⟩, [], after, settled, rfl⟩
  · obtain ⟨other, other_eq, known⟩ :=
      done.reached id ((admits.domain id).mp (by rw [shape_eq]; rfl))
    rw [Option.some.inj (shape_eq.symm.trans other_eq)]
    exact known

/-! ### Soundness -/

/-- The shapes that are known for the results and the signature of a function. -/
def knownShapes (function : Function) : ShapeAssignment where
  results id :=
    if id ∈ function.code.flatMap Operation.results then function.knownShape? id else none
  returned := function.resultTypes.filterMap TensorType.shape?

theorem knownShapes_results_eq_some_iff {id : ValueId} {shape : Shape} :
    function.knownShapes.results id = some shape ↔
      id ∈ function.code.flatMap Operation.results ∧ function.typeOf id = .ok (.ranked shape) := by
  change (if id ∈ function.code.flatMap Operation.results then function.knownShape? id else none) =
    some shape ↔ _
  split
  · rename_i member
    rw [knownShape?_eq_some_iff, and_iff_right member]
  · rename_i absent
    exact iff_of_false nofun fun both => absent both.1

private theorem shapeOf?_knownShapes {id : ValueId} {shape : Shape}
    (known : function.typeOf id = .ok (.ranked shape)) :
    function.knownShapes.shapeOf? function id = some shape := by
  by_cases member : id ∈ function.code.flatMap Operation.results
  · exact ShapeAssignment.shapeOf?_of_result (knownShapes_results_eq_some_iff.mpr ⟨member, known⟩)
  · rw [ShapeAssignment.shapeOf?_of_none, knownShape?_eq_some_iff.mpr known]
    exact if_neg member

theorem map_shapeOf?_knownShapes {ids : List ValueId} {shapes : List Shape}
    (types : ids.map function.typeOf = shapes.map fun shape => .ok (.ranked shape)) :
    ids.map (function.knownShapes.shapeOf? function) = shapes.map some := by
  induction ids generalizing shapes with
  | nil =>
      obtain rfl := List.map_eq_nil_iff.mp types.symm
      rfl
  | cons id rest induction =>
      obtain ⟨shape, others, rfl, shape_eq, others_eq⟩ := List.map_eq_cons_iff.mp types.symm
      rw [List.map_cons, List.map_cons, induction others_eq.symm,
        shapeOf?_knownShapes shape_eq.symm]

/-- In a typed function every result has a counted shape that its rule gives. -/
theorem Typed.exists_shape (typed : function.Typed) (proper : function.Proper)
    {operation : Operation} (member : operation ∈ function.code) {result : ValueId}
    (defines : result ∈ operation.results) :
    ∃ shapes shape, operation.operands.map function.typeOf =
        (shapes.map fun shape => .ok (.ranked shape)) ∧
      function.typeOf result = .ok (.ranked shape) ∧ operation.kind.Gives shapes shape ∧
      shape.boundedSize?.isSome = true := by
  obtain ⟨shapes, resolution, rule⟩ := typed operation member
  have results := (proper operation member).results
  have one : operation.kind.resultCount = 1 := by
    have some_result := List.length_pos_of_mem defines
    rw [results] at some_result
    cases kind_eq : operation.kind with
    | leave | print =>
        rw [kind_eq] at some_result
        cases some_result
    | _ => rfl
  obtain ⟨shape, rfl⟩ := OperationKind.exists_result_of_resolve one rule.resolved rule.known
  obtain ⟨only, only_eq, known⟩ := rule.result shape rfl
  rw [only_eq, List.mem_singleton] at defines
  subst defines
  have count : ∀ count, operation.kind.operandCount? = some count → shapes.length = count :=
    fun count counted => by
      rw [← rule.length_operands, (proper operation member).operands count counted]
  exact ⟨shapes, shape, rule.operands, known,
    OperationKind.gives_of_resolve count rule.resolved, rule.counted shape rfl⟩

/-- The return of a typed function has the shapes of the signature. -/
theorem Typed.resultTypes_eq (typed : function.Typed) {operation : Operation}
    (member : operation ∈ function.code) (leaves : operation.kind.isLeave = true)
    (count : operation.operands.length = function.resultTypes.length) :
    ∃ shapes : List Shape, function.resultTypes = shapes.map .ranked ∧
      operation.operands.map function.typeOf = shapes.map fun shape => .ok (.ranked shape) := by
  obtain ⟨shapes, resolution, rule⟩ := typed operation member
  refine ⟨shapes, ?_, rule.operands⟩
  have returned_eq : resolution = .returned shapes := by
    have resolved := rule.resolved
    cases kind_eq : operation.kind with
    | leave =>
        rw [kind_eq] at resolved
        exact (Except.ok.inj resolved).symm
    | _ =>
        rw [kind_eq] at leaves
        cases leaves
  have lengths := rule.length_operands.symm.trans count
  apply List.ext_getElem (by rw [List.length_map, lengths])
  intro position inside _
  have shape_eq := List.getElem?_eq_getElem (lengths ▸ inside : position < shapes.length)
  rw [List.getElem_map]
  exact (List.getElem?_eq_some_iff.mp (rule.returned shapes returned_eq position _ shape_eq)).2

/-- The types of a typed function are an assignment that it admits. -/
theorem Typed.admits (typed : function.Typed) (verified : function.Verified)
    (proper : function.Proper) : function.Admits function.knownShapes := by
  obtain ⟨front, last, last_eq, leaves, -⟩ := verified.ending.exists_last
  have last_mem : last ∈ function.code := by simp [last_eq]
  obtain ⟨returned, resultTypes_eq, -⟩ :=
    typed.resultTypes_eq last_mem leaves (verified.returns last last_mem leaves)
  have returned_eq : function.knownShapes.returned = returned := by
    change function.resultTypes.filterMap TensorType.shape? = returned
    rw [resultTypes_eq, List.filterMap_map]
    exact List.filterMap_some
  exact {
    domain := by
      intro id
      rw [Option.isSome_iff_exists]
      simp only [knownShapes_results_eq_some_iff]
      refine ⟨fun ⟨_, member, _⟩ => member, fun member => ?_⟩
      obtain ⟨operation, operation_mem, defines⟩ := List.mem_flatMap.mp member
      obtain ⟨-, shape, -, known, -⟩ := typed.exists_shape proper operation_mem defines
      exact ⟨shape, member, known⟩
    results := by
      intro id declared shape known assigned
      rw [(knownShapes_results_eq_some_iff.mp assigned).2] at known
      exact TensorType.ranked.inj (Except.ok.inj known)
    arity := by
      rw [returned_eq, resultTypes_eq, List.length_map]
    signature := by
      intro position declared known
      rw [resultTypes_eq, List.getElem?_map] at known
      obtain ⟨shape, shape_eq, same⟩ := Option.map_eq_some_iff.mp known
      rw [returned_eq, shape_eq, TensorType.ranked.inj same]
    no_calls := by
      intro operation member
      obtain ⟨shapes, resolution, rule⟩ := typed operation member
      exact rule.callee?_eq_none
    arguments := by
      intro operation member operand reads _
      obtain ⟨shapes, resolution, rule⟩ := typed operation member
      obtain ⟨position, found⟩ := List.mem_iff_getElem?.mp reads
      obtain ⟨shape, -, known⟩ := rule.typeOf_operand found
      rw [knownShape?_eq_some_iff.mpr known]
      rfl
    rules := by
      intro operation member result defines
      obtain ⟨shapes, shape, types, known, gives, -⟩ := typed.exists_shape proper member defines
      have result_mem := List.mem_flatMap.mpr ⟨operation, member, defines⟩
      exact ⟨shapes, shape, map_shapeOf?_knownShapes types,
        knownShapes_results_eq_some_iff.mpr ⟨result_mem, known⟩, gives⟩
    leaves := by
      intro operation member operation_leaves
      obtain ⟨others, others_eq, types⟩ := typed.resultTypes_eq member operation_leaves
        (verified.returns operation member operation_leaves)
      have same : others = returned := (List.map_inj_right fun _ _ => TensorType.ranked.inj).mp
        (others_eq.symm.trans resultTypes_eq)
      rw [returned_eq, ← same]
      exact map_shapeOf?_knownShapes types
    counted := by
      intro id shape assigned
      obtain ⟨member, known⟩ := knownShapes_results_eq_some_iff.mp assigned
      obtain ⟨operation, operation_mem, defines⟩ := List.mem_flatMap.mp member
      obtain ⟨-, other, -, other_known, -, counted⟩ :=
        typed.exists_shape proper operation_mem defines
      rw [known] at other_known
      rw [TensorType.ranked.inj (Except.ok.inj other_known)]
      exact counted }

private theorem Admits.of_refines (admits : after.Admits assignment) (verified : function.Verified)
    (refines : Refines function after)
    (kept : ∀ id, id ∉ function.code.flatMap Operation.results →
      after.typeOf id = function.typeOf id) : function.Admits assignment := by
  have code_eq := refines.code_eq
  have known_eq : ∀ id, id ∉ function.code.flatMap Operation.results →
      after.knownShape? id = function.knownShape? id := by
    intro id absent
    refine Option.ext fun shape => ?_
    rw [knownShape?_eq_some_iff, knownShape?_eq_some_iff, kept id absent]
  have shapes_eq : assignment.shapeOf? after = assignment.shapeOf? function := by
    funext id
    rw [ShapeAssignment.shapeOf?, ShapeAssignment.shapeOf?]
    by_cases member : id ∈ function.code.flatMap Operation.results
    · obtain ⟨shape, shape_eq⟩ := Option.isSome_iff_exists.mp
        ((admits.domain id).mpr (code_eq ▸ member))
      rw [shape_eq, Option.some_or, Option.some_or]
    · rw [known_eq id member]
  exact {
    domain := code_eq ▸ admits.domain
    results := fun id declared shape known =>
      admits.results id declared shape (refines.types id declared known)
    arity := admits.arity.trans refines.arity
    signature := fun position declared known =>
      admits.signature position declared (refines.resultTypes position declared known)
    no_calls := code_eq ▸ admits.no_calls
    arguments := by
      intro operation member operand reads argument
      rw [← known_eq operand (verified.argument_notMem argument)]
      exact admits.arguments operation (code_eq ▸ member) operand reads
        (refines.arguments ▸ argument)
    rules := shapes_eq ▸ code_eq ▸ admits.rules
    leaves := shapes_eq ▸ code_eq ▸ admits.leaves
    counted := admits.counted }

private theorem admits_of_inferTypes (verified : function.Verified) (proper : function.Proper)
    (success : Edit.inferTypes function = .ok () after) : function.Admits after.knownShapes := by
  obtain ⟨refines, typed⟩ := Inference.inferTypes_eq_ok success
  have proper_after : after.Proper := by
    rw [Function.Proper, refines.code_eq]
    exact proper
  refine (typed.admits (refines.verified verified) proper_after).of_refines verified refines
    fun id absent => ?_
  refine Inference.confined_of_inferTypes success id
    fun body_id body_mem operation found defines => ?_
  exact absent (List.mem_flatMap.mpr
    ⟨operation, mem_code_iff.mpr ⟨body_id, body_mem, found⟩, defines⟩)

private theorem Admits.eq_of_typing {first second : ShapeAssignment}
    (admits : function.Admits first)
    (others : function.Admits second) (typing : first.Typing function after)
    (same : second.Typing function after) : first = second := by
  obtain ⟨first_results, first_returned⟩ := first
  obtain ⟨second_results, second_returned⟩ := second
  have returned_eq : first_returned = second_returned :=
    (List.map_inj_right fun _ _ => TensorType.ranked.inj).mp
      (typing.returned.symm.trans same.returned)
  have results_eq : first_results = second_results := by
    funext id
    by_cases member : id ∈ function.code.flatMap Operation.results
    · obtain ⟨shape, shape_eq⟩ := Option.isSome_iff_exists.mp ((admits.domain id).mpr member)
      obtain ⟨other, other_eq⟩ := Option.isSome_iff_exists.mp ((others.domain id).mpr member)
      have known := typing.results id shape shape_eq
      rw [same.results id other other_eq] at known
      simp only at shape_eq other_eq
      rw [shape_eq, other_eq, TensorType.ranked.inj (Except.ok.inj known)]
    · exact (admits.results_eq_none member).trans (others.results_eq_none member).symm
  rw [returned_eq, results_eq]

/-- Inference succeeds just if the function admits an assignment of shapes.  There is then no other
one, and the function is left with the types that it assigns. -/
theorem inferTypes_sound_and_complete (accepted : function.verify = .ok ())
    (proper : function.Proper) :
    ((∃ after, Edit.inferTypes function = .ok () after) ↔
        ∃ assignment, function.Admits assignment) ∧
      (∀ first second, function.Admits first → function.Admits second → first = second) ∧
      ∀ assignment after, function.Admits assignment →
        Edit.inferTypes function = .ok () after → assignment.Typing function after := by
  have verified := verify_eq_ok_iff.mp accepted
  refine ⟨⟨?_, ?_⟩, ?_, ?_⟩
  · rintro ⟨after, success⟩
    exact ⟨after.knownShapes, admits_of_inferTypes verified proper success⟩
  · rintro ⟨assignment, admits⟩
    obtain ⟨after, success, -⟩ := admits.exists_inferTypes verified proper
    exact ⟨after, success⟩
  · intro first second admits others
    obtain ⟨after, success, typing⟩ := admits.exists_inferTypes verified proper
    obtain ⟨again, repeated, same⟩ := others.exists_inferTypes verified proper
    obtain rfl := (EStateM.Result.ok.inj (success.symm.trans repeated)).2
    exact admits.eq_of_typing others typing same
  · intro assignment after admits success
    obtain ⟨again, repeated, typing⟩ := admits.exists_inferTypes verified proper
    obtain rfl := (EStateM.Result.ok.inj (success.symm.trans repeated)).2
    exact typing

/-- Lays out the product of a matrix and its transpose in one row, prints it and returns it.  Only
the type of the matrix is known. -/
def layingOutProduct : Function :=
  let build : Edit Unit := do
    let matrix ← Edit.pushArgument (.ranked ⟨[2, 3]⟩)
    let _ ← Edit.pushArgument .unranked
    let turned ← Edit.appendValue .transpose [matrix] .unranked ⟨"main", 1, 1⟩
    let product ← Edit.appendValue .matmul [matrix, turned] .unranked ⟨"main", 1, 1⟩
    let row ← Edit.appendValue (.reshape ⟨[4]⟩) [product] .unranked ⟨"main", 2, 1⟩
    let _ ← Edit.append .print [row] [] ⟨"main", 3, 1⟩
    let _ ← Edit.append .leave [row] [] ⟨"main", 4, 1⟩
    modify fun function => { function with resultTypes := [.unranked] }
  (build.outcome (Function.new "main" ⟨"main", 1, 1⟩)).1

theorem inferTypes_sound_and_complete_layingOutProduct :
    layingOutProduct.verify = .ok () ∧ layingOutProduct.Proper ∧
      ∃ after assignment, Edit.inferTypes layingOutProduct = .ok () after ∧
        layingOutProduct.Admits assignment ∧ assignment.Typing layingOutProduct after ∧
        (∀ other, layingOutProduct.Admits other → other = assignment) ∧
        assignment.returned = [⟨[4]⟩] := by
  have accepted : layingOutProduct.verify = .ok () := by rfl
  have proper : layingOutProduct.Proper := by decide
  let after := (Edit.inferTypes.outcome layingOutProduct).1
  have success : Edit.inferTypes layingOutProduct = .ok () after := by rfl
  obtain ⟨succeeds, unique, typed⟩ := inferTypes_sound_and_complete accepted proper
  obtain ⟨assignment, admits⟩ := succeeds.mp ⟨after, success⟩
  have typing := typed assignment after admits success
  refine ⟨accepted, proper, after, assignment, success, admits, typing,
    fun other others => unique other assignment others admits, ?_⟩
  have returned : ([⟨[4]⟩] : List Shape).map TensorType.ranked =
      assignment.returned.map TensorType.ranked := typing.returned
  exact ((List.map_inj_right fun _ _ => TensorType.ranked.inj).mp returned).symm

end Function

end Dataflow

end TensorLang
