import TensorLang.Proofs.Dataflow.Literals
import TensorLang.Proofs.Dataflow.Records
import TensorLang.Proofs.Dataflow.Solutions
import TensorLang.Proofs.Dataflow.Stock

/-!
# Dataflow of programs keeps their meaning

Each construct of a program appends operations to a function.  Under every assignment that solves
these operations, evaluating the construct prints what they print and gives the value that its
handle is assigned.
-/

namespace TensorLang

namespace Dataflow

/-! ### Appended operations -/

/-- A function that is being built: it is in order as far as it goes. -/
structure Function.Growing (function : Function) : Prop where
  /-- Operands are defined before they are read. -/
  linked : function.Linked
  /-- Definitions and use lists are right. -/
  recorded : function.Recorded
  /-- The body lists all operations. -/
  stocked : function.Stocked OperationKind.Spelled

/-- The change appends operations, and changes nothing else but the types of the results. -/
structure Appends (before after : Function) (new : List Operation) : Prop where
  /-- The function is in order. -/
  growing : after.Growing
  /-- The operations stand at the end. -/
  code_eq : after.code = before.code ++ new
  /-- The name stays. -/
  name : after.name = before.name
  /-- The arguments stay. -/
  arguments : after.arguments = before.arguments
  /-- Operands and results have the right numbers. -/
  proper : ∀ operation ∈ new, operation.Proper

/-- The change appends operations after which others may follow. -/
structure Continues (before after : Function) (new : List Operation) : Prop extends
    Appends before after new where
  /-- The signature stays. -/
  resultTypes : after.resultTypes = before.resultTypes
  /-- No operation is a return. -/
  proceeding : ∀ operation ∈ new, operation.kind.isLeave = false

/-- The change appends operations after which nothing may follow. -/
structure Completes (before after : Function) (new : List Operation) : Prop extends
    Appends before after new where
  /-- The last operation is the only return. -/
  ending : Ending new
  /-- As many values are returned as the signature has. -/
  returns : ∀ operation ∈ new, operation.kind.isLeave = true →
    operation.operands.length = after.resultTypes.length

section Appended

variable {before middle after : Function} {first second : List Operation}

theorem Appends.trans (early : Appends before middle first) (late : Appends middle after second) :
    Appends before after (first ++ second) where
  growing := late.growing
  code_eq := by rw [late.code_eq, early.code_eq, List.append_assoc]
  name := late.name.trans early.name
  arguments := late.arguments.trans early.arguments
  proper := List.forall_mem_append.mpr ⟨early.proper, late.proper⟩

/-- Values that are available stay so. -/
theorem Appends.available_subset (appends : Appends before after first) :
    before.availableAfter before.code ⊆ after.availableAfter after.code := by
  rw [Function.availableAfter, Function.availableAfter, appends.arguments, appends.code_eq,
    List.flatMap_append, ← List.append_assoc]
  exact List.subset_append_left _ _

theorem Continues.refl (growing : before.Growing) : Continues before before [] :=
  ⟨⟨growing, by simp, rfl, rfl, by simp⟩, rfl, by simp⟩

theorem Continues.trans (early : Continues before middle first)
    (late : Continues middle after second) : Continues before after (first ++ second) where
  toAppends := early.toAppends.trans late.toAppends
  resultTypes := late.resultTypes.trans early.resultTypes
  proceeding := List.forall_mem_append.mpr ⟨early.proceeding, late.proceeding⟩

theorem Completes.nonempty (completes : Completes before after first) : first ≠ [] := by
  rintro rfl
  exact completes.ending

theorem Continues.completes (early : Continues before middle first)
    (late : Completes middle after second) : Completes before after (first ++ second) where
  toAppends := early.toAppends.trans late.toAppends
  ending := (ending_append_iff late.nonempty).mpr ⟨early.proceeding, late.ending⟩
  returns := List.forall_mem_append.mpr
    ⟨fun operation member leaves => absurd leaves (by simp [early.proceeding operation member]),
      late.returns⟩

section Operations

variable {kind : OperationKind} {operands : List ValueId} {location : Location}
variable (growing : before.Growing) (spelled : kind.Spelled)
variable (available : ∀ operand ∈ operands, operand ∈ before.availableAfter before.code)
variable (count : ∀ count, kind.operandCount? = some count → operands.length = count)

include growing spelled available count

/-- An operation that is appended. -/
theorem Appends.append {types : List TensorType} {id : OperationId}
    (results : types.length = kind.resultCount)
    (success : Edit.append kind operands types location before = .ok id after) :
    ∃ operation, Appends before after [operation] ∧ after.resultTypes = before.resultTypes ∧
      operation.kind = kind ∧ operation.operands = operands ∧
      after.operation? id = some operation := by
  have stocked := growing.stocked.append spelled success
  have recorded := Edit.append_recorded growing.recorded success
  obtain ⟨rfl, listed, code_eq, extension, -⟩ := growing.linked.toListed.append success
  have new_mem : before.nextOperation kind operands types.length location ∈ after.code := by
    rw [code_eq]
    exact List.mem_append_right _ (List.mem_singleton_self _)
  have dominated : Dominated after.arguments after.code := by
    rw [code_eq, extension.arguments, Dominated.append_iff]
    exact ⟨growing.linked.dominated, available, trivial⟩
  refine ⟨_, ⟨⟨⟨listed, dominated⟩, recorded, stocked⟩, code_eq, extension.name,
    extension.arguments, ?_⟩, extension.resultTypes, rfl, rfl, listed.operation?_of_mem new_mem⟩
  intro operation member
  obtain rfl := List.mem_singleton.mp member
  refine ⟨count, ?_⟩
  change (before.freshValues types.length).length = kind.resultCount
  rw [← results, Function.freshValues, List.length_map, List.length_range']

/-- An operation that is appended for its value. -/
theorem Continues.appendValue {type : TensorType} {id : ValueId} (results : kind.resultCount = 1)
    (success : Edit.appendValue kind operands type location before = .ok id after) :
    ∃ operation, Continues before after [operation] ∧ operation.kind = kind ∧
      operation.operands = operands ∧ operation.results = [id] ∧
      id ∈ after.availableAfter after.code := by
  simp only [Edit.appendValue, EStateM.bind_eq_ok_iff, Edit.query_eq_ok_iff,
    Edit.lift_eq_ok_iff] at success
  obtain ⟨new, _, appended, found, _, ⟨found_eq, rfl⟩, result_eq, rfl⟩ := success
  obtain ⟨operation, appends, resultTypes_eq, kind_eq, operands_eq, operation_eq⟩ :=
    Appends.append growing spelled available count (show [type].length = _ from results.symm)
      appended
  obtain rfl := Option.some.inj (operation_eq.symm.trans (Outcome.promised_eq_ok_iff.mp found_eq))
  have results_eq := Operation.result_eq_ok_iff.mp result_eq
  have proceeds : operation.kind.isLeave = false := by
    rw [kind_eq]
    cases kind <;> first | rfl | cases results
  refine ⟨operation, ⟨appends, resultTypes_eq, List.forall_mem_singleton.mpr proceeds⟩, kind_eq,
    operands_eq, results_eq, ?_⟩
  rw [Function.availableAfter, appends.code_eq, List.flatMap_append, List.flatMap_singleton,
    results_eq]
  exact List.mem_append_right _ (List.mem_append_right _ (List.mem_singleton_self _))

end Operations

end Appended

/-! ### Evaluations of operations -/

/-- Calls of functions print and return what calls in dataflow do. -/
def CallsAgree (calls : Calls) (functionCalls : FunctionCalls) : Prop :=
  ∀ name values effects, calls name values = .ok effects → ∀ printed,
    functionCalls name values printed =
      .ok (effects.values[0]?.join, printed ++ effects.printed)

/-- Under every assignment that solves the operations, the evaluation prints what they print and
gives a value of the assignment. -/
def Realizes {α : Type} (code : List Operation)
    (evaluation : FunctionCalls → Environment → Evaluation α) (value : Environment → α) : Prop :=
  ∀ calls functionCalls assignment, CallsAgree calls functionCalls →
    Solves calls assignment code → ∀ printed,
      evaluation functionCalls assignment printed =
        .ok (value assignment, printed ++ printedBy calls assignment code)

namespace Realizes

variable {α β : Type} {code more : List Operation} {operation : Operation} {id : ValueId}

theorem pure (value : Environment → α) :
    Realizes [] (fun _ assignment => Pure.pure (value assignment)) value := by
  intro calls functionCalls assignment agree solves printed
  rw [printedBy, List.flatMap_nil, List.append_nil]
  rfl

theorem bind {evaluation : FunctionCalls → Environment → Evaluation α}
    {next : FunctionCalls → Environment → α → Evaluation β}
    {value : Environment → α} {result : Environment → β} (early : Realizes code evaluation value)
    (late :
      Realizes more (fun calls assignment => next calls assignment (value assignment)) result) :
    Realizes (code ++ more)
      (fun calls assignment => evaluation calls assignment >>= next calls assignment) result := by
  intro calls functionCalls assignment agree solves printed
  rw [Solves, List.forall_mem_append] at solves
  refine StateT.bind_eq_ok_iff.mpr
    ⟨_, _, early calls functionCalls assignment agree solves.1 printed, ?_⟩
  refine (late calls functionCalls assignment agree solves.2 _).trans ?_
  rw [printedBy, printedBy, printedBy, List.flatMap_append, List.append_assoc]

theorem map {evaluation : FunctionCalls → Environment → Evaluation α}
    {value : Environment → α} (early : Realizes code evaluation value)
    (change : Environment → α → β) :
    Realizes code (fun calls assignment => do
      return change assignment (← evaluation calls assignment))
      fun assignment => change assignment (value assignment) := by
  rw [← List.append_nil code]
  exact early.bind (.pure _)

/-- An operation that computes its value from tensors. -/
theorem computation {evaluation : FunctionCalls → Environment → Evaluation (Option Tensor)}
    (computes : operation.kind.computes = true) (results_eq : operation.results = [id])
    (evaluates : ∀ functionCalls assignment tensors tensor,
      operation.operands.map assignment = tensors.map some →
      operation.kind.compute? tensors = some tensor →
      evaluation functionCalls assignment = Pure.pure (some tensor)) :
    Realizes [operation] evaluation fun assignment => assignment id := by
  intro calls functionCalls assignment agree solves printed
  obtain ⟨effects, effects_eq, defined⟩ := solves operation (List.mem_singleton_self _)
  obtain ⟨tensors, tensor, read, computed, rfl⟩ :=
    (OperationKind.perform_eq_ok_iff computes).mp effects_eq
  have value_eq : assignment id = some tensor := by
    rw [defined id (by simp [results_eq]), results_eq, Environment.define_singleton]
    rfl
  have silent : printedBy calls assignment [operation] = [] := by
    rw [printedBy, List.flatMap_singleton, Operation.printed_of_effects effects_eq]
  change evaluation functionCalls assignment printed = .ok (assignment id, _)
  rw [evaluates functionCalls assignment tensors tensor read computed, value_eq, silent,
    List.append_nil]
  rfl

/-- A call of a function. -/
theorem call {name : String} (kind_eq : operation.kind = .call name)
    (results_eq : operation.results = [id]) :
    Realizes [operation]
      (fun functionCalls assignment => functionCalls name (operation.operands.map assignment))
      fun assignment => assignment id := by
  intro calls functionCalls assignment agree solves printed
  obtain ⟨effects, effects_eq, defined⟩ := solves operation (List.mem_singleton_self _)
  have printed_eq := Operation.printed_of_effects effects_eq
  rw [Operation.effects, kind_eq] at effects_eq
  refine (agree name _ effects effects_eq printed).trans ?_
  change _ = Except.ok (assignment id, _)
  rw [defined id (by simp [results_eq]), results_eq, Environment.define_singleton, printedBy,
    List.flatMap_singleton, printed_eq]

/-- A print. -/
theorem print (kind_eq : operation.kind = .print) {operand : ValueId}
    (operands_eq : operation.operands = [operand]) :
    Realizes [operation]
      (fun _ assignment => do Evaluation.print (← Evaluation.read (assignment operand)))
      fun _ => () := by
  intro calls functionCalls assignment agree solves printed
  obtain ⟨effects, effects_eq, -⟩ := solves operation (List.mem_singleton_self _)
  have printed_eq := Operation.printed_of_effects effects_eq
  simp only [Operation.effects, kind_eq, operands_eq, OperationKind.perform, Except.bind_eq_ok_iff,
    Except.pure_eq_ok_iff, present_eq_ok_iff] at effects_eq
  obtain ⟨tensors, read, rfl⟩ := effects_eq
  obtain ⟨tensor, rfl, value_eq⟩ := List.map_eq_singleton_iff.mp read.symm
  simp only [printedBy, List.flatMap_singleton, printed_eq, ← value_eq]
  rfl

end Realizes

/-! ### Scopes -/

/-- The bindings of a scope under an assignment. -/
def Scope.bindings (scope : Scope) (assignment : Environment) : Bindings where
  parameters := scope.parameters.map fun (name, id) => (name, assignment id)
  declared := scope.declared.map fun (name, id) => (name, assignment id)

theorem lookup_map_assignment (assignment : Environment) (name : String)
    (entries : List (String × ValueId)) :
    (entries.map fun (name, id) => (name, assignment id)).lookup name =
      (entries.lookup name).map assignment := by
  induction entries with
  | nil => rfl
  | cons entry rest induction =>
      obtain ⟨key, id⟩ := entry
      rw [List.map_cons, List.lookup_cons, List.lookup_cons, induction]
      split <;> rfl

private theorem Scope.find?_bindings (scope : Scope) (assignment : Environment) (name : String) :
    (scope.bindings assignment).find? name = (scope.find? name).map assignment := by
  rw [Bindings.find?, Scope.find?, bindings, lookup_map_assignment, lookup_map_assignment]
  cases scope.declared.lookup name <;> rfl

/-- The names of a scope stand for some of the values. -/
def Scope.Within (scope : Scope) (values : List ValueId) : Prop :=
  ∀ entry ∈ scope.declared ++ scope.parameters, entry.2 ∈ values

namespace Scope.Within

variable {scope : Scope} {values others : List ValueId}

theorem mono (visible : scope.Within values) (subset : values ⊆ others) : scope.Within others :=
  fun entry member => subset (visible entry member)

theorem bindVariable (visible : scope.Within values) (name : String) {value : ValueId}
    (member : value ∈ values) : (scope.bindVariable name value).Within values :=
  List.forall_mem_cons.mpr ⟨member, visible⟩

theorem find? (visible : scope.Within values) {name : String} {value : ValueId}
    (found : scope.find? name = some value) : value ∈ values := by
  have lookups : ∀ entries : List (String × ValueId), entries.lookup name = some value →
      (name, value) ∈ entries := by
    intro entries found
    obtain ⟨front, back, rfl, -⟩ := List.lookup_eq_some_iff.mp found
    exact List.mem_append_right _ List.mem_cons_self
  rcases Option.or_eq_some_iff.mp found with declared | ⟨-, parameter⟩
  · exact visible _ (List.mem_append_left _ (lookups _ declared))
  · exact visible _ (List.mem_append_right _ (lookups _ parameter))

end Scope.Within

/-- Only the built-in name refers to the transposition. -/
def Callees.Reserved (callees : Callees) : Prop :=
  ∀ name target, callees.lookup name = some target →
    (target = .transpose ↔ name = transposeName)

/-! ### Expressions -/

section Expressions

variable {context : Context} {scope : Scope}

mutual

/-- The operations of an expression do what its evaluation does. -/
theorem appendExpression_eq_ok (reserved : context.callees.Reserved) {before after : Function}
    {id : ValueId} (growing : before.Growing)
    (visible : scope.Within (before.availableAfter before.code)) :
    (expression : Expression) → expression.Unsigned →
      appendExpression context scope expression before = .ok id after →
      ∃ new, Continues before after new ∧ id ∈ after.availableAfter after.code ∧
        Realizes new (fun calls assignment =>
          expression.evaluate calls (scope.bindings assignment)) fun assignment => assignment id
  | .literal literal, unsigned, success => by
      simp only [appendExpression, EStateM.bind_eq_ok_iff, Edit.lift_eq_ok_iff] at success
      obtain ⟨location, _, ⟨-, rfl⟩, value, _, ⟨value_eq, rfl⟩, success⟩ := success
      obtain ⟨tensor_eq, value_unsigned, counted⟩ := tensorLiteral_eq_ok value_eq
      cases unsigned with
      | literal unsigned =>
          have spelled : OperationKind.Spelled (.constant value) :=
            ⟨value_unsigned unsigned, counted⟩
          obtain ⟨operation, appends, kind_eq, operands_eq, results_eq, available⟩ :=
            Continues.appendValue growing spelled (by simp)
              (by simp [OperationKind.operandCount?]) rfl success
          refine ⟨_, appends, available, .computation (by rw [kind_eq]; rfl) results_eq ?_⟩
          intro functionCalls assignment tensors tensor read computed
          rw [operands_eq] at read
          obtain rfl := List.map_eq_nil_iff.mp read.symm
          rw [kind_eq] at computed
          obtain rfl := Option.some.inj computed
          rw [Expression.evaluate, tensor_eq, Evaluation.fitting, pure_bind]
  | .identifier name, _, success => by
      cases found : scope.find? name.name with
      | some value =>
          simp only [appendExpression, found] at success
          obtain ⟨rfl, rfl⟩ := EStateM.pure_eq_ok_iff.mp success
          refine ⟨[], .refl growing, visible.find? found, ?_⟩
          simp only [Expression.evaluate, Scope.find?_bindings, found, Option.map_some]
          exact .pure _
      | none =>
          simp only [appendExpression, found, EStateM.bind_eq_ok_iff,
            Edit.lift_eq_ok_iff] at success
          obtain ⟨_, _, -, refused, -⟩ := success
          cases refused
  | .binary _ left operator _ right, unsigned, success => by
      simp only [appendExpression, EStateM.bind_eq_ok_iff, Edit.lift_eq_ok_iff] at success
      obtain ⟨first, _, left_eq, second, _, right_eq, location, _, ⟨-, rfl⟩, success⟩ := success
      cases unsigned with
      | binary left_unsigned right_unsigned =>
          obtain ⟨_, left_appends, left_available, left_realizes⟩ :=
            appendExpression_eq_ok reserved growing visible left left_unsigned left_eq
          obtain ⟨_, right_appends, right_available, right_realizes⟩ :=
            appendExpression_eq_ok reserved left_appends.growing
              (visible.mono left_appends.available_subset) right right_unsigned right_eq
          obtain ⟨operation, appends, kind_eq, operands_eq, results_eq, available⟩ :=
            Continues.appendValue right_appends.growing
              (by cases operator <;> exact ⟨trivial, trivial⟩)
              (by simp [right_appends.available_subset left_available, right_available])
              (by cases operator <;> simp [kindOf, OperationKind.operandCount?])
              (by cases operator <;> rfl) success
          refine ⟨_, left_appends.trans (right_appends.trans appends), available, ?_⟩
          simp only [Expression.evaluate]
          refine left_realizes.bind (right_realizes.bind (.computation ?_ results_eq ?_))
          · rw [kind_eq]
            cases operator <;> rfl
          · intro functionCalls assignment tensors tensor read computed
            rw [operands_eq] at read
            obtain ⟨x, y, rfl⟩ : ∃ x y, tensors = [x, y] := by
              rcases tensors with _ | ⟨x, _ | ⟨y, _ | ⟨z, rest⟩⟩⟩ <;> simp_all
            simp only [List.map_cons, List.map_nil, List.cons.injEq, and_true] at read
            have applied : operator.apply? x y = some tensor := by
              rw [kind_eq] at computed
              cases operator <;> exact computed
            simp only [read.1, read.2, Evaluation.read, applied, Evaluation.fitting, pure_bind]
  | .call _ callee arguments, unsigned, success => by
      cases found : context.callees.lookup callee.name with
      | none =>
          simp only [appendExpression, found, EStateM.bind_eq_ok_iff,
            Edit.lift_eq_ok_iff] at success
          obtain ⟨_, _, -, _, _, -, refused, -⟩ := success
          cases refused
      | some target =>
          simp only [appendExpression, found, EStateM.bind_eq_ok_iff,
            Edit.lift_eq_ok_iff] at success
          obtain ⟨location, _, ⟨-, rfl⟩, success⟩ := success
          split at success
          · obtain ⟨refused, -⟩ := Edit.lift_eq_ok_iff.mp success
            cases refused
          · rename_i count
            simp only [EStateM.bind_eq_ok_iff] at success
            obtain ⟨operands, _, arguments_eq, success⟩ := success
            cases unsigned with
            | call unsigned =>
                obtain ⟨length_eq, _, early, arguments_available, arguments_realize⟩ :=
                  appendExpressions_eq_ok reserved growing visible arguments unsigned arguments_eq
                rw [Decidable.not_not.mp count] at length_eq
                obtain ⟨operation, appends, kind_eq, rfl, results_eq, available⟩ :=
                  Continues.appendValue early.growing (by cases target <;> exact ⟨trivial, trivial⟩)
                    arguments_available
                    (by cases target <;> simp_all [Callee.kind, OperationKind.operandCount?,
                      Callee.arity])
                    (by cases target <;> rfl) success
                refine ⟨_, early.trans appends, available, ?_⟩
                cases target with
                | transpose =>
                    have name_eq := (reserved callee.name .transpose found).mp rfl
                    simp only [Expression.evaluate, if_pos name_eq]
                    refine arguments_realize.bind
                      (.computation (by rw [kind_eq]; rfl) results_eq ?_)
                    intro functionCalls assignment tensors tensor read computed
                    obtain ⟨x, rfl⟩ : ∃ x, tensors = [x] := by
                      have lengths := congrArg List.length read
                      rw [List.length_map, List.length_map, length_eq] at lengths
                      exact List.length_eq_one_iff.mp lengths.symm
                    rw [kind_eq] at computed
                    obtain rfl := Option.some.inj computed
                    rw [read]
                    rfl
                | function arity =>
                    have name_ne : callee.name ≠ transposeName := fun same =>
                      nomatch (reserved callee.name _ found).mpr same
                    simp only [Expression.evaluate, if_neg name_ne]
                    exact arguments_realize.bind (.call kind_eq results_eq)

/-- The operations of several expressions do what their evaluation does. -/
theorem appendExpressions_eq_ok (reserved : context.callees.Reserved) {before after : Function}
    {ids : List ValueId} (growing : before.Growing)
    (visible : scope.Within (before.availableAfter before.code)) :
    (expressions : List Expression) → (∀ expression ∈ expressions, expression.Unsigned) →
      appendExpressions context scope expressions before = .ok ids after →
      ids.length = expressions.length ∧ ∃ new, Continues before after new ∧
        (∀ id ∈ ids, id ∈ after.availableAfter after.code) ∧
        Realizes new (fun calls assignment =>
          Expression.evaluateAll calls (scope.bindings assignment) expressions)
          fun assignment => ids.map assignment
  | [], _, success => by
      obtain ⟨rfl, rfl⟩ := EStateM.pure_eq_ok_iff.mp success
      exact ⟨rfl, [], .refl growing, by simp, .pure _⟩
  | expression :: rest, unsigned, success => by
      simp only [appendExpressions, EStateM.bind_eq_ok_iff, EStateM.pure_eq_ok_iff] at success
      obtain ⟨first, _, first_eq, others, _, rest_eq, rfl, rfl⟩ := success
      rw [List.forall_mem_cons] at unsigned
      obtain ⟨_, early, first_available, first_realizes⟩ :=
        appendExpression_eq_ok reserved growing visible expression unsigned.1 first_eq
      obtain ⟨count, _, late, rest_available, rest_realizes⟩ := appendExpressions_eq_ok reserved
        early.growing (visible.mono early.available_subset) rest unsigned.2 rest_eq
      refine ⟨by rw [List.length_cons, List.length_cons, count], _, early.trans late,
        List.forall_mem_cons.mpr ⟨late.available_subset first_available, rest_available⟩, ?_⟩
      simp only [Expression.evaluateAll]
      exact first_realizes.bind (rest_realizes.map fun assignment values =>
        assignment first :: values)

end

end Expressions

end Dataflow

end TensorLang
