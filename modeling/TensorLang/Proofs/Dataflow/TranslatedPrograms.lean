import TensorLang.Proofs.Dataflow.Translation

/-!
# Functions and programs in dataflow

The dataflow of a function body ends with the operation that returns, and the values that it reads
are those that the function returns.  Calls of a dataflow module do what calls of the program do.
-/

namespace TensorLang

namespace Dataflow

/-! ### Statements -/

/-- The result types say nothing about the operations. -/
theorem Function.Growing.withResultTypes {function : Function} (growing : function.Growing)
    (types : List TensorType) : Function.Growing { function with resultTypes := types } :=
  ⟨⟨⟨⟨growing.linked.live, growing.linked.nodup, growing.linked.recorded⟩,
    growing.linked.known, growing.linked.distinct, growing.linked.existing⟩,
    growing.linked.dominated⟩,
    ⟨growing.recorded.live, growing.recorded.nodup, growing.recorded.argumentsDefined,
      growing.recorded.resultsDefined, growing.recorded.users⟩, growing.stocked⟩

/-- A return prints nothing. -/
theorem Realizes.leave {α : Type} {code : List Operation} {operation : Operation}
    {evaluation : FunctionCalls → Environment → Evaluation α} {value : Environment → α}
    (early : Realizes code evaluation value) (kind_eq : operation.kind = .leave) :
    Realizes (code ++ [operation]) evaluation value := by
  intro calls functionCalls assignment agree solves printed
  rw [Solves, List.forall_mem_append] at solves
  have silent : printedBy calls assignment [operation] = [] := by
    rw [printedBy, List.flatMap_singleton, Operation.printed, Operation.effects, kind_eq]
    rfl
  rw [printedBy, List.flatMap_append, ← printedBy, ← printedBy, silent, List.append_nil]
  exact early calls functionCalls assignment agree solves.1 printed

section Statements

variable {context : Context} {scope after_scope : Scope} {before after : Function}

/-- The elements of a declared shape can be counted. -/
theorem checkShapeClause_eq_ok {declaration : Declaration} {clause : ShapeClause}
    (success : checkShapeClause context declaration clause = .ok ()) :
    OperationKind.Spelled (.reshape ⟨clause.dimensions⟩) := by
  refine ⟨trivial, ?_⟩
  rw [OperationKind.Counted, Option.isSome_iff_ne_none]
  intro uncounted
  simp only [checkShapeClause, uncounted, Except.bind_eq_ok_iff] at success
  obtain ⟨_, -, refused⟩ := success
  cases refused

theorem appendDeclaration_eq_ok (reserved : context.callees.Reserved) (growing : before.Growing)
    (visible : scope.Within (before.availableAfter before.code)) {declaration : Declaration}
    (unsigned : declaration.initializer.Unsigned)
    (success : appendDeclaration context scope declaration before = .ok after_scope after) :
    ∃ id new, after_scope = scope.bindVariable declaration.name.name id ∧
      Continues before after new ∧ id ∈ after.availableAfter after.code ∧
      Realizes new (fun calls assignment =>
        declaration.evaluate calls (scope.bindings assignment))
        fun assignment => assignment id := by
  cases found : scope.declared.lookup declaration.name.name with
  | some _ =>
      simp only [appendDeclaration, found, EStateM.bind_eq_ok_iff, Edit.lift_eq_ok_iff] at success
      obtain ⟨_, _, -, refused, -⟩ := success
      cases refused
  | none =>
      simp only [appendDeclaration, found, EStateM.bind_eq_ok_iff] at success
      obtain ⟨value, _, value_eq, success⟩ := success
      obtain ⟨_, early, available, realizes⟩ :=
        appendExpression_eq_ok reserved growing visible declaration.initializer unsigned value_eq
      cases shape_eq : declaration.shape with
      | none =>
          simp only [shape_eq, EStateM.pure_eq_ok_iff] at success
          obtain ⟨rfl, rfl⟩ := success
          refine ⟨value, _, rfl, early, available, ?_⟩
          simp only [Declaration.evaluate, shape_eq, bind_pure]
          exact realizes
      | some clause =>
          simp only [shape_eq, EStateM.bind_eq_ok_iff, Edit.lift_eq_ok_iff,
            EStateM.pure_eq_ok_iff] at success
          obtain ⟨_, _, ⟨checked, rfl⟩, _, _, ⟨-, rfl⟩, reshaped, _, appended, rfl, rfl⟩ := success
          obtain ⟨operation, appends, kind_eq, operands_eq, results_eq, reshaped_available⟩ :=
            Continues.appendValue early.growing (checkShapeClause_eq_ok checked)
              (List.forall_mem_singleton.mpr available) (by simp [OperationKind.operandCount?]) rfl
              appended
          refine ⟨reshaped, _, rfl, early.trans appends, reshaped_available, ?_⟩
          simp only [Declaration.evaluate, shape_eq]
          refine realizes.bind (.computation (by rw [kind_eq]; rfl) results_eq ?_)
          intro functionCalls assignment tensors tensor read computed
          rw [operands_eq] at read
          obtain ⟨x, rfl, value_eq⟩ := List.map_eq_singleton_iff.mp read.symm
          rw [kind_eq] at computed
          have reshaped_eq : x.reshape? ⟨clause.dimensions⟩ = some tensor := computed
          simp only [← value_eq, Evaluation.read, reshaped_eq, Evaluation.fitting, pure_bind]

theorem appendReturn_eq_ok {middle : Function} {first : List Operation} {operands : List ValueId}
    {evaluation : FunctionCalls → Environment → Evaluation (Option Tensor)}
    {value : Environment → Option Tensor} {location : Location} {id : OperationId}
    (early : Continues before middle first) (realizes : Realizes first evaluation value)
    (available : ∀ operand ∈ operands, operand ∈ middle.availableAfter middle.code)
    (count : operands.length = before.resultTypes.length)
    (value_eq : ∀ assignment, (operands.map assignment)[0]?.join = value assignment)
    (success : Edit.append .leave operands [] location middle = .ok id after) :
    ∃ new, Completes before after new ∧
      Realizes new evaluation fun assignment => (returnedBy assignment new)[0]?.join := by
  obtain ⟨operation, appends, resultTypes_eq, kind_eq, rfl, -⟩ :=
    Appends.append early.growing (by exact ⟨trivial, trivial⟩) available
      (by simp [OperationKind.operandCount?]) rfl success
  have completes : Completes middle after [operation] :=
    ⟨appends, by rw [Ending, kind_eq]; rfl, List.forall_mem_singleton.mpr fun _ => by
      rw [resultTypes_eq, early.resultTypes, count]⟩
  refine ⟨first ++ [operation], early.completes completes, ?_⟩
  have returned : (fun assignment => (returnedBy assignment (first ++ [operation]))[0]?.join) =
      value := by
    funext assignment
    rw [returnedBy_append _ _ (by simp), ← value_eq assignment]
    rfl
  rw [returned]
  exact realizes.leave kind_eq

/-- The operations of statements do what the statements do, up to the return. -/
theorem appendStatements_eq_ok (reserved : context.callees.Reserved) (growing : before.Growing)
    (visible : scope.Within (before.availableAfter before.code))
    (undeclared : before.resultTypes = []) {statements : List Statement}
    (unsigned : ∀ statement ∈ statements, statement.action.Unsigned)
    (success : appendStatements context scope statements before = .ok () after) :
    ∃ new, Completes before after new ∧
      Realizes new (fun calls assignment =>
        evaluateStatements calls (scope.bindings assignment) statements)
        fun assignment => (returnedBy assignment new)[0]?.join := by
  induction statements generalizing scope before with
  | nil =>
      simp only [appendStatements, EStateM.bind_eq_ok_iff, EStateM.get_eq_ok_iff,
        EStateM.pure_eq_ok_iff] at success
      obtain ⟨_, _, ⟨rfl, rfl⟩, _, _, appended, -, rfl⟩ := success
      simp only [evaluateStatements]
      exact appendReturn_eq_ok (.refl growing) (.pure fun _ => none) (by simp)
        (by rw [undeclared]; rfl) (fun _ => rfl) appended
  | cons statement rest induction =>
      rw [List.forall_mem_cons] at unsigned
      obtain ⟨statement_unsigned, rest_unsigned⟩ := unsigned
      simp only [appendStatements, appendStatement, EStateM.bind_eq_ok_iff,
        Edit.lift_eq_ok_iff] at success
      obtain ⟨between, _, ⟨location, _, ⟨-, rfl⟩, acted⟩, success⟩ := success
      cases action_eq : statement.action with
      | declare declaration =>
          rw [action_eq] at statement_unsigned
          simp only [action_eq, Action.leaves, Bool.false_eq_true, if_false] at acted success
          obtain ⟨id, first, rfl, early, available, realizes⟩ := appendDeclaration_eq_ok reserved
            growing visible (statement_unsigned _ (List.mem_singleton_self _)) acted
          obtain ⟨others, late, rest_realizes⟩ := induction early.growing
            ((visible.mono early.available_subset).bindVariable _ available)
            (early.resultTypes.trans undeclared) rest_unsigned success
          refine ⟨first ++ others, early.completes late, ?_⟩
          simp only [evaluateStatements, action_eq, returnedBy_append _ _ late.nonempty]
          exact realizes.bind rest_realizes
      | leave value =>
          rw [action_eq] at statement_unsigned
          simp only [action_eq, Action.leaves, if_true] at acted success
          cases rest with
          | cons next rest =>
              simp only [EStateM.bind_eq_ok_iff, Edit.lift_eq_ok_iff] at success
              obtain ⟨_, _, -, refused, -⟩ := success
              cases refused
          | nil =>
              obtain ⟨-, rfl⟩ := EStateM.pure_eq_ok_iff.mp success
              cases value with
              | none =>
                  simp only [EStateM.bind_eq_ok_iff, EStateM.pure_eq_ok_iff] at acted
                  obtain ⟨_, _, appended, -, rfl⟩ := acted
                  simp only [evaluateStatements, action_eq]
                  exact appendReturn_eq_ok (.refl growing) (.pure fun _ => none) (by simp)
                    (by rw [undeclared]; rfl) (fun _ => rfl) appended
              | some value =>
                  simp only [EStateM.bind_eq_ok_iff, EStateM.modify_eq_ok_iff,
                    EStateM.pure_eq_ok_iff] at acted
                  obtain ⟨_, _, rfl, id, _, value_eq, _, _, appended, -, rfl⟩ := acted
                  obtain ⟨first, early, available, realizes⟩ := appendExpression_eq_ok reserved
                    (growing.withResultTypes [.unranked]) visible value
                    (statement_unsigned _ (List.mem_singleton_self _)) value_eq
                  obtain ⟨new, completes, new_realizes⟩ := appendReturn_eq_ok early realizes
                    (List.forall_mem_singleton.mpr available) rfl (fun _ => rfl) appended
                  simp only [evaluateStatements, action_eq]
                  exact ⟨new, ⟨⟨completes.growing, completes.code_eq, completes.name,
                    completes.arguments, completes.proper⟩, completes.ending, completes.returns⟩,
                    new_realizes⟩
      | print value =>
          rw [action_eq] at statement_unsigned
          simp only [action_eq, Action.leaves, Bool.false_eq_true, if_false,
            EStateM.bind_eq_ok_iff, EStateM.pure_eq_ok_iff] at acted success
          obtain ⟨id, _, value_eq, _, _, appended, rfl, rfl⟩ := acted
          obtain ⟨first, early, available, realizes⟩ := appendExpression_eq_ok reserved growing
            visible value (statement_unsigned _ (List.mem_singleton_self _)) value_eq
          obtain ⟨operation, appends, resultTypes_eq, kind_eq, operands_eq, -⟩ :=
            Appends.append early.growing (by exact ⟨trivial, trivial⟩)
              (List.forall_mem_singleton.mpr available) (by simp [OperationKind.operandCount?]) rfl
              appended
          have prints : Continues _ _ [operation] :=
            ⟨appends, resultTypes_eq, List.forall_mem_singleton.mpr (by rw [kind_eq]; rfl)⟩
          have both := early.trans prints
          obtain ⟨others, late, rest_realizes⟩ := induction prints.growing
            (visible.mono both.available_subset) (both.resultTypes.trans undeclared) rest_unsigned
            success
          refine ⟨first ++ ([operation] ++ others), early.completes (prints.completes late), ?_⟩
          simp only [evaluateStatements, action_eq,
            returnedBy_append _ first (show [operation] ++ others ≠ [] by simp),
            returnedBy_append _ [operation] late.nonempty]
          refine realizes.bind ?_
          simp only [← bind_assoc]
          exact (Realizes.print kind_eq operands_eq).bind rest_realizes
      | evaluate expression =>
          rw [action_eq] at statement_unsigned
          simp only [action_eq, Action.leaves, Bool.false_eq_true, if_false,
            EStateM.bind_eq_ok_iff, EStateM.pure_eq_ok_iff] at acted success
          obtain ⟨id, _, value_eq, rfl, rfl⟩ := acted
          obtain ⟨first, early, available, realizes⟩ := appendExpression_eq_ok reserved growing
            visible expression (statement_unsigned _ (List.mem_singleton_self _)) value_eq
          obtain ⟨others, late, rest_realizes⟩ := induction early.growing
            (visible.mono early.available_subset) (early.resultTypes.trans undeclared)
            rest_unsigned success
          refine ⟨first ++ others, early.completes late, ?_⟩
          simp only [evaluateStatements, action_eq, returnedBy_append _ _ late.nonempty]
          exact realizes.bind rest_realizes

/-- A statement that does not leave the function lets others follow. -/
theorem continues_of_appendStatement (reserved : context.callees.Reserved)
    (growing : before.Growing) (visible : scope.Within (before.availableAfter before.code))
    {statement : Statement} (unsigned : statement.action.Unsigned)
    (proceeds : statement.action.leaves = false) {after_scope : Scope} {after : Function}
    (success : appendStatement context scope statement before = .ok after_scope after) :
    ∃ new, Continues before after new ∧ after_scope.Within (after.availableAfter after.code) := by
  simp only [appendStatement, EStateM.bind_eq_ok_iff, Edit.lift_eq_ok_iff] at success
  obtain ⟨location, _, ⟨-, rfl⟩, acted⟩ := success
  cases action_eq : statement.action with
  | declare declaration =>
      rw [action_eq] at unsigned
      simp only [action_eq] at acted
      obtain ⟨id, new, rfl, continues, available, -⟩ := appendDeclaration_eq_ok reserved growing
        visible (unsigned _ (List.mem_singleton_self _)) acted
      exact ⟨new, continues,
        (visible.mono continues.available_subset).bindVariable _ available⟩
  | leave value =>
      rw [action_eq] at proceeds
      cases proceeds
  | print value =>
      rw [action_eq] at unsigned
      simp only [action_eq, EStateM.bind_eq_ok_iff, EStateM.pure_eq_ok_iff] at acted
      obtain ⟨id, _, value_eq, _, _, appended, rfl, rfl⟩ := acted
      obtain ⟨_, early, available, -⟩ := appendExpression_eq_ok reserved growing visible value
        (unsigned _ (List.mem_singleton_self _)) value_eq
      obtain ⟨operation, appends, resultTypes_eq, kind_eq, -⟩ :=
        Appends.append early.growing (by exact ⟨trivial, trivial⟩)
          (List.forall_mem_singleton.mpr available) (by simp [OperationKind.operandCount?]) rfl
          appended
      have both := early.trans
        ⟨appends, resultTypes_eq, List.forall_mem_singleton.mpr (by rw [kind_eq]; rfl)⟩
      exact ⟨_, both, visible.mono both.available_subset⟩
  | evaluate expression =>
      rw [action_eq] at unsigned
      simp only [action_eq, EStateM.bind_eq_ok_iff, EStateM.pure_eq_ok_iff] at acted
      obtain ⟨id, _, value_eq, rfl, rfl⟩ := acted
      obtain ⟨new, continues, -⟩ := appendExpression_eq_ok reserved growing visible expression
        (unsigned _ (List.mem_singleton_self _)) value_eq
      exact ⟨new, continues, visible.mono continues.available_subset⟩

end Statements

/-! ### Functions -/

section Functions

variable {context : Context} {before after : Function}

theorem pushArgument_eq_ok {type : TensorType} {id : ValueId} (growing : before.Growing)
    (success : Edit.pushArgument type before = .ok id after) :
    after.Growing ∧ after.code = before.code ∧ after.name = before.name ∧
      after.arguments = before.arguments ++ [id] ∧ after.resultTypes = before.resultTypes := by
  cases success
  obtain ⟨linked, recorded, stocked⟩ := growing
  have rearranged : ((before.arguments ++ [before.values.nextId]) ++
      before.code.flatMap Operation.results).Perm
        (before.values.nextId :: before.availableAfter before.code) := by
    rw [List.append_assoc, List.singleton_append]
    exact List.perm_middle
  have defined : ∀ id ∈ before.availableAfter before.code,
      (before.pushArgument type).1.definition? id = before.definition? id := by
    intro id member
    have small := linked.known id member
    rw [Function.definition?, Function.definition?]
    change ((before.values.push _).get? id).map _ = _
    rw [Arena.get?_push, if_neg]
    rintro rfl
    exact Nat.lt_irrefl _ small
  refine ⟨⟨⟨?_, linked.dominated.mono (List.subset_append_left _ _)⟩, ?_, stocked⟩, rfl, rfl, rfl,
    rfl⟩
  · exact {
      live := linked.live
      nodup := linked.nodup
      recorded := linked.recorded
      known := by
        intro id member
        change id.index < (before.values.push _).size
        rw [Arena.size_push]
        rcases List.mem_cons.mp (rearranged.mem_iff.mp member) with rfl | defined
        · exact Nat.lt_succ_self _
        · exact Nat.lt_succ_of_lt (linked.known id defined)
      distinct := by
        refine rearranged.nodup_iff.mpr (List.nodup_cons.mpr ⟨fun member => ?_, linked.distinct⟩)
        exact Nat.lt_irrefl _ (linked.known _ member)
      existing := by
        intro operation member operand reads
        change operand.index < (before.values.push _).size
        rw [Arena.size_push]
        exact Nat.lt_succ_of_lt (linked.existing operation member operand reads) }
  · exact {
      live := recorded.live
      nodup := recorded.nodup
      argumentsDefined := by
        intro position argument found
        change (before.arguments ++ [before.values.nextId])[position]? = some argument at found
        rw [List.getElem?_append] at found
        split at found
        · exact (defined argument (List.mem_append_left _ (List.mem_of_getElem? found))).trans
            (recorded.argumentsDefined position argument found)
        · rename_i beyond
          obtain ⟨last, rfl⟩ := List.getElem?_eq_some_iff.mp found
          rw [List.length_singleton] at last
          have position_eq : position = before.arguments.length := by omega
          rw [List.getElem_singleton, Function.definition?]
          change ((before.values.push _).get? before.values.nextId).map _ = _
          rw [Arena.get?_push, if_pos rfl, position_eq]
          rfl
      resultsDefined := by
        intro operation member position result found
        exact (defined result (List.mem_append_right _ (List.mem_flatMap.mpr
          ⟨operation, member, List.mem_of_getElem? found⟩))).trans
          (recorded.resultsDefined operation member position result found)
      users := recorded.users }

private theorem declareParameters_eq_ok {scope after_scope : Scope} {parameters : List Identifier}
    (growing : before.Growing)
    (success : parameters.foldlM (declareParameter context) scope before =
      .ok after_scope after) :
    ∃ ids, ids.length = parameters.length ∧ after.Growing ∧ after.code = before.code ∧
      after.name = before.name ∧ after.arguments = before.arguments ++ ids ∧
      after.resultTypes = before.resultTypes ∧
      after_scope = { scope with
        parameters := ((parameters.map Identifier.name).zip ids).reverse ++ scope.parameters } := by
  induction parameters generalizing scope before with
  | nil =>
      obtain ⟨rfl, rfl⟩ := EStateM.pure_eq_ok_iff.mp success
      exact ⟨[], rfl, growing, rfl, rfl, by simp, rfl, rfl⟩
  | cons parameter rest induction =>
      rw [List.foldlM_cons, EStateM.bind_eq_ok_iff] at success
      obtain ⟨between, middle, declared, success⟩ := success
      cases found : scope.parameters.lookup parameter.name with
      | some _ =>
          simp only [declareParameter, found, EStateM.bind_eq_ok_iff,
            Edit.lift_eq_ok_iff] at declared
          obtain ⟨_, _, -, refused, -⟩ := declared
          cases refused
      | none =>
          simp only [declareParameter, found, EStateM.bind_eq_ok_iff,
            EStateM.pure_eq_ok_iff] at declared
          obtain ⟨id, _, pushed, rfl, rfl⟩ := declared
          obtain ⟨middle_growing, code_eq, name_eq, arguments_eq, resultTypes_eq⟩ :=
            pushArgument_eq_ok growing pushed
          obtain ⟨ids, count, after_growing, after_code, after_name, after_arguments,
            after_resultTypes, rfl⟩ := induction middle_growing success
          refine ⟨id :: ids, by rw [List.length_cons, List.length_cons, count], after_growing,
            after_code.trans code_eq, after_name.trans name_eq, ?_,
            after_resultTypes.trans resultTypes_eq, ?_⟩
          · rw [after_arguments, arguments_eq, List.append_assoc, List.singleton_append]
          · simp [Scope.bindParameter]

private theorem Function.growing_new (name : String) (location : Location) :
    (Function.new name location).Growing where
  linked := {
    live := by simp [Function.new]
    nodup := List.nodup_nil
    recorded := by simp [Function.code, Function.new]
    known := by simp [Function.availableAfter, Function.code, Function.new]
    distinct := List.nodup_nil
    existing := by simp [Function.code, Function.new]
    dominated := trivial }
  recorded := {
    live := by simp [Function.new]
    nodup := List.nodup_nil
    argumentsDefined := by simp [Function.new]
    resultsDefined := by simp [Function.code, Function.new]
    users := fun value => List.Perm.nil }
  stocked := fun id operation found => by cases found

/-- The parameters of a new function, and its scope. -/
theorem declareParameters_new {name : String} {location : Location} {scope : Scope}
    {parameters : List Identifier}
    (success : parameters.foldlM (declareParameter context) Scope.empty
      (Function.new name location) = .ok scope after) :
    ∃ ids, ids.length = parameters.length ∧ after.Growing ∧ after.code = [] ∧ after.name = name ∧
      after.arguments = ids ∧ after.resultTypes = [] ∧
      scope = ⟨((parameters.map Identifier.name).zip ids).reverse, []⟩ ∧
      scope.Within (after.availableAfter after.code) := by
  obtain ⟨ids, count, growing, code_eq, name_eq, arguments_eq, resultTypes_eq, rfl⟩ :=
    declareParameters_eq_ok (Function.growing_new _ _) success
  have arguments_eq : after.arguments = ids := arguments_eq
  refine ⟨ids, count, growing, code_eq, name_eq, arguments_eq, resultTypes_eq,
    by simp [Scope.empty], fun entry member => ?_⟩
  rw [Function.availableAfter, arguments_eq]
  refine List.mem_append_left _ ?_
  simp only [Scope.empty, List.nil_append, List.append_nil, List.mem_reverse] at member
  exact (List.of_mem_zip member).2

/-- A function is built by declaring its parameters and appending its statements. -/
theorem built_of_ofDefinition {definition : FunctionDefinition} {function : Function}
    (success : Function.ofDefinition context definition = .ok function) :
    ∃ location scope middle, definition.parameters.foldlM (declareParameter context) Scope.empty
        (Function.new definition.name.name location) = .ok scope middle ∧
      appendStatements context scope definition.body.statements middle = .ok () function := by
  simp only [Function.ofDefinition, Except.bind_eq_ok_iff] at success
  obtain ⟨location, -, success⟩ := success
  rw [Edit.outcome] at success
  split at success
  · rename_i built
    obtain ⟨_, -, returned⟩ := success
    obtain rfl := Except.pure_eq_ok_iff.mp returned
    obtain ⟨scope, middle, declared, appended⟩ := EStateM.bind_eq_ok_iff.mp built
    exact ⟨location, scope, middle, declared, appended⟩
  · obtain ⟨_, refused, -⟩ := success
    cases refused

/-- The function of a definition is in order, and does what the definition does. -/
theorem ofDefinition_eq_ok {definition : FunctionDefinition} {function : Function}
    (reserved : context.callees.Reserved) (unsigned : definition.Unsigned)
    (success : Function.ofDefinition context definition = .ok function) :
    function.name = definition.name.name ∧ function.Verified ∧ function.Proper ∧
      function.Stocked OperationKind.Spelled ∧
      Realizes function.code (fun calls assignment =>
        definition.evaluate calls (function.arguments.map assignment))
        fun assignment => (returnedBy assignment function.code)[0]?.join := by
  obtain ⟨location, scope, middle, declared, appended⟩ := built_of_ofDefinition success
  obtain ⟨ids, count, growing, code_eq, name_eq, middle_arguments, resultTypes_eq, rfl, visible⟩ :=
    declareParameters_new declared
  obtain ⟨new, completes, realizes⟩ :=
    appendStatements_eq_ok reserved growing visible resultTypes_eq unsigned appended
  have function_code : function.code = new := by
    rw [completes.code_eq, code_eq, List.nil_append]
  have function_arguments : function.arguments = ids :=
    completes.arguments.trans middle_arguments
  refine ⟨completes.name.trans name_eq, ⟨completes.growing.recorded,
    completes.growing.linked.dominated, function_code ▸ completes.ending,
    function_code ▸ completes.returns⟩, ?_, completes.growing.stocked, ?_⟩
  · rw [Function.Proper, function_code]
    exact completes.proper
  · rw [function_code, function_arguments]
    have bindings_eq : ∀ assignment, Bindings.ofArguments
        (definition.parameters.map Identifier.name) (ids.map assignment) =
          Scope.bindings ⟨((definition.parameters.map Identifier.name).zip ids).reverse, []⟩
            assignment := by
      intro assignment
      simp [Bindings.ofArguments, Scope.bindings, List.zip_map_right, Prod.map]
    simp only [FunctionDefinition.evaluate, List.length_map, count, if_true, bindings_eq]
    exact realizes

end Functions

/-! ### Programs -/

private theorem addCallees_reserved {source : Source} {definitions : List FunctionDefinition}
    {before after : Callees} (reserved : before.Reserved)
    (taken : before.lookup transposeName ≠ none)
    (success : definitions.foldlM (addCallee source) before = .ok after) : after.Reserved := by
  induction definitions generalizing before with
  | nil =>
      obtain rfl := Except.pure_eq_ok_iff.mp success
      exact reserved
  | cons definition rest induction =>
      rw [List.foldlM_cons, Except.bind_eq_ok_iff] at success
      obtain ⟨middle, added, success⟩ := success
      rw [addCallee] at added
      split at added
      · simp only [Except.bind_eq_ok_iff] at added
        obtain ⟨_, -, refused⟩ := added
        cases refused
      · rename_i free
        obtain rfl := Except.pure_eq_ok_iff.mp added
        have other_name : definition.name.name ≠ transposeName := fun same =>
          taken (same ▸ free)
        refine induction (fun name target found => ?_) ?_ success
        · rw [List.lookup_append] at found
          cases earlier : before.lookup name with
          | some known =>
              rw [earlier, Option.some_or] at found
              exact reserved name target (earlier.trans found)
          | none =>
              rw [earlier, Option.none_or, List.lookup_cons] at found
              split at found
              · rename_i same
                obtain rfl := Option.some.inj found
                rw [beq_iff_eq.mp same]
                exact iff_of_false (fun impossible => by cases impossible) other_name
              · cases found
        · rw [List.lookup_append]
          cases earlier : before.lookup transposeName with
          | some known => simp
          | none => exact absurd earlier taken

/-- The callees of a program reserve the built-in name. -/
theorem calleesOf_reserved {source : Source} {program : Program} {callees : Callees}
    (success : calleesOf source program = .ok callees) : callees.Reserved := by
  refine addCallees_reserved (fun name target found => ?_) (by simp) success
  rw [List.lookup_cons] at found
  split at found
  · rename_i same
    obtain rfl := Option.some.inj found
    exact iff_of_true rfl (beq_iff_eq.mp same)
  · cases found

/-- The functions of a module are those of the definitions, in order. -/
theorem addDefinitions_eq_ok {context : Context} {definitions : List FunctionDefinition}
    {before after : Module}
    (success : definitions.foldlM (fun module definition => do
      module.add (← Function.ofDefinition context definition)) before = .ok after) :
    ∃ added, after.functions = before.functions ++ added ∧
      definitions.map (Function.ofDefinition context) = added.map .ok := by
  induction definitions generalizing before with
  | nil =>
      obtain rfl := Except.pure_eq_ok_iff.mp success
      exact ⟨[], by simp, rfl⟩
  | cons definition rest induction =>
      simp only [List.foldlM_cons, Except.bind_eq_ok_iff] at success
      obtain ⟨middle, ⟨function, function_eq, added⟩, success⟩ := success
      obtain ⟨others, functions_eq, others_eq⟩ := induction success
      rw [Module.add] at added
      split at added
      · cases added
      · obtain rfl := Except.ok.inj added
        refine ⟨function :: others, ?_, ?_⟩
        · rw [functions_eq, List.append_assoc, List.singleton_append]
        · rw [List.map_cons, function_eq, others_eq, List.map_cons]

/-- The functions of a program's module are those of its definitions, in order. -/
theorem exists_callees_of_ofProgram {source : Source} {program : Program} {module : Module}
    (success : Module.ofProgram source program = .ok module) :
    ∃ callees, calleesOf source program = .ok callees ∧
      program.functions.map (Function.ofDefinition (.ofCallees source callees)) =
        module.functions.map .ok := by
  simp only [Module.ofProgram, Except.bind_eq_ok_iff] at success
  obtain ⟨callees, callees_eq, success⟩ := success
  obtain ⟨functions, functions_eq, made⟩ := addDefinitions_eq_ok success
  rw [Module.empty, List.nil_append] at functions_eq
  exact ⟨callees, callees_eq, functions_eq ▸ made⟩

/-- A function of the module stems from the definition of that name. -/
theorem definition_of_function? {context : Context} {definitions : List FunctionDefinition}
    {functions : List Function} {name : String} {function : Function}
    (named : ∀ definition ∈ definitions, ∀ function,
      Function.ofDefinition context definition = .ok function →
        function.name = definition.name.name)
    (made : definitions.map (Function.ofDefinition context) = functions.map .ok)
    (found : Module.function? ⟨functions⟩ name = some function) :
    ∃ definition ∈ definitions, Program.function? ⟨definitions⟩ name = some definition ∧
      Function.ofDefinition context definition = .ok function := by
  induction definitions generalizing functions with
  | nil =>
      obtain rfl := List.map_eq_nil_iff.mp made.symm
      cases found
  | cons definition rest induction =>
      cases functions with
      | nil => cases made
      | cons first others =>
          rw [List.map_cons, List.map_cons, List.cons.injEq] at made
          have name_eq := named definition List.mem_cons_self first made.1
          rw [Module.function?, List.find?_cons, name_eq] at found
          rw [Program.function?, List.find?_cons]
          cases same : definition.name.name == name with
          | true =>
              simp only [same, Option.some.injEq] at found
              exact ⟨definition, List.mem_cons_self, rfl, found ▸ made.1⟩
          | false =>
              simp only [same] at found
              obtain ⟨other, member, other_eq, made_other⟩ := induction
                (fun other member => named other (List.mem_cons_of_mem _ member)) made.2 found
              exact ⟨other, List.mem_cons_of_mem _ member, other_eq, made_other⟩

/-- The functions of a module stem from the definitions of the program. -/
theorem definition_of_mem {context : Context} {definitions : List FunctionDefinition}
    {functions : List Function} {function : Function}
    (made : definitions.map (Function.ofDefinition context) = functions.map .ok)
    (member : function ∈ functions) :
    ∃ definition ∈ definitions, Function.ofDefinition context definition = .ok function := by
  have made_mem := List.mem_map_of_mem (f := Except.ok (ε := Failure)) member
  rw [← made] at made_mem
  exact List.mem_map.mp made_mem

/-- The dataflow of a program is in order. -/
theorem verified_ofProgram {source : Source} {program : Program} {module : Module}
    (unsigned : program.Unsigned) (success : Module.ofProgram source program = .ok module) :
    ∀ function ∈ module.functions, function.Verified := by
  intro function member
  obtain ⟨callees, callees_eq, made⟩ := exists_callees_of_ofProgram success
  obtain ⟨definition, definition_mem, function_eq⟩ := definition_of_mem made member
  obtain ⟨-, verified, -⟩ := ofDefinition_eq_ok (calleesOf_reserved callees_eq)
    (unsigned definition definition_mem) function_eq
  exact verified

/-- Everything about the dataflow of a program. -/
theorem ofProgram_eq_ok {source : Source} {program : Program} {module : Module}
    (unsigned : program.Unsigned) (success : Module.ofProgram source program = .ok module) :
    module.functions.length = program.functions.length ∧
      (∀ function ∈ module.functions, function.Proper ∧
        function.Stocked OperationKind.Spelled) ∧
      ∀ name function, module.function? name = some function →
        ∃ definition, program.function? name = some definition ∧
          Realizes function.code (fun calls assignment =>
            definition.evaluate calls (function.arguments.map assignment))
            fun assignment => (returnedBy assignment function.code)[0]?.join := by
  obtain ⟨callees, callees_eq, made⟩ := exists_callees_of_ofProgram success
  have reserved : (Context.ofCallees source callees).callees.Reserved :=
    calleesOf_reserved callees_eq
  have each := fun definition member function
      (made : Function.ofDefinition _ definition = .ok function) =>
    ofDefinition_eq_ok reserved (unsigned definition member) made
  refine ⟨?_, fun function member => ?_, fun name function found => ?_⟩
  · have lengths := congrArg List.length made
    rw [List.length_map, List.length_map] at lengths
    exact lengths.symm
  · obtain ⟨definition, definition_mem, function_eq⟩ := definition_of_mem made member
    obtain ⟨-, -, proper, stocked, -⟩ := each definition definition_mem function function_eq
    exact ⟨proper, stocked⟩
  · obtain ⟨definition, member, definition_eq, function_eq⟩ := definition_of_function?
      (fun definition member function made => (each definition member function made).1) made found
    obtain ⟨-, -, -, -, realizes⟩ := each definition member function function_eq
    exact ⟨definition, definition_eq, realizes⟩

private theorem Module.names_of_add {module : Module} {name : String}
    (apart : module.function? name = none) :
    name ∉ module.functions.map Function.name := by
  intro member
  obtain ⟨other, other_mem, same⟩ := List.mem_map.mp member
  exact List.find?_eq_none.mp apart other other_mem (beq_iff_eq.mpr same)

private theorem names_of_addDefinitions {module reached : Module} {context : Context}
    {definitions : List FunctionDefinition}
    (success : definitions.foldlM (fun module definition => do
      module.add (← Function.ofDefinition context definition)) module = .ok reached)
    (names : (module.functions.map Function.name).Nodup) :
    (reached.functions.map Function.name).Nodup := by
  induction definitions generalizing module with
  | nil => exact Except.pure_eq_ok_iff.mp success ▸ names
  | cons definition rest induction =>
      simp only [List.foldlM_cons, Except.bind_eq_ok_iff] at success
      obtain ⟨middle, ⟨function, -, added⟩, success⟩ := success
      rw [Module.add] at added
      split at added
      · cases added
      · rename_i apart
        obtain rfl := Except.ok.inj added
        refine induction success ?_
        rw [List.map_append, List.map_singleton]
        exact List.nodup_append.mpr ⟨names, List.nodup_singleton _,
          fun name member other other_mem same =>
            Module.names_of_add apart (List.mem_singleton.mp other_mem ▸ same ▸ member)⟩

theorem names_ofProgram {source : Source} {program : Program} {module : Module}
    (success : Module.ofProgram source program = .ok module) :
    (module.functions.map Function.name).Nodup := by
  simp only [Module.ofProgram, Except.bind_eq_ok_iff] at success
  obtain ⟨_, -, success⟩ := success
  exact names_of_addDefinitions success List.nodup_nil

/-- Calls of the module do what calls of the program do, as deep as they may nest. -/
theorem callsAgree_ofProgram {source : Source} {program : Program} {module : Module}
    (unsigned : program.Unsigned) (success : Module.ofProgram source program = .ok module)
    (wellFormed : ∀ function ∈ module.functions, function.WellFormed) (depth : Nat) :
    CallsAgree (module.calls depth) (program.calls depth) := by
  obtain ⟨-, each, realized⟩ := ofProgram_eq_ok unsigned success
  induction depth with
  | zero => exact fun name values effects refused => nomatch refused
  | succ depth induction =>
      intro name values effects called printed
      cases found : module.function? name with
      | none =>
          simp only [Module.calls, found] at called
          cases called
      | some function =>
          simp only [Module.calls, found] at called
          obtain ⟨definition, definition_eq, realizes⟩ := realized name function found
          have member := List.mem_of_find?_eq_some found
          obtain ⟨assignment, given, solves⟩ :=
            (wellFormed function member).exists_solves (each function member).1 called
          have effects_eq := (wellFormed function member).evaluate_eq given solves
          obtain rfl := Except.ok.inj (called.symm.trans effects_eq)
          simp only [Program.calls, definition_eq, ← given]
          exact realizes _ _ assignment induction solves printed

end Dataflow

end TensorLang
