import TensorLang.Dataflow.Inference
import TensorLang.Dataflow.Inlining
import TensorLang.Dataflow.Sharing
import TensorLang.Dataflow.Simplification
import TensorLang.Dataflow.Verification
import TensorLang.Proofs.Blaming
import TensorLang.Proofs.Dataflow.Editing

/-!
# Locations in dataflow functions

Passes do not make locations up.  An operation that is put into a function gets the location of one
that is there already, or of the call that is expanded, or keeps the one that it has in its callee;
and a pass that fails blames the function or one of the operations.  So all locations stay within
whatever set the locations of a module lie in.
-/

namespace TensorLang

namespace Dataflow

variable {known : Location → Prop} {function : Function} {α : Type}

/-- The function is defined at a known location, and its operations stem from known ones. -/
structure Function.Within (function : Function) (known : Location → Prop) : Prop where
  /-- The location of the function. -/
  location : known function.location
  /-- The locations of its operations, whether they stand in the body or not. -/
  operations : ∀ id operation, function.operation? id = some operation → known operation.location

/-- The functions of the module lie within known locations. -/
def Module.Within (module : Module) (known : Location → Prop) : Prop :=
  ∀ function ∈ module.functions, function.Within known

theorem Module.Within.function? {module : Module} (within : module.Within known) {name : String}
    (found : module.function? name = some function) : function.Within known :=
  within function (List.mem_of_find?_eq_some found)

/-! ### Look-ups -/

namespace Function

theorem within_typeOf (function : Function) (id : ValueId) :
    (function.typeOf id).Within known fun _ => True :=
  Outcome.Within.promised.bind fun _ _ => .pure trivial

theorem Within.operation (within : function.Within known) (id : OperationId) :
    (function.operation id).Within known fun operation => known operation.location :=
  Outcome.Within.promised.mono (within.operations id)

theorem Within.definer? (within : function.Within known) (id : ValueId) :
    (function.definer? id).Within known fun definer? =>
      ∀ operation ∈ definer?, known operation.location := by
  refine Outcome.Within.promised.bind fun value _ => ?_
  split
  · exact .pure nofun
  · exact .pure fun operation found => within.operations _ operation found

theorem Within.bodyOperations (within : function.Within known) :
    function.bodyOperations.Within known fun operations =>
      ∀ operation ∈ operations, known operation.location :=
  .mapM fun id _ => within.operation id

/-- Redirected operations stem from where they did before. -/
theorem Within.redirectUser (within : function.Within known) (replaced replacement : ValueId)
    (user : OperationId) : (redirectUser replaced replacement function user).Within known := by
  refine ⟨?_, fun id operation found => ?_⟩
  · rw [Function.redirectUser]
    split
    · exact within.location
    · exact within.location
  · rw [operation?_redirectUser] at found
    split at found
    · obtain ⟨original, original_eq, rfl⟩ := Option.map_eq_some_iff.mp found
      exact within.operations _ original original_eq
    · exact within.operations id operation found

theorem Within.redirectUsers (within : function.Within known) (replaced replacement : ValueId) :
    (function.redirectUsers replaced replacement).Within known := by
  rw [Function.redirectUsers]
  split
  · exact within
  · have cleared : Within { function with uses := function.uses.clear replaced } known :=
      ⟨within.location, within.operations⟩
    exact List.foldlRecOn (motive := fun changed : Function => changed.Within known) _ _ cleared
      fun changed kept user _ => kept.redirectUser replaced replacement user

end Function

theorem Operation.within_result (operation : Operation) :
    operation.result.Within known fun _ => True := by
  rw [result]
  split
  · exact trivial
  · exact trivial

theorem Operation.within_operand (operation : Operation) (position : Nat) :
    (operation.operand position).Within known fun _ => True := Outcome.Within.promised.trivial

/-! ### Edits -/

namespace Edit

theorem within_query {lookup : Function → Outcome α} {gives : α → Prop}
    (each : ∀ function : Function, function.Within known → (lookup function).Within known gives) :
    StaysWithin known (·.Within known) (query lookup) gives := by
  intro function within
  have reached := each function within
  rw [query]
  cases found : lookup function with
  | ok value =>
      rw [found] at reached
      exact ⟨reached, within⟩
  | error failure =>
      rw [found] at reached
      exact ⟨reached, within⟩

theorem within_lift {outcome : Outcome α} {gives : α → Prop}
    (within : outcome.Within known gives) :
    StaysWithin known (fun function : Function => function.Within known) (liftM outcome : Edit α)
      gives := by
  intro function held
  cases outcome with
  | ok value => exact ⟨within, held⟩
  | error failure => exact ⟨within, held⟩

theorem within_typeOf (id : ValueId) :
    StaysWithin known (·.Within known) (query fun function => function.typeOf id) fun _ => True :=
  within_query fun function _ => function.within_typeOf id

theorem within_operation (id : OperationId) :
    StaysWithin known (·.Within known) (query fun function => function.operation id)
      fun operation => known operation.location :=
  within_query fun _ within => within.operation id

theorem within_require (property : Function → Bool) :
    StaysWithin known (·.Within known) (require property) fun _ => True := by
  refine .bind .get fun function _ => ?_
  split
  · exact .throw trivial
  · exact .pure trivial

theorem within_pushArgument (type : TensorType) :
    StaysWithin known (·.Within known) (pushArgument type) fun _ => True :=
  .modifyGet fun _ within => ⟨within.location, within.operations⟩

theorem within_setType (id : ValueId) (type : TensorType) :
    StaysWithin known (·.Within known) (setType id type) fun _ => True :=
  (within_require _).bind fun _ _ => .modify fun _ within => ⟨within.location, within.operations⟩

section Adding

variable {kind : OperationKind} {operands : List ValueId} {types : List TensorType}
variable {location : Location}

theorem within_create (known_location : known location) :
    StaysWithin known (·.Within known) (create kind operands types location) fun _ => True := by
  refine (within_require _).bind fun _ _ => .modifyGet fun function within => ?_
  refine ⟨within.location, fun id operation found => ?_⟩
  have found := (function.operation?_addOperation kind operands types location id).symm.trans found
  split at found
  · obtain rfl := Option.some.inj found
    exact known_location
  · exact within.operations id operation found

theorem within_append (known_location : known location) :
    StaysWithin known (·.Within known) (append kind operands types location) fun _ => True := by
  refine (within_create known_location).bind fun _ _ =>
    .bind (.modify fun _ within => ?_) fun _ _ => .pure trivial
  exact ⟨within.location, within.operations⟩

theorem within_appendValue {type : TensorType} (known_location : known location) :
    StaysWithin known (·.Within known) (appendValue kind operands type location) fun _ => True :=
  (within_append known_location).bind fun id _ => (within_operation id).bind fun operation _ =>
    within_lift operation.within_result

theorem within_insertBefore {anchor : OperationId} (known_location : known location) :
    StaysWithin known (·.Within known) (insertBefore anchor kind operands types location)
      fun _ => True := by
  refine (within_query fun _ _ => Outcome.Within.promised.trivial).bind fun position _ =>
    (within_create known_location).bind fun id _ => .bind (.modify fun _ within => ?_) fun _ _ =>
      .pure trivial
  exact ⟨within.location, within.operations⟩

end Adding

theorem within_replaceUses (replaced replacement : ValueId) :
    StaysWithin known (·.Within known) (replaceUses replaced replacement) fun _ => True :=
  (within_require _).bind fun _ _ =>
    .modify fun _ within => within.redirectUsers replaced replacement

theorem within_erase (id : OperationId) :
    StaysWithin known (·.Within known) (erase id) fun _ => True := by
  refine (within_operation id).bind fun operation known_location => ?_
  refine (within_query fun _ _ => .pure trivial).bind fun uses (_ : True) => ?_
  split
  · exact within_lift (.failAt known_location)
  · refine .modify fun function within => ⟨within.location, fun other kept kept_eq => ?_⟩
    rw [Function.operation?_removeOperation] at kept_eq
    split at kept_eq
    · cases kept_eq
    · exact within.operations other kept kept_eq

end Edit

namespace Module

/-- Edits of all functions stay within known locations, up to the first that fails. -/
theorem Within.editAll {module : Module} (within : module.Within known) {edit : Edit Nat}
    (stays : StaysWithin known (·.Within known) edit fun _ => True) :
    (module.editAll edit).1.Within known ∧ (module.editAll edit).2.Within known fun _ => True := by
  suffices edited : ∀ total, (∀ function ∈ (editFrom edit total module.functions).1,
      function.Within known) ∧ (editFrom edit total module.functions).2.Within known fun _ => True
    from edited 0
  obtain ⟨functions⟩ := module
  induction functions with
  | nil => exact fun _ => ⟨List.forall_mem_nil _, trivial⟩
  | cons function rest induction =>
      intro total
      obtain ⟨first, others⟩ := List.forall_mem_cons.mp within
      have reached := stays function first
      cases edit_eq : edit function with
      | ok count changed =>
          rw [edit_eq] at reached
          obtain ⟨kept, outcome⟩ := induction others (total + count)
          simp only [editFrom, edit_eq]
          exact ⟨List.forall_mem_cons.mpr ⟨reached.2, kept⟩, outcome⟩
      | error failure changed =>
          rw [edit_eq] at reached
          simp only [editFrom, edit_eq]
          exact ⟨List.forall_mem_cons.mpr ⟨reached.2, others⟩, reached.1⟩

end Module

/-! ### Verification -/

namespace Function

theorem within_invalid {location : Location} {message : String} {gives : α → Prop}
    (known_location : known location) : (function.invalid location message).Within known gives :=
  .failAt known_location

theorem Within.checkArguments (within : function.Within known) :
    function.checkArguments.Within known fun _ => True := by
  refine .forM fun entry _ => Outcome.Within.promised.bind fun value _ => ?_
  split
  · exact within_invalid within.location
  · exact trivial

private theorem within_checkOperands (seen : Std.TreeSet Nat) {operation : Operation}
    (known_location : known operation.location) :
    (function.checkOperands seen operation).Within known fun _ => True := by
  refine .forM fun operand _ => ?_
  split
  · exact within_invalid known_location
  · split
    · exact trivial
    · exact within_invalid known_location

private theorem within_checkResults {operation : Operation}
    (known_location : known operation.location) :
    (function.checkResults operation).Within known fun _ => True := by
  refine .forM fun entry _ => Outcome.Within.promised.bind fun value _ => ?_
  split
  · exact within_invalid known_location
  · exact trivial

private theorem within_checkReturn {operation : Operation}
    (known_location : known operation.location)
    (isLast : Bool) : (function.checkReturn operation isLast).Within known fun _ => True := by
  rw [checkReturn]
  refine .guard (within_invalid known_location) ?_
  dsimp only
  split
  · exact within_invalid known_location
  · exact trivial

theorem Within.checkBody (within : function.Within known) (seen : Std.TreeSet Nat)
    (ids : List OperationId) : (function.checkBody seen ids).Within known fun _ => True := by
  induction ids generalizing seen with
  | nil =>
      rw [Function.checkBody]
      exact trivial
  | cons id rest induction =>
      rw [Function.checkBody]
      split
      · exact within_invalid within.location
      · rename_i operation found
        have known_location := within.operations id operation found
        refine .guard (within_invalid known_location) ?_
        refine (within_checkOperands seen known_location).bind fun _ _ => ?_
        refine (within_checkResults known_location).bind fun _ _ => ?_
        exact (within_checkReturn known_location _).bind fun _ _ => induction _

theorem Within.verify (within : function.Within known) :
    function.verify.Within known fun _ => True := by
  rw [Function.verify]
  refine within.checkArguments.bind fun _ _ => (within.checkBody ∅ function.body).bind fun _ _ => ?_
  refine .guard (within_invalid within.location) ?_
  refine within.bodyOperations.bind fun operations _ => ?_
  split
  · exact within_invalid within.location
  · exact trivial

end Function

theorem Module.Within.verify {module : Module} (within : module.Within known) :
    module.verify.Within known fun _ => True :=
  .forM fun function member => (within function member).verify

/-! ### Inference -/

namespace Inference

variable {operation : Operation}

theorem within_mismatch {gives : α → Prop} (known_location : known operation.location)
    (reason : String) : (mismatch operation reason : Outcome α).Within known gives :=
  .failAt known_location

private theorem within_setResult (known_location : known operation.location) (shape : Shape) :
    StaysWithin known (·.Within known) (setResult operation shape) fun _ => True := by
  rw [setResult]
  refine .guard (Edit.within_lift (within_mismatch known_location _)) ?_
  refine (Edit.within_lift operation.within_result).bind fun result _ => ?_
  refine (Edit.within_typeOf result).bind fun type _ => ?_
  split
  · split
    · exact Edit.within_lift (within_mismatch known_location _)
    · exact .pure trivial
  · exact Edit.within_setType result _

private theorem within_setReturned {location : Location} (known_location : known location)
    (shape : Shape) (position : Nat) :
    StaysWithin known (·.Within known) (setReturned location shape position) fun _ => True := by
  refine .bind .get fun function within => ?_
  refine (Edit.within_lift Outcome.Within.promised.trivial).bind fun type _ => ?_
  split
  · split
    · exact .throw (Failure.within_of_located known_location)
    · exact .pure trivial
  · exact .set ⟨within.location, within.operations⟩

private theorem within_resolveOperation (id : OperationId) :
    StaysWithin known (·.Within known) (resolveOperation id) fun _ => True := by
  refine (Edit.within_operation id).bind fun operation known_location => ?_
  have ranked (function : Function) : (allRanked function operation.operands).Within known
      fun _ => True :=
    .allM fun value _ => (function.within_typeOf value).bind fun _ _ => .pure trivial
  have types (function : Function) : (operation.operands.mapM function.typeOf).Within known
      fun _ => True :=
    (Outcome.Within.mapM fun value _ => function.within_typeOf value).trivial
  refine (Edit.within_query fun function _ => ranked function).bind fun ready _ => ?_
  split
  · exact .pure trivial
  · refine (Edit.within_query fun function _ => types function).bind fun types _ => ?_
    split
    · exact Edit.within_lift (within_mismatch known_location _)
    · exact (within_setResult known_location _).bind fun _ _ => .pure trivial
    · exact (StaysWithin.forM fun entry _ => within_setReturned known_location _ _).bind
        fun _ _ => .pure trivial
    · exact .pure trivial
    · exact .pure trivial

private theorem within_scan (ids : List OperationId) :
    StaysWithin known (·.Within known) (scan ids) fun _ => True := by
  induction ids with
  | nil => exact .pure trivial
  | cons id rest induction =>
      exact (within_resolveOperation id).bind fun _ _ => induction.bind fun _ _ => .pure trivial

theorem within_settle (bound : Nat) (pending : List OperationId) :
    StaysWithin known (·.Within known) (settle bound pending) fun _ => True := by
  induction bound generalizing pending with
  | zero => exact .pure trivial
  | succ bound induction =>
      refine (within_scan pending).bind fun rest _ => ?_
      split
      · exact induction rest
      · exact .pure trivial

end Inference

private theorem Edit.within_inferTypes :
    StaysWithin known (·.Within known) Edit.inferTypes fun _ => True := by
  refine .bind .get fun function _ => (Inference.within_settle _ _).bind fun left _ => ?_
  split
  · exact .pure trivial
  · refine (within_operation _).bind fun operation known_location => ?_
    exact .throw (Failure.within_of_located known_location)

theorem Module.Within.inferTypes {module : Module} (within : module.Within known) :
    module.inferTypes.1.Within known ∧ module.inferTypes.2.Within known fun _ => True := by
  obtain ⟨functions, outcome⟩ := within.editAll
    (Edit.within_inferTypes.bind fun _ _ => .pure trivial)
  exact ⟨functions, outcome.bind fun _ _ => .pure trivial⟩

/-! ### Simplification -/

namespace SimplificationRule

theorem within_operandDefinition? (within : function.Within known) (operation : Operation) :
    (operandDefinition? function operation).Within known
      fun inner? => ∀ inner ∈ inner?, known inner.location := by
  rw [operandDefinition?]
  split
  · exact within.definer? _
  · exact .pure nofun

theorem within_keepsType (operation : Operation) :
    (keepsType function operation).Within known fun _ => True := by
  rw [keepsType]
  split
  · refine (function.within_typeOf _).bind fun type _ => ?_
    split
    · exact (function.within_typeOf _).bind fun _ _ => .pure trivial
    · exact .pure trivial
  · exact .pure trivial

private theorem within_applies (within : function.Within known) (rule : SimplificationRule)
    (operation : Operation) : (rule.applies function operation).Within known fun _ => True := by
  rw [applies.eq_def]
  split
  · refine (within_operandDefinition? within operation).bind fun inner? _ => ?_
    split
    · exact .pure trivial
    · exact .pure trivial
  · exact within_keepsType operation
  · exact (within_operandDefinition? within operation).bind fun _ _ => .pure trivial
  · split
    · exact within_keepsType operation
    · exact .pure trivial
  · exact .pure trivial
  · exact .pure trivial

private theorem within_first? (within : function.Within known) (operation : Operation) :
    (first? function operation).Within known fun _ => True :=
  .findM? fun rule _ => within_applies within rule operation

theorem within_substitute (id : OperationId) (value : ValueId) :
    StaysWithin known (·.Within known) (substitute id value) fun _ => True := by
  refine (Edit.within_operation id).bind fun operation _ => ?_
  refine (Edit.within_lift operation.within_result).bind fun result _ => ?_
  refine (Edit.within_replaceUses result value).bind fun _ _ => (Edit.within_erase id).bind
    fun _ _ => ?_
  exact .bind .get fun _ _ => .pure trivial

theorem within_replaceByNew (id : OperationId) (kind : OperationKind) (operands : List ValueId)
    (type : TensorType) {location : Location} (known_location : known location) :
    StaysWithin known (·.Within known) (replaceByNew id kind operands type location)
      fun _ => True := by
  refine (Edit.within_insertBefore known_location).bind fun new _ => ?_
  refine (Edit.within_operation new).bind fun operation _ => ?_
  refine (Edit.within_lift operation.within_result).bind fun result _ => ?_
  exact (within_substitute id result).bind fun _ _ => .pure trivial

private theorem within_apply (rule : SimplificationRule) (id : OperationId) :
    StaysWithin known (·.Within known) (rule.apply id) fun _ => True := by
  have bypasses : StaysWithin known (·.Within known) (bypass id) fun _ => True :=
    (Edit.within_operation id).bind fun operation _ =>
      (Edit.within_lift (operation.within_operand 0)).bind fun value _ => within_substitute id value
  cases rule with
  | reshapeOfConstant =>
      refine (Edit.within_operation id).bind fun operation known_location => ?_
      refine (Edit.within_query fun _ within =>
        within_operandDefinition? within operation).bind fun inner? _ => ?_
      split
      · split
        · exact within_replaceByNew id _ _ _ known_location
        · exact .pure trivial
      · exact .pure trivial
  | redundantReshape => exact bypasses
  | reshapeOfReshape =>
      refine (Edit.within_operation id).bind fun operation known_location => ?_
      refine (Edit.within_query fun _ within =>
        within_operandDefinition? within operation).bind fun inner? _ => ?_
      split
      · exact .pure trivial
      · refine (Edit.within_lift operation.within_result).bind fun result _ => ?_
        refine (Edit.within_typeOf result).bind fun type _ => ?_
        exact within_replaceByNew id _ _ _ known_location
  | redundantCast => exact bypasses
  | deadOperation => exact (Edit.within_erase id).bind fun _ _ => .pure trivial

end SimplificationRule

namespace Simplification

private theorem within_step (id : OperationId) :
    StaysWithin known (·.Within known) (step id) fun _ => True := by
  refine .bind .get fun function _ => ?_
  split
  · exact .pure trivial
  · rename_i operation _
    refine (Edit.within_query fun _ within =>
      SimplificationRule.within_first? within operation).bind fun rule? _ => ?_
    split
    · exact .pure trivial
    · rename_i rule
      have definitions (function : Function) (within : function.Within known) :
          (operation.operands.mapM function.definer?).Within known fun _ => True :=
        (Outcome.Within.mapM fun operand _ => within.definer? operand).trivial
      refine (Edit.within_query definitions).bind fun definitions _ => ?_
      exact (rule.within_apply id).bind fun _ _ => .pure trivial

theorem within_advance? (worklist : List OperationId) :
    StaysWithin known (·.Within known) (advance? worklist) fun _ => True := by
  induction worklist with
  | nil => exact .pure trivial
  | cons id worklist induction =>
      refine (within_step id).bind fun touched? _ => ?_
      split
      · exact induction
      · exact .pure trivial

theorem within_run (budget applied : Nat) (worklist : List OperationId) :
    StaysWithin known (·.Within known) (run budget applied worklist) fun _ => True := by
  induction budget generalizing applied worklist with
  | zero =>
      rw [run]
      refine (within_advance? worklist).bind fun advanced _ => ?_
      split
      · exact .pure trivial
      · exact .throw trivial
  | succ budget induction =>
      rw [run]
      refine (within_advance? worklist).bind fun advanced _ => ?_
      split
      · exact .pure trivial
      · exact induction _ _

end Simplification

theorem Edit.within_simplify : StaysWithin known (·.Within known) Edit.simplify fun _ => True :=
  .bind .get fun _ _ => Simplification.within_run _ _ _

/-! ### Sharing -/

namespace Sharing

private theorem within_sameComputation (left right : Operation) :
    (sameComputation function left right).Within known fun _ => True := by
  rw [sameComputation]
  split
  · exact .allM fun pair _ => (function.within_typeOf pair.1).bind fun _ _ =>
      (function.within_typeOf pair.2).bind fun _ _ => .pure trivial
  · exact .pure trivial

private theorem within_earlier? (within : function.Within known) (candidates : List Candidate)
    (operation : Operation) :
    (earlier? function candidates operation).Within known fun _ => True := by
  refine .findM? fun candidate _ => ?_
  split
  · exact (within.operation candidate.id).bind fun found _ => within_sameComputation found operation
  · exact trivial

private theorem within_merge (earlier : OperationId) (duplicate : Operation) :
    StaysWithin known (·.Within known) (merge earlier duplicate) fun _ => True :=
  (Edit.within_operation earlier).bind fun _ _ =>
    (StaysWithin.forM fun pair _ => Edit.within_replaceUses pair.2 pair.1).bind fun _ _ =>
      Edit.within_erase duplicate.id

theorem within_run (ids : List OperationId) (candidates : List Candidate) (merged : Nat) :
    StaysWithin known (·.Within known) (run ids candidates merged) fun _ => True := by
  induction ids generalizing candidates merged with
  | nil => exact .pure trivial
  | cons id rest induction =>
      refine (Edit.within_operation id).bind fun operation _ => ?_
      split
      · exact induction _ _
      · refine (Edit.within_query fun _ within =>
          within_earlier? within candidates operation).bind fun earlier? _ => ?_
        split
        · exact induction _ _
        · exact (within_merge _ operation).bind fun _ _ => induction _ _

end Sharing

theorem Edit.within_share : StaysWithin known (·.Within known) Edit.share fun _ => True :=
  .bind .get fun _ _ => Sharing.within_run _ _ _

/-! ### Inlining -/

theorem within_callSite? {operation : Operation} (known_location : known operation.location) :
    ∀ site ∈ operation.callSite?, known site.location := by
  intro site found
  obtain ⟨callee, -, rfl⟩ := Option.map_eq_some_iff.mp found
  exact known_location

theorem Function.Within.callSites (within : function.Within known) :
    function.callSites.Within known fun sites => ∀ site ∈ sites, known site.location := by
  refine within.bodyOperations.bind fun operations known_locations => .pure fun site member => ?_
  obtain ⟨operation, operation_mem, found⟩ := List.mem_filterMap.mp member
  exact within_callSite? (known_locations operation operation_mem) site found

theorem Function.Within.firstCall? (within : function.Within known) (ids : List OperationId) :
    (function.firstCall? ids).Within known fun site? => ∀ site ∈ site?, known site.location := by
  induction ids with
  | nil => exact .pure nofun
  | cons id rest induction =>
      rw [Function.firstCall?]
      refine (within.operation id).bind fun operation known_location => ?_
      have known_site := within_callSite? known_location
      split
      · rename_i site site_eq
        refine .pure ?_
        rintro _ ⟨⟩
        exact known_site site site_eq
      · exact induction

namespace Module

variable {module : Module}

theorem Within.walkCalls (within : module.Within known) (depth : Nat) {function : Function}
    (function_within : function.Within known) (path finished : List String) :
    (module.walkCalls depth path finished function).Within known fun _ => True := by
  induction depth generalizing function path finished with
  | zero => exact trivial
  | succ depth induction =>
      rw [Module.walkCalls]
      refine function_within.callSites.bind fun sites known_sites => ?_
      refine Outcome.Within.bind (.foldlM_of_each fun finished site member => ?_) fun finished _ =>
        .pure trivial
      have known_location := known_sites site member
      split
      · exact .failAt known_location
      · split
        · exact .pure trivial
        · split
          · exact .failAt known_location
          · rename_i callee callee_eq
            exact induction (within.function? callee_eq) _ _

theorem Within.checkCalls (within : module.Within known) {entry : Function}
    (entry_within : entry.Within known) : (module.checkCalls entry).Within known fun _ => True :=
  (within.walkCalls _ entry_within _ _).bind fun _ _ => .pure trivial

end Module

namespace Inlining

variable {callee : Function} {call : Operation}

private theorem within_passArgument (known_location : known call.location) (values : ValueMap)
    (parameter argument : ValueId) :
    StaysWithin known (·.Within known) (passArgument callee call values parameter argument)
      fun _ => True := by
  refine (Edit.within_lift (callee.within_typeOf parameter)).bind fun parameterType _ => ?_
  refine (Edit.within_typeOf argument).bind fun argumentType _ => ?_
  split
  · exact .pure trivial
  · refine (Edit.within_insertBefore known_location).bind fun cast _ => ?_
    refine (Edit.within_operation cast).bind fun operation _ => ?_
    exact (Edit.within_lift operation.within_result).bind fun _ _ => .pure trivial

private theorem within_copyOperation {operation : Operation}
    (known_location : known operation.location)
    (call : OperationId) (state : ValueMap × List ValueId) :
    StaysWithin known (·.Within known) (copyOperation callee call state operation)
      fun _ => True := by
  obtain ⟨values, returned⟩ := state
  refine (StaysWithin.mapM fun operand =>
    Edit.within_lift Outcome.Within.promised.trivial).bind fun operands _ => ?_
  split
  · exact .pure trivial
  · refine (StaysWithin.mapM fun result =>
      Edit.within_lift (callee.within_typeOf result)).bind fun types _ => ?_
    refine (Edit.within_insertBefore known_location).bind fun copy _ => ?_
    exact (Edit.within_operation copy).bind fun _ _ => .pure trivial

private theorem within_connectResult (known_location : known call.location)
    (returned : List ValueId) (position : Nat) (result : ValueId) :
    StaysWithin known (·.Within known) (connectResult callee call returned position result)
      fun _ => True := by
  rw [connectResult]
  split
  · exact Edit.within_replaceUses result _
  · refine .bind .get fun function _ => ?_
    split
    · exact .throw (Failure.within_of_located known_location)
    · exact .pure trivial

private theorem within_expandCall (within : callee.Within known) (call : OperationId) :
    StaysWithin known (·.Within known) (expandCall callee call) fun _ => True := by
  refine (Edit.within_operation call).bind fun operation known_location => ?_
  refine .guard (.throw (Failure.within_of_located known_location)) ?_
  refine StaysWithin.bind (.foldlM fun values pair _ =>
    within_passArgument known_location values pair.1 pair.2) fun values _ => ?_
  refine (Edit.within_lift within.bodyOperations).bind fun body known_body => ?_
  refine StaysWithin.bind (.foldlM fun state copied member =>
    within_copyOperation (known_body copied member) call state) fun state _ => ?_
  exact StaysWithin.bind (.forM fun entry _ => within_connectResult known_location _ _ _) fun _ _ =>
    Edit.within_erase call

private theorem within_expandCalls {module : Module} (within : module.Within known) (budget : Nat) :
    StaysWithin known (·.Within known) (expandCalls module budget) fun _ => True := by
  have first : StaysWithin known (fun function : Function => function.Within known)
      (Edit.query fun caller => caller.firstCall? caller.body)
      fun site? => ∀ site ∈ site?, known site.location :=
    Edit.within_query fun function within => within.firstCall? function.body
  induction budget with
  | zero =>
      refine first.bind fun site? _ => ?_
      split
      · exact .throw trivial
      · exact .pure trivial
  | succ budget induction =>
      refine first.bind fun site? known_site => ?_
      split
      · exact .pure trivial
      · rename_i site
        split
        · exact .throw (Failure.within_of_located (known_site site rfl))
        · rename_i callee callee_eq
          exact (within_expandCall (within.function? callee_eq) site.id).bind fun _ _ => induction

end Inlining

theorem Module.Within.inline {module : Module} (within : module.Within known) (entry : String) :
    (module.inline entry).Within known fun inlined => inlined.Within known := by
  rw [Module.inline]
  split
  · exact .fail
  · rename_i caller caller_eq
    have caller_within := within.function? caller_eq
    have others : (module.without entry).Within known :=
      fun function member => within function (mem_of_mem_without member)
    refine (within.checkCalls caller_within).bind fun _ _ => ?_
    have expanded := Inlining.within_expandCalls others module.expansionBound caller caller_within
    dsimp only [Edit.outcome]
    split at expanded
    · rename_i result inlined success
      simp only [success]
      exact .pure (List.forall_mem_singleton.mpr expanded.2)
    · rename_i failure inlined failed
      simp only [failed]
      exact expanded.1

end Dataflow

end TensorLang
