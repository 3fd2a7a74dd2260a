import TensorLang.Proofs.Dataflow.Editing
import TensorLang.Proofs.Relating

/-!
# Functions that differ in locations

Two functions are alike if they differ only in the locations of their operations and in their own.
Lookups in alike functions give the same answers, and edits make alike functions of alike functions;
if an edit fails on one of them, it fails on the other for the same cause.
-/

namespace TensorLang

namespace Dataflow

/-- The same operation, perhaps at another location. -/
inductive Operation.Alike (operation : Operation) : Operation → Prop
  | relocated (location : Location) : Alike operation { operation with location }

/-- The same function, perhaps with other locations. -/
structure Function.Alike (left right : Function) : Prop where
  /-- The names are the same. -/
  name : right.name = left.name
  /-- The arguments are the same. -/
  arguments : right.arguments = left.arguments
  /-- The result types are the same. -/
  resultTypes : right.resultTypes = left.resultTypes
  /-- The values are the same. -/
  values : right.values = left.values
  /-- The bodies list the same handles. -/
  body : right.body = left.body
  /-- The use lists are the same. -/
  uses : right.uses = left.uses
  /-- As many operations were made. -/
  size : right.operations.size = left.operations.size
  /-- The operations are the same, perhaps at other locations. -/
  operations : ∀ id, Option.Rel Operation.Alike (left.operation? id) (right.operation? id)

variable {excused : Prop} {left right : Function}

namespace Function

variable {function : Function} {replaced replacement : ValueId} {user : OperationId}

theorem uses_redirectUser_of_none (missing : function.operation? user = none) :
    (redirectUser replaced replacement function user).uses = function.uses := by
  rw [redirectUser]
  split
  · rfl
  · rename_i found
    cases found.symm.trans missing

theorem uses_redirectUser_of_some {operation : Operation}
    (found : function.operation? user = some operation) :
    (redirectUser replaced replacement function user).uses =
      (List.replicate (operation.operands.count replaced) user).foldl
        (fun uses user => uses.add replacement user) function.uses := by
  rw [redirectUser]
  split
  · rename_i missing
    cases found.symm.trans missing
  · rename_i other other_eq
    obtain rfl := Option.some.inj (found.symm.trans other_eq)
    rfl

theorem size_redirectUser : (redirectUser replaced replacement function user).operations.size =
    function.operations.size := by
  rw [redirectUser]
  split
  · rfl
  · exact Arena.size_modify _ _ _

end Function

namespace Function.Alike

/-! ### Lookups -/

theorem typeOf (alike : left.Alike right) : right.typeOf = left.typeOf := by
  funext id
  rw [Function.typeOf, Function.typeOf, Function.value, Function.value, alike.values]

theorem value (alike : left.Alike right) : right.value = left.value := by
  funext id
  rw [Function.value, Function.value, alike.values]

theorem usersOf (alike : left.Alike right) : right.usersOf = left.usersOf := by
  funext id
  rw [Function.usersOf, Function.usersOf, alike.uses]

theorem isUsed (alike : left.Alike right) : right.isUsed = left.isUsed := by
  funext id
  rw [Function.isUsed, Function.isUsed, alike.usersOf]

theorem hasValues (alike : left.Alike right) : right.hasValues = left.hasValues := by
  funext added values
  rw [Function.hasValues, Function.hasValues, alike.values]

theorem operation (alike : left.Alike right) (id : OperationId) :
    (outcomes excused).Relates Operation.Alike (left.operation id) (right.operation id) :=
  outcomes_promised (alike.operations id)

/-- Both functions have the operation, or none of them has it. -/
theorem lookup (alike : left.Alike right) (id : OperationId) :
    left.operation? id = none ∧ right.operation? id = none ∨
      ∃ operation location, left.operation? id = some operation ∧
        right.operation? id = some { operation with location } := by
  have related := alike.operations id
  generalize left.operation? id = before at related ⊢
  generalize right.operation? id = after at related ⊢
  cases related with
  | none => exact .inl ⟨rfl, rfl⟩
  | some same =>
      cases same with
      | relocated location => exact .inr ⟨_, location, rfl, rfl⟩

theorem isSome_operation? (alike : left.Alike right) (id : OperationId) :
    (right.operation? id).isSome = (left.operation? id).isSome := by
  rcases alike.lookup id with ⟨before, after⟩ | ⟨operation, location, before, after⟩ <;>
    simp only [before, after, Option.isSome_some]

theorem definer? (alike : left.Alike right) (id : ValueId) :
    (outcomes excused).Relates (Option.Rel Operation.Alike) (left.definer? id)
      (right.definer? id) := by
  rw [Function.definer?, Function.definer?, alike.value]
  refine (outcomes excused).bind (outcomes_refl _) ?_
  rintro ⟨type, _ | _⟩ _ rfl
  · exact (outcomes excused).pure .none
  · exact (outcomes excused).pure (alike.operations _)

theorem bodyOperations (alike : left.Alike right) :
    (outcomes excused).Relates (List.Forall₂ Operation.Alike) left.bodyOperations
      right.bodyOperations := by
  rw [Function.bodyOperations, Function.bodyOperations, alike.body]
  refine (outcomes excused).mapM (List.forall₂_same.mpr fun _ _ => rfl) ?_
  rintro id _ rfl
  exact alike.operation id

/-! ### Changes -/

theorem pushArgument (alike : left.Alike right) (type : TensorType) :
    (left.pushArgument type).1.Alike (right.pushArgument type).1 ∧
      (right.pushArgument type).2 = (left.pushArgument type).2 := by
  refine ⟨{ alike with arguments := ?_, values := ?_ }, ?_⟩
  · simp [Function.pushArgument, alike.arguments, alike.values]
  · simp [Function.pushArgument, alike.arguments, alike.values]
  · simp [Function.pushArgument, alike.values]

theorem withType (alike : left.Alike right) (id : ValueId) (type : TensorType) :
    (left.withType id type).Alike (right.withType id type) :=
  { alike with values := by simp [Function.withType, alike.values] }

theorem withResultTypes (alike : left.Alike right) (resultTypes : List TensorType) :
    Function.Alike { left with resultTypes } { right with resultTypes } :=
  { alike with resultTypes := rfl }

theorem withBody (alike : left.Alike right) (body : List OperationId) :
    Function.Alike { left with body } { right with body } :=
  { alike with body := rfl }

theorem addOperation (alike : left.Alike right) (kind : OperationKind) (operands : List ValueId)
    (types : List TensorType) (location other : Location) :
    (left.addOperation kind operands types location).1.Alike
        (right.addOperation kind operands types other).1 ∧
      (right.addOperation kind operands types other).2 =
        (left.addOperation kind operands types location).2 := by
  have next_eq : right.operations.nextId = left.operations.nextId := by
    rw [Arena.nextId, Arena.nextId, alike.size]
  refine ⟨{ alike with values := ?_, uses := ?_, size := ?_, operations := fun id => ?_ }, next_eq⟩
  · change right.values.pushAll _ = left.values.pushAll _
    rw [alike.values, next_eq]
  · change operands.foldl _ right.uses = operands.foldl _ left.uses
    rw [alike.uses, next_eq]
  · change (right.operations.push _).size = (left.operations.push _).size
    rw [Arena.size_push, Arena.size_push, alike.size]
  · rw [operation?_addOperation, operation?_addOperation, next_eq]
    split
    · rw [nextOperation, nextOperation, next_eq, freshValues, freshValues, alike.values]
      exact .some (.relocated other)
    · exact alike.operations id

theorem redirectUser (alike : left.Alike right) (replaced replacement : ValueId)
    (user : OperationId) : (Function.redirectUser replaced replacement left user).Alike
      (Function.redirectUser replaced replacement right user) := by
  obtain ⟨before, before_body, before_values⟩ := redirectUser_keeps left replaced replacement user
  obtain ⟨after, after_body, after_values⟩ := redirectUser_keeps right replaced replacement user
  exact {
    name := after.name.trans (alike.name.trans before.name.symm)
    arguments := after.arguments.trans (alike.arguments.trans before.arguments.symm)
    resultTypes := after.resultTypes.trans (alike.resultTypes.trans before.resultTypes.symm)
    values := after_values.trans (alike.values.trans before_values.symm)
    body := after_body.trans (alike.body.trans before_body.symm)
    uses := by
      rcases alike.lookup user with ⟨missing, also⟩ | ⟨operation, location, found, also⟩
      · rw [uses_redirectUser_of_none missing, uses_redirectUser_of_none also, alike.uses]
      · rw [uses_redirectUser_of_some found, uses_redirectUser_of_some also, alike.uses]
    size := by rw [size_redirectUser, size_redirectUser, alike.size]
    operations := fun id => by
      rw [operation?_redirectUser, operation?_redirectUser]
      split
      · exact rel_map (alike.operations id) fun _ _ ⟨location⟩ => .relocated location
      · exact alike.operations id }

theorem redirectUsers (alike : left.Alike right) (replaced replacement : ValueId) :
    (left.redirectUsers replaced replacement).Alike (right.redirectUsers replaced replacement) := by
  have each : ∀ (users : List OperationId) (left right : Function), left.Alike right →
      (users.foldl (Function.redirectUser replaced replacement) left).Alike
        (users.foldl (Function.redirectUser replaced replacement) right) := by
    intro users
    induction users with
    | nil => exact fun _ _ alike => alike
    | cons user users induction =>
        intro left right alike
        exact induction _ _ (alike.redirectUser replaced replacement user)
  rw [Function.redirectUsers, Function.redirectUsers]
  split
  · exact alike
  · rw [alike.usersOf]
    refine each _ _ _ { alike with uses := ?_ }
    rw [alike.uses]

theorem removeOperation (alike : left.Alike right) {operation other : Operation}
    (same : operation.Alike other) :
    (left.removeOperation operation).Alike (right.removeOperation other) := by
  obtain ⟨location⟩ := same
  refine { alike with body := ?_, uses := ?_, size := ?_, operations := fun id => ?_ }
  · change right.body.erase operation.id = left.body.erase operation.id
    rw [alike.body]
  · change operation.results.foldl UseLists.clear (operation.operands.foldl
      (fun uses operand => uses.remove operand operation.id) right.uses) = _
    rw [alike.uses]
    rfl
  · change (right.operations.modify _ _).size = (left.operations.modify _ _).size
    rw [Arena.size_modify, Arena.size_modify, alike.size]
  · rw [operation?_removeOperation, operation?_removeOperation]
    split
    · exact .none
    · exact alike.operations id

end Function.Alike

/-! ### Edits -/

/-- Edits that do the same to alike functions. -/
def edits (excused : Prop) : Relator (EStateM Failure Function) := .estate excused Function.Alike

section Edits

variable {α β : Type} {values : α → β → Prop}

theorem edits_get : (edits excused).Relates Function.Alike get get :=
  fun _ _ alike => .ok ⟨alike, alike⟩

theorem edits_set (alike : left.Alike right) : (edits excused).Relates Eq (set left) (set right) :=
  fun _ _ _ => .ok ⟨rfl, alike⟩

theorem edits_modify {change another : Function → Function}
    (changed : ∀ left right, left.Alike right → (change left).Alike (another right)) :
    (edits excused).Relates Eq (modify change) (modify another) :=
  fun _ _ alike => .ok ⟨rfl, changed _ _ alike⟩

theorem edits_modifyGet {change : Function → α × Function} {another : Function → β × Function}
    (changed : ∀ left right, left.Alike right →
      values (change left).1 (another right).1 ∧ (change left).2.Alike (another right).2) :
    (edits excused).Relates values (modifyGet change) (modifyGet another) :=
  fun _ _ alike => .ok (changed _ _ alike)

theorem edits_throw {first second : Failure} (alike : first.Alike second) :
    (edits excused).Relates values (throw first) (throw second) :=
  fun _ _ _ => .error alike

theorem edits_lift {first : Outcome α} {second : Outcome β}
    (related : (outcomes excused).Relates values first second) :
    (edits excused).Relates values (liftM first) (liftM second) := by
  intro _ _ alike
  cases related with
  | ok related => exact .ok ⟨related, alike⟩
  | error related => exact .error related
  | excused excuse => exact .excused excuse

theorem edits_query {lookup : Function → Outcome α} {another : Function → Outcome β}
    (related : ∀ left right, left.Alike right →
      (outcomes excused).Relates values (lookup left) (another right)) :
    (edits excused).Relates values (Edit.query lookup) (Edit.query another) := by
  intro left right alike
  have found := related left right alike
  rw [Edit.query, Edit.query]
  generalize lookup left = first at found ⊢
  generalize another right = second at found ⊢
  exact edits_lift found left right alike

theorem edits_require {property another : Function → Bool}
    (same : ∀ left right, left.Alike right → another right = property left) :
    (edits excused).Relates Eq (Edit.require property) (Edit.require another) := by
  refine (edits excused).bind edits_get fun left right alike => ?_
  rw [same left right alike]
  exact (edits excused).ite (fun _ => edits_throw .fault) fun _ => (edits excused).pure rfl

/-- Related edits of alike functions leave alike functions behind if both of them succeed. -/
theorem edits_outcome {edit : Edit α} {another : Edit β}
    (related : (edits excused).Relates values edit another) (alike : left.Alike right) :
    (outcomes excused).Relates
      (fun first second => values first second ∧
        (edit.outcome left).1.Alike (another.outcome right).1)
      (edit.outcome left).2 (another.outcome right).2 := by
  have ends := related left right alike
  rw [Edit.outcome, Edit.outcome]
  generalize edit left = before at ends ⊢
  generalize another right = after at ends ⊢
  cases before <;> cases after <;> cases ends
  case ok.ok holds => exact outcomes_ok holds
  case error.error.error failed => exact .error failed
  all_goals exact .excused (by assumption)

end Edits

theorem edits_pushArgument (type : TensorType) :
    (edits excused).Relates Eq (Edit.pushArgument type) (Edit.pushArgument type) :=
  edits_modifyGet fun _ _ alike =>
    ⟨(alike.pushArgument type).2.symm, (alike.pushArgument type).1⟩

theorem edits_typeOf (id : ValueId) : (edits excused).Relates Eq
    (Edit.query fun function => function.typeOf id)
    (Edit.query fun function => function.typeOf id) :=
  edits_query fun _ _ alike => by
    rw [alike.typeOf]
    exact outcomes_refl _

theorem edits_setType (id : ValueId) (type : TensorType) :
    (edits excused).Relates Eq (Edit.setType id type) (Edit.setType id type) := by
  refine (edits excused).bind_same (edits_require fun _ _ alike => by rw [alike.hasValues])
    fun _ => ?_
  exact edits_modify fun _ _ alike => alike.withType id type

section Operations

variable (kind : OperationKind) (operands : List ValueId) (types : List TensorType)
variable (location other : Location)

theorem edits_create : (edits excused).Relates Eq (Edit.create kind operands types location)
    (Edit.create kind operands types other) := by
  refine (edits excused).bind_same (edits_require fun _ _ alike => by rw [alike.hasValues])
    fun _ => ?_
  refine edits_modifyGet fun _ _ alike => ?_
  obtain ⟨added, id_eq⟩ := alike.addOperation kind operands types location other
  exact ⟨id_eq.symm, added⟩

theorem edits_append : (edits excused).Relates Eq (Edit.append kind operands types location)
    (Edit.append kind operands types other) := by
  refine (edits excused).bind_same (edits_create kind operands types location other) fun id => ?_
  refine (edits excused).bind_same (edits_modify fun left right alike => ?_)
    fun _ => (edits excused).pure rfl
  rw [alike.body]
  exact alike.withBody _

theorem edits_operation (id : OperationId) : (edits excused).Relates Operation.Alike
    (Edit.query fun function => function.operation id)
    (Edit.query fun function => function.operation id) :=
  edits_query fun _ _ alike => alike.operation id

theorem edits_result {operation another : Operation} (alike : operation.Alike another) :
    (edits excused).Relates Eq (liftM operation.result) (liftM another.result) := by
  obtain ⟨location⟩ := alike
  exact edits_lift (outcomes_refl _)

theorem edits_appendValue (type : TensorType) :
    (edits excused).Relates Eq (Edit.appendValue kind operands type location)
      (Edit.appendValue kind operands type other) := by
  refine (edits excused).bind_same (edits_append kind operands [type] location other) fun id => ?_
  exact (edits excused).bind (edits_operation id) fun _ _ => edits_result

theorem edits_insertBefore (anchor : OperationId) :
    (edits excused).Relates Eq (Edit.insertBefore anchor kind operands types location)
      (Edit.insertBefore anchor kind operands types other) := by
  have found : (edits excused).Relates Eq
      (Edit.query fun function => .promised (function.body.idxOf? anchor))
      (Edit.query fun function => .promised (function.body.idxOf? anchor)) :=
    edits_query fun _ _ alike => by
      rw [alike.body]
      exact outcomes_refl _
  refine (edits excused).bind_same found fun position => ?_
  refine (edits excused).bind_same (edits_create kind operands types location other) fun id => ?_
  refine (edits excused).bind_same (edits_modify fun left right alike => ?_)
    fun _ => (edits excused).pure rfl
  rw [alike.body]
  exact alike.withBody _

end Operations

theorem edits_replaceUses (replaced replacement : ValueId) : (edits excused).Relates Eq
    (Edit.replaceUses replaced replacement) (Edit.replaceUses replaced replacement) := by
  refine (edits excused).bind (edits_require fun _ _ alike => ?_) ?_
  · simp only [alike.usersOf, alike.isSome_operation?]
  · rintro _ _ rfl
    exact edits_modify fun _ _ alike => alike.redirectUsers replaced replacement

theorem edits_erase (id : OperationId) :
    (edits excused).Relates Eq (Edit.erase id) (Edit.erase id) := by
  refine (edits excused).bind (edits_operation id) ?_
  rintro operation _ ⟨location⟩
  have counted : (edits excused).Relates Eq
      (Edit.query fun function => .ok (function.resultUses operation))
      (Edit.query fun function => .ok (function.resultUses { operation with location })) :=
    edits_query fun _ _ alike => by
      rw [Function.resultUses, Function.resultUses, alike.usersOf]
      exact outcomes_ok rfl
  refine (edits excused).bind_same counted fun uses => ?_
  refine (edits excused).ite (fun _ => edits_lift (outcomes_failAt _ _ _)) fun _ => ?_
  exact edits_modify fun _ _ alike => alike.removeOperation (.relocated location)

end Dataflow

end TensorLang
