import TensorLang.Dataflow.Inlining
import TensorLang.Proofs.Dataflow.Records

/-!
# Live operations

A function holds no operation that its body does not list, and the kinds of its operations are
among those that were put into it.  Edits keep this, and so does the inlining of calls, which is
made of nothing but edits.  The same goes for whatever else every edit keeps.
-/

namespace TensorLang

namespace Dataflow

/-- Every live operation stands in the body and is of an allowed kind. -/
def Function.Stocked (allowed : OperationKind → Prop) (function : Function) : Prop :=
  ∀ id operation, function.operation? id = some operation →
    id ∈ function.body ∧ allowed operation.kind

/-- Operations that have been redirected stem from operations of the same kinds, with as many
operands. -/
theorem Function.exists_original {function : Function} {replaced replacement : ValueId}
    {id : OperationId} {operation : Operation}
    (found : (function.redirectUsers replaced replacement).operation? id = some operation) :
    ∃ original, function.operation? id = some original ∧ original.kind = operation.kind ∧
      original.operands.length = operation.operands.length := by
  rw [redirectUsers] at found
  split at found
  · exact ⟨operation, found, rfl, rfl⟩
  · rename_i apart
    rw [operation?_redirectAll _ apart] at found
    split at found
    · obtain ⟨original, original_eq, rfl⟩ := Option.map_eq_some_iff.mp found
      exact ⟨original, original_eq, rfl, (List.length_map _).symm⟩
    · exact ⟨operation, found, rfl, rfl⟩

namespace Function.Stocked

variable {allowed : OperationKind → Prop} {function changed : Function}

theorem kind (stocked : function.Stocked allowed) {operation : Operation}
    (member : operation ∈ function.code) : allowed operation.kind := by
  obtain ⟨id, -, found⟩ := mem_code_iff.mp member
  exact (stocked id operation found).2

/-- A live operation is one of the list. -/
theorem mem_code (stocked : function.Stocked allowed) {id : OperationId} {operation : Operation}
    (found : function.operation? id = some operation) : operation ∈ function.code :=
  mem_code_iff.mpr ⟨id, (stocked id operation found).1, found⟩

section Adding

variable {kind : OperationKind} {operands : List ValueId} {types : List TensorType}
variable {location : Location} {id : OperationId}

theorem add (stocked : function.Stocked allowed) (kind_allowed : allowed kind)
    {body : List OperationId} (kept : function.body ⊆ body)
    (new_mem : function.operations.nextId ∈ body)
    (changed_eq : changed = { (function.addOperation kind operands types location).1 with
      body := body }) : changed.Stocked allowed := by
  intro other operation found
  rw [changed_eq] at found ⊢
  have found := (operation?_addOperation kind operands types location other).symm.trans found
  split at found
  · rename_i same
    obtain rfl := Option.some.inj found
    exact ⟨same ▸ new_mem, kind_allowed⟩
  · obtain ⟨listed, kind_eq⟩ := stocked other operation found
    exact ⟨kept listed, kind_eq⟩

theorem append (stocked : function.Stocked allowed) (kind_allowed : allowed kind)
    (success : Edit.append kind operands types location function = .ok id changed) :
    changed.Stocked allowed := by
  obtain ⟨-, rfl, changed_eq⟩ := Edit.append_eq_ok_iff.mp success
  exact stocked.add kind_allowed (List.subset_append_left _ _)
    (List.mem_append_right _ (List.mem_singleton_self _)) changed_eq

theorem insertBefore (stocked : function.Stocked allowed) (kind_allowed : allowed kind)
    {anchor : OperationId}
    (success : Edit.insertBefore anchor kind operands types location function = .ok id changed) :
    changed.Stocked allowed := by
  obtain ⟨position, found, -, rfl, changed_eq⟩ := Edit.insertBefore_eq_ok_iff.mp success
  have inside := (List.idxOf?_eq_some_iff.mp found).1
  refine stocked.add kind_allowed (fun other member => ?_) ?_ changed_eq
  · exact (List.mem_insertIdx (Nat.le_of_lt inside)).mpr (.inr member)
  · exact (List.mem_insertIdx (Nat.le_of_lt inside)).mpr (.inl rfl)

end Adding

theorem redirectUsers (stocked : function.Stocked allowed) (replaced replacement : ValueId) :
    (function.redirectUsers replaced replacement).Stocked allowed := by
  intro id operation found
  rw [(redirectUsers_keeps function replaced replacement).2.1]
  obtain ⟨original, original_eq, kind_eq, -⟩ := exists_original found
  rw [← kind_eq]
  exact stocked id original original_eq

theorem replaceUses (stocked : function.Stocked allowed) {replaced replacement : ValueId}
    {result : Unit} (success : Edit.replaceUses replaced replacement function =
      .ok result changed) : changed.Stocked allowed := by
  rw [← Edit.replaceUses_eq_ok success]
  exact stocked.redirectUsers replaced replacement

theorem erase (stocked : function.Stocked allowed) {id : OperationId} {result : Unit}
    (success : Edit.erase id function = .ok result changed) : changed.Stocked allowed := by
  obtain ⟨operation, found, -, rfl⟩ := Edit.erase_eq_ok success
  intro other kept kept_eq
  rw [operation?_removeOperation] at kept_eq
  split at kept_eq
  · cases kept_eq
  · rename_i apart
    obtain ⟨listed, kind_eq⟩ := stocked other kept kept_eq
    exact ⟨(List.mem_erase_of_ne apart).mpr listed, kind_eq⟩

end Function.Stocked

/-- Live returns return as many values as the signature has. -/
def Function.Returning (function : Function) : Prop :=
  ∀ id operation, function.operation? id = some operation → operation.kind.isLeave = true →
    operation.operands.length = function.resultTypes.length

namespace Function.Returning

variable {function changed : Function}

theorem insertBefore (returning : function.Returning) {kind : OperationKind}
    (proceeds : kind.isLeave = false) {anchor id : OperationId} {operands : List ValueId}
    {types : List TensorType} {location : Location}
    (success : Edit.insertBefore anchor kind operands types location function = .ok id changed) :
    changed.Returning := by
  obtain ⟨position, -, -, rfl, rfl⟩ := Edit.insertBefore_eq_ok_iff.mp success
  intro other operation found leaves
  have found := (operation?_addOperation kind operands types location other).symm.trans found
  split at found
  · obtain rfl := Option.some.inj found
    exact absurd leaves (Bool.eq_false_iff.mp proceeds)
  · exact returning other operation found leaves

theorem replaceUses (returning : function.Returning) {replaced replacement : ValueId}
    {result : Unit} (success : Edit.replaceUses replaced replacement function =
      .ok result changed) : changed.Returning := by
  obtain rfl := Edit.replaceUses_eq_ok success
  intro id operation found leaves
  obtain ⟨original, original_eq, kind_eq, length_eq⟩ := exists_original found
  rw [← length_eq, (redirectUsers_keeps function replaced replacement).1.resultTypes]
  exact returning id original original_eq (kind_eq ▸ leaves)

theorem erase (returning : function.Returning) {id : OperationId} {result : Unit}
    (success : Edit.erase id function = .ok result changed) : changed.Returning := by
  obtain ⟨operation, found, -, rfl⟩ := Edit.erase_eq_ok success
  intro other kept kept_eq leaves
  rw [operation?_removeOperation] at kept_eq
  split at kept_eq
  · cases kept_eq
  · exact returning other kept kept_eq leaves

end Function.Returning

/-! ### Edits that keep a property -/

namespace Edit

/-- Whatever the edit gives, it keeps the property. -/
def Keeps {α : Type} (property : Function → Prop) (edit : Edit α) : Prop :=
  ∀ function changed result, property function → edit function = .ok result changed →
    property changed

namespace Keeps

variable {α β : Type} {property : Function → Prop}

theorem bind {first : Edit α} {next : α → Edit β} (early : first.Keeps property)
    (late : ∀ value, (next value).Keeps property) : Keeps property (first >>= next) := by
  intro function changed result holds success
  obtain ⟨value, middle, first_eq, next_eq⟩ := EStateM.bind_eq_ok_iff.mp success
  exact late value middle changed result (early function middle value holds first_eq) next_eq

theorem pure {value : α} : Keeps property (Pure.pure value) := by
  intro function changed result holds success
  obtain ⟨-, rfl⟩ := EStateM.pure_eq_ok_iff.mp success
  exact holds

theorem throw {failure : Failure} : Keeps property (throw failure : Edit α) :=
  fun _ _ _ _ success => absurd success EStateM.throw_ne_ok

theorem get : Keeps property (get : Edit Function) := by
  intro function changed result holds success
  obtain ⟨-, rfl⟩ := EStateM.get_eq_ok_iff.mp success
  exact holds

theorem modify {change : Function → Function}
    (each : ∀ function, property function → property (change function)) :
    Keeps property (modify change : Edit PUnit) := by
  intro function changed result holds success
  obtain rfl := EStateM.modify_eq_ok_iff.mp success
  exact each function holds

theorem query {lookup : Function → Outcome α} : Keeps property (query lookup) := by
  intro function changed result holds success
  obtain ⟨-, rfl⟩ := query_eq_ok_iff.mp success
  exact holds

theorem lift {outcome : Outcome α} : Keeps property (liftM outcome : Edit α) := by
  intro function changed result holds success
  obtain ⟨-, rfl⟩ := lift_eq_ok_iff.mp success
  exact holds

/-- An outcome is known to what follows it. -/
theorem lift_bind {outcome : Outcome α} {next : α → Edit β}
    (late : ∀ value, outcome = .ok value → (next value).Keeps property) :
    Keeps property ((liftM outcome : Edit α) >>= next) := by
  intro function changed result holds success
  obtain ⟨value, middle, first_eq, next_eq⟩ := EStateM.bind_eq_ok_iff.mp success
  obtain ⟨outcome_eq, rfl⟩ := lift_eq_ok_iff.mp first_eq
  exact late value outcome_eq function changed result holds next_eq

theorem foldlM {items : List α} {step : β → α → Edit β}
    (each : ∀ state, ∀ item ∈ items, (step state item).Keeps property) (start : β) :
    Keeps property (items.foldlM step start) := by
  induction items generalizing start with
  | nil => exact pure
  | cons item rest induction =>
      rw [List.foldlM_cons]
      exact bind (each start item List.mem_cons_self) fun state =>
        induction (fun state other member => each state other (List.mem_cons_of_mem _ member)) state

theorem forM {items : List α} {step : α → Edit PUnit}
    (each : ∀ item ∈ items, (step item).Keeps property) : Keeps property (items.forM step) := by
  induction items with
  | nil => exact pure
  | cons item rest induction =>
      rw [List.forM_eq_forM] at induction ⊢
      rw [List.forM_cons]
      exact bind (each item List.mem_cons_self) fun _ =>
        induction fun other member => each other (List.mem_cons_of_mem _ member)

theorem mapM {items : List α} {step : α → Edit β} (each : ∀ item, (step item).Keeps property) :
    Keeps property (items.mapM step) := by
  induction items with
  | nil => exact pure
  | cons item rest induction =>
      rw [List.mapM_cons]
      exact bind (each item) fun _ => bind induction fun _ => pure

end Keeps

end Edit

/-! ### Inlining -/

namespace Inlining

/-- The edits that inlining is made of keep the property, as long as they put in operations of
allowed kinds only. -/
structure Preserved (allowed : OperationKind → Prop) (property : Function → Prop) : Prop where
  /-- Insertions keep it. -/
  inserted : ∀ {anchor : OperationId} {kind : OperationKind} {operands : List ValueId}
    {types : List TensorType} {location : Location}, allowed kind → kind.isLeave = false →
      (Edit.insertBefore anchor kind operands types location).Keeps property
  /-- Replacements of values keep it. -/
  replaced : ∀ {replaced replacement : ValueId},
    (Edit.replaceUses replaced replacement).Keeps property
  /-- Erasures keep it. -/
  erased : ∀ {id : OperationId}, (Edit.erase id).Keeps property

variable {allowed : OperationKind → Prop} {property : Function → Prop}

theorem preserved_stocked : Preserved allowed (Function.Stocked allowed) where
  inserted := fun kind_allowed _ _ _ _ stocked success => stocked.insertBefore kind_allowed success
  replaced := fun _ _ _ stocked success => stocked.replaceUses success
  erased := fun _ _ _ stocked success => stocked.erase success

theorem preserved_returning : Preserved allowed Function.Returning where
  inserted := fun _ proceeds _ _ _ returning success => returning.insertBefore proceeds success
  replaced := fun _ _ _ returning success => returning.replaceUses success
  erased := fun _ _ _ returning success => returning.erase success

/-- The records are kept together with the stock, since what is erased must stand in the body. -/
theorem preserved_recorded :
    Preserved allowed fun function => function.Stocked allowed ∧ function.Recorded where
  inserted := fun kind_allowed _ _ _ _ ⟨stocked, recorded⟩ success =>
    ⟨stocked.insertBefore kind_allowed success, Edit.insertBefore_recorded recorded success⟩
  replaced := fun _ _ _ ⟨stocked, recorded⟩ success =>
    ⟨stocked.replaceUses success, Edit.replaceUses_recorded recorded success⟩
  erased := by
    intro id function changed result ⟨stocked, recorded⟩ success
    refine ⟨stocked.erase success, ?_⟩
    obtain ⟨operation, found, -⟩ := Edit.erase_eq_ok success
    have member := stocked.mem_code found
    obtain ⟨known, known_eq, rfl⟩ := recorded.live id (stocked id operation found).1
    obtain rfl := Option.some.inj (found.symm.trans known_eq)
    exact Edit.erase_recorded recorded member success

namespace Preserved

variable (preserved : Preserved allowed property) (cast_allowed : allowed .cast)

include preserved cast_allowed in
theorem passArgument {callee : Function} {call : Operation} {values : ValueMap}
    {parameter argument : ValueId} :
    (passArgument callee call values parameter argument).Keeps property := by
  refine .bind .lift fun parameterType => .bind .query fun argumentType => ?_
  split
  · exact .pure
  · refine .bind (preserved.inserted cast_allowed rfl) fun _ => ?_
    exact .bind .query fun _ => .bind .lift fun _ => .pure

include preserved in
theorem copyOperation {callee : Function} {call : OperationId} {state : ValueMap × List ValueId}
    {operation : Operation} (kind_allowed : allowed operation.kind) :
    (copyOperation callee call state operation).Keeps property := by
  refine .bind (.mapM fun _ => .lift) fun operands => ?_
  split
  · exact .pure
  · rename_i proceeds
    refine .bind (.mapM fun _ => .lift) fun types => ?_
    refine .bind (preserved.inserted kind_allowed (Bool.eq_false_iff.mpr proceeds)) fun _ => ?_
    exact .bind .query fun _ => .pure

include preserved in
theorem connectResult {callee : Function} {call : Operation} {returned : List ValueId}
    {position : Nat} {result : ValueId} :
    (connectResult callee call returned position result).Keeps property := by
  rw [Inlining.connectResult]
  split
  · exact preserved.replaced
  · refine .bind .get fun _ => ?_
    split
    · exact .throw
    · exact .pure

include preserved cast_allowed

theorem expandCall {callee : Function} (stocked : callee.Stocked allowed) {call : OperationId} :
    (expandCall callee call).Keeps property := by
  refine .bind .query fun operation => ?_
  extract_lets expand
  have expands : (expand ()).Keeps property := by
    refine .bind (.foldlM (fun _ _ _ => preserved.passArgument cast_allowed) _) fun values => ?_
    refine .lift_bind fun body body_eq => ?_
    have kinds : ∀ operation ∈ body, allowed operation.kind := by
      intro operation member
      have listed := List.mem_map_of_mem (f := Except.ok (ε := Failure)) member
      rw [← Except.mapM_eq_ok_iff.mp body_eq] at listed
      obtain ⟨id, -, found⟩ := List.mem_map.mp listed
      exact (stocked id operation (Outcome.promised_eq_ok_iff.mp found)).2
    refine .bind (.foldlM (fun _ operation member =>
      preserved.copyOperation (kinds operation member)) _) fun state => ?_
    exact .bind (.forM fun _ _ => preserved.connectResult) fun _ => preserved.erased
  split
  · exact .bind .throw fun _ => expands
  · exact expands

theorem expandCalls {module : Module}
    (stocked : ∀ function ∈ module.functions, function.Stocked allowed) (budget : Nat) :
    (expandCalls module budget).Keeps property := by
  induction budget with
  | zero =>
      refine .bind .query fun first => ?_
      split
      · exact .throw
      · exact .pure
  | succ budget induction =>
      refine .bind .query fun first => ?_
      split
      · exact .pure
      · split
        · exact .throw
        · rename_i callee callee_eq
          exact .bind (preserved.expandCall cast_allowed
            (stocked callee (List.mem_of_find?_eq_some callee_eq))) fun _ => induction

/-- Inlining keeps what its edits keep. -/
theorem inline {module inlined : Module} {entry : String}
    (stocked : ∀ function ∈ module.functions, function.Stocked allowed)
    (holds : ∀ function ∈ module.functions, property function)
    (success : module.inline entry = .ok inlined) :
    ∀ function ∈ inlined.functions, property function := by
  rw [Module.inline] at success
  split at success
  · cases success
  · rename_i caller caller_eq
    rw [Except.bind_unit_eq_ok_iff] at success
    obtain ⟨-, success⟩ := success
    have others : ∀ function ∈ (module.without entry).functions, function.Stocked allowed :=
      fun function member => stocked function (Module.mem_of_mem_without member)
    have keeps := preserved.expandCalls cast_allowed others module.expansionBound
    cases expanded : Inlining.expandCalls (module.without entry) module.expansionBound caller with
    | error failure function =>
        simp only [Edit.outcome, expanded] at success
        cases success
    | ok result function =>
        simp only [Edit.outcome, expanded] at success
        cases success
        intro other member
        obtain rfl := List.mem_singleton.mp member
        exact keeps caller other result
          (holds caller (List.mem_of_find?_eq_some caller_eq)) expanded

end Preserved

/-- Inlining brings in no other operations than casts and those of the module. -/
theorem stocked_inline (cast_allowed : allowed .cast) {module inlined : Module} {entry : String}
    (stocked : ∀ function ∈ module.functions, function.Stocked allowed)
    (success : module.inline entry = .ok inlined) :
    ∀ function ∈ inlined.functions, function.Stocked allowed :=
  preserved_stocked.inline cast_allowed stocked stocked success

end Inlining

end Dataflow

end TensorLang
