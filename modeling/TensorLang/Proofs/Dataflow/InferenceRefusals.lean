import TensorLang.Proofs.Dataflow.Inference
import TensorLang.Proofs.Dataflow.Reductions
import TensorLang.Proofs.Refusing

/-!
# What inference refuses

On a verified function inference ends, and it breaks no promise.  It refuses shapes that do not fit
an operation, and an operation that it cannot resolve.  Then some operation calls or the function
has an argument, as all other operands come out of operations that are resolved earlier.  Whatever
it refuses, it has only given types to values that had none.
-/

namespace TensorLang

namespace Dataflow

section Edits

variable {α : Type} {function : Function} {outcome : Outcome α}
variable {accepts : α → Function → Prop} {refuses : Error → Function → Prop}

theorem Edit.delivers_lift
    (delivers : outcome.Delivers (fun value => accepts value function)
      fun error => refuses error function) :
    Delivers (liftM outcome : Edit α) function accepts refuses := by
  cases outcome with
  | ok value => exact delivers
  | error failure =>
      cases failure with
      | error error => exact delivers
      | fault => exact delivers.elim

theorem Edit.delivers_outcome {edit : Edit α} (delivers : Delivers edit function accepts refuses) :
    (edit.outcome function).2.Delivers (fun value => accepts value (edit.outcome function).1)
      fun error => refuses error (edit.outcome function).1 := by
  rw [TensorLang.Delivers] at delivers
  rw [Edit.outcome]
  cases ended : edit function with
  | ok value changed =>
      rw [ended] at delivers
      exact delivers
  | error failure changed =>
      rw [ended] at delivers
      cases failure with
      | error error => exact delivers
      | fault => exact delivers

end Edits

/-- Types say nothing about the order of operations. -/
theorem Function.InOrder.refines {allowed : OperationKind → Prop} {before after : Function}
    (inOrder : before.InOrder allowed) (refines : Refines before after) :
    after.InOrder allowed where
  verified := refines.verified inOrder.verified
  proper := refines.proper inOrder.proper
  among := by
    intro operation member
    rw [refines.code_eq] at member
    exact inOrder.among operation member

/-- The operations of the body exist, with the values that they name, in the numbers that their
kinds and the signature call for.  Nothing is said of their order. -/
structure Function.Regular (function : Function) : Prop where
  /-- The operations exist. -/
  live : function.Live
  /-- The operands exist. -/
  operands : ∀ operation ∈ function.code, ∀ operand ∈ operation.operands,
    operand.index < function.values.size
  /-- The results exist. -/
  results : ∀ operation ∈ function.code, ∀ result ∈ operation.results,
    result.index < function.values.size
  /-- Kinds have their numbers of operands and results. -/
  proper : function.Proper
  /-- As many values are returned as the signature has. -/
  returns : ∀ operation ∈ function.code, operation.kind.isLeave = true →
    operation.operands.length = function.resultTypes.length

theorem Function.Verified.regular {function : Function} (verified : function.Verified)
    (proper : function.Proper) : function.Regular where
  live := verified.live
  operands := fun _ member _ => verified.lt_size_of_operand member
  results := fun _ member _ => verified.lt_size_of_result member
  proper := proper
  returns := verified.returns

/-- Types say nothing about numbers. -/
theorem Function.Regular.refines {before after : Function} (regular : before.Regular)
    (refines : Refines before after) : after.Regular where
  live := by
    rw [Function.Live, refines.body]
    exact fun id member => refines.operation?_eq id ▸ regular.live id member
  operands := refines.code_eq ▸ refines.size ▸ regular.operands
  results := refines.code_eq ▸ refines.size ▸ regular.results
  proper := refines.proper regular.proper
  returns := refines.code_eq ▸ refines.arity ▸ regular.returns

namespace Inference

variable {function before after : Function} {operation : Operation} {ids : List OperationId}

/-- What inference of a function refuses. -/
inductive Refuses (function : Function) : Cause → Prop
  /-- Shapes do not fit. -/
  | mismatch (operation reason : String) : Refuses function (.shapeMismatch operation reason)
  /-- An operation is left over, which happens only with calls and arguments. -/
  | unresolved (operation : String)
      (open_ : function.arguments ≠ [] ∨
        ∃ operation ∈ function.code, operation.kind.callee? ≠ none) :
      Refuses function (.unresolvedShape operation)

/-- The shapes do not fit, and types have only been added. -/
def Mismatch (before : Function) (error : Error) (after : Function) : Prop :=
  Refines before after ∧ ∃ operation reason, error.cause = .shapeMismatch operation reason

theorem Mismatch.trans {middle : Function} {error : Error} (early : Refines before middle)
    (late : Mismatch middle error after) : Mismatch before error after :=
  ⟨early.trans late.1, late.2⟩

/-! ### Rules -/

theorem resultCount_of_resolve {kind : OperationKind} {shapes : List Shape} {shape : Shape}
    (resolved : kind.resolve shapes = .ok (.result shape)) : kind.resultCount = 1 := by
  cases kind with
  | leave | print | call => cases resolved
  | _ => rfl

theorem leave_of_resolve {kind : OperationKind} {shapes returned : List Shape}
    (resolved : kind.resolve shapes = .ok (.returned returned)) :
    kind.isLeave = true ∧ shapes = returned := by
  cases kind with
  | leave =>
      cases resolved
      exact ⟨rfl, rfl⟩
  | print | call => cases resolved
  | _ =>
      obtain ⟨shape, other⟩ := OperationKind.exists_result_of_resolve rfl resolved (by simp)
      cases other

theorem callee?_of_resolve {kind : OperationKind} {shapes : List Shape}
    (resolved : kind.resolve shapes = .ok .unknown) : kind.callee? ≠ none := by
  cases kind with
  | call => nofun
  | leave | print => cases resolved
  | constant => cases resolved
  | add | multiply =>
      obtain ⟨_, _, other⟩ := OperationKind.resolve_add resolved
      cases other
  | matmul =>
      obtain ⟨_, _, _, _, other⟩ := OperationKind.resolve_matmul resolved
      cases other
  | transpose =>
      obtain ⟨_, _, other⟩ := OperationKind.resolve_transpose resolved
      cases other
  | reshape =>
      obtain ⟨_, _, _, _, _, other⟩ := OperationKind.resolve_reshape resolved
      cases other
  | cast =>
      obtain ⟨_, _, other⟩ := OperationKind.resolve_cast resolved
      cases other

/-! ### Single operations -/

private theorem exists_allRanked {values : List ValueId}
    (existing : ∀ value ∈ values, value.index < function.values.size) :
    ∃ ranked, allRanked function values = .ok ranked := by
  refine Except.exists_allM fun value member => ?_
  obtain ⟨type, type_eq⟩ := Function.exists_typeOf (existing value member)
  exact ⟨type.isRanked, by rw [type_eq]; rfl⟩

theorem exists_types {values : List ValueId}
    (existing : ∀ value ∈ values, value.index < function.values.size) :
    ∃ types, values.mapM function.typeOf = .ok types :=
  Except.exists_mapM fun value member => Function.exists_typeOf (existing value member)

theorem delivers_mismatch {α : Type} {accepts : α → Function → Prop} (reason : String) :
    Delivers (liftM (mismatch operation reason : Outcome α) : Edit α) before accepts
      (Mismatch before) :=
  Edit.delivers_lift (Outcome.Delivers.failAt ⟨Refines.refl _, _, _, rfl⟩)

private theorem delivers_setResult {result : ValueId} {shape : Shape}
    (results_eq : operation.results = [result]) (existing : result.index < before.values.size) :
    Delivers (setResult operation shape) before (fun _ after => Refines before after)
      (Mismatch before) := by
  refine Delivers.of_success ?_ fun _ after success => (setResult_eq_ok success).1
  obtain ⟨type, type_eq⟩ := Function.exists_typeOf existing
  have result_eq : operation.result = .ok result := by rw [Operation.result, results_eq]
  rw [setResult]
  split
  · exact ⟨Refines.refl _, _, _, rfl⟩
  · refine .bind_ok (Edit.lift_eq_ok_iff.mpr ⟨result_eq, rfl⟩) ?_
    refine .bind_ok (Edit.query_eq_ok_iff.mpr ⟨type_eq, rfl⟩) ?_
    cases type with
    | unranked =>
        refine Delivers.of_ok (EStateM.bind_eq_ok_iff.mpr
          ⟨⟨⟩, _, Edit.require_eq_ok_iff.mpr ⟨?_, rfl⟩, rfl⟩) trivial
        simpa [Function.hasValues] using existing
    | ranked declared =>
        dsimp only
        split
        · exact delivers_mismatch _
        · exact trivial

private theorem delivers_setReturned {location : Location} {shape : Shape} {position : Nat}
    (inside : position < before.resultTypes.length) :
    Delivers (setReturned location shape position) before (fun _ after => Refines before after)
      (Mismatch before) := by
  refine Delivers.of_success ?_ fun _ after success => (setReturned_eq_ok success).1
  have found : before.resultTypes[position]? = some before.resultTypes[position] :=
    List.getElem?_eq_getElem inside
  rw [setReturned]
  refine .bind_ok (EStateM.get_eq_ok_iff.mpr ⟨rfl, rfl⟩) ?_
  refine .bind_ok (Edit.lift_eq_ok_iff.mpr ⟨Outcome.promised_eq_ok_iff.mpr found, rfl⟩) ?_
  cases before.resultTypes[position] with
  | unranked => exact trivial
  | ranked declared =>
      dsimp only
      split
      · exact ⟨Refines.refl _, _, _, rfl⟩
      · exact trivial

private theorem delivers_setAllReturned {location : Location} {shapes : List (Shape × Nat)}
    (inside : ∀ entry ∈ shapes, entry.2 < before.resultTypes.length) :
    Delivers (shapes.forM fun (shape, position) => setReturned location shape position) before
      (fun _ after => Refines before after) (Mismatch before) := by
  refine Delivers.forM (fun state refines entry member => ?_) (Refines.refl _)
  have later : entry.2 < state.resultTypes.length := by
    rw [refines.arity]
    exact inside entry member
  exact (delivers_setReturned later).mono (fun _ _ _ next => refines.trans next)
    fun _ _ _ mismatch => mismatch.trans refines

private theorem delivers_resolveOperation (regular : before.Regular) {id : OperationId}
    (member : id ∈ before.body) :
    Delivers (resolveOperation id) before (fun _ after => Refines before after)
      (Mismatch before) := by
  refine Delivers.of_success ?_ fun _ after success => (resolveOperation_eq_ok success).1
  obtain ⟨operation, found, -⟩ := regular.live id member
  have code_mem : operation ∈ before.code := Function.mem_code_iff.mpr ⟨id, member, found⟩
  have existing := regular.operands operation code_mem
  obtain ⟨ranked, ranked_eq⟩ := exists_allRanked existing
  obtain ⟨types, types_eq⟩ := exists_types existing
  rw [resolveOperation]
  refine .bind_ok (Edit.query_eq_ok_iff.mpr ⟨Outcome.promised_eq_ok_iff.mpr found, rfl⟩) ?_
  refine .bind_ok (Edit.query_eq_ok_iff.mpr ⟨ranked_eq, rfl⟩) ?_
  cases ranked with
  | false => exact trivial
  | true =>
      refine .bind_ok (Edit.query_eq_ok_iff.mpr ⟨types_eq, rfl⟩) ?_
      cases resolved : operation.kind.resolve (types.filterMap TensorType.shape?) with
      | error reason => exact delivers_mismatch _
      | ok resolution =>
          cases resolution with
          | result shape =>
              have one := resultCount_of_resolve resolved
              rw [← (regular.proper operation code_mem).results, List.length_eq_one_iff] at one
              obtain ⟨result, results_eq⟩ := one
              exact (delivers_setResult results_eq (regular.results operation code_mem result
                (results_eq ▸ List.mem_singleton_self _))).bind fun _ _ _ _ => trivial
          | returned shapes =>
              obtain ⟨leaves, rfl⟩ := leave_of_resolve resolved
              refine (delivers_setAllReturned fun entry entry_mem => ?_).bind
                fun _ _ _ _ => trivial
              have inside := List.snd_lt_of_mem_zipIdx entry_mem
              rw [Nat.add_zero] at inside
              have shorter := List.length_filterMap_le TensorType.shape? types
              rw [← regular.returns operation code_mem leaves]
              have same := congrArg List.length (Except.mapM_eq_ok_iff.mp types_eq)
              rw [List.length_map, List.length_map] at same
              omega
          | settled => exact trivial
          | unknown => exact trivial

/-! ### Scans -/

private theorem delivers_scan (regular : before.Regular) {ids : List OperationId}
    (listed : ids ⊆ before.body) :
    Delivers (scan ids) before (fun pending after => Refines before after ∧ pending ⊆ ids)
      (Mismatch before) := by
  refine Delivers.of_success ?_ fun pending after success =>
    ⟨(scan_eq_ok success).1, (scan_eq_ok success).2.2.1⟩
  induction ids generalizing before with
  | nil => exact trivial
  | cons id rest induction =>
      obtain ⟨id_mem, rest_mem⟩ := List.cons_subset.mp listed
      rw [scan]
      refine (delivers_resolveOperation regular id_mem).bind fun _ middle _ refines => ?_
      have later := induction (regular.refines refines) (refines.body ▸ rest_mem)
      exact (later.mono (fun _ _ _ holds => holds) fun _ _ _ mismatch =>
        mismatch.trans refines).bind fun _ _ _ _ => trivial

theorem delivers_settle (regular : before.Regular) (bound : Nat) {ids : List OperationId}
    (listed : ids ⊆ before.body) :
    Delivers (settle bound ids) before (fun pending after => Refines before after ∧ pending ⊆ ids)
      (Mismatch before) := by
  induction bound generalizing before ids with
  | zero => exact ⟨Refines.refl _, List.Subset.refl _⟩
  | succ bound induction =>
      rw [settle]
      refine (delivers_scan regular listed).bind fun pending middle _ scanned => ?_
      obtain ⟨refines, subset⟩ := scanned
      split
      · have later : pending ⊆ middle.body := by
          rw [refines.body]
          exact List.Subset.trans subset listed
        exact (induction (regular.refines refines) later).mono
          (fun _ _ _ settled => ⟨refines.trans settled.1, List.Subset.trans settled.2 subset⟩)
          fun _ _ _ mismatch => mismatch.trans refines
      · exact ⟨refines, subset⟩

/-! ### Operations that are left over -/

theorem resolveOperation_eq_false {id : OperationId}
    (left : resolveOperation id before = .ok false after) : after = before := by
  simp only [resolveOperation, EStateM.bind_eq_ok_iff, Edit.query_eq_ok_iff] at left
  obtain ⟨operation, _, ⟨-, rfl⟩, ranked, _, ⟨-, rfl⟩, left⟩ := left
  cases ranked with
  | false => exact (EStateM.pure_eq_ok_iff.mp left).2.symm
  | true =>
      simp only [Bool.not_true, Bool.false_eq_true, if_false, EStateM.bind_eq_ok_iff,
        Edit.query_eq_ok_iff] at left
      obtain ⟨types, _, ⟨-, rfl⟩, left⟩ := left
      cases resolved : operation.kind.resolve (types.filterMap TensorType.shape?) with
      | error reason =>
          rw [resolved] at left
          exact absurd (Edit.lift_eq_ok_iff.mp left).1 mismatch_ne_ok
      | ok resolution =>
          rw [resolved] at left
          cases resolution with
          | result | returned =>
              obtain ⟨_, _, -, done⟩ := EStateM.bind_eq_ok_iff.mp left
              cases (EStateM.pure_eq_ok_iff.mp done).1
          | settled => cases (EStateM.pure_eq_ok_iff.mp left).1
          | unknown => exact (EStateM.pure_eq_ok_iff.mp left).2.symm

/-- An operation is left over only if it calls or the shape of an operand is not known. -/
theorem resolveOperation_of_ranked {id : OperationId} {resolved : Bool}
    (success : resolveOperation id before = .ok resolved after)
    (found : before.operation? id = some operation) (no_call : operation.kind.callee? = none)
    (ranked : ∀ operand ∈ operation.operands, ∃ shape,
      before.typeOf operand = .ok (.ranked shape)) : resolved = true := by
  simp only [resolveOperation, EStateM.bind_eq_ok_iff, Edit.query_eq_ok_iff] at success
  obtain ⟨other, _, ⟨other_eq, rfl⟩, known, _, ⟨known_eq, rfl⟩, success⟩ := success
  obtain rfl := Option.some.inj (found.symm.trans (Outcome.promised_eq_ok_iff.mp other_eq))
  rw [allRanked_of_ranked ranked] at known_eq
  obtain rfl := Except.ok.inj known_eq
  simp only [Bool.not_true, Bool.false_eq_true, if_false, EStateM.bind_eq_ok_iff,
    Edit.query_eq_ok_iff] at success
  obtain ⟨types, _, ⟨-, rfl⟩, success⟩ := success
  cases resolution_eq : operation.kind.resolve (types.filterMap TensorType.shape?) with
  | error reason =>
      rw [resolution_eq] at success
      exact absurd (Edit.lift_eq_ok_iff.mp success).1 mismatch_ne_ok
  | ok resolution =>
      rw [resolution_eq] at success
      cases resolution with
      | result | returned =>
          obtain ⟨_, _, -, done⟩ := EStateM.bind_eq_ok_iff.mp success
          exact (EStateM.pure_eq_ok_iff.mp done).1.symm
      | settled => exact (EStateM.pure_eq_ok_iff.mp success).1.symm
      | unknown => exact absurd no_call (callee?_of_resolve resolution_eq)

private theorem length_scan_le {ids pending : List OperationId}
    (success : scan ids before = .ok pending after) : pending.length ≤ ids.length := by
  induction ids generalizing before pending with
  | nil =>
      obtain ⟨rfl, -⟩ := EStateM.pure_eq_ok_iff.mp success
      exact Nat.le_refl _
  | cons id rest induction =>
      simp only [scan, EStateM.bind_eq_ok_iff, EStateM.pure_eq_ok_iff] at success
      obtain ⟨resolved, middle, -, others, last, scanned, rfl, rfl⟩ := success
      have shorter := induction scanned
      cases resolved with
      | true => exact Nat.le_succ_of_le shorter
      | false => exact Nat.succ_le_succ shorter

/-- A scan that resolves nothing leaves all operations over and changes nothing. -/
theorem scan_stuck {ids pending : List OperationId}
    (success : scan ids before = .ok pending after) (stuck : ids.length ≤ pending.length) :
    pending = ids ∧ after = before ∧
      ∀ id ∈ ids, resolveOperation id before = .ok false before := by
  induction ids generalizing before pending with
  | nil =>
      obtain ⟨rfl, rfl⟩ := EStateM.pure_eq_ok_iff.mp success
      exact ⟨rfl, rfl, by simp⟩
  | cons id rest induction =>
      simp only [scan, EStateM.bind_eq_ok_iff, EStateM.pure_eq_ok_iff] at success
      obtain ⟨resolved, middle, first, others, last, scanned, rfl, rfl⟩ := success
      have shorter := length_scan_le scanned
      cases resolved with
      | true => 
          simp only [if_true, List.length_cons] at stuck
          omega
      | false =>
          obtain rfl := resolveOperation_eq_false first
          simp only [Bool.false_eq_true, if_false, List.length_cons,
            Nat.add_le_add_iff_right] at stuck
          obtain ⟨rfl, rfl, each⟩ := induction scanned stuck
          exact ⟨rfl, rfl, List.forall_mem_cons.mpr ⟨first, each⟩⟩

private theorem settle_stuck {bound : Nat} {ids pending : List OperationId}
    (success : settle bound ids before = .ok pending after) (enough : ids.length ≤ bound) :
    ∀ id ∈ pending, resolveOperation id after = .ok false after := by
  induction bound generalizing before ids with
  | zero =>
      obtain ⟨rfl, rfl⟩ := EStateM.pure_eq_ok_iff.mp success
      rw [List.length_eq_zero_iff.mp (Nat.le_zero.mp enough)]
      nofun
  | succ bound induction =>
      simp only [settle, EStateM.bind_eq_ok_iff] at success
      obtain ⟨rest, middle, scanned, success⟩ := success
      split at success
      · exact induction success (by omega)
      · obtain ⟨rfl, rfl⟩ := EStateM.pure_eq_ok_iff.mp success
        obtain ⟨rfl, rfl, each⟩ := scan_stuck scanned (by omega)
        exact each

/-- The results of operations that obey their rules have known shapes. -/
theorem ranked_of_typed {shapes : List Shape} {resolution : Resolution}
    (typed : operation.Typed function shapes resolution) (proper : operation.Proper)
    {result : ValueId} (defines : result ∈ operation.results) :
    ∃ shape, function.typeOf result = .ok (.ranked shape) := by
  have results_eq := proper.results_eq defines
  have one : operation.kind.resultCount = 1 := by rw [← proper.results, results_eq]; rfl
  obtain ⟨shape, rfl⟩ := OperationKind.exists_result_of_resolve one typed.resolved typed.known
  obtain ⟨other, other_eq, type_eq⟩ := typed.result shape rfl
  obtain rfl := List.singleton_inj.mp (results_eq.symm.trans other_eq)
  exact ⟨shape, type_eq⟩

private theorem operands_of_dominated {property : ValueId → Prop} {code : List Operation}
    {available : List ValueId} (dominated : Dominated available code)
    (given : ∀ id ∈ available, property id)
    (passed : ∀ operation ∈ code, (∀ operand ∈ operation.operands, property operand) →
      ∀ result ∈ operation.results, property result) :
    ∀ operation ∈ code, ∀ operand ∈ operation.operands, property operand := by
  induction code generalizing available with
  | nil => nofun
  | cons operation rest induction =>
      obtain ⟨reads, later⟩ := dominated
      obtain ⟨first, others⟩ := List.forall_mem_cons.mp passed
      have operands : ∀ operand ∈ operation.operands, property operand :=
        fun operand member => given operand (reads operand member)
      refine List.forall_mem_cons.mpr ⟨operands, induction later ?_ others⟩
      exact List.forall_mem_append.mpr ⟨given, first operands⟩

/-- Inference of a function without arguments and calls leaves no operation over: the shapes that an
operation needs come out of operations in front of it. -/
theorem pending_eq_nil {pending : List OperationId}
    (success : settle function.body.length function.body function = .ok pending after)
    (verified : function.Verified) (proper : function.Proper) (closed : function.arguments = [])
    (no_calls : ∀ operation ∈ function.code, operation.kind.callee? = none)
    (listed : pending ⊆ function.body) : pending = [] := by
  obtain ⟨refines, -, each⟩ := settle_eq_ok success
  have stuck := settle_stuck success (Nat.le_refl _)
  have dominated := (refines.verified verified).dominated
  rw [refines.arguments, closed, refines.code_eq] at dominated
  have resolved : ∀ id ∈ pending, ∀ operation, function.operation? id = some operation →
      ¬ ∀ operand ∈ operation.operands, ∃ shape, after.typeOf operand = .ok (.ranked shape) := by
    intro id member operation found ranked
    have no_call := no_calls operation (Function.mem_code_iff.mpr ⟨id, listed member, found⟩)
    rw [← refines.operation?_eq] at found
    cases resolveOperation_of_ranked (stuck id member) found no_call ranked
  have ranked := operands_of_dominated dominated nofun
    fun operation member (operands : ∀ operand ∈ operation.operands,
      ∃ shape, after.typeOf operand = .ok (.ranked shape)) result defines => by
      obtain ⟨id, id_mem, found⟩ := Function.mem_code_iff.mp member
      rcases each id id_mem with left | typed
      · exact absurd operands (resolved id left operation found)
      · obtain ⟨shapes, resolution, holds⟩ := typed operation found
        exact ranked_of_typed holds (proper operation member) defines
  refine List.eq_nil_iff_forall_not_mem.mpr fun id member => ?_
  obtain ⟨operation, found, -⟩ := verified.live id (listed member)
  exact resolved id member operation found
    (ranked operation (Function.mem_code_iff.mpr ⟨id, listed member, found⟩))

/-- Inference of a verified function ends with types that were added, or it refuses the function. -/
theorem delivers_inferTypes (verified : function.Verified) (proper : function.Proper) :
    Delivers Edit.inferTypes function (fun _ after => Refines function after)
      fun error after => Refines function after ∧ Refuses function error.cause := by
  rw [Edit.inferTypes]
  refine .bind_ok (EStateM.get_eq_ok_iff.mpr ⟨rfl, rfl⟩) ?_
  refine Delivers.bind ((delivers_settle (verified.regular proper) function.body.length
    (List.Subset.refl _)).mono (fun _ _ _ settled => settled) fun error after _ mismatch => ?_)
    fun pending after success settled => ?_
  · obtain ⟨refines, operation, reason, cause_eq⟩ := mismatch
    exact ⟨refines, cause_eq ▸ .mismatch operation reason⟩
  · obtain ⟨refines, listed⟩ := settled
    cases pending with
    | nil => exact refines
    | cons id rest =>
        obtain ⟨operation, found, -⟩ := verified.live id (listed List.mem_cons_self)
        rw [← refines.operation?_eq] at found
        refine .bind_ok (Edit.query_eq_ok_iff.mpr ⟨Outcome.promised_eq_ok_iff.mpr found, rfl⟩) ?_
        refine ⟨refines, .unresolved _ ?_⟩
        refine (Decidable.em (function.arguments = [])).symm.imp_right fun closed => ?_
        refine Classical.byContradiction fun no_calls => ?_
        refine List.cons_ne_nil id rest (pending_eq_nil success verified proper closed
          (fun operation member => Classical.byContradiction fun calls => ?_) listed)
        exact no_calls ⟨operation, member, calls⟩

end Inference

end Dataflow

end TensorLang
