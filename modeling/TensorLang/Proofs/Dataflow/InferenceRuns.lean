import TensorLang.Proofs.Dataflow.Inference
import TensorLang.Proofs.Dataflow.InferenceRefusals

/-!
# Runs of inference

Inference scans the operations that are left over until a scan resolves none of them.  A scan that
resolves one leaves fewer, so there is at most one scan more than there are operations.  Whether it
ends well or with an error, nothing but unknown types has changed; once it has ended well there is
nothing left to do; and of several operations that are left over the first is blamed.
-/

namespace TensorLang

namespace Dataflow

/-! ### What stays -/

/-- Types become known, and all else stays. -/
structure Retypes (before after : Function) : Prop extends Refines before after where
  /-- The function stands where it did. -/
  location : after.location = before.location

theorem Retypes.refl (function : Function) : Retypes function function := ⟨Refines.refl _, rfl⟩

theorem Retypes.trans {first second third : Function} (early : Retypes first second)
    (late : Retypes second third) : Retypes first third :=
  ⟨early.toRefines.trans late.toRefines, late.location.trans early.location⟩

namespace Edit

variable {α β : Type} {edit : Edit α} {before : Function}

/-- Whether it ends well or not, the edit leaves all but unknown types alone. -/
def Widens (edit : Edit α) (before : Function) : Prop := Retypes before (edit.outcome before).1

namespace Widens

theorem bind {next : α → Edit β} (early : edit.Widens before)
    (late : ∀ value middle, edit before = .ok value middle → (next value).Widens middle) :
    (edit >>= next).Widens before := by
  rw [Widens, Edit.outcome] at early
  rw [Widens, Edit.outcome, show (edit >>= next) before = EStateM.bind edit next before from rfl,
    EStateM.bind]
  cases ended : edit before with
  | ok value middle =>
      rw [ended] at early
      exact early.trans (late value middle ended)
  | error failure middle =>
      rw [ended] at early
      exact early

theorem pure {value : α} : (Pure.pure value : Edit α).Widens before := .refl before

theorem throw {failure : Failure} : (throw failure : Edit α).Widens before := .refl before

theorem get : (get : Edit Function).Widens before := .refl before

theorem lift {outcome : Outcome α} : (liftM outcome : Edit α).Widens before := by
  cases outcome <;> exact .refl before

theorem query {lookup : Function → Outcome α} : (query lookup).Widens before := by
  rw [Widens, Edit.outcome, Edit.query]
  cases lookup before <;> exact .refl before

theorem forM {items : List β} {step : β → Edit PUnit}
    (each : ∀ item middle, (step item).Widens middle) : (items.forM step).Widens before := by
  induction items generalizing before with
  | nil => exact .pure
  | cons item items induction => exact .bind (each item before) fun _ _ _ => induction

end Widens

end Edit

namespace Inference

variable {before after function : Function} {operation : Operation}

private theorem widens_setType {id : ValueId} {shape : Shape}
    (unknown : before.typeOf id = .ok .unranked) :
    (Edit.setType id (.ranked shape)).Widens before := by
  obtain ⟨value, value_eq, -⟩ := Function.typeOf_eq_ok_iff.mp unknown
  have inside : before.hasValues 0 [id] = true := by
    simpa [Function.hasValues] using Arena.lt_size_of_get? value_eq
  have set_eq : Edit.setType id (.ranked shape) before =
      .ok () (before.withType id (.ranked shape)) :=
    EStateM.bind_eq_ok_iff.mpr ⟨(), before, Edit.require_eq_ok_iff.mpr ⟨inside, rfl⟩, rfl⟩
  rw [Edit.Widens, Edit.outcome, set_eq]
  exact ⟨(Function.refines_withType unknown).1, rfl⟩

private theorem widens_setResult {shape : Shape} : (setResult operation shape).Widens before := by
  rw [setResult]
  split
  · exact .bind .lift fun _ _ refused => absurd (Edit.lift_eq_ok_iff.mp refused).1 mismatch_ne_ok
  · refine .bind .lift fun result _ result_eq => ?_
    obtain ⟨-, rfl⟩ := Edit.lift_eq_ok_iff.mp result_eq
    refine .bind .query fun type _ found => ?_
    obtain ⟨type_eq, rfl⟩ := Edit.query_eq_ok_iff.mp found
    cases type with
    | unranked => exact widens_setType type_eq
    | ranked declared =>
        dsimp only
        split
        · exact .lift
        · exact .pure

private theorem widens_setReturned {location : Location} {shape : Shape} {position : Nat} :
    (setReturned location shape position).Widens before := by
  rw [setReturned]
  refine .bind .get fun function _ get_eq => ?_
  obtain ⟨rfl, rfl⟩ := EStateM.get_eq_ok_iff.mp get_eq
  refine .bind .lift fun type _ found => ?_
  obtain ⟨type_eq, rfl⟩ := Edit.lift_eq_ok_iff.mp found
  cases type with
  | ranked declared =>
      dsimp only
      split
      · exact .throw
      · exact .pure
  | unranked =>
      exact ⟨Function.refines_setReturned (Outcome.promised_eq_ok_iff.mp type_eq), rfl⟩

private theorem widens_resolveOperation {id : OperationId} :
    (resolveOperation id).Widens before := by
  rw [resolveOperation]
  refine .bind .query fun operation _ found => ?_
  obtain ⟨-, rfl⟩ := Edit.query_eq_ok_iff.mp found
  refine .bind .query fun ranked _ ranked_eq => ?_
  obtain ⟨-, rfl⟩ := Edit.query_eq_ok_iff.mp ranked_eq
  split
  · exact .pure
  refine .bind .query fun types _ types_eq => ?_
  split
  · exact .lift
  · exact .bind widens_setResult fun _ _ _ => .pure
  · exact .bind (.forM fun _ _ => widens_setReturned) fun _ _ _ => .pure
  · exact .pure
  · exact .pure

private theorem widens_scan {ids : List OperationId} : (scan ids).Widens before := by
  induction ids generalizing before with
  | nil => exact .pure
  | cons id rest induction =>
      exact .bind widens_resolveOperation fun _ _ _ => .bind induction fun _ _ _ => .pure

private theorem widens_settle {bound : Nat} {ids : List OperationId} :
    (settle bound ids).Widens before := by
  induction bound generalizing before ids with
  | zero => exact .pure
  | succ bound induction =>
      refine .bind widens_scan fun rest _ _ => ?_
      split
      · exact induction
      · exact .pure

theorem widens_inferTypes : Edit.inferTypes.Widens before := by
  refine .bind .get fun _ _ _ => .bind widens_settle fun pending _ _ => ?_
  split
  · exact .pure
  · exact .bind .query fun _ _ _ => .throw

/-! ### Scans -/

/-- Scanning the operations that are left over until a scan resolves none of them, with the number
of scans.  Nothing bounds the scans. -/
inductive Scans : List OperationId → Function → Nat →
    EStateM.Result Failure Function (List OperationId) → Prop where
  /-- A scan fails. -/
  | failed {pending : List OperationId} {before after : Function} {failure : Failure}
      (scanned : scan pending before = .error failure after) :
      Scans pending before 1 (.error failure after)
  /-- A scan resolves nothing. -/
  | last {pending rest : List OperationId} {before after : Function}
      (scanned : scan pending before = .ok rest after) (stuck : pending.length ≤ rest.length) :
      Scans pending before 1 (.ok rest after)
  /-- A scan resolves something, and there is another one. -/
  | again {pending rest : List OperationId} {before middle : Function} {count : Nat}
      {result : EStateM.Result Failure Function (List OperationId)}
      (scanned : scan pending before = .ok rest middle) (fewer : rest.length < pending.length)
      (more : Scans rest middle count result) : Scans pending before (count + 1) result

/-- There is one way to scan. -/
theorem Scans.unique {pending : List OperationId} {count other : Nat}
    {result another : EStateM.Result Failure Function (List OperationId)}
    (scans : Scans pending before count result) (others : Scans pending before other another) :
    other = count ∧ another = result := by
  induction scans generalizing other another with
  | failed scanned =>
      cases others with
      | failed same =>
          rw [scanned] at same
          exact ⟨rfl, same.symm⟩
      | last same => cases scanned.symm.trans same
      | again same => cases scanned.symm.trans same
  | last scanned stuck =>
      cases others with
      | failed same => cases scanned.symm.trans same
      | last same =>
          rw [scanned] at same
          exact ⟨rfl, same.symm⟩
      | again same fewer =>
          obtain ⟨rfl, rfl⟩ := EStateM.Result.ok.inj (scanned.symm.trans same)
          omega
  | again scanned fewer more induction =>
      cases others with
      | failed same => cases scanned.symm.trans same
      | last same stuck =>
          obtain ⟨rfl, rfl⟩ := EStateM.Result.ok.inj (scanned.symm.trans same)
          omega
      | again same _ further =>
          obtain ⟨rfl, rfl⟩ := EStateM.Result.ok.inj (scanned.symm.trans same)
          obtain ⟨rfl, rfl⟩ := induction further
          exact ⟨rfl, rfl⟩

theorem exists_scans {bound : Nat} {pending : List OperationId} (enough : pending.length ≤ bound) :
    ∃ count ≤ bound + 1, Scans pending before count (settle bound pending before) := by
  induction bound generalizing before pending with
  | zero =>
      obtain rfl := List.length_eq_zero_iff.mp (Nat.le_zero.mp enough)
      exact ⟨1, Nat.le_refl 1, .last rfl (Nat.le_refl 0)⟩
  | succ bound induction =>
      change ∃ count ≤ bound + 2, Scans pending before count
        (EStateM.bind (scan pending) _ before)
      rw [EStateM.bind]
      cases scanned : scan pending before with
      | error failure after => exact ⟨1, by omega, .failed scanned⟩
      | ok rest middle =>
          dsimp only
          split
          · rename_i fewer
            obtain ⟨count, short, more⟩ := induction (by omega : rest.length ≤ bound)
            exact ⟨count + 1, by omega, .again scanned fewer more⟩
          · rename_i stuck
            exact ⟨1, by omega, .last scanned (Nat.le_of_not_lt stuck)⟩

/-! ### What is left over -/

/-- The operation cannot be resolved: it calls a function, or the type of an operand is not known.
-/
def Open (function : Function) (operation : Operation) : Prop :=
  operation.kind.callee? ≠ none ∨
    ∃ operand ∈ operation.operands, function.typeOf operand = .ok .unranked

private theorem exists_unranked {values : List ValueId}
    (unranked : allRanked function values = .ok false) :
    ∃ value ∈ values, function.typeOf value = .ok .unranked := by
  rw [allRanked] at unranked
  induction values with
  | nil => cases unranked
  | cons value rest induction =>
      simp only [List.allM, Except.bind_eq_ok_iff, Except.pure_eq_ok_iff] at unranked
      obtain ⟨known, ⟨type, type_eq, rfl⟩, others⟩ := unranked
      cases type with
      | unranked => exact ⟨value, List.mem_cons_self, type_eq⟩
      | ranked shape =>
          obtain ⟨other, member, other_eq⟩ := induction others
          exact ⟨other, List.mem_cons_of_mem _ member, other_eq⟩

private theorem open_of_resolveOperation {id : OperationId}
    (left : resolveOperation id before = .ok false after) :
    ∃ operation, before.operation? id = some operation ∧ Open before operation := by
  have success := left
  simp only [resolveOperation, EStateM.bind_eq_ok_iff, Edit.query_eq_ok_iff] at left
  obtain ⟨operation, _, ⟨operation_eq, rfl⟩, ranked, _, ⟨ranked_eq, rfl⟩, -⟩ := left
  have found := Outcome.promised_eq_ok_iff.mp operation_eq
  refine ⟨operation, found, ?_⟩
  by_cases no_call : operation.kind.callee? = none
  · cases ranked with
    | false => exact .inr (exists_unranked ranked_eq)
    | true => cases resolveOperation_of_ranked success found no_call (allRanked_eq_ok ranked_eq)
  · exact .inl no_call

private theorem not_open_of_typed {shapes : List Shape} {resolution : Resolution}
    (typed : operation.Typed function shapes resolution) : ¬ Open function operation := by
  rintro (calls | ⟨operand, reads, unknown⟩)
  · exact calls typed.callee?_eq_none
  · obtain ⟨position, found⟩ := List.mem_iff_getElem?.mp reads
    obtain ⟨shape, -, known⟩ := typed.typeOf_operand found
    cases unknown.symm.trans known

/-- The operation of the handle is open. -/
def OpenAt (function : Function) (id : OperationId) : Prop :=
  ∃ operation, function.operation? id = some operation ∧ Open function operation

open Classical in
theorem filter_scan {ids pending : List OperationId} {final : Function}
    (success : scan ids before = .ok pending after) (refines : Refines after final) :
    ids.filter (OpenAt final ·) = pending.filter (OpenAt final ·) := by
  induction ids generalizing before pending with
  | nil =>
      obtain ⟨rfl, -⟩ := EStateM.pure_eq_ok_iff.mp success
      rfl
  | cons id rest induction =>
      simp only [scan, EStateM.bind_eq_ok_iff, EStateM.pure_eq_ok_iff] at success
      obtain ⟨resolved, middle, first, others, last, scanned, rfl, rfl⟩ := success
      have rest_eq := induction scanned
      cases resolved with
      | false =>
          simp only [Bool.false_eq_true, if_false, List.filter_cons, rest_eq]
      | true =>
          obtain ⟨early, -, typed⟩ := resolveOperation_eq_ok first
          have late := (scan_eq_ok scanned).1.trans refines
          have closed : ¬ OpenAt final id := by
            rintro ⟨operation, found, opens⟩
            rw [late.operation?_eq, early.operation?_eq] at found
            obtain ⟨shapes, resolution, rule⟩ := typed rfl operation found
            exact not_open_of_typed (late.typed rule) opens
          simp only [if_true, List.filter_cons, closed, decide_false, Bool.false_eq_true, if_false,
            rest_eq]

open Classical in
theorem filter_settle {bound : Nat} {ids pending : List OperationId} (enough : ids.length ≤ bound)
    (success : settle bound ids before = .ok pending after) :
    ids.filter (OpenAt after ·) = pending := by
  induction bound generalizing before ids with
  | zero =>
      obtain rfl := List.length_eq_zero_iff.mp (Nat.le_zero.mp enough)
      obtain ⟨rfl, -⟩ := EStateM.pure_eq_ok_iff.mp success
      rfl
  | succ bound induction =>
      simp only [settle, EStateM.bind_eq_ok_iff] at success
      obtain ⟨rest, middle, scanned, success⟩ := success
      split at success
      · rw [filter_scan scanned (settle_eq_ok success).1, induction (by omega) success]
      · obtain ⟨rfl, rfl⟩ := EStateM.pure_eq_ok_iff.mp success
        obtain ⟨rfl, rfl, each⟩ := scan_stuck scanned (by omega)
        refine List.filter_eq_self.mpr fun id member => decide_eq_true ?_
        exact open_of_resolveOperation (each id member)

/-- Inference ends with the first operation that is left over when the scans are done. -/
def LeavesOver (function : Function) (error : Error) (after : Function) : Prop :=
  ∃ id rest operation,
    settle function.body.length function.body function = .ok (id :: rest) after ∧
      function.operation? id = some operation ∧
      error = ⟨.unresolvedShape operation.name, some operation.location⟩

/-- Inference of a regular function ends well, or shapes do not fit, or an operation is left over.
-/
theorem regular_delivers_inferTypes (regular : function.Regular) :
    Delivers Edit.inferTypes function (fun _ _ => True) fun error after =>
      (∃ operation reason, error.cause = .shapeMismatch operation reason) ∨
        LeavesOver function error after := by
  rw [Edit.inferTypes]
  refine .bind_ok (EStateM.get_eq_ok_iff.mpr ⟨rfl, rfl⟩) ?_
  refine Delivers.bind ((delivers_settle regular function.body.length (List.Subset.refl _)).mono
    (fun _ _ _ settled => settled) fun _ _ _ mismatch => .inl mismatch.2)
    fun pending after success settled => ?_
  obtain ⟨refines, listed⟩ := settled
  cases pending with
  | nil => exact trivial
  | cons id rest =>
      obtain ⟨operation, found, -⟩ := regular.live id (listed List.mem_cons_self)
      have found_after := (refines.operation?_eq id).trans found
      refine .bind_ok
        (Edit.query_eq_ok_iff.mpr ⟨Outcome.promised_eq_ok_iff.mpr found_after, rfl⟩) ?_
      exact .inr ⟨id, rest, operation, success, found, rfl⟩

private theorem blames_first_open (regular : function.Regular) {name : String}
    {location : Option Location}
    (refused : Edit.inferTypes function =
      .error (.error ⟨.unresolvedShape name, location⟩) after) :
    ∃ front id back operation, function.body = front ++ id :: back ∧
      function.operation? id = some operation ∧ operation.name = name ∧
      location = some operation.location ∧ Open after operation ∧
      ∀ earlier ∈ front, ∀ found, function.operation? earlier = some found →
        ¬ Open after found := by
  classical
  have delivered := regular_delivers_inferTypes regular
  rw [Delivers, refused] at delivered
  obtain ⟨_, _, other⟩ | ⟨id, rest, operation, settled, found, error_eq⟩ := delivered
  · cases other
  obtain ⟨name_eq, location_eq⟩ := Error.mk.inj error_eq
  have refines := (settle_eq_ok settled).1
  have filtered := filter_settle (Nat.le_refl _) settled
  obtain ⟨front, back, body_eq, earlier, opens, -⟩ := List.filter_eq_cons_iff.mp filtered
  obtain ⟨other, other_eq, opens⟩ := of_decide_eq_true opens
  rw [refines.operation?_eq, found] at other_eq
  obtain rfl := Option.some.inj other_eq
  refine ⟨front, id, back, operation, body_eq, found, (Cause.unresolvedShape.inj name_eq).symm,
    location_eq, opens, fun before_id member found_before before_eq opened => ?_⟩
  refine earlier before_id member (decide_eq_true ⟨found_before, ?_, opened⟩)
  rw [refines.operation?_eq, before_eq]

end Inference

namespace Function

/-- Inference is monotone and idempotent, stops, and reports the right operation.  Whether it ends
well or with an error, it makes unknown types known and leaves everything else alone, and it needs
at most one scan more than there are operations.  After it has ended well it does nothing any more.
If a shape stays unknown, the first operation in the body is blamed that is a call or reads a value
of unknown type. -/
theorem inferTypes_monotone_idempotent {function : Function} (regular : function.Regular) :
    Retypes function (Edit.inferTypes.outcome function).1 ∧
      (Edit.inferTypes.outcome function).2 ≠ .error .fault ∧
      (∃ count ≤ function.body.length + 1, ∀ other result,
        Inference.Scans function.body function other result ↔ other = count ∧
          result = Inference.settle function.body.length function.body function) ∧
      (∀ after, Edit.inferTypes function = .ok () after →
        Edit.inferTypes after = .ok () after) ∧
      ∀ name location after,
        Edit.inferTypes function = .error (.error ⟨.unresolvedShape name, location⟩) after →
        ∃ front id back operation, function.body = front ++ id :: back ∧
          function.operation? id = some operation ∧ operation.name = name ∧
          location = some operation.location ∧ Inference.Open after operation ∧
          ∀ earlier ∈ front, ∀ found, function.operation? earlier = some found →
            ¬ Inference.Open after found := by
  obtain ⟨count, short, scans⟩ := Inference.exists_scans (Nat.le_refl function.body.length)
  refine ⟨Inference.widens_inferTypes, ?_,
    ⟨count, short, fun other result => ⟨fun others => scans.unique others, ?_⟩⟩, ?_, ?_⟩
  · exact (Edit.delivers_outcome (Inference.regular_delivers_inferTypes regular)).ne_fault
  · rintro ⟨rfl, rfl⟩
    exact scans
  · intro after success
    obtain ⟨refines, typed⟩ := Inference.inferTypes_eq_ok success
    exact Inference.inferTypes_of_typed (regular.refines refines).live typed
  · intro name location after refused
    exact Inference.blames_first_open regular refused

/-- Turns a matrix and turns it back, with its operations in opposite order. -/
def turningBack (type : TensorType) : Function :=
  let build : Edit Unit := do
    let matrix ← Edit.pushArgument type
    let turned ← Edit.appendValue .transpose [matrix] .unranked ⟨"main", 1, 1⟩
    let back ← Edit.appendValue .transpose [turned] .unranked ⟨"main", 2, 1⟩
    let _ ← Edit.append .leave [back] [] ⟨"main", 3, 1⟩
    modify fun function =>
      { function with resultTypes := [.unranked], body := function.body.reverse }
  (build.outcome (Function.new "main" ⟨"main", 1, 1⟩)).1

theorem regular_turningBack (type : TensorType) : (turningBack type).Regular where
  live := by
    refine List.forall_mem_cons.mpr ⟨⟨_, rfl, rfl⟩, List.forall_mem_cons.mpr ⟨⟨_, rfl, rfl⟩,
      List.forall_mem_singleton.mpr ⟨_, rfl, rfl⟩⟩⟩
  operands := of_decide_eq_true rfl
  results := of_decide_eq_true rfl
  proper := of_decide_eq_true rfl
  returns := of_decide_eq_true rfl

theorem inferTypes_monotone_idempotent_turningBack :
    (∃ after, (turningBack (.ranked ⟨[2, 3]⟩)).Regular ∧
      Edit.inferTypes (turningBack (.ranked ⟨[2, 3]⟩)) = .ok () after ∧
      Retypes (turningBack (.ranked ⟨[2, 3]⟩)) after ∧ Edit.inferTypes after = .ok () after) ∧
    ∃ location after, (turningBack .unranked).Regular ∧
      Edit.inferTypes (turningBack .unranked) =
        .error (.error ⟨.unresolvedShape "return", location⟩) after ∧
      ∃ front id back operation, (turningBack .unranked).body = front ++ id :: back ∧
        (turningBack .unranked).operation? id = some operation ∧ operation.name = "return" ∧
        location = some operation.location ∧ Inference.Open after operation := by
  constructor
  · let after := (Edit.inferTypes.outcome (turningBack (.ranked ⟨[2, 3]⟩))).1
    have success : Edit.inferTypes (turningBack (.ranked ⟨[2, 3]⟩)) = .ok () after := by rfl
    obtain ⟨retypes, -, -, idempotent, -⟩ :=
      inferTypes_monotone_idempotent (regular_turningBack (.ranked ⟨[2, 3]⟩))
    exact ⟨after, regular_turningBack _, success, retypes, idempotent after success⟩
  · let after := (Edit.inferTypes.outcome (turningBack .unranked)).1
    have refused : Edit.inferTypes (turningBack .unranked) =
        .error (.error ⟨.unresolvedShape "return", some ⟨"main", 3, 1⟩⟩) after := by rfl
    obtain ⟨-, -, -, -, blames⟩ :=
      inferTypes_monotone_idempotent (regular_turningBack .unranked)
    obtain ⟨front, id, back, operation, body_eq, found, name_eq, location_eq, opens, -⟩ :=
      blames _ _ _ refused
    exact ⟨_, after, regular_turningBack _, refused, front, id, back, operation, body_eq, found,
      name_eq, location_eq, opens⟩

end Function

end Dataflow

end TensorLang
