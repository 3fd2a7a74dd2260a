import TensorLang.Proofs.Dataflow.InferenceRefusals
import TensorLang.Proofs.Dataflow.InlinedCalls
import TensorLang.Proofs.Dataflow.Replacement

/-!
# Calls can be expanded

In a verified function a call of a verified callee is expanded, and what comes out is verified.  The
expansion is refused for two reasons only: the call passes another number of arguments than the
callee takes, or it reads the result of a callee that returns nothing.
-/

namespace TensorLang

namespace Dataflow

namespace Inlining

variable {caller callee : Function} {front back : List Operation} {call : Operation}
variable {refuses : Error → Function → Prop}

/-! ### Copies -/

private theorem exists_typeOf_argument (verified : callee.Verified) {parameter : ValueId}
    (member : parameter ∈ callee.arguments) : ∃ type, callee.typeOf parameter = .ok type :=
  Function.exists_typeOf (verified.wellFormed.known parameter (List.mem_append_left _ member))

private theorem lt_size_of_available (verified : caller.Verified)
    (code_eq : caller.code = front ++ call :: back) {id : ValueId}
    (available : id ∈ caller.availableAfter front) : id.index < caller.values.size := by
  refine verified.wellFormed.known id ?_
  rw [code_eq, Function.availableAfter, List.flatMap_append, ← List.append_assoc]
  exact List.mem_append_left _ available

theorem operation_of_inserted {changed : Function} (verified : changed.Verified) {new : Operation}
    (code_eq : changed.code = front ++ new :: back) : changed.operation new.id = .ok new :=
  Outcome.promised_eq_ok_iff.mpr (verified.toRecorded.operation?_of_mem (by simp [code_eq]))

private theorem delivers_passArgument (verified : caller.Verified)
    (callee_verified : callee.Verified)
    (code_eq : caller.code = front ++ call :: back) (values : ValueMap)
    {parameter argument : ValueId} (declared : parameter ∈ callee.arguments)
    (usable : argument ∈ caller.availableAfter front) :
    Delivers (passArgument callee call values parameter argument) caller
      (fun _ changed => changed.Verified) refuses := by
  obtain ⟨parameterType, parameterType_eq⟩ := exists_typeOf_argument callee_verified declared
  obtain ⟨argumentType, argumentType_eq⟩ :=
    Function.exists_typeOf (lt_size_of_available verified code_eq usable)
  have cast_stays : OperationKind.cast.isLeave = false := rfl
  rw [passArgument]
  refine .bind_ok (Edit.lift_eq_ok_iff.mpr ⟨parameterType_eq, rfl⟩) ?_
  refine .bind_ok (Edit.query_eq_ok_iff.mpr ⟨argumentType_eq, rfl⟩) ?_
  split
  · exact verified
  · obtain ⟨changed, inserted, changed_verified, changed_code, -⟩ :=
      verified.exists_insertBefore code_eq [parameterType] call.location
        (List.forall_mem_singleton.mpr usable) cast_stays
    refine .bind_ok inserted ?_
    refine .bind_ok (Edit.query_eq_ok_iff.mpr
      ⟨operation_of_inserted changed_verified changed_code, rfl⟩) ?_
    exact changed_verified

theorem delivers_passArguments (verified : caller.Verified) (callee_verified : callee.Verified)
    (code_eq : caller.code = front ++ call :: back) {pairs : List (ValueId × ValueId)}
    (values : ValueMap) (declared : ∀ pair ∈ pairs, pair.1 ∈ callee.arguments)
    (usable : ∀ pair ∈ pairs, pair.2 ∈ caller.availableAfter front) :
    Delivers (pairs.foldlM (fun values (parameter, argument) =>
      passArgument callee call values parameter argument) values : Edit ValueMap) caller
      (fun _ changed => changed.Verified) refuses := by
  induction pairs generalizing caller front values with
  | nil => exact verified
  | cons pair rest induction =>
      obtain ⟨first_declared, rest_declared⟩ := List.forall_mem_cons.mp declared
      obtain ⟨first_usable, rest_usable⟩ := List.forall_mem_cons.mp usable
      rw [List.foldlM_cons]
      refine (delivers_passArgument verified callee_verified code_eq values first_declared
        first_usable).bind fun between middle passed middle_verified => ?_
      obtain ⟨casts, _, -, prefixed, -⟩ :=
        passArgument_eq_ok verified.wellFormed.toLinked code_eq first_usable passed
      exact induction middle_verified prefixed.code_eq between rest_declared
        fun pair member => prefixed.available_mono (rest_usable pair member)

private theorem exists_operands {values : ValueMap} {operands : List ValueId}
    (mapped : ∀ operand ∈ operands, ∃ target, values[operand.index]? = some target ∧
      target ∈ caller.availableAfter front) :
    ∃ targets : List ValueId, operands.mapM (fun operand =>
        (Outcome.promised values[operand.index]? : Outcome ValueId)) = .ok targets ∧
      ∀ target ∈ targets, target ∈ caller.availableAfter front := by
  obtain ⟨targets, targets_eq⟩ := Except.exists_mapM (ε := Failure) fun operand member => by
    obtain ⟨target, target_eq, -⟩ := mapped operand member
    exact ⟨target, Outcome.promised_eq_ok_iff.mpr target_eq⟩
  refine ⟨targets, targets_eq, fun target member => ?_⟩
  have found := List.mem_map_of_mem (f := Except.ok (ε := Failure)) member
  rw [← Except.mapM_eq_ok_iff.mp targets_eq] at found
  obtain ⟨operand, reads, target_eq⟩ := List.mem_map.mp found
  obtain ⟨other, other_eq, available⟩ := mapped operand reads
  rw [Outcome.promised_eq_ok_iff, other_eq] at target_eq
  exact Option.some.inj target_eq ▸ available

/-- An operation of the callee can be copied once its operands stand for something. -/
theorem delivers_copyOperation (verified : caller.Verified) (callee_verified : callee.Verified)
    (code_eq : caller.code = front ++ call :: back) {operation : Operation}
    (member : operation ∈ callee.code) {values : ValueMap} (returned : List ValueId)
    (mapped : ∀ operand ∈ operation.operands, ∃ target, values[operand.index]? = some target ∧
      target ∈ caller.availableAfter front) :
    Delivers (copyOperation callee call.id (values, returned) operation) caller
      (fun _ changed => changed.Verified) refuses := by
  obtain ⟨targets, targets_eq, usable⟩ := exists_operands mapped
  rw [copyOperation]
  refine .bind_ok (Edit.mapM_lift_eq_ok_iff.mpr ⟨Except.mapM_eq_ok_iff.mp targets_eq, rfl⟩) ?_
  split
  · exact verified
  · rename_i proceeds
    obtain ⟨types, types_eq⟩ := Inference.exists_types fun result defines =>
      callee_verified.lt_size_of_result member defines
    obtain ⟨changed, inserted, changed_verified, changed_code, -⟩ :=
      verified.exists_insertBefore code_eq types operation.location usable
        (by simpa using proceeds)
    refine .bind_ok (Edit.mapM_lift_eq_ok_iff.mpr ⟨Except.mapM_eq_ok_iff.mp types_eq, rfl⟩) ?_
    refine .bind_ok inserted ?_
    refine .bind_ok (Edit.query_eq_ok_iff.mpr
      ⟨operation_of_inserted changed_verified changed_code, rfl⟩) ?_
    exact changed_verified

private theorem delivers_copyOperations (verified : caller.Verified)
    (callee_verified : callee.Verified)
    (code_eq : caller.code = front ++ call :: back) {code : List Operation}
    {available : List ValueId} {values : ValueMap} (returned : List ValueId)
    (subset : code ⊆ callee.code) (goes_on : ∀ operation ∈ code, operation.kind.isLeave = false)
    (dominated : Dominated available code)
    (distinct : (available ++ code.flatMap Operation.results).Nodup)
    (mapped : ∀ id ∈ available, ∃ target,
      values[id.index]? = some target ∧ target ∈ caller.availableAfter front) :
    Delivers (code.foldlM (copyOperation callee call.id) (values, returned) :
      Edit (ValueMap × List ValueId)) caller (fun _ changed => changed.Verified) refuses := by
  induction code generalizing caller front values available with
  | nil => exact verified
  | cons operation rest induction =>
      obtain ⟨operation_mem, rest_subset⟩ := List.cons_subset.mp subset
      obtain ⟨proceeds, rest_goes_on⟩ := List.forall_mem_cons.mp goes_on
      rw [List.flatMap_cons, ← List.append_assoc] at distinct
      have distinct_front := (List.nodup_append.mp distinct).1
      have operands_mapped := fun operand reads => mapped operand (dominated.1 operand reads)
      rw [List.foldlM_cons]
      refine (delivers_copyOperation verified callee_verified code_eq operation_mem returned
        operands_mapped).bind fun ⟨between, others⟩ middle copied middle_verified => ?_
      obtain ⟨rfl, copy, early, -, -, -, results_length, kept, defined⟩ :=
        copyOperation_eq_ok verified.wellFormed.toLinked code_eq proceeds
          (List.nodup_append.mp distinct_front).2.1 operands_mapped copied
      exact induction middle_verified early.code_eq rest_subset rest_goes_on dominated.2 distinct
        (early.mapped_copy mapped (fun id member defines =>
          (List.nodup_append.mp distinct_front).2.2 id member id defines rfl)
          results_length kept defined)

theorem delivers_copyBody (verified : caller.Verified) (callee_verified : callee.Verified)
    (code_eq : caller.code = front ++ call :: back) {values : ValueMap}
    (mapped : ∀ id ∈ callee.arguments, ∃ target,
      values[id.index]? = some target ∧ target ∈ caller.availableAfter front) :
    Delivers (callee.code.foldlM (copyOperation callee call.id) (values, []) :
      Edit (ValueMap × List ValueId)) caller (fun _ changed => changed.Verified) refuses := by
  have wellFormed := callee_verified.wellFormed
  obtain ⟨body, last, callee_code, leaves, goes_on⟩ := wellFormed.ending.exists_last
  have dominated := wellFormed.dominated
  have distinct := wellFormed.distinct
  rw [callee_code, Dominated.append_iff] at dominated
  rw [Function.availableAfter, callee_code, List.flatMap_append, ← List.append_assoc] at distinct
  have body_distinct := (List.nodup_append.mp distinct).1
  have subset : body ⊆ callee.code := callee_code ▸ List.subset_append_left body [last]
  rw [callee_code, List.foldlM_append]
  refine (delivers_copyOperations verified callee_verified code_eq [] subset goes_on dominated.1
    body_distinct mapped).bind fun found middle copied middle_verified => ?_
  obtain ⟨between, others⟩ := found
  obtain ⟨rfl, copies, prefixed, -, -, -, mapped_body⟩ := copyOperations_eq_ok
    verified.wellFormed.toLinked code_eq goes_on dominated.1 body_distinct mapped copied
  rw [List.foldlM_cons]
  exact (delivers_copyOperation middle_verified callee_verified prefixed.code_eq
    (by simp [callee_code]) [] fun operand reads =>
      mapped_body operand (dominated.2.1 operand reads)).bind fun _ _ _ changed_verified =>
        changed_verified

/-! ### Results -/

/-- A value that is used has a reader. -/
theorem exists_reader (verified : caller.Verified) {value : ValueId}
    (used : caller.isUsed value = true) : ∃ reader ∈ caller.code, value ∈ reader.operands := by
  rw [Function.isUsed, Bool.not_eq_true', List.isEmpty_eq_false_iff_exists_mem] at used
  obtain ⟨user, uses⟩ := used
  obtain ⟨reader, reader_mem, reads, -⟩ :=
    mem_readers_iff.mp ((verified.users value).mem_iff.mp uses)
  exact ⟨reader, reader_mem, reads⟩

private theorem unread_of_unused (verified : caller.Verified) {value : ValueId}
    (unused : caller.isUsed value = false) :
    ∀ reader ∈ caller.code, value ∉ reader.operands := by
  intro reader member reads
  rw [Function.isUsed, Bool.not_eq_false', List.isEmpty_iff] at unused
  have uses := (verified.users value).mem_iff.mpr (mem_readers_iff.mpr ⟨reader, member, reads, rfl⟩)
  rw [unused] at uses
  cases uses

/-- What is reported of a call whose result is used although the callee returns nothing. -/
def missingResult (callee : Function) (call : Operation) : Error :=
  ⟨.brokenInvariant
    s!"{quoteName callee.name} does not return a value but the result of the call is used",
    some call.location⟩

/-- The only result of a call is connected to the returned value, unless nothing is returned and the
result is read. -/
theorem delivers_connectResult (verified : caller.Verified)
    (code_eq : caller.code = front ++ call :: back) {site : Operation} {returned : List ValueId}
    {result : ValueId} (defined : result ∈ call.results)
    (usable : ∀ target ∈ returned, target ∈ caller.availableAfter front) :
    Delivers (connectResult callee site returned 0 result) caller
      (fun _ changed => changed.Verified ∧ ∀ reader ∈ changed.code, result ∉ reader.operands)
      fun error _ => error = missingResult callee site ∧ returned = [] ∧
        ∃ reader ∈ caller.code, result ∈ reader.operands := by
  have linked := verified.wellFormed.toLinked
  obtain ⟨unread_front, unread_call, unavailable⟩ := unread_before linked code_eq defined
  rw [connectResult]
  cases returned with
  | nil =>
      refine .bind_ok (EStateM.get_eq_ok_iff.mpr ⟨rfl, rfl⟩) ?_
      split
      · rename_i used
        exact ⟨rfl, rfl, exists_reader verified used⟩
      · rename_i unused
        exact ⟨verified, unread_of_unused verified (by simpa using unused)⟩
  | cons target others =>
      have available := usable target List.mem_cons_self
      obtain ⟨redirected_eq, dominated⟩ := redirected_code linked code_eq defined available
      obtain ⟨changed, replaced, changed_verified, changed_code, -⟩ :=
        verified.exists_replaceUses result target (redirected_eq ▸ dominated)
      refine Delivers.of_ok replaced ⟨changed_verified, fun reader member => ?_⟩
      rw [changed_code, ← redirected_eq] at member
      rcases List.mem_append.mp member with earlier | later
      · exact unread_front reader earlier
      · rcases List.mem_cons.mp later with rfl | after
        · exact unread_call
        · obtain ⟨before, -, rfl⟩ := List.mem_map.mp after
          intro reads
          obtain ⟨operand, -, operand_eq⟩ := List.mem_map.mp reads
          rw [redirect] at operand_eq
          split at operand_eq
          · exact unavailable (operand_eq ▸ available)
          · exact absurd operand_eq (by assumption)

/-! ### Calls -/

/-- Why the expansion of a call is refused. -/
inductive Refuses (caller callee : Function) (call : Operation) : Error → Prop
  /-- The call passes too many or too few arguments. -/
  | arity (other : call.operands.length ≠ callee.arguments.length) :
      Refuses caller callee call
        ⟨.argumentCount callee.name callee.arguments.length call.operands.length,
          some call.location⟩
  /-- The callee returns nothing, and the result of the call is read. -/
  | missing (returns_nothing : callee.resultTypes = []) {result : ValueId}
      (defined : result ∈ call.results) {reader : Operation} (member : reader ∈ caller.code)
      (reads : result ∈ reader.operands) : Refuses caller callee call (missingResult callee call)

/-- A reader of a result of the call stood there before the copies. -/
theorem Prefixed.reader_mem {middle : Function} {added : List Operation} {result : ValueId}
    (prefixed : Prefixed caller middle front added call back)
    (code_eq : caller.code = front ++ call :: back) (defined : result ∈ call.results)
    {reader : Operation} (member : reader ∈ middle.code) (reads : result ∈ reader.operands) :
    reader ∈ caller.code := by
  have unread := (unread_before prefixed.linked prefixed.code_eq defined).1
  rw [prefixed.code_eq, List.mem_append] at member
  rw [code_eq]
  rcases member with earlier | later
  · exact absurd reads (unread reader earlier)
  · exact List.mem_append_right _ later

/-- A call with one result is expanded, or the expansion is refused. -/
theorem delivers_expandCall (verified : caller.Verified) (callee_verified : callee.Verified)
    (code_eq : caller.code = front ++ call :: back) (proceeds : call.kind.isLeave = false)
    {result : ValueId} (results_eq : call.results = [result]) :
    Delivers (expandCall callee call.id) caller (fun _ changed => changed.Verified)
      fun error _ => Refuses caller callee call error := by
  have linked := verified.wellFormed.toLinked
  have wellFormed := callee_verified.wellFormed
  have call_mem : call ∈ caller.code := by simp [code_eq]
  have call_eq : caller.operation call.id = .ok call :=
    Outcome.promised_eq_ok_iff.mpr (verified.toRecorded.operation?_of_mem call_mem)
  have defined : result ∈ call.results := results_eq ▸ List.mem_singleton_self _
  rw [expandCall]
  refine .bind_ok (Edit.query_eq_ok_iff.mpr ⟨call_eq, rfl⟩) ?_
  split
  · rename_i other
    exact .arity other
  · rename_i same
    have arity := Decidable.not_not.mp same
    have call_usable : ∀ operand ∈ call.operands, operand ∈ caller.availableAfter front := by
      exact (Function.dominated_of_code_eq verified.dominated code_eq).2.1
    have usable : ∀ pair ∈ callee.arguments.zip call.operands,
        pair.2 ∈ caller.availableAfter front :=
      fun pair member => call_usable pair.2 (List.of_mem_zip member).2
    have firsts : (callee.arguments.zip call.operands).map Prod.fst = callee.arguments :=
      List.map_fst_zip (Nat.le_of_eq arity.symm)
    refine (delivers_passArguments verified callee_verified code_eq ∅
      (fun pair member => (List.of_mem_zip member).1) usable).bind
        fun passed_values middle passed middle_verified => ?_
    obtain ⟨casts, early, -, -, passed_mapped, -⟩ := passArguments_eq_ok linked code_eq usable
      (by rw [firsts]; exact (List.nodup_append.mp wellFormed.distinct).1) passed
    have arguments_mapped : ∀ id ∈ callee.arguments, ∃ target,
        passed_values[id.index]? = some target ∧
          target ∈ middle.availableAfter (front ++ casts) := by
      intro id member
      rw [← firsts] at member
      obtain ⟨pair, pair_mem, rfl⟩ := List.mem_map.mp member
      exact passed_mapped pair pair_mem
    refine .bind_ok (Edit.lift_eq_ok_iff.mpr
      ⟨Function.bodyOperations_eq wellFormed.live, rfl⟩) ?_
    refine (delivers_copyBody middle_verified callee_verified early.code_eq arguments_mapped).bind
      fun found copied_state copied copied_verified => ?_
    obtain ⟨values, returned⟩ := found
    obtain ⟨body, last, callee_code, leaves, goes_on⟩ := wellFormed.ending.exists_last
    obtain ⟨copies, late, -, -, -, mapped, rfl⟩ := copyBody_eq_ok early.linked early.code_eq
      wellFormed callee_code leaves goes_on arguments_mapped copied
    have whole := early.trans late
    have returned_usable : ∀ target ∈ last.operands.map (image values),
        target ∈ copied_state.availableAfter (front ++ (casts ++ copies)) := by
      intro target member
      obtain ⟨operand, reads, rfl⟩ := List.mem_map.mp member
      have dominated := Function.dominated_of_code_eq wellFormed.dominated callee_code
      obtain ⟨target, target_eq, available⟩ := mapped operand (dominated.2.1 operand reads)
      rw [image, target_eq, ← List.append_assoc]
      exact available
    have connects : Delivers (connectResult callee call (last.operands.map (image values)) 0 result)
        copied_state _ _ := delivers_connectResult copied_verified whole.code_eq defined
      returned_usable
    simp only [results_eq, List.zipIdx_singleton, List.forM_eq_forM, List.forM_cons,
      List.forM_nil, bind_pure_unit]
    refine (connects.mono (fun _ _ _ connected => connected) fun error after _ refused => ?_).bind
      fun _ connected_state connected unread => ?_
    · obtain ⟨rfl, returned_eq, reader, member, reads⟩ := refused
      have counts := callee_verified.returns last (by simp [callee_code]) leaves
      rw [← List.length_map, returned_eq, List.length_nil, eq_comm,
        List.length_eq_zero_iff] at counts
      exact .missing counts defined (whole.reader_mem code_eq defined member reads) reads
    · obtain ⟨connected_linked, -, connected_code⟩ := connectResult_eq_ok whole.linked whole.code_eq
        defined returned_usable connected
      obtain ⟨changed, erased, changed_verified, -⟩ := unread.1.exists_erase connected_code proceeds
        fun reader member operand reads defines => by
          rw [results_eq, List.mem_singleton] at defines
          exact unread.2 reader member (defines ▸ reads)
      exact Delivers.of_ok erased changed_verified

end Inlining

end Dataflow

end TensorLang
