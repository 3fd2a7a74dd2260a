import TensorLang.Dataflow.Inlining
import TensorLang.Proofs.Dataflow.Editing

/-!
# Inlining preserves meaning

Expanding a call puts casts of the arguments and renamed copies of the callee's operations in front
of it, lets the operations after it read the returned values, and takes the call out.  The copies do
in the caller what the body of the callee does on its own, so the caller does the same as before.
Calls end in functions without calls, as no function calls itself.
-/

namespace TensorLang

namespace Dataflow

namespace Inlining

variable {caller changed callee : Function} {calls : Calls}
variable {front back : List Operation} {call : Operation}

/-- The change puts operations between `front` and a call, and they define new values. -/
structure Prefixed (before after : Function) (front added : List Operation) (call : Operation)
    (back : List Operation) : Prop where
  /-- All operations fit together. -/
  linked : after.Linked
  /-- The operations stand in front of the call. -/
  code_eq : after.code = front ++ added ++ call :: back
  /-- All values are kept. -/
  extension : Extends before after
  /-- Results are new. -/
  fresh : ∀ result ∈ added.flatMap Operation.results, before.values.size ≤ result.index

namespace Prefixed

theorem refl (linked : caller.Linked) (code_eq : caller.code = front ++ call :: back) :
    Prefixed caller caller front [] call back :=
  ⟨linked, by simpa using code_eq, Extends.refl _, by simp⟩

theorem trans {first second third : Function} {earlier later : List Operation}
    (early : Prefixed first second front earlier call back)
    (late : Prefixed second third (front ++ earlier) later call back) :
    Prefixed first third front (earlier ++ later) call back where
  linked := late.linked
  code_eq := by rw [late.code_eq, List.append_assoc front]
  extension := early.extension.trans late.extension
  fresh := by
    intro result member
    rw [List.flatMap_append] at member
    rcases List.mem_append.mp member with old | new
    · exact early.fresh result old
    · exact Nat.le_trans early.extension.size (late.fresh result new)

/-- What is available in front of the call exists. -/
theorem known {before after : Function} {added : List Operation}
    (prefixed : Prefixed before after front added call back) {id : ValueId}
    (available : id ∈ after.availableAfter (front ++ added)) : id.index < after.values.size := by
  apply prefixed.linked.known
  rw [prefixed.code_eq, Function.availableAfter, List.flatMap_append, ← List.append_assoc]
  exact List.mem_append_left _ available

theorem available_mono {before after : Function} {added : List Operation}
    (prefixed : Prefixed before after front added call back) {id : ValueId}
    (available : id ∈ before.availableAfter front) :
    id ∈ after.availableAfter (front ++ added) := by
  rw [Function.availableAfter, prefixed.extension.arguments, List.flatMap_append,
    ← List.append_assoc]
  exact List.mem_append_left _ available

end Prefixed

/-! ### Arguments -/

theorem getElem?_insert_valueMap (values : ValueMap) (key id target : ValueId) :
    (values.insert key.index target)[id.index]? =
      if id = key then some target else values[id.index]? := by
  obtain ⟨place⟩ := key
  obtain ⟨index⟩ := id
  simp only [Std.TreeMap.getElem?_insert, Nat.compare_eq_eq, Handle.mk.injEq]
  by_cases same : place = index
  · rw [if_pos same, if_pos same.symm]
  · rw [if_neg same, if_neg (Ne.symm same)]

/-- An argument is passed as it is or through a cast. -/
theorem passArgument_eq_ok (linked : caller.Linked) (code_eq : caller.code = front ++ call :: back)
    {values after : ValueMap} {parameter argument : ValueId}
    (usable : argument ∈ caller.availableAfter front)
    (success : passArgument callee call values parameter argument caller = .ok after changed) :
    ∃ casts target, after = values.insert parameter.index target ∧
      Prefixed caller changed front casts call back ∧
      target ∈ changed.availableAfter (front ++ casts) ∧
      (∀ operation ∈ casts, operation.kind = .cast ∧ operation.Proper ∧
        operation.operands = [argument]) ∧
      ∀ calls environment, ∃ final, advance calls casts environment = .ok ([], final) ∧
        final target = environment argument := by
  simp only [passArgument, EStateM.bind_eq_ok_iff, Edit.lift_eq_ok_iff,
    Edit.query_eq_ok_iff] at success
  obtain ⟨parameterType, _, ⟨-, rfl⟩, argumentType, _, ⟨-, rfl⟩, success⟩ := success
  split at success
  · obtain ⟨rfl, rfl⟩ := EStateM.pure_eq_ok_iff.mp success
    exact ⟨[], argument, rfl, .refl linked code_eq, by simpa using usable, by simp,
      fun calls environment => ⟨environment, rfl, rfl⟩⟩
  · simp only [EStateM.bind_eq_ok_iff, Edit.query_eq_ok_iff, EStateM.pure_eq_ok_iff,
      Edit.lift_eq_ok_iff, Operation.result_eq_ok_iff] at success
    obtain ⟨id, middle, inserted, operation, _, ⟨found, rfl⟩, target, _, ⟨result_eq, rfl⟩, rfl,
      rfl⟩ := success
    have usable_all : ∀ operand ∈ [argument], operand ∈ caller.availableAfter front := by
      simpa using usable
    obtain ⟨changed_linked, changed_code, extension, operation_eq⟩ :=
      linked.insertBefore code_eq usable_all inserted
    obtain rfl := Except.ok.inj (operation_eq.symm.trans found)
    have results_eq : caller.freshValues 1 = [target] := result_eq
    have fresh : target ∈ caller.freshValues 1 := by
      rw [results_eq]
      exact List.mem_singleton_self _
    refine ⟨[caller.nextOperation .cast [argument] 1 call.location], target, rfl,
      ⟨changed_linked, by rw [changed_code]; simp, extension, ?_⟩, ?_, ?_, ?_⟩
    · rw [List.flatMap_singleton]
      exact fun result member => (Function.mem_freshValues.mp member).1
    · rw [Function.availableAfter, List.flatMap_append, List.flatMap_singleton]
      exact List.mem_append_right _ (List.mem_append_right _ fresh)
    · intro operation member
      obtain rfl := List.mem_singleton.mp member
      refine ⟨rfl, ⟨fun count counted => ?_, ?_⟩, rfl⟩
      · exact Option.some.inj counted
      · exact congrArg List.length results_eq
    · intro calls environment
      refine ⟨_, rfl, ?_⟩
      change environment.define (caller.freshValues 1) [environment argument] target = _
      have first : [target][0]? = some target := rfl
      rw [results_eq, Environment.define_of_getElem? (by simp) first]
      rfl

/-- After all arguments are passed, each parameter stands for a value that the casts have set to
the argument. -/
theorem passArguments_eq_ok {pairs : List (ValueId × ValueId)} (linked : caller.Linked)
    (code_eq : caller.code = front ++ call :: back) {values after : ValueMap}
    (usable : ∀ pair ∈ pairs, pair.2 ∈ caller.availableAfter front)
    (distinct : (pairs.map Prod.fst).Nodup)
    (success : (pairs.foldlM (fun values (parameter, argument) =>
      passArgument callee call values parameter argument) values : Edit ValueMap) caller =
        .ok after changed) :
    ∃ casts, Prefixed caller changed front casts call back ∧
      (∀ operation ∈ casts, operation.kind = .cast ∧ operation.Proper ∧
        operation.operands ⊆ pairs.map Prod.snd) ∧
      (∀ id ∉ pairs.map Prod.fst, after[id.index]? = values[id.index]?) ∧
      (∀ pair ∈ pairs, ∃ target, after[pair.1.index]? = some target ∧
        target ∈ changed.availableAfter (front ++ casts)) ∧
      ∀ calls environment, ∃ final, advance calls casts environment = .ok ([], final) ∧
        ∀ pair ∈ pairs, ∀ target, after[pair.1.index]? = some target →
          final target = environment pair.2 := by
  induction pairs generalizing caller front values with
  | nil =>
      obtain ⟨rfl, rfl⟩ := EStateM.pure_eq_ok_iff.mp success
      exact ⟨[], .refl linked code_eq, by simp, by simp, by simp,
        fun calls environment => ⟨environment, rfl, by simp⟩⟩
  | cons pair rest induction =>
      obtain ⟨parameter, argument⟩ := pair
      rw [List.foldlM_cons, EStateM.bind_eq_ok_iff] at success
      obtain ⟨between, middle, passed, success⟩ := success
      rw [List.map_cons, List.nodup_cons] at distinct
      obtain ⟨casts, target, rfl, early, target_available, casts_proper, casts_advance⟩ :=
        passArgument_eq_ok linked code_eq (usable _ List.mem_cons_self) passed
      obtain ⟨others, late, others_proper, frame, mapped, others_advance⟩ :=
        induction early.linked early.code_eq
          (fun pair member => early.available_mono (usable pair (List.mem_cons_of_mem _ member)))
          distinct.2 success
      have target_eq : after[parameter.index]? = some target := by
        rw [frame parameter distinct.1, getElem?_insert_valueMap, if_pos rfl]
      refine ⟨casts ++ others, early.trans late, ?_, ?_, ?_, ?_⟩
      · intro operation member
        rcases List.mem_append.mp member with first | later
        · obtain ⟨kind_eq, proper, operands_eq⟩ := casts_proper operation first
          exact ⟨kind_eq, proper, by simp [operands_eq]⟩
        · obtain ⟨kind_eq, proper, reads⟩ := others_proper operation later
          exact ⟨kind_eq, proper, List.subset_cons_of_subset _ reads⟩
      · intro id outside
        rw [List.map_cons, List.mem_cons, not_or] at outside
        rw [frame id outside.2, getElem?_insert_valueMap, if_neg outside.1]
      · intro pair member
        rw [← List.append_assoc]
        rcases List.mem_cons.mp member with rfl | later
        · exact ⟨target, target_eq, late.available_mono target_available⟩
        · exact mapped pair later
      · intro calls environment
        obtain ⟨first, first_eq, first_target⟩ := casts_advance calls environment
        obtain ⟨final, final_eq, final_targets⟩ := others_advance calls first
        refine ⟨final, ?_, ?_⟩
        · rw [advance_append, first_eq]
          simp only [bind, Except.bind, final_eq]
          rfl
        · intro pair member other other_eq
          rcases List.mem_cons.mp member with rfl | later
          · obtain rfl := Option.some.inj (target_eq.symm.trans other_eq)
            rw [← first_target]
            refine advance_frame final_eq fun defined => ?_
            exact Nat.not_lt.mpr (late.fresh target defined) (early.known target_available)
          · rw [final_targets pair later other other_eq]
            refine advance_frame first_eq fun defined => ?_
            have inside : pair.2.index < caller.values.size := by
              apply (Prefixed.refl linked code_eq).known
              simpa using usable pair (List.mem_cons_of_mem _ later)
            exact Nat.not_lt.mpr (early.fresh _ defined) inside

/-! ### Operations -/

/-- The value that stands for a value of the callee. -/
def image (values : ValueMap) (id : ValueId) : ValueId := (values[id.index]?).getD id

theorem getElem?_foldl_insert {olds news : List ValueId} {values : ValueMap} {id : ValueId}
    (outside : id ∉ olds) :
    ((olds.zip news).foldl (fun values (old, new) => values.insert old.index new)
      values)[id.index]? = values[id.index]? := by
  induction olds generalizing news values with
  | nil => rfl
  | cons old olds induction =>
      cases news with
      | nil => rfl
      | cons new news =>
          simp only [List.mem_cons, not_or] at outside
          rw [List.zip_cons_cons, List.foldl_cons, induction outside.2,
            getElem?_insert_valueMap, if_neg outside.1]

theorem getElem?_foldl_insert_getElem? {olds news : List ValueId} {values : ValueMap}
    (distinct : olds.Nodup) (same_length : news.length = olds.length) {position : Nat}
    {id : ValueId} (found : olds[position]? = some id) :
    ((olds.zip news).foldl (fun values (old, new) => values.insert old.index new)
      values)[id.index]? = news[position]? := by
  induction olds generalizing news values position with
  | nil => cases found
  | cons old olds induction =>
      cases news with
      | nil => cases same_length
      | cons new news =>
          rw [List.nodup_cons] at distinct
          rw [List.zip_cons_cons, List.foldl_cons]
          cases position with
          | zero =>
              obtain rfl := Option.some.inj found
              rw [getElem?_foldl_insert distinct.1, getElem?_insert_valueMap, if_pos rfl]
              rfl
          | succ position =>
              exact induction distinct.2 (Nat.succ.inj same_length) found

theorem map_eq_of_promised {items : List ValueId} {lookup : ValueId → Option ValueId}
    {targets : List ValueId}
    (found : (items.map fun item => Outcome.promised (lookup item)) = targets.map .ok) :
    items.map lookup = targets.map some := by
  induction items generalizing targets with
  | nil =>
      cases targets with
      | nil => rfl
      | cons target targets => cases found
  | cons item items induction =>
      cases targets with
      | nil => cases found
      | cons target targets =>
          simp only [List.map_cons, List.cons.injEq, Outcome.promised_eq_ok_iff] at found
          rw [List.map_cons, List.map_cons, found.1, induction found.2]

/-- An operation that does not return is copied. -/
theorem copyOperation_eq_ok (linked : caller.Linked)
    (code_eq : caller.code = front ++ call :: back) {values after : ValueMap}
    {returned others : List ValueId} {operation : Operation}
    (goes_on : operation.kind.isLeave = false) (distinct : operation.results.Nodup)
    (mapped : ∀ operand ∈ operation.operands, ∃ target,
      values[operand.index]? = some target ∧ target ∈ caller.availableAfter front)
    (success : copyOperation callee call.id (values, returned) operation caller =
      .ok (after, others) changed) :
    others = returned ∧ ∃ copy, Prefixed caller changed front [copy] call back ∧
      copy.kind = operation.kind ∧ copy.location = operation.location ∧
      operation.operands.map (fun operand => values[operand.index]?) = copy.operands.map some ∧
      copy.results.length = operation.results.length ∧
      (∀ id : ValueId, id ∉ operation.results → after[id.index]? = values[id.index]?) ∧
      ∀ (position : Nat) (id : ValueId), operation.results[position]? = some id →
        after[id.index]? = copy.results[position]? := by
  have proceeds : ¬ operation.kind.isLeave = true := by
    rw [goes_on]
    exact Bool.false_ne_true
  simp only [copyOperation, EStateM.bind_eq_ok_iff, Edit.mapM_lift_eq_ok_iff, if_neg proceeds,
    Edit.query_eq_ok_iff, EStateM.pure_eq_ok_iff] at success
  obtain ⟨operands, _, ⟨operands_eq, rfl⟩, types, _, ⟨types_eq, rfl⟩, id, middle, inserted,
    copy, _, ⟨found, rfl⟩, pair_eq, rfl⟩ := success
  have operands_some : operation.operands.map (fun operand => values[operand.index]?) =
      operands.map some := map_eq_of_promised operands_eq
  have usable : ∀ target ∈ operands, target ∈ caller.availableAfter front := by
    intro target member
    have member := List.mem_map_of_mem (f := some) member
    rw [← operands_some] at member
    obtain ⟨operand, reads, target_eq⟩ := List.mem_map.mp member
    obtain ⟨known, known_eq, available⟩ := mapped operand reads
    obtain rfl := Option.some.inj (known_eq.symm.trans target_eq)
    exact available
  have types_length : types.length = operation.results.length := by
    have lengths := congrArg List.length types_eq
    rw [List.length_map, List.length_map] at lengths
    exact lengths.symm
  obtain ⟨changed_linked, changed_code, extension, operation_eq⟩ :=
    linked.insertBefore code_eq usable inserted
  obtain rfl := Except.ok.inj (operation_eq.symm.trans found)
  rw [Prod.mk.injEq] at pair_eq
  obtain ⟨rfl, rfl⟩ := pair_eq
  have results_length : (caller.freshValues types.length).length = operation.results.length := by
    rw [Function.freshValues, List.length_map, List.length_range', types_length]
  refine ⟨rfl, caller.nextOperation operation.kind operands types.length operation.location,
    ⟨changed_linked, by rw [changed_code]; simp, extension, ?_⟩, rfl, rfl, operands_some,
    results_length, ?_, ?_⟩
  · rw [List.flatMap_singleton]
    exact fun result member => (Function.mem_freshValues.mp member).1
  · exact fun id outside => getElem?_foldl_insert outside
  · exact fun position id found => getElem?_foldl_insert_getElem? distinct results_length found

/-- A return is not copied; its operands give the returned values. -/
theorem copyOperation_leave_eq_ok {values after : ValueMap} {returned others : List ValueId}
    {anchor : OperationId} {operation : Operation} (leaves : operation.kind.isLeave = true)
    (success : copyOperation callee anchor (values, returned) operation caller =
      .ok (after, others) changed) :
    after = values ∧ caller = changed ∧
      operation.operands.map (fun operand => values[operand.index]?) = others.map some := by
  simp only [copyOperation, EStateM.bind_eq_ok_iff, Edit.mapM_lift_eq_ok_iff, if_pos leaves,
    EStateM.pure_eq_ok_iff, Prod.mk.injEq] at success
  obtain ⟨operands, _, ⟨operands_eq, rfl⟩, ⟨rfl, rfl⟩, rfl⟩ := success
  exact ⟨rfl, rfl, map_eq_of_promised operands_eq⟩

/-- After a copy its results stand for those of the operation, and other values stay. -/
theorem Prefixed.mapped_copy {middle : Function} {copy operation : Operation}
    {values between : ValueMap} {available : List ValueId}
    (early : Prefixed caller middle front [copy] call back)
    (mapped : ∀ id ∈ available, ∃ target,
      values[id.index]? = some target ∧ target ∈ caller.availableAfter front)
    (results_apart : ∀ id ∈ available, id ∉ operation.results)
    (results_length : copy.results.length = operation.results.length)
    (kept : ∀ id : ValueId, id ∉ operation.results → between[id.index]? = values[id.index]?)
    (defined : ∀ (position : Nat) (id : ValueId), operation.results[position]? = some id →
      between[id.index]? = copy.results[position]?) :
    ∀ id ∈ available ++ operation.results, ∃ target,
      between[id.index]? = some target ∧ target ∈ middle.availableAfter (front ++ [copy]) := by
  intro id member
  rcases List.mem_append.mp member with old | new
  · obtain ⟨target, target_eq, target_available⟩ := mapped id old
    exact ⟨target, (kept id (results_apart id old)).trans target_eq,
      early.available_mono target_available⟩
  · obtain ⟨position, found⟩ := List.mem_iff_getElem?.mp new
    have inside : position < copy.results.length := by
      rw [results_length]
      exact (List.getElem?_eq_some_iff.mp found).1
    refine ⟨copy.results[position], ?_, ?_⟩
    · rw [defined position id found, List.getElem?_eq_getElem inside]
    · rw [Function.availableAfter, List.flatMap_append, List.flatMap_singleton]
      exact List.mem_append_right _ (List.mem_append_right _ (List.getElem_mem inside))

theorem eq_map_image {values : ValueMap} {ids targets : List ValueId}
    (found : ids.map (fun id => values[id.index]?) = targets.map some) :
    targets = ids.map (image values) := by
  have images : ids.map (fun id => values[id.index]?) = (ids.map (image values)).map some := by
    rw [List.map_map]
    refine List.map_congr_left fun id member => ?_
    have target_mem := List.mem_map_of_mem (f := fun id => values[id.index]?) member
    rw [found] at target_mem
    obtain ⟨target, -, target_eq⟩ := List.mem_map.mp target_mem
    rw [Function.comp_apply, image, ← target_eq]
    rfl
  rw [found] at images
  exact (List.map_inj_right fun _ _ => Option.some.inj).mp images

/-- The copies do under renaming what the operations of the callee do. -/
theorem copyOperations_eq_ok {code : List Operation} (linked : caller.Linked)
    (code_eq : caller.code = front ++ call :: back) {values after : ValueMap}
    {returned others available : List ValueId}
    (goes_on : ∀ operation ∈ code, operation.kind.isLeave = false)
    (dominated : Dominated available code)
    (distinct : (available ++ code.flatMap Operation.results).Nodup)
    (mapped : ∀ id ∈ available, ∃ target,
      values[id.index]? = some target ∧ target ∈ caller.availableAfter front)
    (success : (code.foldlM (copyOperation callee call.id) (values, returned) :
      Edit (ValueMap × List ValueId)) caller = .ok (after, others) changed) :
    others = returned ∧ ∃ copies, Prefixed caller changed front copies call back ∧
      copies.map Operation.action = code.map (Operation.renamed (image after)) ∧
      copies.map Operation.location = code.map Operation.location ∧
      (∀ id ∉ code.flatMap Operation.results, after[id.index]? = values[id.index]?) ∧
      ∀ id ∈ available ++ code.flatMap Operation.results, ∃ target,
        after[id.index]? = some target ∧ target ∈ changed.availableAfter (front ++ copies) := by
  induction code generalizing caller front values available with
  | nil =>
      obtain ⟨pair_eq, rfl⟩ := EStateM.pure_eq_ok_iff.mp success
      obtain ⟨rfl, rfl⟩ := Prod.mk.inj pair_eq
      exact ⟨rfl, [], .refl linked code_eq, rfl, rfl, fun _ _ => rfl, by simpa using mapped⟩
  | cons operation rest induction =>
      rw [List.foldlM_cons, EStateM.bind_eq_ok_iff] at success
      obtain ⟨⟨between, still⟩, middle, copied, success⟩ := success
      rw [List.flatMap_cons, ← List.append_assoc] at distinct
      have distinct_front := (List.nodup_append.mp distinct).1
      have distinct_results := (List.nodup_append.mp distinct_front).2.1
      have results_apart : ∀ id ∈ available, id ∉ operation.results := fun id member defined =>
        (List.nodup_append.mp distinct_front).2.2 id member id defined rfl
      have rest_apart : ∀ id ∈ available ++ operation.results,
          id ∉ rest.flatMap Operation.results := fun id member defined =>
        (List.nodup_append.mp distinct).2.2 id member id defined rfl
      obtain ⟨rfl, copy, early, kind_eq, location_eq, operands_eq, results_length, kept, defined⟩ :=
        copyOperation_eq_ok linked code_eq (goes_on operation List.mem_cons_self)
          distinct_results (fun operand reads => mapped operand (dominated.1 operand reads)) copied
      have mapped_later := early.mapped_copy mapped results_apart results_length kept defined
      obtain ⟨rfl, copies, late, actions_eq, locations_eq, kept_later, mapped_final⟩ :=
        induction early.linked early.code_eq
          (fun other member => goes_on other (List.mem_cons_of_mem _ member))
          dominated.2 distinct mapped_later success
      refine ⟨rfl, copy :: copies, early.trans late, ?_, ?_, ?_, ?_⟩
      · have operands_final : copy.operands = operation.operands.map (image after) := by
          apply eq_map_image
          rw [← operands_eq]
          refine List.map_congr_left fun operand reads => ?_
          have available_operand := dominated.1 operand reads
          rw [kept_later operand (rest_apart operand (List.mem_append_left _ available_operand)),
            kept operand (results_apart operand available_operand)]
        have results_final : copy.results = operation.results.map (image after) := by
          apply List.ext_getElem?
          intro position
          rw [List.getElem?_map]
          cases found : operation.results[position]? with
          | none =>
              rw [List.getElem?_eq_none_iff, ← results_length, ← List.getElem?_eq_none_iff] at found
              exact found
          | some id =>
              have member := List.mem_of_getElem? found
              obtain ⟨target, target_eq, -⟩ :=
                mapped_later id (List.mem_append_right _ member)
              rw [Option.map_some, image,
                kept_later id (rest_apart id (List.mem_append_right _ member)),
                ← defined position id found, target_eq]
              rfl
        rw [List.map_cons, List.map_cons, actions_eq, Operation.action, Operation.renamed, kind_eq,
          operands_final, results_final]
      · rw [List.map_cons, List.map_cons, locations_eq, location_eq]
      · intro id outside
        rw [List.flatMap_cons, List.mem_append, not_or] at outside
        rw [kept_later id outside.2, kept id outside.1]
      · rw [List.flatMap_cons, ← List.append_assoc]
        intro id member
        obtain ⟨target, target_eq, available_target⟩ := mapped_final id member
        rw [List.append_assoc] at available_target
        exact ⟨target, target_eq, available_target⟩

/-! ### Results -/

/-- What stands before the definition of a value does not read it. -/
theorem unread_before (linked : caller.Linked) (code_eq : caller.code = front ++ call :: back)
    {result : ValueId} (defined : result ∈ call.results) :
    (∀ operation ∈ front, result ∉ operation.operands) ∧ result ∉ call.operands ∧
      result ∉ caller.availableAfter front := by
  have dominated := Function.dominated_of_code_eq linked.dominated code_eq
  have apart := linked.result_notMem code_eq defined
  refine ⟨fun operation member reads => ?_, fun reads => ?_, apart⟩
  · exact apart (dominated.1.operand_mem member reads)
  · exact apart (dominated.2.1 result reads)

/-- Reading an earlier value instead of a result changes only what stands after its definition, and
keeps the order of definitions and uses. -/
theorem redirected_code (linked : caller.Linked) (code_eq : caller.code = front ++ call :: back)
    {result target : ValueId} (defined : result ∈ call.results)
    (target_available : target ∈ caller.availableAfter front) :
    front ++ call :: back.map (Operation.redirected result target) =
        caller.code.map (Operation.redirected result target) ∧
      Dominated caller.arguments
        (front ++ call :: back.map (Operation.redirected result target)) := by
  obtain ⟨unread_front, unread_call, -⟩ := unread_before linked code_eq defined
  have front_eq : front.map (Operation.redirected result target) = front := by
    rw [List.map_congr_left fun operation member =>
      Operation.redirected_of_notMem (unread_front operation member), List.map_id']
  have dominated := Function.dominated_of_code_eq linked.dominated code_eq
  refine ⟨?_, ?_⟩
  · rw [code_eq, List.map_append, List.map_cons, front_eq,
      Operation.redirected_of_notMem unread_call]
  · rw [Dominated.append_iff]
    exact ⟨dominated.1, dominated.2.1,
      dominated.2.2.redirected (List.mem_append_left _ target_available)⟩

/-- The users of a result read the returned value instead. -/
theorem connectResult_eq_ok (linked : caller.Linked)
    (code_eq : caller.code = front ++ call :: back) {site : Operation} {returned : List ValueId}
    {position : Nat} {result : ValueId} (defined : result ∈ call.results)
    (usable : ∀ target ∈ returned, target ∈ caller.availableAfter front)
    (success : connectResult callee site returned position result caller = .ok () changed) :
    changed.Linked ∧ Extends caller changed ∧
      changed.code = front ++ call :: back.map
        (Operation.redirected result ((returned[position]?).getD result)) := by
  rw [connectResult] at success
  cases found : returned[position]? with
  | some target =>
    rw [found] at success
    obtain rfl := Edit.replaceUses_eq_ok success
    obtain ⟨changed_eq, dominated_changed⟩ := redirected_code linked code_eq defined
      (usable target (List.mem_of_getElem? found))
    obtain ⟨changed_linked, changed_code⟩ := linked.redirectUsers changed_eq dominated_changed
    exact ⟨changed_linked, (Function.redirectUsers_keeps _ _ _).1, changed_code⟩
  | none =>
    simp only [found, EStateM.bind_eq_ok_iff, EStateM.get_eq_ok_iff] at success
    obtain ⟨_, _, ⟨rfl, rfl⟩, success⟩ := success
    split at success
    · exact absurd success EStateM.throw_ne_ok
    · obtain ⟨-, rfl⟩ := EStateM.pure_eq_ok_iff.mp success
      have unchanged : back.map (Operation.redirected result result) = back := by
        rw [List.map_congr_left fun operation _ => Operation.redirected_self result operation,
          List.map_id']
      rw [Option.getD_none, unchanged]
      exact ⟨linked, Extends.refl _, code_eq⟩

theorem connectResults_eq_ok {pairs : List (ValueId × Nat)} (linked : caller.Linked)
    (code_eq : caller.code = front ++ call :: back) {site : Operation} {returned : List ValueId}
    (defined : ∀ pair ∈ pairs, pair.1 ∈ call.results) (distinct : (pairs.map Prod.fst).Nodup)
    (usable : ∀ target ∈ returned, target ∈ caller.availableAfter front)
    (success : (pairs.forM fun (result, position) =>
      connectResult callee site returned position result) caller = .ok () changed) :
    changed.Linked ∧ Extends caller changed ∧ ∃ change : ValueId → ValueId,
      changed.code = front ++ call :: back.map (Operation.reading change) ∧
      (∀ id ∉ pairs.map Prod.fst, change id = id) ∧
      ∀ pair ∈ pairs, change pair.1 = (returned[pair.2]?).getD pair.1 := by
  induction pairs generalizing caller back with
  | nil =>
      obtain ⟨-, rfl⟩ := EStateM.pure_eq_ok_iff.mp success
      refine ⟨linked, Extends.refl _, fun id => id, ?_, fun _ _ => rfl, by simp⟩
      have unchanged : back.map (Operation.reading fun id => id) = back := by
        rw [List.map_congr_left fun operation _ => Operation.reading_of_unchanged fun _ _ => rfl,
          List.map_id']
      rw [unchanged]
      exact code_eq
  | cons pair rest induction =>
      obtain ⟨result, position⟩ := pair
      rw [List.forM_eq_forM, List.forM_cons, EStateM.bind_eq_ok_iff] at success
      obtain ⟨_, middle, connected, success⟩ := success
      rw [List.map_cons, List.nodup_cons] at distinct
      have result_defined := defined _ List.mem_cons_self
      obtain ⟨middle_linked, early, middle_code⟩ :=
        connectResult_eq_ok linked code_eq result_defined usable connected
      have middle_usable : ∀ target ∈ returned, target ∈ middle.availableAfter front := by
        rw [Function.availableAfter, early.arguments]
        exact usable
      obtain ⟨changed_linked, late, change, changed_code, elsewhere, connections⟩ :=
        induction middle_linked middle_code
          (fun pair member => defined pair (List.mem_cons_of_mem _ member)) distinct.2
          middle_usable success
      let target := (returned[position]?).getD result
      refine ⟨changed_linked, early.trans late, fun id => change (redirect result target id),
        ?_, ?_, ?_⟩
      · rw [changed_code, List.map_map]
        refine congrArg (front ++ call :: ·) (List.map_congr_left fun operation _ => ?_)
        exact Operation.reading_reading _ _ operation
      · intro id outside
        rw [List.map_cons, List.mem_cons, not_or] at outside
        change change (redirect result target id) = id
        rw [redirect, if_neg outside.1, elsewhere id outside.2]
      · intro other member
        rcases List.mem_cons.mp member with rfl | later
        · change change (redirect result target result) = target
          rw [redirect, if_pos rfl]
          apply elsewhere
          change (returned[position]?).getD result ∉ _
          cases found : returned[position]? with
          | none => exact distinct.1
          | some value =>
              intro member
              obtain ⟨pair, pair_mem, rfl⟩ := List.mem_map.mp member
              exact (unread_before linked code_eq
                (defined pair (List.mem_cons_of_mem _ pair_mem))).2.2
                (usable _ (List.mem_of_getElem? found))
        · have apart : other.1 ≠ result := by
            rintro rfl
            exact distinct.1 (List.mem_map.mpr ⟨other, later, rfl⟩)
          change change (redirect result target other.1) = _
          rw [redirect, if_neg apart, connections other later]

/-! ### Expansions -/

/-- What replaces a call. -/
structure Expansion where
  /-- Casts of the arguments. -/
  casts : List Operation
  /-- Copies of the callee's operations. -/
  copies : List Operation
  /-- The operations of the callee that are copied. -/
  body : List Operation
  /-- The return of the callee. -/
  last : Operation
  /-- The values that stand for values of the callee. -/
  values : ValueMap
  /-- The values that are read after the call instead of its results. -/
  change : ValueId → ValueId

namespace Expansion

/-- What stands in place of the call. -/
def added (expansion : Expansion) : List Operation := expansion.casts ++ expansion.copies

/-- The caller has changed by an expansion of a call. -/
structure Expands (expansion : Expansion) (callee caller changed : Function)
    (front : List Operation) (call : Operation) (back : List Operation) : Prop where
  /-- All operations fit together. -/
  linked : changed.Linked
  /-- All values are kept. -/
  extension : Extends caller changed
  /-- Casts and copies replace the call. -/
  code_eq : changed.code =
    front ++ expansion.added ++ back.map (Operation.reading expansion.change)
  /-- Results of casts and copies are new. -/
  fresh : ∀ result ∈ expansion.added.flatMap Operation.results,
    caller.values.size ≤ result.index
  /-- There are as many arguments as parameters. -/
  arity : call.operands.length = callee.arguments.length
  /-- Casts are casts of arguments. -/
  casts : ∀ operation ∈ expansion.casts, operation.kind = .cast ∧ operation.Proper ∧
    operation.operands ⊆ call.operands
  /-- The casts set what stands for a parameter to the argument. -/
  passed : ∀ calls environment, ∃ final,
    advance calls expansion.casts environment = .ok ([], final) ∧
      ∀ pair ∈ callee.arguments.zip call.operands, ∀ target,
        expansion.values[pair.1.index]? = some target → final target = environment pair.2
  /-- The callee is its body and its return. -/
  callee_code : callee.code = expansion.body ++ [expansion.last]
  /-- The body of the callee is copied under renaming. -/
  copies : expansion.copies.map Operation.action =
    expansion.body.map (Operation.renamed (image expansion.values))
  /-- Copies stand where the operations of the callee stand. -/
  locations : expansion.copies.map Operation.location = expansion.body.map Operation.location
  /-- What stands for a parameter is available after the casts. -/
  parameters : ∀ id ∈ callee.arguments, ∃ target,
    expansion.values[id.index]? = some target ∧
      target ∈ changed.availableAfter (front ++ expansion.casts)
  /-- What stands for a value of the callee is available after the copies. -/
  mapped : ∀ id ∈ callee.availableAfter expansion.body, ∃ target,
    expansion.values[id.index]? = some target ∧
      target ∈ changed.availableAfter (front ++ expansion.added)
  /-- Other values than results of the call are read as before. -/
  elsewhere : ∀ id ∉ call.results, expansion.change id = id
  /-- Returned values are read instead of results. -/
  returned : ∀ (position : Nat) (result : ValueId), call.results[position]? = some result →
    expansion.change result =
      ((expansion.last.operands.map (image expansion.values))[position]?).getD result
  /-- Nobody reads the results of the call. -/
  unread : ∀ operation ∈ back, ∀ operand ∈ operation.operands,
    expansion.change operand ∉ call.results

end Expansion

/-- The copying of a whole callee. -/
theorem copyBody_eq_ok (linked : caller.Linked) (code_eq : caller.code = front ++ call :: back)
    (wellFormed : callee.WellFormed) {body : List Operation} {last : Operation}
    (callee_code : callee.code = body ++ [last]) (leaves : last.kind.isLeave = true)
    (goes_on : ∀ operation ∈ body, operation.kind.isLeave = false) {values after : ValueMap}
    {returned : List ValueId}
    (mapped : ∀ id ∈ callee.arguments, ∃ target,
      values[id.index]? = some target ∧ target ∈ caller.availableAfter front)
    (success : (callee.code.foldlM (copyOperation callee call.id) (values, []) :
      Edit (ValueMap × List ValueId)) caller = .ok (after, returned) changed) :
    ∃ copies, Prefixed caller changed front copies call back ∧
      copies.map Operation.action = body.map (Operation.renamed (image after)) ∧
      copies.map Operation.location = body.map Operation.location ∧
      (∀ id ∈ callee.arguments, after[id.index]? = values[id.index]?) ∧
      (∀ id ∈ callee.availableAfter body, ∃ target,
        after[id.index]? = some target ∧ target ∈ changed.availableAfter (front ++ copies)) ∧
      returned = last.operands.map (image after) := by
  have dominated := wellFormed.dominated
  have distinct := wellFormed.distinct
  rw [callee_code, Dominated.append_iff] at dominated
  rw [callee_code, Function.availableAfter, List.flatMap_append, ← List.append_assoc] at distinct
  have distinct_body := (List.nodup_append.mp distinct).1
  rw [callee_code, List.foldlM_append, EStateM.bind_eq_ok_iff] at success
  obtain ⟨⟨between, others⟩, middle, copied, ended⟩ := success
  obtain ⟨rfl, copies, prefixed, copies_eq, locations_eq, kept, mapped_after⟩ :=
    copyOperations_eq_ok linked code_eq goes_on dominated.1 distinct_body mapped copied
  rw [List.foldlM_cons, EStateM.bind_eq_ok_iff] at ended
  obtain ⟨⟨after, returned⟩, final, left, ended⟩ := ended
  obtain ⟨pair_eq, rfl⟩ := EStateM.pure_eq_ok_iff.mp ended
  obtain ⟨rfl, rfl⟩ := Prod.mk.inj pair_eq
  obtain ⟨rfl, rfl, returned_eq⟩ := copyOperation_leave_eq_ok leaves left
  refine ⟨copies, prefixed, copies_eq, locations_eq, fun id argument => kept id fun defined => ?_,
    mapped_after, eq_map_image returned_eq⟩
  exact (List.nodup_append.mp distinct_body).2.2 id argument id defined rfl

/-- An expansion that succeeds replaces the call. -/
theorem expandCall_eq_ok (linked : caller.Linked) (wellFormed : callee.WellFormed)
    (code_eq : caller.code = front ++ call :: back)
    (success : expandCall callee call.id caller = .ok () changed) :
    ∃ expansion : Expansion, expansion.Expands callee caller changed front call back := by
  have call_mem : call ∈ caller.code := by
    rw [code_eq]
    exact List.mem_append_right _ List.mem_cons_self
  have call_eq : caller.operation call.id = .ok call :=
    Outcome.promised_eq_ok_iff.mpr (linked.operation?_of_mem call_mem)
  simp only [expandCall, EStateM.bind_eq_ok_iff, Edit.query_eq_ok_iff, call_eq] at success
  obtain ⟨_, _, ⟨⟨⟩, rfl⟩, success⟩ := success
  split at success
  · obtain ⟨_, _, refused, -⟩ := EStateM.bind_eq_ok_iff.mp success
    exact absurd refused EStateM.throw_ne_ok
  · rename_i arity
    have arity := Decidable.not_not.mp arity
    simp only [EStateM.bind_eq_ok_iff, Edit.lift_eq_ok_iff,
      Function.bodyOperations_eq wellFormed.live] at success
    obtain ⟨passed_values, middle, passed, _, _, ⟨⟨⟩, rfl⟩, ⟨values, returned⟩, copied_state,
      copied, _, connected_state, connected, erased⟩ := success
    have call_usable : ∀ operand ∈ call.operands, operand ∈ caller.availableAfter front := by
      exact (Function.dominated_of_code_eq linked.dominated code_eq).2.1
    have firsts : (callee.arguments.zip call.operands).map Prod.fst = callee.arguments :=
      List.map_fst_zip (Nat.le_of_eq arity.symm)
    have arguments_nodup : callee.arguments.Nodup :=
      (List.nodup_append.mp wellFormed.distinct).1
    obtain ⟨casts, early, casts_proper, -, passed_mapped, casts_advance⟩ :=
      passArguments_eq_ok linked code_eq
        (fun pair member => call_usable pair.2 (List.of_mem_zip member).2)
        (by rwa [firsts]) passed
    have arguments_mapped : ∀ id ∈ callee.arguments, ∃ target,
        passed_values[id.index]? = some target ∧
          target ∈ middle.availableAfter (front ++ casts) := by
      intro id member
      rw [← firsts] at member
      obtain ⟨pair, pair_mem, rfl⟩ := List.mem_map.mp member
      exact passed_mapped pair pair_mem
    obtain ⟨body, last, callee_code, leaves, goes_on⟩ := wellFormed.ending.exists_last
    obtain ⟨copies, late, copies_eq, locations_eq, kept, mapped, rfl⟩ :=
      copyBody_eq_ok early.linked early.code_eq wellFormed callee_code leaves goes_on
        arguments_mapped copied
    have whole := early.trans late
    have returned_usable : ∀ target ∈ last.operands.map (image values),
        target ∈ copied_state.availableAfter (front ++ (casts ++ copies)) := by
      intro target member
      obtain ⟨operand, reads, rfl⟩ := List.mem_map.mp member
      have dominated := Function.dominated_of_code_eq wellFormed.dominated callee_code
      obtain ⟨target, target_eq, available⟩ := mapped operand (dominated.2.1 operand reads)
      rw [image, target_eq, ← List.append_assoc]
      exact available
    have results_nodup := linked.results_nodup code_eq
    obtain ⟨connected_linked, extension, change, connected_code, elsewhere, connections⟩ :=
      connectResults_eq_ok whole.linked whole.code_eq
        (fun pair member => List.fst_mem_of_mem_zipIdx member)
        (by rwa [List.zipIdx_map_fst]) returned_usable connected
    obtain ⟨changed_linked, changed_code, erased_extension, -, unread⟩ :=
      connected_linked.erase connected_code erased
    have extended := (whole.extension.trans extension).trans erased_extension
    refine ⟨⟨casts, copies, body, last, values, change⟩, ?_⟩
    exact {
      linked := changed_linked
      extension := extended
      code_eq := changed_code
      fresh := whole.fresh
      arity := arity
      casts := fun operation member => by
        obtain ⟨kind_eq, proper, reads⟩ := casts_proper operation member
        rw [List.map_snd_zip (Nat.le_of_eq arity)] at reads
        exact ⟨kind_eq, proper, reads⟩
      passed := by
        intro calls environment
        obtain ⟨final, final_eq, targets⟩ := casts_advance calls environment
        refine ⟨final, final_eq, fun pair member target target_eq => ?_⟩
        apply targets pair member target
        rw [← kept pair.1 (List.of_mem_zip member).1]
        exact target_eq
      callee_code := callee_code
      copies := copies_eq
      locations := locations_eq
      parameters := by
        intro id member
        obtain ⟨target, target_eq, available⟩ := arguments_mapped id member
        refine ⟨target, (kept id member).trans target_eq, ?_⟩
        rw [Function.availableAfter, extended.arguments, ← early.extension.arguments]
        exact available
      mapped := by
        intro id member
        obtain ⟨target, target_eq, available⟩ := mapped id member
        refine ⟨target, target_eq, ?_⟩
        rw [Function.availableAfter, (extension.trans erased_extension).arguments,
          Expansion.added, ← List.append_assoc]
        exact available
      elsewhere := by
        rw [List.zipIdx_map_fst] at elsewhere
        exact elsewhere
      returned := fun position result found =>
        connections (result, position) (List.mk_mem_zipIdx_iff_getElem?.mpr found)
      unread := by
        intro operation member operand reads
        have reader_mem : operation.reading change ∈ connected_state.code := by
          rw [connected_code]
          exact List.mem_append_right _ (List.mem_cons_of_mem _ (List.mem_map_of_mem member))
        exact unread _ reader_mem (change operand) (List.mem_map_of_mem reads) }

private theorem eq_of_map_nodup {change : ValueId → ValueId} {ids : List ValueId}
    (distinct : (ids.map change).Nodup) {first second : ValueId} (first_mem : first ∈ ids)
    (second_mem : second ∈ ids) (same : change first = change second) : first = second := by
  induction ids with
  | nil => cases first_mem
  | cons id rest induction =>
      rw [List.map_cons, List.nodup_cons] at distinct
      rcases List.mem_cons.mp first_mem with rfl | first_later
      · rcases List.mem_cons.mp second_mem with rfl | second_later
        · rfl
        · exact absurd (List.mem_map.mpr ⟨second, second_later, same.symm⟩) distinct.1
      · rcases List.mem_cons.mp second_mem with rfl | second_later
        · exact absurd (List.mem_map.mpr ⟨first, first_later, same⟩) distinct.1
        · exact induction distinct.2 first_later second_later

/-- After an operation that does not return, the body still ends with its only return. -/
theorem ending_back (wellFormed : caller.WellFormed) (code_eq : caller.code = front ++ call :: back)
    (proceeds : call.kind.isLeave = false) :
    (∀ operation ∈ front, operation.kind.isLeave = false) ∧ Ending back := by
  have ending := wellFormed.ending
  rw [code_eq, ending_append_iff (List.cons_ne_nil _ _)] at ending
  refine ⟨ending.1, ?_⟩
  cases back with
  | nil => exact absurd ending.2 (by simp [Ending, proceeds])
  | cons next rest => exact ending.2.2

namespace Expansion.Expands

variable {expansion : Expansion} {environment : Environment}

private theorem results_copies (expands : expansion.Expands callee caller changed front call back) :
    expansion.copies.flatMap Operation.results =
      (expansion.body.flatMap Operation.results).map (image expansion.values) := by
  have results := congrArg (List.flatMap fun action => action.2.2) expands.copies
  rw [List.flatMap_map, List.flatMap_map] at results
  rw [List.map_flatMap]
  exact results

private theorem image_injective (expands : expansion.Expands callee caller changed front call back)
    {result id : ValueId} (defined : result ∈ expansion.body.flatMap Operation.results)
    (member : id ∈ callee.arguments ++ expansion.body.flatMap Operation.results)
    (same : image expansion.values id = image expansion.values result) : id = result := by
  have distinct := expands.linked.distinct
  rw [expands.code_eq, added, ← List.append_assoc, Function.availableAfter, List.flatMap_append,
    List.flatMap_append, ← List.append_assoc, ← List.append_assoc, expands.results_copies]
    at distinct
  have distinct_front := (List.nodup_append.mp distinct).1
  rcases List.mem_append.mp member with parameter | other
  · obtain ⟨target, target_eq, available⟩ := expands.parameters id parameter
    have image_eq : image expansion.values id = target := by
      rw [image, target_eq]
      rfl
    rw [← image_eq, same] at available
    exact absurd rfl ((List.nodup_append.mp distinct_front).2.2 _ available _
      (List.mem_map_of_mem defined))
  · exact eq_of_map_nodup (List.nodup_append.mp distinct_front).2.1 other defined same

theorem body_goes_on (expands : expansion.Expands callee caller changed front call back)
    (wellFormed : callee.WellFormed) :
    (∀ operation ∈ expansion.body, operation.kind.isLeave = false) ∧
      expansion.last.kind.isLeave = true := by
  have ending := wellFormed.ending
  rw [expands.callee_code, ending_append_iff (by simp)] at ending
  exact ending

theorem added_goes_on (expands : expansion.Expands callee caller changed front call back)
    (wellFormed : callee.WellFormed) :
    ∀ operation ∈ expansion.added, operation.kind.isLeave = false := by
  intro operation member
  rcases List.mem_append.mp member with cast | copy
  · rw [(expands.casts operation cast).1]
    rfl
  · exact goes_on_of_kinds (kinds_of_renamed expands.copies) (expands.body_goes_on wellFormed).1
      operation copy

/-- Casts and copies do what the body of the callee does with the arguments.  What the body defines
is found under its image, and values of the caller are as before. -/
theorem advance_added (expands : expansion.Expands callee caller changed front call back)
    (wellFormed : callee.WellFormed) (calls : Calls) (environment : Environment) :
    (∀ fault,
      advance calls expansion.body
        (Environment.empty.define callee.arguments (call.operands.map environment)) =
          .error fault →
      advance calls expansion.added environment = .error fault) ∧
    ∀ printed final,
      advance calls expansion.body
        (Environment.empty.define callee.arguments (call.operands.map environment)) =
          .ok (printed, final) →
      ∃ last, advance calls expansion.added environment = .ok (printed, last) ∧
        ∀ id ∈ callee.availableAfter expansion.body,
          final id = last (image expansion.values id) := by
  obtain ⟨middle, casts_eq, targets⟩ := expands.passed calls environment
  have dominated := Function.dominated_of_code_eq wellFormed.dominated expands.callee_code
  have agree : ∀ id ∈ callee.arguments,
      Environment.empty.define callee.arguments (call.operands.map environment) id =
        middle (image expansion.values id) := by
    intro id member
    obtain ⟨position, found⟩ := List.mem_iff_getElem?.mp member
    have inside : position < call.operands.length := by
      rw [expands.arity]
      exact (List.getElem?_eq_some_iff.mp found).1
    have paired : (id, call.operands[position]) ∈ callee.arguments.zip call.operands := by
      refine List.mem_of_getElem? (i := position) ?_
      exact List.getElem?_zip_eq_some.mpr ⟨found, List.getElem?_eq_getElem inside⟩
    obtain ⟨target, target_eq, -⟩ := expands.parameters id member
    rw [Environment.define_of_getElem? (List.nodup_append.mp wellFormed.distinct).1 found,
      List.getElem?_map, List.getElem?_eq_getElem inside, image, target_eq, Option.getD_some,
      targets _ paired target target_eq]
    rfl
  obtain ⟨fails, succeeds⟩ := advance_renamed calls expands.copies dominated.1
    (fun result defined id member => expands.image_injective defined member) agree
  rw [added, advance_append, casts_eq]
  simp only [bind, Except.bind]
  constructor
  · intro fault failed
    rw [fails fault failed]
  · intro printed final success
    obtain ⟨last, last_eq, agree_last⟩ := succeeds printed final success
    rw [last_eq]
    exact ⟨last, rfl, agree_last⟩

private theorem returned_mem (expands : expansion.Expands callee caller changed front call back)
    (wellFormed : callee.WellFormed) {target : ValueId}
    (member : target ∈ expansion.last.operands.map (image expansion.values)) :
    target ∈ changed.availableAfter (front ++ expansion.added) := by
  obtain ⟨operand, reads, rfl⟩ := List.mem_map.mp member
  have dominated := Function.dominated_of_code_eq wellFormed.dominated expands.callee_code
  obtain ⟨target, target_eq, available⟩ := expands.mapped operand (dominated.2.1 operand reads)
  rw [image, target_eq]
  exact available

private theorem results_back (expands : expansion.Expands callee caller changed front call back)
    {result : ValueId} (defined : result ∈ back.flatMap Operation.results) :
    result ∉ changed.availableAfter (front ++ expansion.added) := by
  intro earlier
  have distinct := expands.linked.distinct
  rw [expands.code_eq, Function.availableAfter, List.flatMap_append, ← List.append_assoc,
    List.flatMap_map] at distinct
  exact (List.nodup_append.mp distinct).2.2 _ earlier _ defined rfl

theorem evaluateCode_back (expands : expansion.Expands callee caller changed front call back)
    (calls : Calls) (linked : caller.Linked) (code_eq : caller.code = front ++ call :: back)
    (ending : Ending back) (wellFormed : callee.WellFormed) {values : List (Option Tensor)}
    {last : Environment} (kept : ∀ id : ValueId, id.index < caller.values.size →
      last id = environment id)
    (missing : ∀ id ∈ call.results, environment id = none)
    (values_eq : values =
      expansion.last.operands.map fun operand => last (image expansion.values operand)) :
    evaluateCode calls (back.map (Operation.reading expansion.change)) last =
      evaluateCode calls back (environment.define call.results values) := by
  have dominated := Function.dominated_of_code_eq linked.dominated code_eq
  have distinct := linked.distinct
  rw [code_eq, Function.availableAfter, List.flatMap_append, List.flatMap_cons,
    ← List.append_assoc, ← List.append_assoc] at distinct
  have apart_back : ∀ result ∈ back.flatMap Operation.results,
      result ∉ caller.arguments ++ front.flatMap Operation.results ++ call.results :=
    fun result defined earlier => (List.nodup_append.mp distinct).2.2 _ earlier _ defined rfl
  have elsewhere_back : ∀ result ∈ back.flatMap Operation.results,
      expansion.change result = result := fun result defined =>
    expands.elsewhere result fun in_call =>
      apart_back result defined (List.mem_append_right _ in_call)
  have copied : (back.map (Operation.reading expansion.change)).map Operation.action =
      back.map (Operation.renamed expansion.change) := by
    rw [List.map_map]
    refine List.map_congr_left fun operation member => ?_
    have same : operation.results.map expansion.change = operation.results := by
      rw [List.map_congr_left fun result defined =>
        elsewhere_back result (List.mem_flatMap.mpr ⟨operation, member, defined⟩), List.map_id']
    rw [Operation.renamed, same]
    rfl
  refine evaluateCode_renamed ending copied dominated.2.2 ?_ ?_
  · intro result defined id member same
    rw [elsewhere_back result defined] at same
    by_cases in_call : id ∈ call.results
    · obtain ⟨position, found⟩ := List.mem_iff_getElem?.mp in_call
      rw [expands.returned position id found] at same
      cases returned : (expansion.last.operands.map (image expansion.values))[position]? with
      | none =>
          rw [returned] at same
          exact same
      | some target =>
          rw [returned, Option.getD_some] at same
          subst same
          exact absurd (expands.returned_mem wellFormed (List.mem_of_getElem? returned))
            (expands.results_back defined)
    · rw [← same, expands.elsewhere id in_call]
  · intro id member
    by_cases in_call : id ∈ call.results
    · obtain ⟨position, found⟩ := List.mem_iff_getElem?.mp in_call
      rw [Environment.define_of_getElem? (linked.results_nodup code_eq) found,
        expands.returned position id found, values_eq, List.getElem?_map, List.getElem?_map]
      cases expansion.last.operands[position]? with
      | none =>
          change none = last id
          rw [kept id, missing id in_call]
          apply linked.known
          rw [code_eq, Function.availableAfter, List.flatMap_append, List.flatMap_cons]
          exact List.mem_append_right _
            (List.mem_append_right _ (List.mem_append_left _ in_call))
      | some operand => rfl
    · have available := (List.mem_append.mp member).resolve_right in_call
      rw [Environment.define_of_notMem in_call, expands.elsewhere id in_call]
      refine (kept id ((Prefixed.refl linked code_eq).known ?_)).symm
      rw [List.append_nil]
      exact available

private theorem evaluateCode_call
    (expands : expansion.Expands callee caller changed front call back)
    (linked : caller.Linked) (code_eq : caller.code = front ++ call :: back)
    (ending : Ending back) (callee_wellFormed : callee.WellFormed) {name : String}
    (kind_eq : call.kind = .call name)
    (meaning : ∀ values, calls name values = callee.evaluate calls values)
    (missing : ∀ id ∈ call.results, environment id = none) :
    evaluateCode calls (expansion.added ++ back.map (Operation.reading expansion.change))
        environment =
      evaluateCode calls (call :: back) environment := by
  obtain ⟨body_goes_on, last_leaves⟩ := expands.body_goes_on callee_wellFormed
  have proceeds : ¬ call.kind.isLeave = true := by
    rw [kind_eq]
    exact Bool.false_ne_true
  have arity : (call.operands.map environment).length = callee.arguments.length := by
    rw [List.length_map, expands.arity]
  have performed : call.kind.perform calls (call.operands.map environment) = (do
      let advanced ← advance calls expansion.body
        (Environment.empty.define callee.arguments (call.operands.map environment))
      return ⟨advanced.1, expansion.last.operands.map advanced.2⟩) := by
    rw [kind_eq, OperationKind.perform, meaning, Function.evaluate, if_pos arity,
      expands.callee_code, evaluateCode_leave body_goes_on last_leaves]
  rw [evaluateCode_append (expands.added_goes_on callee_wellFormed), evaluateCode,
    if_neg proceeds, performed]
  obtain ⟨fails, succeeds⟩ :=
    expands.advance_added callee_wellFormed calls environment
  simp only [bind, Except.bind]
  cases advanced : advance calls expansion.body
      (Environment.empty.define callee.arguments (call.operands.map environment)) with
  | error fault => rw [fails fault advanced]
  | ok pair =>
      obtain ⟨last, last_eq, agree⟩ := succeeds pair.1 pair.2 advanced
      have kept : ∀ id : ValueId, id.index < caller.values.size → last id = environment id :=
        fun id inside => advance_frame last_eq fun defined =>
          Nat.not_lt.mpr (expands.fresh id defined) inside
      have dominated :=
        Function.dominated_of_code_eq callee_wellFormed.dominated expands.callee_code
      have values_eq : expansion.last.operands.map pair.2 =
          expansion.last.operands.map fun operand => last (image expansion.values operand) :=
        List.map_congr_left fun operand reads => agree operand (dominated.2.1 operand reads)
      have rest := expands.evaluateCode_back calls linked code_eq ending
        callee_wellFormed kept missing values_eq
      simp only [last_eq, rest]
      rfl

/-- The caller without the call does what it did with it, if the call does what the callee does. -/
theorem evaluate_eq (expands : expansion.Expands callee caller changed front call back)
    (wellFormed : caller.WellFormed) (code_eq : caller.code = front ++ call :: back)
    (callee_wellFormed : callee.WellFormed) {name : String} (kind_eq : call.kind = .call name)
    (meaning : ∀ values, calls name values = callee.evaluate calls values)
    (values : List (Option Tensor)) :
    changed.evaluate calls values = caller.evaluate calls values := by
  have proceeds : call.kind.isLeave = false := by
    rw [kind_eq]
    rfl
  obtain ⟨front_goes_on, ending⟩ := ending_back wellFormed code_eq proceeds
  rw [Function.evaluate, Function.evaluate, expands.extension.arguments]
  split
  · rw [expands.code_eq, code_eq, List.append_assoc, evaluateCode_append front_goes_on,
      evaluateCode_append front_goes_on]
    simp only [bind, Except.bind]
    cases advanced : advance calls front
        (Environment.empty.define caller.arguments values) with
    | error fault => rfl
    | ok pair =>
        have missing : ∀ id ∈ call.results, pair.2 id = none := by
          intro id in_call
          have apart := (unread_before wellFormed.toLinked code_eq in_call).2.2
          rw [Function.availableAfter, List.mem_append, not_or] at apart
          rw [advance_frame advanced apart.2, Environment.define_of_notMem apart.1]
          rfl
        simp only [expands.evaluateCode_call wellFormed.toLinked code_eq ending callee_wellFormed
          kind_eq meaning missing]
  · rfl

theorem changed_wellFormed (expands : expansion.Expands callee caller changed front call back)
    (wellFormed : caller.WellFormed) (code_eq : caller.code = front ++ call :: back)
    (callee_wellFormed : callee.WellFormed) (proceeds : call.kind.isLeave = false) :
    changed.WellFormed := by
  obtain ⟨front_goes_on, ending⟩ := ending_back wellFormed code_eq proceeds
  have ending_changed : Ending (back.map (Operation.reading expansion.change)) := by
    apply ending.of_kinds
    rw [List.map_map]
    rfl
  have nonempty : back.map (Operation.reading expansion.change) ≠ [] := by
    intro empty
    rw [empty] at ending_changed
    exact ending_changed
  refine ⟨expands.linked, ?_⟩
  rw [expands.code_eq, ending_append_iff nonempty]
  refine ⟨fun operation member => ?_, ending_changed⟩
  rcases List.mem_append.mp member with before | new
  · exact front_goes_on operation before
  · exact expands.added_goes_on callee_wellFormed operation new

end Expansion.Expands

end Inlining

end Dataflow

end TensorLang
