import TensorLang.Dataflow.Sharing
import TensorLang.Proofs.Dataflow.Inference
import TensorLang.Proofs.Dataflow.Literals
import TensorLang.Proofs.Dataflow.Preservation

/-!
# Sharing reduces

Sharing goes through the body once.  The candidates are operations in front of the one that is
looked at, so the results of a candidate that does the same are available there, and the duplicate
can be replaced.  Literals are compared as numbers: equality cannot tell the two zeros apart, so
operations that agree need not be the same.
-/

namespace TensorLang

namespace Dataflow

variable {alike : OperationKind → OperationKind → Prop} {function changed : Function}

/-- Reading another value does not change the kinds of operations. -/
theorem Function.Among.value {spot : function.Spot} {value : ValueId}
    {allowed : OperationKind → Prop} (among : function.Among allowed)
    (replaced : spot.Replaced (.value value) changed) : changed.Among allowed := by
  intro operation member
  rcases replaced.mem_code member with earlier | made | ⟨before, before_mem, rfl⟩
  · exact among operation (spot.front_subset earlier)
  · cases made
  · exact among before (spot.back_subset before_mem)

theorem OperationKind.reshapable_unsigned : Reshapable OperationKind.Unsigned := by
  intro literal reshaped shape found unsigned _ value member
  rw [(TensorLiteral.withShape?_eq_some found).2] at member
  exact unsigned value member

theorem OperationKind.reshapable_counted : Reshapable OperationKind.Counted := by
  intro literal reshaped shape found _ counted
  rw [Counted, (TensorLiteral.withShape?_eq_some found).1]
  exact counted

theorem OperationKind.reshapable_spelled : Reshapable OperationKind.Spelled :=
  fun literal reshaped shape found constant target =>
    ⟨reshapable_unsigned literal reshaped shape found constant.unsigned target.unsigned,
      reshapable_counted literal reshaped shape found constant.counted target.counted⟩

theorem OperationKind.hasEffects_of_agrees {left right : OperationKind}
    (agrees : left.agrees right = true) : left.hasEffects = right.hasEffects := by
  cases left <;> cases right <;> first | rfl | cases agrees

theorem OperationKind.name_of_agrees {left right : OperationKind}
    (agrees : left.agrees right = true) : left.name = right.name := by
  cases left <;> cases right <;> first | rfl | cases agrees

namespace Sharing

variable {front back : List Operation} {operation earlier : Operation} {candidate : Candidate}

/-! ### Comparisons -/

/-- Whether two operations of the body do the same can always be told. -/
theorem exists_sameComputation (verified : function.Verified)
    (left_mem : earlier ∈ function.code) (right_mem : operation ∈ function.code) :
    ∃ same, sameComputation function earlier operation = .ok same := by
  rw [sameComputation]
  split
  · have compared : ∀ pair ∈ earlier.results.zip operation.results, ∃ same,
        (do return (← function.typeOf pair.1) = (← function.typeOf pair.2) : Outcome Bool) =
          .ok same := by
      rintro ⟨first, second⟩ member
      obtain ⟨type, type_eq⟩ := Function.exists_typeOf
        (verified.lt_size_of_result left_mem (List.of_mem_zip member).1)
      obtain ⟨other, other_eq⟩ := Function.exists_typeOf
        (verified.lt_size_of_result right_mem (List.of_mem_zip member).2)
      exact ⟨decide (type = other), Except.bind_eq_ok_iff.mpr
        ⟨type, type_eq, Except.bind_eq_ok_iff.mpr ⟨other, other_eq, rfl⟩⟩⟩
    exact Except.exists_allM compared
  · exact ⟨false, rfl⟩

/-- Operations that do the same have kinds that agree, the same operands, and results of one type.
-/
theorem sameComputation_eq_ok (same : sameComputation function earlier operation = .ok true) :
    earlier.kind.agrees operation.kind = true ∧ earlier.operands = operation.operands ∧
      ∀ value result, earlier.results = [value] → operation.results = [result] →
        ∃ type, function.typeOf value = .ok type ∧ function.typeOf result = .ok type := by
  rw [sameComputation] at same
  split at same
  · rename_i checked
    rw [Bool.and_eq_true, Bool.and_eq_true] at checked
    refine ⟨checked.1.1, eq_of_beq checked.1.2, fun value result value_eq result_eq => ?_⟩
    rw [value_eq, result_eq, List.zip_cons_cons, List.allM] at same
    obtain ⟨equal, compared, rest⟩ := Except.bind_eq_ok_iff.mp same
    obtain ⟨type, type_eq, compared⟩ := Except.bind_eq_ok_iff.mp compared
    obtain ⟨other, other_eq, compared⟩ := Except.bind_eq_ok_iff.mp compared
    cases equal with
    | false => cases rest
    | true =>
        have types := of_decide_eq_true (Except.pure_eq_ok_iff.mp compared)
        exact ⟨type, type_eq, types ▸ other_eq⟩
  · cases same

/-- The candidates stand in front. -/
def Known (candidates : List Candidate) (front : List Operation) : Prop :=
  ∀ candidate ∈ candidates, ∃ operation ∈ front, operation.id = candidate.id

/-- The search for an equal operation in front comes to an end. -/
theorem exists_earlier? (verified : function.Verified)
    (code_eq : function.code = front ++ operation :: back) {candidates : List Candidate}
    (known : Known candidates front) :
    ∃ candidate?, earlier? function candidates operation = .ok candidate? ∧
      ∀ candidate, candidate? = some candidate → ∃ earlier ∈ front, earlier.id = candidate.id ∧
        sameComputation function earlier operation = .ok true := by
  have in_front : ∀ {earlier}, earlier ∈ front → earlier ∈ function.code := fun member => by
    rw [code_eq]
    exact List.mem_append_left _ member
  have operation_mem : operation ∈ function.code := by simp [code_eq]
  have found : ∀ {candidate}, candidate ∈ candidates → ∃ earlier ∈ front,
      earlier.id = candidate.id ∧ function.operation candidate.id = .ok earlier := by
    intro candidate member
    obtain ⟨earlier, earlier_mem, id_eq⟩ := known candidate member
    refine ⟨earlier, earlier_mem, id_eq, Outcome.promised_eq_ok_iff.mpr ?_⟩
    rw [← id_eq]
    exact verified.toRecorded.operation?_of_mem (in_front earlier_mem)
  have total : ∀ candidate ∈ candidates, ∃ same,
      (if candidate.name == operation.name && candidate.operands == operation.operands then do
        sameComputation function (← function.operation candidate.id) operation
      else
        .ok false) = .ok same := by
    intro candidate member
    obtain ⟨earlier, earlier_mem, -, lookup⟩ := found member
    obtain ⟨same, same_eq⟩ :=
      exists_sameComputation verified (in_front earlier_mem) operation_mem
    split
    · exact ⟨same, Except.bind_eq_ok_iff.mpr ⟨earlier, lookup, same_eq⟩⟩
    · exact ⟨false, rfl⟩
  obtain ⟨candidate?, found_eq⟩ := Except.exists_findM? total
  refine ⟨candidate?, found_eq, ?_⟩
  rintro candidate rfl
  obtain ⟨member, test⟩ := Except.findM?_eq_some found_eq
  obtain ⟨earlier, earlier_mem, id_eq, lookup⟩ := found member
  split at test
  · obtain ⟨other, other_eq, same⟩ := Except.bind_eq_ok_iff.mp test
    obtain rfl := Except.ok.inj (lookup.symm.trans other_eq)
    exact ⟨earlier, earlier_mem, id_eq, same⟩
  · cases test

/-! ### Merges -/

theorem exists_merge {allowed : OperationKind → Prop}
    (exact : ∀ left right : OperationKind, allowed left → allowed right →
      left.agrees right = true → alike left right)
    (verified : function.Verified) (proper : function.Proper) (among : function.Among allowed)
    (spot : function.Spot) (earlier_mem : earlier ∈ spot.front)
    (same : sameComputation function earlier spot.operation = .ok true) :
    ∃ value changed, merge earlier.id spot.operation function = .ok () changed ∧
      spot.Replaceable alike (.value value) ∧ spot.Replaced (.value value) changed := by
  have member := spot.front_subset earlier_mem
  obtain ⟨agrees, operands_eq, types⟩ := sameComputation_eq_ok same
  have pure := (OperationKind.hasEffects_of_agrees agrees).trans spot.pure
  obtain ⟨value, results_eq⟩ := List.length_eq_one_iff.mp
    ((proper earlier member).results.trans (OperationKind.resultCount_of_hasEffects pure))
  obtain ⟨type, value_type, result_type⟩ := types value spot.result results_eq spot.results_eq
  have usable : value ∈ function.availableAfter spot.front := List.mem_append_right _
    (List.mem_flatMap.mpr ⟨earlier, earlier_mem, by simp [results_eq]⟩)
  obtain ⟨middle, changed, replaced, erased, done⟩ := spot.exists_substitution verified usable
  refine ⟨value, changed, ?_, .equal earlier_mem
    (exact _ _ (among earlier member) (among spot.operation spot.mem_code) agrees) operands_eq
    results_eq value_type result_type, done⟩
  refine EStateM.bind_eq_ok_iff.mpr ⟨earlier, function, Edit.query_eq_ok_iff.mpr
    ⟨Outcome.promised_eq_ok_iff.mpr (verified.toRecorded.operation?_of_mem member), rfl⟩, ?_⟩
  rw [results_eq, spot.results_eq]
  exact EStateM.bind_eq_ok_iff.mpr
    ⟨⟨⟩, middle, EStateM.bind_eq_ok_iff.mpr ⟨⟨⟩, middle, replaced, rfl⟩, erased⟩

theorem Known.append {candidates : List Candidate} (known : Known candidates front)
    (operation : Operation) : Known candidates (front ++ [operation]) := by
  intro candidate member
  obtain ⟨earlier, earlier_mem, id_eq⟩ := known candidate member
  exact ⟨earlier, List.mem_append_left _ earlier_mem, id_eq⟩

/-- An operation that is looked at becomes a candidate. -/
theorem Known.snoc {candidates : List Candidate} (known : Known candidates front)
    (operation : Operation) {name : String} {operands : List ValueId} :
    Known (candidates ++ [⟨operation.id, name, operands⟩]) (front ++ [operation]) :=
  List.forall_mem_append.mpr ⟨known.append operation, fun candidate member =>
    ⟨operation, List.mem_append_right _ (List.mem_singleton_self _),
      by rw [List.mem_singleton.mp member]⟩⟩

/-! ### Runs -/

section Runs

variable {id : OperationId} {rest : List OperationId} {candidates : List Candidate}
variable {merged count : Nat}

/-- An operation with effects stays, and so does one without results. -/
theorem run_cons_of_unshareable (found : function.operation? id = some operation)
    (unshareable : (operation.kind.hasEffects || operation.results.isEmpty) = true)
    (ran : run rest candidates merged function = .ok count changed) :
    run (id :: rest) candidates merged function = .ok count changed := by
  rw [run]
  refine EStateM.bind_eq_ok_iff.mpr ⟨operation, function,
    Edit.query_eq_ok_iff.mpr ⟨Outcome.promised_eq_ok_iff.mpr found, rfl⟩, ?_⟩
  rw [if_pos unshareable]
  exact ran

/-- An operation that is the first of its kind stays. -/
theorem run_cons_of_none (found : function.operation? id = some operation)
    (shareable : (operation.kind.hasEffects || operation.results.isEmpty) = false)
    (earlier_eq : earlier? function candidates operation = .ok none)
    (ran : run rest (candidates ++ [⟨id, operation.name, operation.operands⟩]) merged function =
      .ok count changed) :
    run (id :: rest) candidates merged function = .ok count changed := by
  rw [run]
  refine EStateM.bind_eq_ok_iff.mpr ⟨operation, function,
    Edit.query_eq_ok_iff.mpr ⟨Outcome.promised_eq_ok_iff.mpr found, rfl⟩, ?_⟩
  rw [if_neg (by rw [shareable]; exact Bool.false_ne_true)]
  exact EStateM.bind_eq_ok_iff.mpr
    ⟨none, function, Edit.query_eq_ok_iff.mpr ⟨earlier_eq, rfl⟩, ran⟩

/-- A duplicate is merged. -/
theorem run_cons_of_some (found : function.operation? id = some operation)
    (shareable : (operation.kind.hasEffects || operation.results.isEmpty) = false)
    (earlier_eq : earlier? function candidates operation = .ok (some candidate))
    {middle : Function} (done : merge candidate.id operation function = .ok () middle)
    (ran : run rest candidates (merged + 1) middle = .ok count changed) :
    run (id :: rest) candidates merged function = .ok count changed := by
  rw [run]
  refine EStateM.bind_eq_ok_iff.mpr ⟨operation, function,
    Edit.query_eq_ok_iff.mpr ⟨Outcome.promised_eq_ok_iff.mpr found, rfl⟩, ?_⟩
  rw [if_neg (by rw [shareable]; exact Bool.false_ne_true)]
  refine EStateM.bind_eq_ok_iff.mpr
    ⟨some candidate, function, Edit.query_eq_ok_iff.mpr ⟨earlier_eq, rfl⟩, ?_⟩
  exact EStateM.bind_eq_ok_iff.mpr ⟨(), middle, done, ran⟩

/-- A run over the rest of the body succeeds, and each merge is a reduction. -/
theorem exists_run {allowed : OperationKind → Prop}
    (exact : ∀ left right : OperationKind, allowed left → allowed right →
      left.agrees right = true → alike left right)
    (verified : function.Verified) (proper : function.Proper) (among : function.Among allowed)
    {ids : List OperationId} (ids_eq : back.map Operation.id = ids)
    (code_eq : function.code = front ++ back) (known : Known candidates front) (merged : Nat) :
    ∃ count shared, run ids candidates merged function = .ok (merged + count) shared ∧
      Reduces alike count function shared := by
  induction ids generalizing function front back candidates merged with
  | nil => exact ⟨0, function, rfl, .refl function⟩
  | cons id ids induction =>
      cases back with
      | nil => cases ids_eq
      | cons operation back =>
          obtain ⟨rfl, rest_eq⟩ := List.cons.inj ids_eq
          have member : operation ∈ function.code := by simp [code_eq]
          have found := verified.toRecorded.operation?_of_mem member
          have later_eq : function.code = (front ++ [operation]) ++ back := by
            rw [code_eq, List.append_cons]
          by_cases effects : operation.kind.hasEffects = true
          · obtain ⟨count, shared, ran, reduces⟩ := induction verified proper among rest_eq later_eq
              (known.append operation) merged
            have unshareable : (operation.kind.hasEffects || operation.results.isEmpty) = true := by
              rw [effects, Bool.true_or]
            exact ⟨count, shared, run_cons_of_unshareable found unshareable ran, reduces⟩
          · have pure := (Bool.not_eq_true _).mp effects
            obtain ⟨spot, rfl, rfl, rfl⟩ := Function.Spot.exists_of_code proper code_eq pure
            have shareable : (spot.operation.kind.hasEffects || spot.operation.results.isEmpty) =
                false := by
              rw [pure, spot.results_eq]
              rfl
            obtain ⟨candidate?, earlier_eq, does_same⟩ := exists_earlier? verified code_eq known
            cases candidate? with
            | none =>
                obtain ⟨count, shared, ran, reduces⟩ := induction verified proper among rest_eq
                  later_eq (known.snoc spot.operation) merged
                exact ⟨count, shared, run_cons_of_none found shareable earlier_eq ran, reduces⟩
            | some candidate =>
                obtain ⟨earlier, earlier_mem, id_eq, same⟩ := does_same candidate rfl
                obtain ⟨value, middle, done, replaceable, replaced⟩ :=
                  exists_merge exact verified proper among spot earlier_mem same
                have reduction : Reduction alike function middle :=
                  ⟨spot, _, replaceable, replaced⟩
                have middle_eq := replaced.code_eq
                rw [Replacement.operations, List.append_nil] at middle_eq
                have later_ids : (spot.back.map (Operation.redirected spot.result value)).map
                    Operation.id = ids := List.map_map.trans rest_eq
                obtain ⟨count, shared, ran, reduces⟩ := induction replaced.verified
                  (proper.reduction reduction) (among.value replaced) later_ids middle_eq known
                  (merged + 1)
                refine ⟨count + 1, shared, ?_, .step reduction reduces⟩
                rw [Nat.add_comm count, ← Nat.add_assoc]
                exact run_cons_of_some found shareable earlier_eq (id_eq ▸ done) ran

/-- Sharing of a verified function succeeds, and all it does are reductions. -/
theorem exists_share {allowed : OperationKind → Prop}
    (exact : ∀ left right : OperationKind, allowed left → allowed right →
      left.agrees right = true → alike left right)
    (verified : function.Verified) (proper : function.Proper) (among : function.Among allowed) :
    ∃ count shared, Edit.share function = .ok count shared ∧
      Reduces alike count function shared := by
  have known : Known [] [] := nofun
  obtain ⟨count, shared, ran, reduces⟩ := exists_run exact verified proper among
    (Function.body_eq_code verified.live).symm (List.nil_append _).symm known 0
  rw [Nat.zero_add] at ran
  exact ⟨count, shared, EStateM.bind_eq_ok_iff.mpr ⟨function, function, rfl, ran⟩, reduces⟩

end Runs

end Sharing

namespace Function

/-- Operations of kinds that agree have the same kind: no two constants of one shape differ just in
the signs of zeros. -/
def Unambiguous (function : Function) : Prop :=
  ∀ left ∈ function.code, ∀ right ∈ function.code,
    left.kind.agrees right.kind = true → left.kind = right.kind

/-- Without signs there is nothing to mistake for each other. -/
theorem Among.unambiguous (among : function.Among OperationKind.Unsigned) :
    function.Unambiguous := fun left left_mem right right_mem agrees =>
  OperationKind.eq_of_agrees agrees (among left left_mem) (among right right_mem)

/-- Sharing preserves meaning where equal constants are the same: once the types of a function are
inferred, it succeeds, and for all values that the arguments may take the function that is left
prints and returns the same tensors. -/
theorem share_preserves_meaning {inferred : Function} (accepted : function.verify = .ok ())
    (proper : function.Proper) (unambiguous : function.Unambiguous)
    (success : Edit.inferTypes function = .ok () inferred) :
    ∃ count shared, Edit.share inferred = .ok count shared ∧
      shared.arguments = inferred.arguments ∧
      ∀ calls values, inferred.Accepts values →
        ∃ effects, inferred.evaluate calls values = .ok effects ∧
          shared.evaluate calls values = .ok effects := by
  obtain ⟨refines, typed⟩ := Inference.inferTypes_eq_ok success
  have verified := refines.verified (verify_eq_ok_iff.mp accepted)
  have inferred_proper := refines.proper proper
  have exact : ∀ left right : OperationKind, (∃ operation ∈ function.code, operation.kind = left) →
      (∃ operation ∈ function.code, operation.kind = right) → left.agrees right = true →
      left = right := by
    rintro _ _ ⟨left, left_mem, rfl⟩ ⟨right, right_mem, rfl⟩ agrees
    exact unambiguous left left_mem right right_mem agrees
  obtain ⟨count, shared, shares, reduces⟩ := Sharing.exists_share exact verified inferred_proper
    fun operation member => ⟨operation, refines.code_eq ▸ member, rfl⟩
  exact ⟨count, shared, shares, reduces.extension.arguments,
    fun calls values accepts => reduces.evaluate_eq calls verified inferred_proper typed accepts⟩

/-- Prints the sum of two equal rows, each of which is a constant of its own. -/
def addingEqualRows : Function :=
  let row : OperationKind := .constant ⟨⟨⟨[3]⟩, [1, 2, 3], rfl⟩, by decide⟩
  let build : Edit Unit := do
    let left ← Edit.appendValue row [] .unranked ⟨"main", 1, 1⟩
    let right ← Edit.appendValue row [] .unranked ⟨"main", 2, 1⟩
    let sum ← Edit.appendValue .add [left, right] .unranked ⟨"main", 3, 1⟩
    let _ ← Edit.append .print [sum] [] ⟨"main", 3, 1⟩
    let _ ← Edit.append .leave [] [] ⟨"main", 4, 1⟩
  (build.outcome (Function.new "main" ⟨"main", 1, 1⟩)).1

theorem share_preserves_meaning_addingEqualRows :
    addingEqualRows.verify = .ok () ∧ addingEqualRows.Proper ∧ addingEqualRows.Unambiguous ∧
      ∃ inferred count shared, Edit.inferTypes addingEqualRows = .ok () inferred ∧
        Edit.share inferred = .ok count shared ∧
        ∀ calls, ∃ effects, inferred.evaluate calls [] = .ok effects ∧
          shared.evaluate calls [] = .ok effects := by
  have accepted : addingEqualRows.verify = .ok () := by rfl
  have proper : addingEqualRows.Proper := by decide
  have unsigned : ∀ operation ∈ addingEqualRows.code, operation.kind.Unsigned := by
    decide +kernel
  have unambiguous : addingEqualRows.Unambiguous := Among.unambiguous unsigned
  let inferred := (Edit.inferTypes.outcome addingEqualRows).1
  have success : Edit.inferTypes addingEqualRows = .ok () inferred := by rfl
  obtain ⟨count, shared, shares, -, same⟩ :=
    share_preserves_meaning accepted proper unambiguous success
  exact ⟨accepted, proper, unambiguous, inferred, count, shared, success, shares,
    fun calls => same calls [] ⟨rfl, nofun⟩⟩

/-- Prints zero and negative zero. -/
def printingZeros : Function :=
  let build : Edit Unit := do
    let zero ← Edit.appendValue (.constant ⟨⟨⟨[]⟩, [0], rfl⟩, by decide⟩) [] .unranked
      ⟨"main", 1, 1⟩
    let negative ← Edit.appendValue (.constant ⟨⟨⟨[]⟩, [-0], rfl⟩, by decide⟩) [] .unranked
      ⟨"main", 2, 1⟩
    let _ ← Edit.append .print [zero] [] ⟨"main", 3, 1⟩
    let _ ← Edit.append .print [negative] [] ⟨"main", 4, 1⟩
    let _ ← Edit.append .leave [] [] ⟨"main", 5, 1⟩
  (build.outcome (Function.new "main" ⟨"main", 1, 1⟩)).1

/-- The text that a function prints without arguments. -/
def text? (function : Function) : Option String :=
  (function.evaluate (fun _ _ => .error .mismatch) []).toOption.map fun effects =>
    linesOf effects.printed

/-- Sharing takes the two zeros for equal, and negative zero is printed without its sign. -/
theorem share_printingZeros :
    printingZeros.verify = .ok () ∧ printingZeros.Proper ∧
      ∃ inferred shared, Edit.inferTypes printingZeros = .ok () inferred ∧
        Edit.share inferred = .ok 1 shared ∧ inferred.text? = some "0\n-0\n" ∧
        shared.text? = some "0\n0\n" := by
  have accepted : printingZeros.verify = .ok () := by rfl
  have proper : printingZeros.Proper := by decide
  let inferred := (Edit.inferTypes.outcome printingZeros).1
  have success : Edit.inferTypes printingZeros = .ok () inferred := by rfl
  have shares : (Edit.share.outcome inferred).2.toOption = some 1 := by decide +kernel
  exact ⟨accepted, proper, inferred, (Edit.share.outcome inferred).1, success,
    Edit.eq_ok_of_outcome shares, by decide +kernel, by decide +kernel⟩

end Function

end Dataflow

end TensorLang
