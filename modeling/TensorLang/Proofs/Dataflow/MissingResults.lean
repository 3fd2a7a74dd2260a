import Mathlib.Data.List.Nodup
import TensorLang.Proofs.Dataflow.InlinedCalls

/-!
# Missing results

The result of a call of a function that returns nothing has no value.  Inlining does not make the
caller read such a result: what is read after an expansion was read before, in the caller or in the
callee.
-/

namespace TensorLang

namespace Dataflow

namespace Function

/-- The value is the result of a call of a function that returns nothing. -/
def Lacks (silent : String → Prop) (function : Function) (id : ValueId) : Prop :=
  ∃ call ∈ function.code, ∃ name, call.kind = .call name ∧ silent name ∧ id ∈ call.results

/-- Some operation reads the value. -/
def Reads (function : Function) (id : ValueId) : Prop :=
  ∃ reader ∈ function.code, id ∈ reader.operands

theorem Listed.lt_size_of_reads {function : Function} (listed : function.Listed) {id : ValueId}
    (reads : function.Reads id) : id.index < function.values.size := by
  obtain ⟨reader, reader_mem, reads⟩ := reads
  exact listed.existing reader reader_mem id reads

end Function

namespace Inlining

namespace Expansion.Expands

variable {caller callee changed : Function} {front back : List Operation}
variable {call : Operation} {expansion : Expansion}

theorem mem_callee (expands : expansion.Expands callee caller changed front call back)
    {operation : Operation} (member : operation ∈ expansion.body) : operation ∈ callee.code := by
  rw [expands.callee_code]
  exact List.mem_append_left _ member

/-- A copy differs from its original in the values only. -/
theorem exists_original (expands : expansion.Expands callee caller changed front call back)
    {copy : Operation} (member : copy ∈ expansion.copies) :
    ∃ original ∈ expansion.body, copy.kind = original.kind ∧ copy.location = original.location ∧
      copy.operands = original.operands.map (image expansion.values) ∧
      copy.results = original.results.map (image expansion.values) := by
  obtain ⟨position, found⟩ := List.mem_iff_getElem?.mp member
  have action_eq := congrArg (·[position]?) expands.copies
  have location_eq := congrArg (·[position]?) expands.locations
  simp only [List.getElem?_map, found, Option.map_some] at action_eq location_eq
  cases original_eq : expansion.body[position]? with
  | none => simp [original_eq] at location_eq
  | some original =>
      simp only [original_eq, Option.map_some, Option.some.injEq, Operation.action,
        Operation.renamed, Prod.mk.injEq] at action_eq location_eq
      exact ⟨original, List.mem_of_getElem? original_eq, action_eq.1, location_eq, action_eq.2⟩

theorem available_of_reads (expands : expansion.Expands callee caller changed front call back)
    (wellFormed : callee.WellFormed) {id : ValueId} (reads : callee.Reads id) :
    id ∈ callee.availableAfter expansion.body := by
  obtain ⟨reader, reader_mem, reads⟩ := reads
  have dominated := Function.dominated_of_code_eq wellFormed.dominated expands.callee_code
  rw [expands.callee_code] at reader_mem
  rcases List.mem_append.mp reader_mem with earlier | last
  · exact dominated.1.operand_mem earlier reads
  · obtain rfl := List.mem_singleton.mp last
    exact dominated.2.1 id reads

theorem image_of_argument (expands : expansion.Expands callee caller changed front call back)
    {id : ValueId} (argument : id ∈ callee.arguments) :
    image expansion.values id ∈ call.operands ∨
      image expansion.values id ∈ expansion.casts.flatMap Operation.results := by
  obtain ⟨target, target_eq, -⟩ := expands.parameters id argument
  have image_eq : image expansion.values id = target := by rw [image, target_eq]; rfl
  rw [image_eq]
  refine (Decidable.em (target ∈ expansion.casts.flatMap Operation.results)).symm.imp_left
    fun outside => ?_
  have firsts : (callee.arguments.zip call.operands).map Prod.fst = callee.arguments :=
    List.map_fst_zip (Nat.le_of_eq expands.arity.symm)
  rw [← firsts] at argument
  obtain ⟨pair, pair_mem, rfl⟩ := List.mem_map.mp argument
  have passed := (List.of_mem_zip pair_mem).2
  let environment : Environment := fun other =>
    if other = pair.2 then some ⟨⟨[]⟩, [0], rfl⟩ else none
  obtain ⟨final, final_eq, targets⟩ := expands.passed (fun _ _ => .error .mismatch) environment
  have target_eq := targets pair pair_mem target target_eq
  rw [advance_frame final_eq outside] at target_eq
  simp only [environment, if_true] at target_eq
  split at target_eq
  · rename_i same
    exact same ▸ passed
  · cases target_eq

/-- The copies define what stands for the results of the callee's operations. -/
theorem copies_results (expands : expansion.Expands callee caller changed front call back) :
    expansion.copies.flatMap Operation.results =
      (expansion.body.flatMap Operation.results).map (image expansion.values) := by
  have results := congrArg (List.flatMap fun action => action.2.2) expands.copies
  rw [List.flatMap_map, List.flatMap_map] at results
  rw [List.map_flatMap]
  exact results

private theorem added_nodup (expands : expansion.Expands callee caller changed front call back) :
    (expansion.casts.flatMap Operation.results ++
      expansion.copies.flatMap Operation.results).Nodup := by
  have distinct := expands.linked.distinct
  rw [expands.code_eq, Function.availableAfter, List.flatMap_append, List.flatMap_append,
    ← List.append_assoc, ← List.append_assoc] at distinct
  have added := (List.nodup_append.mp (List.nodup_append.mp distinct).1).2.1
  rwa [Expansion.added, List.flatMap_append] at added

theorem size_le_of_result (expands : expansion.Expands callee caller changed front call back)
    {id : ValueId} (defined : id ∈ expansion.body.flatMap Operation.results) :
    caller.values.size ≤ (image expansion.values id).index := by
  refine expands.fresh _ ?_
  rw [Expansion.added, List.flatMap_append, expands.copies_results]
  exact List.mem_append_right _ (List.mem_map_of_mem defined)

/-- What is read after the expansion was read before, or it stands for what the callee reads. -/
theorem reads (expands : expansion.Expands callee caller changed front call back)
    (code_eq : caller.code = front ++ call :: back) {id : ValueId} (reading : changed.Reads id) :
    caller.Reads id ∨ ∃ original, callee.Reads original ∧ id = image expansion.values original := by
  obtain ⟨reader, member, reads⟩ := reading
  rw [expands.code_eq, List.append_assoc, List.mem_append, List.mem_append, Expansion.added,
    List.mem_append] at member
  rcases member with earlier | (cast | copy) | later
  · exact .inl ⟨reader, code_eq ▸ List.mem_append_left _ earlier, reads⟩
  · exact .inl ⟨call, by simp [code_eq], (expands.casts reader cast).2.2 reads⟩
  · obtain ⟨original, original_mem, -, -, operands_eq, -⟩ := expands.exists_original copy
    rw [operands_eq] at reads
    obtain ⟨operand, operand_mem, rfl⟩ := List.mem_map.mp reads
    exact .inr ⟨operand, ⟨original, expands.mem_callee original_mem, operand_mem⟩, rfl⟩
  · obtain ⟨original, original_mem, rfl⟩ := List.mem_map.mp later
    obtain ⟨operand, operand_mem, rfl⟩ := List.mem_map.mp reads
    by_cases result : operand ∈ call.results
    · obtain ⟨position, found⟩ := List.mem_iff_getElem?.mp result
      have change_eq := expands.returned position operand found
      cases returned : (expansion.last.operands.map (image expansion.values))[position]? with
      | none =>
          rw [returned, Option.getD_none] at change_eq
          exact absurd (change_eq.symm ▸ result)
            (expands.unread original original_mem operand operand_mem)
      | some target =>
          obtain ⟨origin, origin_mem, rfl⟩ := List.mem_map.mp (List.mem_of_getElem? returned)
          rw [returned, Option.getD_some] at change_eq
          refine .inr ⟨origin, ⟨expansion.last, ?_, origin_mem⟩, change_eq⟩
          rw [expands.callee_code]
          exact List.mem_append_right _ (List.mem_singleton_self _)
    · rw [expands.elsewhere operand result]
      refine .inl ⟨original, ?_, operand_mem⟩
      rw [code_eq]
      exact List.mem_append_right _ (List.mem_cons_of_mem _ original_mem)

/-- A value of the caller that is read after the expansion was read before. -/
theorem reads_of_lt (expands : expansion.Expands callee caller changed front call back)
    (code_eq : caller.code = front ++ call :: back) (wellFormed : callee.WellFormed) {id : ValueId}
    (old : id.index < caller.values.size) (reading : changed.Reads id) : caller.Reads id := by
  rcases expands.reads code_eq reading with still | ⟨original, original_reads, rfl⟩
  · exact still
  · rcases List.mem_append.mp (expands.available_of_reads wellFormed original_reads)
      with argument | result
    · rcases expands.image_of_argument argument with passed | cast
      · exact ⟨call, by simp [code_eq], passed⟩
      · have fresh := expands.fresh _ (by
          rw [Expansion.added, List.flatMap_append]
          exact List.mem_append_left _ cast)
        exact absurd old (Nat.not_lt.mpr fresh)
    · exact absurd old (Nat.not_lt.mpr (expands.size_le_of_result result))

/-- What stands for a result of the callee's operations is read only if the callee reads the
result. -/
theorem reads_of_image (expands : expansion.Expands callee caller changed front call back)
    (code_eq : caller.code = front ++ call :: back) (linked : caller.Linked)
    (wellFormed : callee.WellFormed) {id : ValueId}
    (defined : id ∈ expansion.body.flatMap Operation.results)
    (reading : changed.Reads (image expansion.values id)) : callee.Reads id := by
  have distinct := List.nodup_append.mp expands.added_nodup
  have fresh := expands.size_le_of_result defined
  have copied : image expansion.values id ∈ expansion.copies.flatMap Operation.results := by
    rw [expands.copies_results]
    exact List.mem_map_of_mem defined
  have not_read : ¬ caller.Reads (image expansion.values id) := fun before =>
    Nat.not_lt.mpr fresh (linked.lt_size_of_reads before)
  rcases expands.reads code_eq reading with before | ⟨original, original_reads, same⟩
  · exact absurd before not_read
  · rcases List.mem_append.mp (expands.available_of_reads wellFormed original_reads)
      with argument | result
    · rw [same] at not_read copied
      rcases expands.image_of_argument argument with passed | cast
      · exact absurd ⟨call, by simp [code_eq], passed⟩ not_read
      · exact absurd rfl (distinct.2.2 _ cast _ copied)
    · have injective := distinct.2.1
      rw [expands.copies_results] at injective
      obtain rfl := List.inj_on_of_nodup_map injective defined result same
      exact original_reads

end Expansion.Expands

end Inlining

end Dataflow

end TensorLang
