import TensorLang.Proofs.Dataflow.Inlining
import TensorLang.Proofs.Dataflow.Sharing

/-!
# Sharing misses nothing

Sharing remembers operations with the operands that they had when it met them, while later merges
change operands.  But an operation that was met reads only what was defined before it, and what a
later merge replaces is defined after it; so all that is remembered stays true.  One pass over the
body therefore leaves no two operations that compute the same, and of those that do it keeps the
first.
-/

namespace TensorLang

namespace Dataflow

variable {function changed shared : Function} {front back : List Operation}
variable {operation earlier left right : Operation}

namespace Function

/-! ### Several values replaced at once -/

theorem Verified.exists_replaceResults (verified : function.Verified)
    (code_eq : function.code = front ++ operation :: back) {pairs : List (ValueId × ValueId)}
    (defined : ∀ pair ∈ pairs, pair.2 ∈ operation.results)
    (distinct : (pairs.map Prod.snd).Nodup)
    (usable : ∀ pair ∈ pairs, pair.1 ∈ function.availableAfter front) :
    ∃ changed change,
      (pairs.forM fun (kept, duplicate) => Edit.replaceUses duplicate kept) function =
        .ok ⟨⟩ changed ∧
      changed.Verified ∧
      changed.code = front ++ operation :: back.map (Operation.reading change) ∧
      Extends function changed ∧ changed.values = function.values ∧
      (∀ id, changed.Stray id → function.Stray id) ∧
      (∀ id ∉ pairs.map Prod.snd, change id = id) ∧ ∀ pair ∈ pairs, change pair.2 = pair.1 := by
  induction pairs generalizing function back with
  | nil =>
      have unchanged : back.map (Operation.reading fun id => id) = back := by
        rw [List.map_congr_left fun operation _ => Operation.reading_of_unchanged fun _ _ => rfl,
          List.map_id']
      refine ⟨function, fun id => id, rfl, verified, ?_, Extends.refl _, rfl, fun _ => id,
        fun _ _ => rfl, nofun⟩
      rw [unchanged, code_eq]
  | cons pair rest induction =>
      obtain ⟨kept, duplicate⟩ := pair
      rw [List.map_cons, List.nodup_cons] at distinct
      have linked := verified.wellFormed.toLinked
      have kept_usable := usable _ List.mem_cons_self
      obtain ⟨redirected_eq, dominated⟩ :=
        Inlining.redirected_code linked code_eq (defined _ List.mem_cons_self) kept_usable
      obtain ⟨middle, replaced, middle_verified, middle_code, early, middle_values,
        middle_strays⟩ :=
        verified.exists_replaceUses duplicate kept (redirected_eq ▸ dominated)
      have middle_usable : ∀ pair ∈ rest, pair.1 ∈ middle.availableAfter front := by
        rw [availableAfter, early.arguments]
        exact fun pair member => usable pair (List.mem_cons_of_mem _ member)
      obtain ⟨changed, change, success, changed_verified, changed_code, late, changed_values,
          changed_strays, elsewhere, connections⟩ :=
        induction middle_verified (middle_code.trans redirected_eq.symm)
          (fun pair member => defined pair (List.mem_cons_of_mem _ member)) distinct.2 middle_usable
      refine ⟨changed, fun id => change (redirect duplicate kept id), ?_, changed_verified, ?_,
        early.trans late, changed_values.trans middle_values,
        fun id stray => middle_strays id (changed_strays id stray), ?_, ?_⟩
      · rw [List.forM_eq_forM, List.forM_cons]
        exact EStateM.bind_eq_ok_iff.mpr ⟨⟨⟩, middle, replaced, success⟩
      · rw [changed_code, List.map_map]
        refine congrArg (front ++ operation :: ·) (List.map_congr_left fun other _ => ?_)
        exact Operation.reading_reading _ _ other
      · intro id outside
        rw [List.map_cons, List.mem_cons, not_or] at outside
        change change (redirect duplicate kept id) = id
        rw [redirect, if_neg outside.1, elsewhere id outside.2]
      · intro other member
        rcases List.mem_cons.mp member with rfl | later
        · change change (redirect duplicate kept duplicate) = kept
          rw [redirect, if_pos rfl]
          apply elsewhere
          intro also
          obtain ⟨pair, pair_mem, rfl⟩ := List.mem_map.mp also
          exact linked.result_notMem code_eq (defined pair (List.mem_cons_of_mem _ pair_mem))
            kept_usable
        · have apart : other.2 ≠ duplicate := fun same =>
            distinct.1 (List.mem_map.mpr ⟨other, later, same⟩)
          change change (redirect duplicate kept other.2) = other.1
          rw [redirect, if_neg apart, connections other later]

end Function

namespace Sharing

/-! ### Comparisons -/

/-- The operation does nothing but define results. -/
def Shareable (operation : Operation) : Prop :=
  operation.kind.hasEffects = false ∧ operation.results ≠ []

private theorem exists_allM_types {lefts rights : List ValueId}
    (lengths : lefts.length = rights.length)
    (lefts_known : ∀ id ∈ lefts, ∃ type, function.typeOf id = .ok type)
    (rights_known : ∀ id ∈ rights, ∃ type, function.typeOf id = .ok type) :
    ∃ same, ((lefts.zip rights).allM fun (first, second) => do
        return (← function.typeOf first) = (← function.typeOf second) : Outcome Bool) = .ok same ∧
      (same = true ↔ lefts.map function.typeOf = rights.map function.typeOf) := by
  induction lefts generalizing rights with
  | nil =>
      obtain rfl := List.length_eq_zero_iff.mp lengths.symm
      exact ⟨true, rfl, by simp⟩
  | cons first lefts induction =>
      cases rights with
      | nil => cases lengths
      | cons second rights =>
          rw [List.forall_mem_cons] at lefts_known rights_known
          obtain ⟨type, type_eq⟩ := lefts_known.1
          obtain ⟨other, other_eq⟩ := rights_known.1
          obtain ⟨same, same_eq, same_iff⟩ :=
            induction (Nat.succ.inj lengths) lefts_known.2 rights_known.2
          have compared : (do return (← function.typeOf first) = (← function.typeOf second) :
              Outcome Bool) = .ok (decide (type = other)) := Except.bind_eq_ok_iff.mpr
            ⟨type, type_eq, Except.bind_eq_ok_iff.mpr ⟨other, other_eq, rfl⟩⟩
          rw [List.zip_cons_cons, List.allM, List.map_cons, List.map_cons, type_eq, other_eq]
          by_cases equal : type = other
          · subst equal
            rw [decide_eq_true rfl] at compared
            refine ⟨same, Except.bind_eq_ok_iff.mpr ⟨true, compared, same_eq⟩, ?_⟩
            rw [same_iff, List.cons_inj_right]
          · rw [decide_eq_false equal] at compared
            refine ⟨false, Except.bind_eq_ok_iff.mpr ⟨false, compared, rfl⟩, ?_⟩
            simp [equal]

/-- The comparison asks for kinds that agree, equal operands and equal types of results. -/
theorem sameComputation_eq_ok_iff (verified : function.Verified) (left_mem : left ∈ function.code)
    (right_mem : right ∈ function.code) :
    sameComputation function left right = .ok true ↔ left.kind.agrees right.kind = true ∧
      left.operands = right.operands ∧
      left.results.map function.typeOf = right.results.map function.typeOf := by
  rw [sameComputation]
  split
  · rename_i checked
    rw [Bool.and_eq_true, Bool.and_eq_true, beq_iff_eq, beq_iff_eq] at checked
    obtain ⟨⟨agrees, operands_eq⟩, lengths⟩ := checked
    obtain ⟨same, same_eq, same_iff⟩ := exists_allM_types lengths
      (fun _ defines => Function.exists_typeOf (verified.lt_size_of_result left_mem defines))
      (fun _ defines => Function.exists_typeOf (verified.lt_size_of_result right_mem defines))
    rw [same_eq, Except.ok.injEq, same_iff]
    exact ⟨fun types => ⟨agrees, operands_eq, types⟩, fun equal => equal.2.2⟩
  · rename_i differs
    refine ⟨fun same => absurd (Except.pure_eq_ok_iff.mp same) Bool.false_ne_true,
      fun equal => absurd ?_ differs⟩
    obtain ⟨agrees, operands_eq, types⟩ := equal
    have lengths := congrArg List.length types
    rw [List.length_map, List.length_map] at lengths
    simp [agrees, operands_eq, lengths]

/-- The operations do not compute the same, so far as both can be shared. -/
def Distinct (function : Function) (left right : Operation) : Prop :=
  Shareable left → Shareable right → sameComputation function left right = .ok false

theorem distinct_iff (verified : function.Verified) (left_mem : left ∈ function.code)
    (right_mem : right ∈ function.code) :
    Distinct function left right ↔
      (Shareable left → Shareable right → sameComputation function left right ≠ .ok true) := by
  obtain ⟨same, same_eq⟩ := exists_sameComputation verified left_mem right_mem
  rw [Distinct, same_eq]
  cases same <;> simp

theorem Distinct.symm (distinct : Distinct function left right) (verified : function.Verified)
    (left_mem : left ∈ function.code) (right_mem : right ∈ function.code) :
    Distinct function right left := by
  rw [distinct_iff verified right_mem left_mem]
  rw [distinct_iff verified left_mem right_mem] at distinct
  intro right_shareable left_shareable same
  apply distinct left_shareable right_shareable
  rw [sameComputation_eq_ok_iff verified right_mem left_mem] at same
  rw [sameComputation_eq_ok_iff verified left_mem right_mem]
  exact ⟨OperationKind.agrees_symm same.1, same.2.1.symm, same.2.2.symm⟩

/-- The comparison reads nothing but types. -/
theorem sameComputation_congr (values_eq : changed.values = function.values) :
    sameComputation changed left right = sameComputation function left right := by
  rw [sameComputation, sameComputation]
  simp only [Function.typeOf, Function.value, values_eq]

theorem shareable_of_sameComputation (shareable : Shareable operation)
    (same : sameComputation function earlier operation = .ok true) : Shareable earlier := by
  rw [sameComputation] at same
  split at same
  · rename_i checked
    rw [Bool.and_eq_true, Bool.and_eq_true, beq_iff_eq, beq_iff_eq] at checked
    refine ⟨(OperationKind.hasEffects_of_agrees checked.1.1).trans shareable.1, fun empty => ?_⟩
    rw [empty] at checked
    exact shareable.2 (List.length_eq_zero_iff.mp checked.2.symm)
  · cases same

/-! ### One merge -/

/-- The operation is gone, and those behind it read the results of an earlier one instead. -/
structure Absorbed (function changed : Function) (front back : List Operation)
    (earlier operation : Operation) (change : ValueId → ValueId) : Prop where
  /-- What is left is in order. -/
  verified : changed.Verified
  /-- The other operations stay. -/
  code_eq : changed.code = front ++ back.map (Operation.reading change)
  /-- The signature stays. -/
  extension : Extends function changed
  /-- The values stay. -/
  values : changed.values = function.values
  /-- No operation gets lost. -/
  strays : ∀ id, changed.Stray id → function.Stray id
  /-- The results are read instead of those of the operation. -/
  renamed : operation.results.map change = earlier.results
  /-- Everything else is read as before. -/
  elsewhere : ∀ id ∉ operation.results, change id = id

private theorem unread_of_renamed (linked : function.Linked)
    (code_eq : function.code = front ++ operation :: back) {change : ValueId → ValueId}
    (usable : ∀ id ∈ operation.results, change id ∈ function.availableAfter front)
    (elsewhere : ∀ id ∉ operation.results, change id = id) :
    ∀ reader ∈ front ++ operation :: back.map (Operation.reading change),
      ∀ operand ∈ reader.operands, operand ∉ operation.results := by
  intro reader member operand reads defines
  obtain ⟨unread_front, unread_here, unavailable⟩ := Inlining.unread_before linked code_eq defines
  rw [List.mem_append, List.mem_cons] at member
  rcases member with before | rfl | after
  · exact unread_front reader before reads
  · exact unread_here reads
  · obtain ⟨original, -, rfl⟩ := List.mem_map.mp after
    obtain ⟨read, -, rfl⟩ := List.mem_map.mp reads
    by_cases own : read ∈ operation.results
    · exact unavailable (usable read own)
    · rw [elsewhere read own] at defines
      exact own defines

theorem exists_absorbed (verified : function.Verified)
    (code_eq : function.code = front ++ operation :: back) (earlier_mem : earlier ∈ front)
    (shareable : Shareable operation)
    (same : sameComputation function earlier operation = .ok true) :
    ∃ changed change, merge earlier.id operation function = .ok () changed ∧
      Absorbed function changed front back earlier operation change := by
  have linked := verified.wellFormed.toLinked
  have member : earlier ∈ function.code := by simp [code_eq, earlier_mem]
  have operation_mem : operation ∈ function.code := by simp [code_eq]
  have types := ((sameComputation_eq_ok_iff verified member operation_mem).mp same).2.2
  have lengths : earlier.results.length = operation.results.length := by
    rw [← List.length_map, types, List.length_map]
  have earlier_usable : ∀ id ∈ earlier.results, id ∈ function.availableAfter front :=
    fun id defines =>
      List.mem_append_right _ (List.mem_flatMap.mpr ⟨earlier, earlier_mem, defines⟩)
  have seconds : (earlier.results.zip operation.results).map Prod.snd = operation.results :=
    List.map_snd_zip (Nat.le_of_eq lengths.symm)
  have defined : ∀ pair ∈ earlier.results.zip operation.results, pair.2 ∈ operation.results :=
    fun _ pair_mem => (List.of_mem_zip pair_mem).2
  obtain ⟨middle, change, replaced, middle_verified, middle_code, early, middle_values,
      middle_strays, elsewhere, connections⟩ :=
    verified.exists_replaceResults code_eq defined
      (by rw [seconds]; exact linked.results_nodup code_eq)
      (fun _ pair_mem => earlier_usable _ (List.of_mem_zip pair_mem).1)
  rw [seconds] at elsewhere
  have renamed : operation.results.map change = earlier.results := by
    refine List.ext_getElem (by rw [List.length_map, lengths]) fun position inside _ => ?_
    rw [List.getElem_map]
    exact connections (_, _) (List.mem_iff_getElem.mpr ⟨position, by simp_all, by simp⟩)
  have unread : ∀ reader ∈ middle.code, ∀ operand ∈ reader.operands,
      operand ∉ operation.results := by
    rw [middle_code]
    refine unread_of_renamed linked code_eq (fun id defines => earlier_usable _ ?_) elsewhere
    rw [← renamed]
    exact List.mem_map_of_mem defines
  obtain ⟨changed, erased, changed_verified, changed_code, late, changed_values, changed_strays⟩ :=
    middle_verified.exists_erase middle_code
      (OperationKind.isLeave_of_hasEffects shareable.1) unread
  refine ⟨changed, change, ?_, changed_verified, changed_code, early.trans late,
    changed_values.trans middle_values, fun id stray => middle_strays id (changed_strays id stray),
    renamed, elsewhere⟩
  refine EStateM.bind_eq_ok_iff.mpr ⟨earlier, function, Edit.query_eq_ok_iff.mpr
    ⟨Outcome.promised_eq_ok_iff.mpr (verified.toRecorded.operation?_of_mem member), rfl⟩, ?_⟩
  exact EStateM.bind_eq_ok_iff.mpr ⟨⟨⟩, middle, replaced, erased⟩

theorem Absorbed.fixed {change : ValueId → ValueId}
    (absorbed : Absorbed function changed front back earlier operation change)
    (verified : function.Verified) (code_eq : function.code = front ++ operation :: back)
    {id : ValueId} (available : id ∈ function.availableAfter front) : change id = id := by
  apply absorbed.elsewhere
  intro defines
  exact verified.wellFormed.result_notMem code_eq defines available

private theorem Absorbed.code_eq_map {change : ValueId → ValueId}
    (absorbed : Absorbed function changed front back earlier operation change)
    (verified : function.Verified) (code_eq : function.code = front ++ operation :: back) :
    changed.code = (front ++ back).map (Operation.reading change) := by
  have dominated := Function.dominated_of_code_eq verified.dominated code_eq
  have front_eq : front.map (Operation.reading change) = front := by
    have unchanged : ∀ other ∈ front, other.reading change = other := fun other member =>
      Operation.reading_of_unchanged fun operand reads =>
        absorbed.fixed verified code_eq (dominated.1.operand_mem member reads)
    rw [List.map_congr_left unchanged, List.map_id']
  rw [absorbed.code_eq, List.map_append, front_eq]

/-! ### One pass -/

/-- An operation stands in front of another and computes the same once values are renamed, and its
results are read in place of those of the other. -/
structure StandsFor (function : Function) (rename : ValueId → ValueId)
    (kept duplicate : Operation) : Prop where
  /-- The other operation does nothing but define results. -/
  shareable : Shareable duplicate
  /-- The operation stands in front. -/
  before : [kept.id, duplicate.id].Sublist function.body
  /-- The kinds are the same, with the same payload. -/
  agrees : kept.kind.agrees duplicate.kind = true
  /-- The same values are read. -/
  operands_eq : kept.operands.map rename = duplicate.operands.map rename
  /-- The types of the results are the same. -/
  types : kept.results.map function.typeOf = duplicate.results.map function.typeOf
  /-- The results are read in place of the others. -/
  results_eq : duplicate.results.map rename = kept.results

theorem Absorbed.exists_standsFor {change rename : ValueId → ValueId}
    (absorbed : Absorbed function changed front back earlier operation change)
    (verified : function.Verified) (code_eq : function.code = front ++ operation :: back)
    {kept duplicate : Operation} (after : duplicate ∈ back) (kept_mem : kept ∈ changed.code)
    (listed : kept.id ∈ shared.body)
    (stands : StandsFor changed rename kept (duplicate.reading change)) :
    ∃ kept ∈ function.code, kept.id ∈ shared.body ∧
      StandsFor function (fun id => rename (change id)) kept duplicate := by
  have body_sublist : changed.body.Sublist function.body := by
    rw [Function.body_eq_code absorbed.verified.live, Function.body_eq_code verified.live,
      absorbed.code_eq, code_eq, List.map_append, List.map_append, List.map_map]
    exact (List.Sublist.refl _).append (List.sublist_cons_self _ _)
  have typeOf_eq : changed.typeOf = function.typeOf := by
    funext id
    simp only [Function.typeOf, Function.value, absorbed.values]
  rw [absorbed.code_eq_map verified code_eq] at kept_mem
  obtain ⟨original, original_mem, rfl⟩ := List.mem_map.mp kept_mem
  have original_mem : original ∈ function.code := by
    rw [code_eq]
    rcases List.mem_append.mp original_mem with before | behind
    · exact List.mem_append_left _ before
    · exact List.mem_append_right _ (List.mem_cons_of_mem _ behind)
  have own_fixed : ∀ id ∈ duplicate.results, change id = id := by
    intro id defines
    apply absorbed.elsewhere
    intro also
    exact verified.wellFormed.result_notMem_results code_eq also (.inr after) defines
  refine ⟨original, original_mem, listed, stands.shareable, stands.before.trans body_sublist,
    stands.agrees, ?_, typeOf_eq ▸ stands.types, ?_⟩
  · have operands_eq := stands.operands_eq
    rw [Operation.reading, Operation.reading, List.map_map, List.map_map] at operands_eq
    exact operands_eq
  · calc duplicate.results.map (fun id => rename (change id))
        = duplicate.results.map rename :=
          List.map_congr_left fun id defines => by rw [own_fixed id defines]
      _ = original.results := stands.results_eq

/-- What a pass over the rest of a body leaves of it, and how it renames values. -/
structure Merged (function shared : Function) (front back : List Operation) (count : Nat)
    (rename : ValueId → ValueId) : Prop where
  /-- What is left is in order. -/
  verified : shared.Verified
  /-- The signature stays. -/
  extension : Extends function shared
  /-- The values stay. -/
  values : shared.values = function.values
  /-- No operation gets lost. -/
  strays : ∀ id, shared.Stray id → function.Stray id
  /-- What is available in front keeps its name. -/
  fixed : ∀ id ∈ function.availableAfter front, rename id = id
  /-- The front stays, and so does the rest but for the merged operations. -/
  code : ∃ rest, shared.code = front ++ rest ∧
    rest.Sublist (back.map (Operation.reading rename)) ∧ rest.length + count = back.length
  /-- Something stands for each operation that is gone. -/
  merged : ∀ duplicate ∈ back, duplicate.id ∉ shared.body →
    ∃ kept ∈ function.code, kept.id ∈ shared.body ∧ StandsFor function rename kept duplicate
  /-- No two operations compute the same. -/
  distinct : shared.code.Pairwise (Distinct shared)
  /-- Without a merge nothing changes. -/
  unchanged : count = 0 → shared = function
  /-- Where no two operations computed the same there was nothing to merge. -/
  idle : function.code.Pairwise (Distinct function) → count = 0

namespace Merged

variable {count : Nat} {rename : ValueId → ValueId}

theorem nil (verified : function.Verified) (code_eq : function.code = front)
    (distinct : front.Pairwise (Distinct function)) :
    Merged function function front [] 0 fun id => id :=
  ⟨verified, Extends.refl _, rfl, fun _ => id, fun _ _ => rfl, ⟨[], by simp [code_eq], .slnil, rfl⟩,
    nofun, code_eq ▸ distinct, fun _ => rfl, fun _ => rfl⟩

/-- An operation that stays joins the front. -/
theorem keep (verified : function.Verified) (code_eq : function.code = front ++ operation :: back)
    (later : Merged function shared (front ++ [operation]) back count rename) :
    Merged function shared front (operation :: back) count rename := by
  have fixed : ∀ id ∈ function.availableAfter front, rename id = id := by
    intro id available
    apply later.fixed
    rw [Function.availableAfter, List.flatMap_append, ← List.append_assoc]
    exact List.mem_append_left _ available
  have dominated := Function.dominated_of_code_eq verified.dominated code_eq
  have same : operation.reading rename = operation :=
    Operation.reading_of_unchanged fun operand reads => fixed operand (dominated.2.1 operand reads)
  obtain ⟨rest, rest_eq, sublist, lengths⟩ := later.code
  refine { later with
    fixed
    code := ⟨operation :: rest, ?_, ?_, ?_⟩
    merged := fun duplicate member gone => ?_ }
  · rw [rest_eq, List.append_assoc]
    rfl
  · rw [List.map_cons, same]
    exact sublist.cons_cons operation
  · rw [List.length_cons, List.length_cons, ← lengths]
    omega
  · rcases List.mem_cons.mp member with rfl | after
    · refine absurd ?_ gone
      rw [Function.body_eq_code later.verified.live, rest_eq]
      simp
    · exact later.merged duplicate after gone

/-- An operation that is merged with an earlier one is gone. -/
theorem absorb (verified : function.Verified) (code_eq : function.code = front ++ operation :: back)
    (earlier_mem : earlier ∈ front) (shareable : Shareable operation)
    (same : sameComputation function earlier operation = .ok true) {middle : Function}
    {change : ValueId → ValueId}
    (absorbed : Absorbed function middle front back earlier operation change)
    (later : Merged middle shared front (back.map (Operation.reading change)) count rename) :
    Merged function shared front (operation :: back) (count + 1) fun id => rename (change id) := by
  have member : earlier ∈ function.code := by simp [code_eq, earlier_mem]
  have operation_mem : operation ∈ function.code := by simp [code_eq]
  have fixed : ∀ id ∈ function.availableAfter front, rename (change id) = id := by
    intro id available
    rw [absorbed.fixed verified code_eq available]
    apply later.fixed
    rwa [Function.availableAfter, absorbed.extension.arguments]
  obtain ⟨agrees, operands_eq, types⟩ :=
    (sameComputation_eq_ok_iff verified member operation_mem).mp same
  obtain ⟨rest, rest_eq, sublist, lengths⟩ := later.code
  rw [List.length_map] at lengths
  refine ⟨later.verified, absorbed.extension.trans later.extension,
    later.values.trans absorbed.values, fun id stray => absorbed.strays id (later.strays id stray),
    fixed, ⟨rest, rest_eq, ?_, ?_⟩, fun duplicate duplicate_mem gone => ?_, later.distinct,
    by simp, fun distinct => ?_⟩
  · rw [List.map_map] at sublist
    rw [List.map_cons]
    apply List.Sublist.cons
    convert sublist using 2
    funext other
    exact (Operation.reading_reading change rename other).symm
  · rw [List.length_cons, ← lengths, Nat.add_assoc]
  · rcases List.mem_cons.mp duplicate_mem with rfl | after
    · refine ⟨earlier, member, ?_, shareable, ?_, agrees, by rw [operands_eq], types, ?_⟩
      · rw [Function.body_eq_code later.verified.live, rest_eq]
        exact List.mem_map_of_mem (List.mem_append_left _ earlier_mem)
      · rw [Function.body_eq_code verified.live, code_eq, List.map_append, List.map_cons]
        exact (List.singleton_sublist.mpr (List.mem_map_of_mem earlier_mem)).append
          ((List.nil_sublist _).cons_cons _)
      · have earlier_fixed : ∀ id ∈ earlier.results, rename id = id := fun id defines => by
          apply later.fixed
          exact List.mem_append_right _ (List.mem_flatMap.mpr ⟨earlier, earlier_mem, defines⟩)
        calc duplicate.results.map (fun id => rename (change id))
            = (duplicate.results.map change).map rename := List.map_map.symm
          _ = earlier.results.map rename := by rw [absorbed.renamed]
          _ = earlier.results := by rw [List.map_congr_left earlier_fixed, List.map_id']
    · obtain ⟨kept, kept_mem, listed, stands⟩ :=
        later.merged (duplicate.reading change) (List.mem_map_of_mem after) gone
      exact absorbed.exists_standsFor verified code_eq after kept_mem listed stands
  · rw [code_eq] at distinct
    have apart := (List.pairwise_append.mp distinct).2.2 earlier earlier_mem operation
      List.mem_cons_self
    have differs := apart (shareable_of_sameComputation shareable same) shareable
    cases same.symm.trans differs

end Merged

/-! ### Runs -/

/-- All operations in front that can be shared are candidates. -/
def Offers (candidates : List Candidate) (front : List Operation) : Prop :=
  ∀ operation ∈ front, Shareable operation →
    ⟨operation.id, operation.name, operation.operands⟩ ∈ candidates

theorem Offers.snoc {candidates more : List Candidate} (offers : Offers candidates front)
    (subset : candidates ⊆ more) (new : Shareable operation →
      ⟨operation.id, operation.name, operation.operands⟩ ∈ more) :
    Offers more (front ++ [operation]) := by
  refine List.forall_mem_append.mpr ⟨fun earlier member shareable =>
    subset (offers earlier member shareable), fun last member => ?_⟩
  rw [List.mem_singleton.mp member]
  exact new

theorem distinct_snoc (distinct : front.Pairwise (Distinct function))
    (last : ∀ left ∈ front, Distinct function left operation) :
    (front ++ [operation]).Pairwise (Distinct function) :=
  List.pairwise_append.mpr ⟨distinct, List.pairwise_singleton _ _, fun left member _ other_mem =>
    List.mem_singleton.mp other_mem ▸ last left member⟩

private theorem distinct_of_earlier? (verified : function.Verified)
    (code_eq : function.code = front ++ operation :: back) {candidates : List Candidate}
    (offers : Offers candidates front)
    (earlier_eq : earlier? function candidates operation = .ok none) (member : left ∈ front) :
    Distinct function left operation := by
  have left_mem : left ∈ function.code := by simp [code_eq, member]
  rw [distinct_iff verified left_mem (by simp [code_eq])]
  intro shareable _ same
  obtain ⟨agrees, operands_eq, -⟩ := sameComputation_eq_ok same
  have fails := Except.findM?_eq_none_iff.mp earlier_eq _ (offers left member shareable)
  rw [if_pos (by simp [Operation.name, OperationKind.name_of_agrees agrees, operands_eq])] at fails
  obtain ⟨found, found_eq, fails⟩ := Except.bind_eq_ok_iff.mp fails
  have lookup := verified.toRecorded.operation?_of_mem left_mem
  obtain rfl := Option.some.inj (lookup.symm.trans (Outcome.promised_eq_ok_iff.mp found_eq))
  cases same.symm.trans fails

private theorem exists_merged (verified : function.Verified) {ids : List OperationId}
    (ids_eq : back.map Operation.id = ids) (code_eq : function.code = front ++ back)
    {candidates : List Candidate} (known : Known candidates front)
    (offers : Offers candidates front) (distinct : front.Pairwise (Distinct function))
    (merged : Nat) :
    ∃ count shared rename, run ids candidates merged function = .ok (merged + count) shared ∧
      Merged function shared front back count rename := by
  induction ids generalizing function front back candidates merged with
  | nil =>
      obtain rfl := List.map_eq_nil_iff.mp ids_eq
      rw [List.append_nil] at code_eq
      exact ⟨0, function, fun id => id, rfl, .nil verified code_eq distinct⟩
  | cons id ids induction =>
      cases back with
      | nil => cases ids_eq
      | cons operation back =>
          obtain ⟨rfl, rest_eq⟩ := List.cons.inj ids_eq
          have found := verified.toRecorded.operation?_of_mem
            (show operation ∈ function.code by simp [code_eq])
          have later_eq : function.code = (front ++ [operation]) ++ back := by
            rw [code_eq, List.append_cons]
          by_cases stays : (operation.kind.hasEffects || operation.results.isEmpty) = true
          · have unshareable : ¬ Shareable operation := fun shareable => by
              simp [shareable.1, shareable.2] at stays
            obtain ⟨count, shared, rename, ran, later⟩ := induction verified rest_eq later_eq
              (known.append operation) (offers.snoc (List.Subset.refl _) (absurd · unshareable))
              (distinct_snoc distinct fun _ _ _ => (absurd · unshareable)) merged
            exact ⟨count, shared, rename, run_cons_of_unshareable found stays ran,
              later.keep verified code_eq⟩
          · have shareable : Shareable operation := by
              simpa [Shareable] using stays
            have stays := (Bool.not_eq_true _).mp stays
            obtain ⟨candidate?, earlier_eq, does_same⟩ := exists_earlier? verified code_eq known
            cases candidate? with
            | none =>
                obtain ⟨count, shared, rename, ran, later⟩ := induction verified rest_eq later_eq
                  (known.snoc operation) (offers.snoc (List.subset_append_left _ _) fun _ =>
                    List.mem_append_right _ (List.mem_singleton_self _))
                  (distinct_snoc distinct fun _ =>
                    distinct_of_earlier? verified code_eq offers earlier_eq) merged
                exact ⟨count, shared, rename, run_cons_of_none found stays earlier_eq ran,
                  later.keep verified code_eq⟩
            | some candidate =>
                obtain ⟨earlier, earlier_mem, id_eq, same⟩ := does_same candidate rfl
                obtain ⟨middle, change, done, absorbed⟩ :=
                  exists_absorbed verified code_eq earlier_mem shareable same
                have middle_distinct : front.Pairwise (Distinct middle) :=
                  distinct.imp fun apart left_shareable right_shareable =>
                    (sameComputation_congr absorbed.values).trans
                      (apart left_shareable right_shareable)
                have later_ids : (back.map (Operation.reading change)).map Operation.id = ids :=
                  List.map_map.trans rest_eq
                obtain ⟨count, shared, rename, ran, later⟩ := induction absorbed.verified later_ids
                  absorbed.code_eq known offers middle_distinct (merged + 1)
                refine ⟨count + 1, shared, fun id => rename (change id), ?_,
                  later.absorb verified code_eq earlier_mem shareable same absorbed⟩
                rw [Nat.add_comm count, ← Nat.add_assoc]
                exact run_cons_of_some found stays earlier_eq (id_eq ▸ done) ran

/-- Sharing of a verified function succeeds, and what it leaves is merged. -/
theorem exists_share_merged (verified : function.Verified) :
    ∃ count shared rename, Edit.share function = .ok count shared ∧
      Merged function shared [] function.code count rename := by
  have known : Known [] [] := nofun
  have offers : Offers [] [] := nofun
  obtain ⟨count, shared, rename, ran, merged⟩ := exists_merged verified
    (Function.body_eq_code verified.live).symm (List.nil_append _).symm known offers .nil 0
  rw [Nat.zero_add] at ran
  exact ⟨count, shared, rename, EStateM.bind_eq_ok_iff.mpr ⟨function, function, rfl, ran⟩, merged⟩

private theorem Merged.sameComputation_eq_false {count : Nat} {rename : ValueId → ValueId}
    (merged : Merged function shared front back count rename) (left_mem : left ∈ shared.code)
    (right_mem : right ∈ shared.code) (apart : left ≠ right) (left_shareable : Shareable left)
    (right_shareable : Shareable right) : sameComputation shared left right = .ok false := by
  have both : shared.code.Pairwise fun left right =>
      left ≠ right → Distinct shared left right ∧ Distinct shared right left :=
    merged.distinct.imp_of_mem fun left_mem right_mem distinct _ =>
      ⟨distinct, distinct.symm merged.verified left_mem right_mem⟩
  have symmetric : Std.Symm fun left right =>
      left ≠ right → Distinct shared left right ∧ Distinct shared right left :=
    ⟨fun _ _ holds apart => (holds apart.symm).symm⟩
  have everywhere := both.forall_of_forall fun _ _ apart => absurd rfl apart
  exact (everywhere left_mem right_mem apart).1 left_shareable right_shareable

end Sharing

namespace Function

open Sharing in
/-- One pass of sharing misses nothing.  It counts the operations that it removes; no two operations
that are left do nothing but compute the same, so that doing it again removes nothing and changes
nothing; and for each operation that is gone stands one that came before it and stays. -/
theorem share_misses_nothing (accepted : function.verify = .ok ()) :
    ∃ count shared rename, Edit.share function = .ok count shared ∧
      shared.body.Sublist function.body ∧ shared.body.length + count = function.body.length ∧
      shared.code.Sublist (function.code.map (Operation.reading rename)) ∧
      (∀ id, (shared.operation? id).isSome → id ∉ shared.body →
        (function.operation? id).isSome ∧ id ∉ function.body) ∧
      (∀ left ∈ shared.code, ∀ right ∈ shared.code, left ≠ right → Shareable left →
        Shareable right → sameComputation shared left right = .ok false) ∧
      Edit.share shared = .ok 0 shared ∧
      ∀ duplicate ∈ function.code, duplicate.id ∉ shared.body →
        ∃ kept ∈ function.code, kept.id ∈ shared.body ∧
          StandsFor function rename kept duplicate := by
  have verified := verify_eq_ok_iff.mp accepted
  obtain ⟨count, shared, rename, shares, merged⟩ := exists_share_merged verified
  obtain ⟨again, result, _, shares_again, merged_again⟩ := exists_share_merged merged.verified
  obtain ⟨rest, code_eq, sublist, lengths⟩ := merged.code
  rw [List.nil_append] at code_eq
  subst code_eq
  have body_eq := body_eq_code verified.live
  have shared_body_eq := body_eq_code merged.verified.live
  have nothing := merged_again.idle merged.distinct
  rw [nothing, merged_again.unchanged nothing] at shares_again
  refine ⟨count, shared, rename, shares, ?_, ?_, sublist,
    fun id live unlisted => merged.strays id ⟨live, unlisted⟩,
    fun left left_mem right right_mem => merged.sameComputation_eq_false left_mem right_mem,
    shares_again, merged.merged⟩
  · rw [body_eq, shared_body_eq]
    have ids := sublist.map Operation.id
    rwa [List.map_map] at ids
  · rw [body_eq, shared_body_eq, List.length_map, List.length_map, lengths]

theorem share_misses_nothing_addingEqualRows :
    addingEqualRows.verify = .ok () ∧ ∃ shared, Edit.share addingEqualRows = .ok 1 shared ∧
      shared.body.length = 4 ∧ Edit.share shared = .ok 0 shared := by
  have accepted : addingEqualRows.verify = .ok () := by rfl
  obtain ⟨count, shared, rename, shares, -, lengths, -, -, -, again, -⟩ :=
    share_misses_nothing accepted
  have counted : (Edit.share.outcome addingEqualRows).2.toOption = some 1 := by decide +kernel
  obtain ⟨rfl, -⟩ := EStateM.Result.ok.inj (shares.symm.trans (Edit.eq_ok_of_outcome counted))
  exact ⟨accepted, shared, shares, Nat.succ.inj lengths, again⟩

end Function

end Dataflow

end TensorLang
