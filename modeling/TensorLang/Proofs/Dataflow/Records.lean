import TensorLang.Proofs.Dataflow.Editing
import TensorLang.Proofs.Dataflow.Verified

/-!
# Edits keep the records

Every edit that succeeds keeps the definitions of values and the use lists in step with the
operations, wherever it edits.  Use lists are compared by how often each user stands in them: an
insertion adds the reads of the new operation, a replacement moves those of one value to another,
and an erasure takes back those of the erased operation.
-/

namespace TensorLang

namespace Dataflow

namespace Function

variable {function changed : Function}

theorem Recorded.embodied (recorded : function.Recorded) : function.Embodied where
  live := recorded.live
  nodup := recorded.nodup
  recorded := fun operation member _ reads =>
    (recorded.users _).mem_iff.mpr (mem_readers_iff.mpr ⟨operation, member, reads, rfl⟩)

/-! ### How often a value is read -/

/-- An operation stands among the readers of a value as often as it reads the value. -/
theorem count_readers {code : List Operation} (nodup : (code.map Operation.id).Nodup)
    {operation : Operation} (member : operation ∈ code) (value : ValueId) :
    (readers code value).count operation.id = operation.operands.count value := by
  obtain ⟨front, back, rfl⟩ := List.append_of_mem member
  rw [List.map_append, List.map_cons, List.nodup_append] at nodup
  have front_apart : operation.id ∉ readers front value := by
    intro reads
    obtain ⟨other, other_mem, -, same⟩ := mem_readers_iff.mp reads
    exact nodup.2.2 other.id (List.mem_map_of_mem other_mem) operation.id List.mem_cons_self same
  have back_apart : operation.id ∉ readers back value := by
    intro reads
    obtain ⟨other, other_mem, -, same⟩ := mem_readers_iff.mp reads
    exact (List.nodup_cons.mp nodup.2.1).1 (List.mem_map.mpr ⟨other, other_mem, same⟩)
  rw [readers_append, List.count_append, List.count_eq_zero.mpr front_apart, readers,
    List.flatMap_cons, List.count_append, List.count_replicate_self, ← readers,
    List.count_eq_zero.mpr back_apart]
  omega

private theorem count_readers_of_notMem {code : List Operation} {user : OperationId}
    (absent : user ∉ code.map Operation.id) (value : ValueId) :
    (readers code value).count user = 0 := by
  refine List.count_eq_zero.mpr fun reads => absent ?_
  obtain ⟨operation, member, -, rfl⟩ := mem_readers_iff.mp reads
  exact List.mem_map_of_mem member

/-- Use lists hold the users just if they hold each as often as it reads. -/
theorem perm_readers_iff {code : List Operation} (nodup : (code.map Operation.id).Nodup)
    {users : List OperationId} {value : ValueId} :
    users.Perm (readers code value) ↔
      (∀ operation ∈ code, users.count operation.id = operation.operands.count value) ∧
        ∀ user ∈ users, user ∈ code.map Operation.id := by
  constructor
  · intro same
    refine ⟨fun operation member => ?_, fun user member => ?_⟩
    · rw [same.count_eq, count_readers nodup member]
    · obtain ⟨operation, operation_mem, -, rfl⟩ := mem_readers_iff.mp (same.mem_iff.mp member)
      exact List.mem_map_of_mem operation_mem
  · rintro ⟨counts, known⟩
    refine List.perm_iff_count.mpr fun user => ?_
    by_cases member : user ∈ code.map Operation.id
    · obtain ⟨operation, operation_mem, rfl⟩ := List.mem_map.mp member
      rw [counts operation operation_mem, count_readers nodup operation_mem]
    · rw [count_readers_of_notMem member]
      exact List.count_eq_zero.mpr fun listed => member (known user listed)

/-! ### Insertions -/

theorem definition?_congr {id : ValueId}
    (same : changed.values.get? id = function.values.get? id) :
    changed.definition? id = function.definition? id := by
  rw [definition?, definition?, same]

/-- A new operation is recorded. -/
theorem Recorded.insert (recorded : function.Recorded) {front back : List Operation}
    (code_eq : function.code = front ++ back) {kind : OperationKind} {operands : List ValueId}
    {types : List TensorType} {location : Location}
    (changed_eq : changed = { (function.addOperation kind operands types location).1 with
      body := front.map Operation.id ++ function.operations.nextId :: back.map Operation.id }) :
    changed.Recorded := by
  obtain ⟨embodied, changed_code, extended, -⟩ := recorded.embodied.insert code_eq changed_eq
  have kept : ∀ {id definition}, function.definition? id = some definition →
      changed.definition? id = some definition := by
    intro id definition found
    rw [definition?_congr (extended.values id (lt_size_of_definition? found)), found]
  refine ⟨embodied.live, embodied.nodup, fun position argument found => ?_, ?_, fun value => ?_⟩
  · rw [extended.arguments] at found
    exact kept (recorded.argumentsDefined position argument found)
  · intro operation member position result found
    rw [changed_code, List.mem_append, List.mem_cons] at member
    by_cases new : operation = function.nextOperation kind operands types.length location
    · subst new
      have inside := (List.getElem?_eq_some_iff.mp found).1
      have count : position < types.length := by
        simpa [nextOperation, freshValues] using inside
      obtain rfl : result = ⟨function.values.size + position⟩ := by
        simpa [nextOperation, freshValues, List.getElem?_map, List.getElem?_range' count] using
          found.symm
      have value_eq := function.get?_addOperation kind operands types location
        (List.getElem?_eq_getElem count)
      rw [changed_eq, definition?]
      exact congrArg (Option.map Value.definition) value_eq
    · refine kept (recorded.resultsDefined operation ?_ position result found)
      rw [code_eq, List.mem_append]
      exact member.imp_right fun later => later.resolve_left new
  · have users_eq : changed.usersOf value = function.usersOf value ++
        List.replicate (operands.count value) function.operations.nextId := by
      rw [changed_eq]
      exact of_addAll function.uses operands function.operations.nextId value
    have readers_eq : readers changed.code value = readers front value ++
        (List.replicate (operands.count value) function.operations.nextId ++
          readers back value) := by
      rw [changed_code, readers_append]
      rfl
    have users := recorded.users value
    rw [code_eq, readers_append] at users
    rw [users_eq, readers_eq]
    refine (users.append_right _).trans ?_
    rw [List.append_assoc]
    exact List.perm_append_comm.append_left _

/-! ### Replacements -/

section Redirecting

variable {replaced replacement : ValueId}

private theorem of_addUsers (uses : UseLists) (users : List OperationId) (target value : ValueId) :
    (users.foldl (fun uses user => uses.add target user) uses).of value =
      if value = target then uses.of value ++ users else uses.of value := by
  induction users generalizing uses with
  | nil => simp
  | cons user rest induction =>
      rw [List.foldl_cons, induction, UseLists.of_add]
      by_cases same : value = target
      · subst same
        simp
      · rw [if_neg same, if_neg same, if_neg same]

/-- How often a live operation reads a value. -/
def readings (function : Function) (value : ValueId) (user : OperationId) : Nat :=
  (function.operation? user).elim 0 fun operation => operation.operands.count value

private theorem usersOf_redirectUser (function : Function) (user : OperationId) (value : ValueId) :
    (redirectUser replaced replacement function user).usersOf value =
      if value = replacement then
        function.usersOf value ++ List.replicate (function.readings replaced user) user
      else function.usersOf value := by
  rw [redirectUser]
  split
  · rename_i missing
    rw [readings, missing, Option.elim_none, List.replicate_zero, List.append_nil, ite_self]
  · rename_i operation found
    have reads : function.readings replaced user = operation.operands.count replaced := by
      rw [readings, found, Option.elim_some]
    rw [reads]
    exact of_addUsers _ _ _ _

theorem count_redirect (apart : replaced ≠ replacement) (operands : List ValueId)
    (value : ValueId) :
    (operands.map (redirect replaced replacement)).count value =
      if value = replaced then 0
      else if value = replacement then operands.count replacement + operands.count replaced
      else operands.count value := by
  induction operands with
  | nil => simp
  | cons operand rest induction =>
      rw [List.map_cons, List.count_cons, induction, List.count_cons, List.count_cons,
        List.count_cons, redirect]
      simp only [beq_iff_eq]
      by_cases first : value = replaced
      · subst first
        by_cases same : operand = value
        · simp [same, Ne.symm apart]
        · simp [same]
      · by_cases second : value = replacement
        · subst second
          by_cases same : operand = replaced
          · subst same
            simp [apart, first]
            omega
          · simp [same, first]
            omega
        · by_cases same : operand = replaced
          · simp [same, first, second, Ne.symm first, Ne.symm second]
          · simp [same, first, second]

private theorem readings_redirectUser (apart : replaced ≠ replacement) (function : Function)
    (user other : OperationId) :
    (redirectUser replaced replacement function user).readings replaced other =
      if other = user then 0 else function.readings replaced other := by
  rw [readings, operation?_redirectUser]
  split
  · cases function.operation? other with
    | none => rfl
    | some operation =>
        rw [Option.map_some, Option.elim_some]
        exact (count_redirect apart _ _).trans (if_pos rfl)
  · rfl

/-- The reads of the replaced value become reads of the replacement. -/
theorem count_usersOf_redirectAll (apart : replaced ≠ replacement) (users : List OperationId)
    (function : Function) (value : ValueId) (user : OperationId) :
    ((users.foldl (redirectUser replaced replacement) function).usersOf value).count user =
      (function.usersOf value).count user +
        if value = replacement ∧ user ∈ users then function.readings replaced user else 0 := by
  induction users generalizing function with
  | nil => simp
  | cons first rest induction =>
      rw [List.foldl_cons, induction, usersOf_redirectUser, readings_redirectUser apart]
      by_cases target : value = replacement
      · by_cases same : user = first
        · subst same
          simp [target]
        · simp [target, same, List.count_replicate, Ne.symm same]
      · simp [target]

/-- Replacing keeps the records. -/
theorem Recorded.redirectUsers (recorded : function.Recorded) (replaced replacement : ValueId) :
    (function.redirectUsers replaced replacement).Recorded := by
  obtain ⟨embodied, changed_code⟩ := recorded.embodied.redirectUsers replaced replacement
  obtain ⟨extension, -, values_eq⟩ := redirectUsers_keeps function replaced replacement
  refine ⟨embodied.live, embodied.nodup, fun position argument found => ?_, ?_, fun value => ?_⟩
  · rw [extension.arguments] at found
    exact (definition?_congr (by rw [values_eq])).trans
      (recorded.argumentsDefined position argument found)
  · intro operation member position result found
    rw [changed_code] at member
    obtain ⟨before, before_mem, rfl⟩ := List.mem_map.mp member
    exact (definition?_congr (by rw [values_eq])).trans
      (recorded.resultsDefined before before_mem position result found)
  · by_cases same : replaced = replacement
    · subst same
      rw [Function.redirectUsers, if_pos rfl]
      exact recorded.users value
    have ids : (function.code.map (Operation.redirected replaced replacement)).map Operation.id =
        function.code.map Operation.id := by
      rw [List.map_map]
      rfl
    obtain ⟨counts, known⟩ := (perm_readers_iff recorded.nodup_ids).mp (recorded.users value)
    obtain ⟨replaced_counts, replaced_known⟩ :=
      (perm_readers_iff recorded.nodup_ids).mp (recorded.users replaced)
    have cleared : ∀ user,
        (({ function with uses := function.uses.clear replaced } : Function).usersOf value).count
          user = if value = replaced then 0 else (function.usersOf value).count user := by
      intro user
      rw [usersOf, UseLists.of_clear]
      split
      · rfl
      · rfl
    rw [changed_code, perm_readers_iff (ids ▸ recorded.nodup_ids), Function.redirectUsers,
      if_neg same]
    refine ⟨fun operation member => ?_, fun user member => ?_⟩
    · obtain ⟨before, before_mem, rfl⟩ := List.mem_map.mp member
      change List.count before.id _ =
        (before.operands.map (redirect replaced replacement)).count value
      rw [count_usersOf_redirectAll same, cleared, count_redirect same]
      have reads : ({ function with uses := function.uses.clear replaced } : Function).readings
          replaced before.id = before.operands.count replaced := by
        rw [readings]
        change Option.elim (function.operation? before.id) 0 _ = _
        rw [recorded.operation?_of_mem before_mem, Option.elim_some]
      have listed_iff : before.id ∈ (function.usersOf replaced).eraseDups ↔
          0 < before.operands.count replaced := by
        rw [List.mem_eraseDups, ← List.count_pos_iff, replaced_counts before before_mem]
      simp only [reads, listed_iff, counts before before_mem]
      by_cases first : value = replaced
      · subst first
        simp [same]
      · by_cases second : value = replacement
        · subst second
          simp only [if_neg first, true_and, if_true]
          split <;> omega
        · simp [first, second]
    · rw [ids]
      have positive := List.count_pos_iff.mpr member
      rw [count_usersOf_redirectAll same, cleared] at positive
      by_cases listed : value = replacement ∧ user ∈ (function.usersOf replaced).eraseDups
      · exact replaced_known user (List.mem_eraseDups.mp listed.2)
      · rw [if_neg listed] at positive
        refine known user (List.count_pos_iff.mp ?_)
        split at positive
        · omega
        · exact positive

end Redirecting

/-! ### Erasures -/

private theorem removeSwap_perm (user : OperationId) (users : List OperationId) :
    (UseLists.removeSwap user users).Perm (users.erase user) := by
  by_cases member : user ∈ users
  · obtain ⟨front, back, rfl, fresh⟩ := List.eq_append_cons_of_mem member
    have position_eq : (front ++ user :: back).idxOf? user = some front.length := by
      rw [List.idxOf?_eq_some_iff]
      refine ⟨by simp, by simp, fun place before same => fresh ?_⟩
      rw [List.getElem_append_left before] at same
      exact same ▸ List.getElem_mem before
    rw [UseLists.removeSwap, position_eq, List.erase_append_right _ fresh, List.erase_cons_head]
    rcases List.eq_nil_or_concat back with rfl | ⟨others, last, rfl⟩
    · simp
    · have moved : (front ++ user :: (others ++ [last])).set front.length last =
          (front ++ last :: others) ++ [last] := by simp
      have last_eq : (front ++ user :: (others ++ [last])).getLast? = some last := by
        simp [List.getLast?_cons]
      rw [List.concat_eq_append, last_eq]
      simp only [moved, List.dropLast_concat]
      exact List.Perm.append_left front (List.perm_append_singleton last others).symm
  · rw [UseLists.removeSwap, List.idxOf?_eq_none_iff.mpr member, List.erase_of_not_mem member]

private theorem count_removeAll (uses : UseLists) (operands : List ValueId)
    (user other : OperationId) (value : ValueId) :
    ((operands.foldl (fun uses operand => uses.remove operand user) uses).of value).count other =
      (uses.of value).count other - if other = user then operands.count value else 0 := by
  induction operands generalizing uses with
  | nil => simp
  | cons operand rest induction =>
      rw [List.foldl_cons, induction, UseLists.of_remove, List.count_cons]
      by_cases same : value = operand
      · subst same
        rw [if_pos rfl, (removeSwap_perm user _).count_eq, List.count_erase]
        by_cases mine : other = user
        · subst mine
          simp only [beq_self_eq_true, if_true]
          omega
        · simp [mine, Ne.symm mine]
      · rw [if_neg same]
        simp [Ne.symm same]

private theorem of_clearAll_of_mem {uses : UseLists} {results : List ValueId} {value : ValueId}
    (cleared : value ∈ results) : (results.foldl UseLists.clear uses).of value = [] := by
  induction results generalizing uses with
  | nil => cases cleared
  | cons result rest induction =>
      rw [List.foldl_cons]
      by_cases later : value ∈ rest
      · exact induction later
      · rw [of_clearAll later, UseLists.of_clear,
          if_pos ((List.mem_cons.mp cleared).resolve_right later)]

/-- Erasing keeps the records. -/
theorem Recorded.removeOperation (recorded : function.Recorded) {operation : Operation}
    (member : operation ∈ function.code) (unused : function.resultUses operation = 0) :
    (function.removeOperation operation).Recorded := by
  obtain ⟨front, back, code_eq⟩ := List.append_of_mem member
  obtain ⟨embodied, changed_code⟩ := recorded.embodied.removeOperation code_eq unused
  have moved : function.code.Perm (operation :: (front ++ back)) := by
    rw [code_eq]
    exact List.perm_middle
  have nodup := recorded.nodup_ids
  rw [(moved.map _).nodup_iff, List.map_cons, List.nodup_cons] at nodup
  refine ⟨embodied.live, embodied.nodup, recorded.argumentsDefined, ?_, fun value => ?_⟩
  · intro other other_mem position result found
    rw [changed_code] at other_mem
    exact recorded.resultsDefined other (moved.mem_iff.mpr (List.mem_cons_of_mem _ other_mem))
      position result found
  · obtain ⟨counts, known⟩ := (perm_readers_iff recorded.nodup_ids).mp (recorded.users value)
    rw [changed_code, perm_readers_iff nodup.2]
    by_cases defined : value ∈ operation.results
    · have none_before : function.usersOf value = [] :=
        List.flatMap_eq_nil_iff.mp (List.length_eq_zero_iff.mp unused) value defined
      have none_after : (function.removeOperation operation).usersOf value = [] :=
        of_clearAll_of_mem defined
      rw [none_after]
      refine ⟨fun other other_mem => ?_, fun _ absurd => by cases absurd⟩
      rw [← counts other (moved.mem_iff.mpr (List.mem_cons_of_mem _ other_mem)), none_before]
    · have counts_after : ∀ user, ((function.removeOperation operation).usersOf value).count user =
          (function.usersOf value).count user -
            if user = operation.id then operation.operands.count value else 0 := by
        intro user
        rw [usersOf, Function.removeOperation, of_clearAll defined, count_removeAll]
        rfl
      refine ⟨fun other other_mem => ?_, fun user user_mem => ?_⟩
      · have apart : other.id ≠ operation.id := fun same =>
          nodup.1 (same ▸ List.mem_map_of_mem other_mem)
        rw [counts_after, if_neg apart, Nat.sub_zero]
        exact counts other (moved.mem_iff.mpr (List.mem_cons_of_mem _ other_mem))
      · have positive := List.count_pos_iff.mpr user_mem
        rw [counts_after] at positive
        have listed := known user (List.count_pos_iff.mp (by omega))
        rw [(moved.map Operation.id).mem_iff, List.map_cons, List.mem_cons] at listed
        refine listed.resolve_left fun same => ?_
        rw [same, if_pos rfl, counts operation member] at positive
        omega

end Function

/-! ### Edits -/

namespace Edit

variable {function changed : Function}

/-- An insertion that succeeds keeps the records. -/
theorem insertBefore_recorded {anchor : OperationId} {kind : OperationKind}
    {operands : List ValueId} {types : List TensorType} {location : Location} {id : OperationId}
    (recorded : function.Recorded)
    (success : insertBefore anchor kind operands types location function = .ok id changed) :
    changed.Recorded := by
  obtain ⟨position, found, -⟩ := insertBefore_eq_ok_iff.mp success
  have member : anchor ∈ function.body := List.mem_of_getElem? (by
    obtain ⟨inside, anchor_eq, -⟩ := List.idxOf?_eq_some_iff.mp found
    rw [List.getElem?_eq_getElem inside, anchor_eq])
  rw [Function.body_eq_code recorded.live] at member
  obtain ⟨operation, operation_mem, rfl⟩ := List.mem_map.mp member
  obtain ⟨front, back, code_eq⟩ := List.append_of_mem operation_mem
  exact recorded.insert code_eq (recorded.embodied.insertBefore_eq code_eq success).2.2

/-- A new operation at the end keeps the records. -/
theorem append_recorded {kind : OperationKind} {operands : List ValueId}
    {types : List TensorType} {location : Location} {id : OperationId}
    (recorded : function.Recorded)
    (success : append kind operands types location function = .ok id changed) :
    changed.Recorded := by
  obtain ⟨-, rfl, changed_eq⟩ := append_eq_ok_iff.mp success
  rw [Function.body_eq_code recorded.live] at changed_eq
  exact recorded.insert (List.append_nil _).symm changed_eq

/-- A replacement that succeeds keeps the records. -/
theorem replaceUses_recorded {replaced replacement : ValueId} {result : Unit}
    (recorded : function.Recorded)
    (success : replaceUses replaced replacement function = .ok result changed) :
    changed.Recorded := by
  rw [← replaceUses_eq_ok success]
  exact recorded.redirectUsers replaced replacement

/-- An erasure from the body that succeeds keeps the records. -/
theorem erase_recorded {operation : Operation} {result : Unit} (recorded : function.Recorded)
    (member : operation ∈ function.code)
    (success : erase operation.id function = .ok result changed) : changed.Recorded := by
  obtain ⟨known, found, unused, rfl⟩ := erase_eq_ok success
  obtain rfl := Option.some.inj ((recorded.operation?_of_mem member).symm.trans found)
  exact recorded.removeOperation member unused

end Edit

end Dataflow

end TensorLang
