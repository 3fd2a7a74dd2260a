import TensorLang.Proofs.Dataflow.Records

/-!
# Replaced operations

An operation without effects may go once something else is read in place of its only result: a value
that is available where it stands, or the result of an operation that is made there.  The edits that
do this succeed on a verified function, and what they leave is verified again.
-/

namespace TensorLang

namespace Dataflow

namespace Function

variable {function changed : Function} {id : OperationId}

/-! ### Live operations outside of the body -/

/-- The operation is live, though the body does not list it. -/
def Stray (function : Function) (id : OperationId) : Prop :=
  (function.operation? id).isSome = true ∧ id ∉ function.body

theorem not_stray_of_mem (member : id ∈ function.body) : ¬ function.Stray id :=
  fun stray => stray.2 member

theorem Recorded.not_stray (recorded : function.Recorded) {operation : Operation}
    (member : operation ∈ function.code) : ¬ function.Stray operation.id := by
  refine not_stray_of_mem ?_
  rw [body_eq_code recorded.live]
  exact List.mem_map_of_mem member

theorem Recorded.stray_of_insertBefore (recorded : function.Recorded)
    {front back : List Operation} {anchor : Operation}
    (code_eq : function.code = front ++ anchor :: back) {kind : OperationKind}
    {operands : List ValueId} {types : List TensorType} {location : Location} {new : OperationId}
    (success : Edit.insertBefore anchor.id kind operands types location function =
      .ok new changed) (stray : changed.Stray id) : function.Stray id := by
  obtain ⟨-, -, changed_eq⟩ := recorded.embodied.insertBefore_eq code_eq success
  rw [changed_eq] at stray
  obtain ⟨live, unlisted⟩ := stray
  rw [List.mem_append, List.mem_cons, not_or, not_or] at unlisted
  have live := (congrArg Option.isSome
    (operation?_addOperation kind operands types location id)).symm.trans live
  rw [if_neg unlisted.2.1] at live
  refine ⟨live, fun listed => ?_⟩
  rw [body_eq_code recorded.live, code_eq, List.map_append, List.mem_append] at listed
  exact listed.elim unlisted.1 unlisted.2.2

theorem isSome_operation?_redirectUsers (replaced replacement : ValueId) :
    ((function.redirectUsers replaced replacement).operation? id).isSome =
      (function.operation? id).isSome := by
  rw [redirectUsers]
  split
  · rfl
  · rename_i apart
    rw [operation?_redirectAll _ apart]
    split
    · rw [Option.isSome_map]
      rfl
    · rfl

theorem stray_of_replaceUses {replaced replacement : ValueId} {result : Unit}
    (success : Edit.replaceUses replaced replacement function = .ok result changed)
    (stray : changed.Stray id) : function.Stray id := by
  obtain rfl := Edit.replaceUses_eq_ok success
  rwa [Stray, isSome_operation?_redirectUsers,
    (redirectUsers_keeps function replaced replacement).2.1] at stray

theorem stray_of_erase {erased : OperationId} {result : Unit}
    (success : Edit.erase erased function = .ok result changed) (stray : changed.Stray id) :
    function.Stray id := by
  obtain ⟨operation, -, -, rfl⟩ := Edit.erase_eq_ok success
  obtain ⟨live, unlisted⟩ := stray
  rw [operation?_removeOperation] at live
  split at live
  · cases live
  · rename_i apart
    exact ⟨live, fun listed => unlisted ((List.mem_erase_of_ne apart).mpr listed)⟩

/-! ### Edits of verified functions -/

variable {front back : List Operation} {operation : Operation}

theorem Recorded.idxOf?_isSome (recorded : function.Recorded)
    (member : operation ∈ function.code) :
    ∃ position, function.body.idxOf? operation.id = some position := by
  refine Option.ne_none_iff_exists'.mp fun missing => ?_
  refine List.idxOf?_eq_none_iff.mp missing ?_
  rw [body_eq_code recorded.live]
  exact List.mem_map_of_mem member

/-- An operation may be made wherever its operands are available. -/
theorem Verified.exists_insertBefore (verified : function.Verified)
    (code_eq : function.code = front ++ operation :: back) {kind : OperationKind}
    {operands : List ValueId} (types : List TensorType) (location : Location)
    (usable : ∀ operand ∈ operands, operand ∈ function.availableAfter front)
    (stays : kind.isLeave = false) :
    ∃ changed, Edit.insertBefore operation.id kind operands types location function =
        .ok function.operations.nextId changed ∧
      changed.Verified ∧
      changed.code =
        front ++ function.nextOperation kind operands types.length location :: operation :: back ∧
      Extends function changed ∧
      (∀ (position : Nat) type, types[position]? = some type →
        changed.typeOf ⟨function.values.size + position⟩ = .ok type) ∧
      changed.values.size = function.values.size + types.length ∧
      ∀ id, changed.Stray id → function.Stray id := by
  have member : operation ∈ function.code := by simp [code_eq]
  obtain ⟨position, found⟩ := verified.toRecorded.idxOf?_isSome member
  have known : function.hasValues types.length operands = true := by
    rw [hasValues, List.all_eq_true]
    intro operand reads
    have inside := verified.wellFormed.known operand (by
      rw [code_eq, availableAfter, List.flatMap_append, ← List.append_assoc]
      exact List.mem_append_left _ (usable operand reads))
    exact decide_eq_true (Nat.lt_add_right _ inside)
  obtain ⟨changed, success⟩ : ∃ changed,
      Edit.insertBefore operation.id kind operands types location function =
        .ok function.operations.nextId changed :=
    ⟨_, Edit.insertBefore_eq_ok_iff.mpr ⟨position, found, known, rfl, rfl⟩⟩
  obtain ⟨linked, changed_code, extension, -⟩ :=
    verified.wellFormed.toLinked.insertBefore code_eq usable success
  obtain ⟨-, -, -, -, size_eq, -, types_eq⟩ :=
    verified.wellFormed.toListed.insertBefore code_eq success
  refine ⟨changed, success,
    ⟨Edit.insertBefore_recorded verified.toRecorded success, linked.dominated,
    ?_, ?_⟩, changed_code, extension, types_eq, size_eq,
    fun id => verified.toRecorded.stray_of_insertBefore code_eq success⟩
  · have ending := verified.ending
    rw [code_eq, ending_append_iff (List.cons_ne_nil _ _)] at ending
    rw [changed_code, List.append_cons, ending_append_iff (List.cons_ne_nil _ _)]
    refine ⟨fun other other_mem => ?_, ending.2⟩
    rcases List.mem_append.mp other_mem with old | new
    · exact ending.1 other old
    · rw [List.mem_singleton.mp new]
      exact stays
  · intro other other_mem leaves
    rw [changed_code, List.mem_append, List.mem_cons] at other_mem
    rw [extension.resultTypes]
    rcases other_mem with earlier | rfl | later
    · exact verified.returns other (by simp [code_eq, earlier]) leaves
    · cases stays.symm.trans leaves
    · exact verified.returns other (by rw [code_eq]; exact List.mem_append_right _ later) leaves

/-- All users are live. -/
theorem Recorded.isSome_of_uses (recorded : function.Recorded) {value : ValueId}
    {user : OperationId} (uses : user ∈ function.usersOf value) :
    (function.operation? user).isSome = true := by
  obtain ⟨reader, reader_mem, -, rfl⟩ :=
    mem_readers_iff.mp ((recorded.users value).mem_iff.mp uses)
  rw [recorded.operation?_of_mem reader_mem]
  rfl

/-- A value whose users are live may be replaced by any other. -/
theorem replaceUses_of_live {replaced replacement : ValueId}
    (live : ∀ user ∈ function.usersOf replaced, (function.operation? user).isSome = true) :
    Edit.replaceUses replaced replacement function =
      .ok () (function.redirectUsers replaced replacement) := by
  refine EStateM.bind_eq_ok_iff.mpr ⟨(), function, Edit.require_eq_ok_iff.mpr ⟨?_, rfl⟩, rfl⟩
  rw [Bool.or_eq_true, List.all_eq_true]
  exact .inr live

theorem Recorded.replaceUses_eq (recorded : function.Recorded) (replaced replacement : ValueId) :
    Edit.replaceUses replaced replacement function =
      .ok () (function.redirectUsers replaced replacement) :=
  replaceUses_of_live fun _ uses => recorded.isSome_of_uses uses

/-- A value may be read instead of another where the order allows it. -/
theorem Verified.exists_replaceUses (verified : function.Verified) (replaced replacement : ValueId)
    (dominated : Dominated function.arguments
      (function.code.map (Operation.redirected replaced replacement))) :
    ∃ changed, Edit.replaceUses replaced replacement function = .ok () changed ∧
      changed.Verified ∧
      changed.code = function.code.map (Operation.redirected replaced replacement) ∧
      Extends function changed ∧ changed.values = function.values ∧
      ∀ id, changed.Stray id → function.Stray id := by
  have success := verified.toRecorded.replaceUses_eq replaced replacement
  obtain ⟨extension, -, values_eq⟩ := redirectUsers_keeps function replaced replacement
  obtain ⟨-, changed_code⟩ := verified.toRecorded.embodied.redirectUsers replaced replacement
  refine ⟨_, success, ⟨Edit.replaceUses_recorded verified.toRecorded success, ?_, ?_, ?_⟩,
    changed_code, extension, values_eq, fun id => stray_of_replaceUses success⟩
  · rw [changed_code, extension.arguments]
    exact dominated
  · refine verified.ending.of_kinds ?_
    rw [changed_code, List.map_map]
    rfl
  · rw [changed_code, extension.resultTypes]
    intro other other_mem leaves
    obtain ⟨before, before_mem, rfl⟩ := List.mem_map.mp other_mem
    exact (List.length_map _).trans (verified.returns before before_mem leaves)

/-- An operation may go when nothing reads its results. -/
theorem Verified.exists_erase (verified : function.Verified)
    (code_eq : function.code = front ++ operation :: back) (stays : operation.kind.isLeave = false)
    (unread : ∀ reader ∈ function.code, ∀ operand ∈ reader.operands,
      operand ∉ operation.results) :
    ∃ changed, Edit.erase operation.id function = .ok () changed ∧
      changed.Verified ∧ changed.code = front ++ back ∧
      Extends function changed ∧ changed.values = function.values ∧
      ∀ id, changed.Stray id → function.Stray id := by
  have member : operation ∈ function.code := by simp [code_eq]
  have found := verified.toRecorded.operation?_of_mem member
  have unused : function.resultUses operation = 0 := by
    rw [resultUses, List.length_eq_zero_iff, List.flatMap_eq_nil_iff]
    intro result defines
    refine List.eq_nil_iff_forall_not_mem.mpr fun user uses => ?_
    obtain ⟨reader, reader_mem, reads, -⟩ :=
      mem_readers_iff.mp ((verified.users result).mem_iff.mp uses)
    exact unread reader reader_mem result reads defines
  have success : Edit.erase operation.id function =
      .ok () (function.removeOperation operation) := by
    simp only [Edit.erase, EStateM.bind_eq_ok_iff, Edit.query_eq_ok_iff]
    refine ⟨operation, function, ⟨Outcome.promised_eq_ok_iff.mpr found, rfl⟩, 0, function,
      ⟨by rw [unused], rfl⟩, rfl⟩
  obtain ⟨linked, changed_code, extension, values_eq, -⟩ :=
    verified.wellFormed.toLinked.erase code_eq success
  refine ⟨_, success, ⟨Edit.erase_recorded verified.toRecorded member success, linked.dominated,
    ?_, ?_⟩, changed_code, extension, values_eq, fun id => stray_of_erase success⟩
  · have ending := verified.ending
    rw [code_eq, ending_append_iff (List.cons_ne_nil _ _)] at ending
    rw [changed_code]
    cases back with
    | nil =>
        rw [show Ending [operation] = (operation.kind.isLeave = true) from rfl, stays] at ending
        cases ending.2
    | cons next rest => exact (ending_append_iff (List.cons_ne_nil _ _)).mpr ⟨ending.1, ending.2.2⟩
  · rw [changed_code, extension.resultTypes]
    intro other other_mem
    refine verified.returns other ?_
    rw [code_eq]
    exact (List.mem_append.mp other_mem).elim (List.mem_append_left _)
      fun later => List.mem_append_right _ (List.mem_cons_of_mem _ later)

/-! ### Replacing an operation -/

/-- An operation of the body that does nothing but define one value. -/
structure Spot (function : Function) where
  /-- The operations before it. -/
  front : List Operation
  /-- The operation. -/
  operation : Operation
  /-- The operations after it. -/
  back : List Operation
  /-- Its only result. -/
  result : ValueId
  /-- The operation stands between the others. -/
  code_eq : function.code = front ++ operation :: back
  /-- There is no other result. -/
  results_eq : operation.results = [result]
  /-- There are no effects. -/
  pure : operation.kind.hasEffects = false

end Function

/-- What is read in place of a result. -/
inductive Replacement where
  /-- A value that is there already. -/
  | value (id : ValueId)
  /-- The result of a new operation. -/
  | made (kind : OperationKind) (operands : List ValueId) (type : TensorType)

namespace Replacement

/-- The value that is read. -/
def target (function : Function) : Replacement → ValueId
  | value id => id
  | made _ _ _ => ⟨function.values.size⟩

theorem target_value (function : Function) (id : ValueId) : (value id).target function = id := rfl

theorem target_made (function : Function) (kind : OperationKind) (operands : List ValueId)
    (type : TensorType) : (made kind operands type).target function = ⟨function.values.size⟩ := rfl

/-- The operations that are made for it. -/
def operations (function : Function) (location : Location) : Replacement → List Operation
  | value _ => []
  | made kind operands _ => [function.nextOperation kind operands 1 location]

end Replacement

theorem OperationKind.resultCount_of_hasEffects {kind : OperationKind}
    (pure : kind.hasEffects = false) : kind.resultCount = 1 := by
  cases kind <;> first | rfl | cases pure

theorem OperationKind.isLeave_of_hasEffects {kind : OperationKind}
    (pure : kind.hasEffects = false) : kind.isLeave = false := by
  cases kind <;> first | rfl | cases pure

namespace Function

/-- The operation is gone, and its users read the replacement. -/
structure Spot.Replaced {function : Function} (spot : function.Spot) (replacement : Replacement)
    (changed : Function) : Prop where
  /-- The other operations stay where they are. -/
  code_eq : changed.code =
    spot.front ++ replacement.operations function spot.operation.location ++
      spot.back.map (Operation.redirected spot.result (replacement.target function))
  /-- The changed function is in order. -/
  verified : changed.Verified
  /-- The signature and the values stay. -/
  extension : Extends function changed
  /-- A new value has the type that was asked for. -/
  type : ∀ kind operands type, replacement = .made kind operands type →
    changed.typeOf ⟨function.values.size⟩ = .ok type
  /-- No operation gets lost. -/
  strays : ∀ id, changed.Stray id → function.Stray id

namespace Spot

variable {function changed : Function}

/-- An operation without effects may be replaced where it stands. -/
theorem exists_of_code (proper : function.Proper) {front back : List Operation}
    {operation : Operation} (code_eq : function.code = front ++ operation :: back)
    (pure : operation.kind.hasEffects = false) :
    ∃ spot : function.Spot, spot.front = front ∧ spot.operation = operation ∧ spot.back = back := by
  obtain ⟨result, results_eq⟩ := List.length_eq_one_iff.mp
    ((proper operation (by simp [code_eq])).results.trans
      (OperationKind.resultCount_of_hasEffects pure))
  exact ⟨⟨front, operation, back, result, code_eq, results_eq, pure⟩, rfl, rfl, rfl⟩

theorem exists_of_mem (proper : function.Proper) {operation : Operation}
    (member : operation ∈ function.code) (pure : operation.kind.hasEffects = false) :
    ∃ spot : function.Spot, spot.operation = operation := by
  obtain ⟨front, back, code_eq⟩ := List.append_of_mem member
  obtain ⟨spot, -, operation_eq, -⟩ := exists_of_code proper code_eq pure
  exact ⟨spot, operation_eq⟩

variable (spot : function.Spot)

theorem mem_code : spot.operation ∈ function.code := by
  rw [spot.code_eq]
  exact List.mem_append_right _ List.mem_cons_self

theorem front_subset : spot.front ⊆ function.code := by
  rw [spot.code_eq]
  exact List.subset_append_left _ _

theorem back_subset : spot.back ⊆ function.code := by
  rw [spot.code_eq]
  exact fun _ member => List.mem_append_right _ (List.mem_cons_of_mem _ member)

theorem defines : spot.result ∈ spot.operation.results := by
  rw [spot.results_eq]
  exact List.mem_singleton_self _

/-- The result is not available before the operation. -/
theorem result_notMem (verified : function.Verified) :
    spot.result ∉ function.availableAfter spot.front :=
  verified.wellFormed.result_notMem spot.code_eq spot.defines

/-- What is read up to the operation is not its result. -/
theorem unread_front (verified : function.Verified) :
    ∀ reader ∈ spot.front ++ [spot.operation], spot.result ∉ reader.operands := by
  intro reader member reads
  have dominated := Function.dominated_of_code_eq verified.dominated spot.code_eq
  refine spot.result_notMem verified ?_
  rcases List.mem_append.mp member with earlier | same
  · exact dominated.1.operand_mem earlier reads
  · rw [List.mem_singleton.mp same] at reads
    exact dominated.2.1 _ reads

/-- An operation whose result nobody reads can be erased. -/
theorem exists_erase (verified : function.Verified)
    (unread : ∀ reader ∈ function.code, spot.result ∉ reader.operands) :
    ∃ changed, Edit.erase spot.operation.id function = .ok () changed ∧
      spot.Replaced (.value spot.result) changed := by
  obtain ⟨changed, erased, changed_verified, changed_code, extension, -, strays⟩ :=
    verified.exists_erase spot.code_eq (OperationKind.isLeave_of_hasEffects spot.pure)
      fun reader member operand reads defined => by
        rw [spot.results_eq, List.mem_singleton] at defined
        exact unread reader member (defined ▸ reads)
  refine ⟨changed, erased, ?_, changed_verified, extension, nofun, strays⟩
  rw [changed_code, Replacement.operations, List.append_nil, Replacement.target,
    List.map_congr_left fun other _ => Operation.redirected_self _ other, List.map_id']

/-- The users of the result can read another value that is available, and the operation can be
erased then. -/
theorem exists_substitution (verified : function.Verified) {value : ValueId}
    (usable : value ∈ function.availableAfter spot.front) :
    ∃ middle changed, Edit.replaceUses spot.result value function = .ok () middle ∧
      Edit.erase spot.operation.id middle = .ok () changed ∧
      spot.Replaced (.value value) changed := by
  have apart : value ≠ spot.result := fun same => spot.result_notMem verified (same ▸ usable)
  have unchanged : ∀ reader ∈ spot.front ++ [spot.operation],
      reader.redirected spot.result value = reader := fun reader member =>
    Operation.redirected_of_notMem (spot.unread_front verified reader member)
  have redirected_eq : function.code.map (Operation.redirected spot.result value) =
      spot.front ++ spot.operation :: spot.back.map (Operation.redirected spot.result value) := by
    rw [spot.code_eq, List.append_cons, List.map_append, List.map_congr_left unchanged,
      List.map_id', ← List.append_cons]
  have dominated := Function.dominated_of_code_eq verified.dominated spot.code_eq
  obtain ⟨middle, replaced, middle_verified, middle_code, middle_extends, -, middle_strays⟩ :=
    verified.exists_replaceUses spot.result value (by
      rw [redirected_eq, Dominated.append_iff]
      exact ⟨dominated.1, dominated.2.1,
        dominated.2.2.redirected (List.mem_append_left _ usable)⟩)
  have middle_eq := middle_code.trans redirected_eq
  obtain ⟨changed, erased, changed_verified, changed_code, changed_extends, -, changed_strays⟩ :=
    middle_verified.exists_erase middle_eq (OperationKind.isLeave_of_hasEffects spot.pure) (by
      intro reader member operand reads defined
      rw [spot.results_eq, List.mem_singleton] at defined
      subst defined
      rw [middle_code] at member
      obtain ⟨before, -, rfl⟩ := List.mem_map.mp member
      obtain ⟨original, -, same⟩ := List.mem_map.mp reads
      rw [redirect] at same
      split at same
      · exact apart same
      · contradiction)
  refine ⟨middle, changed, replaced, erased, ?_, changed_verified,
    middle_extends.trans changed_extends, ?_,
    fun id stray => middle_strays id (changed_strays id stray)⟩
  · rw [changed_code, Replacement.operations, List.append_nil, Replacement.target]
  · intro _ _ _ made
    cases made

/-- A new operation can be made in front of the operation and take its place. -/
theorem exists_replacement (verified : function.Verified) {kind : OperationKind}
    {operands : List ValueId} {type : TensorType}
    (usable : ∀ operand ∈ operands, operand ∈ function.availableAfter spot.front)
    (stays : kind.isLeave = false) :
    ∃ inserted middle changed,
      Edit.insertBefore spot.operation.id kind operands [type] spot.operation.location function =
        .ok function.operations.nextId inserted ∧
      inserted.operation? function.operations.nextId =
        some (function.nextOperation kind operands 1 spot.operation.location) ∧
      inserted.operation? spot.operation.id = some spot.operation ∧
      Edit.replaceUses spot.result ⟨function.values.size⟩ inserted = .ok () middle ∧
      Edit.erase spot.operation.id middle = .ok () changed ∧
      spot.Replaced (.made kind operands type) changed := by
  obtain ⟨inserted, insertion, inserted_verified, inserted_code, extension, types_eq, size_eq,
    inserted_strays⟩ :=
      verified.exists_insertBefore spot.code_eq [type] spot.operation.location usable stays
  let new := function.nextOperation kind operands 1 spot.operation.location
  let later : inserted.Spot := {
    front := spot.front ++ [new]
    operation := spot.operation
    back := spot.back
    result := spot.result
    code_eq := by rw [inserted_code, List.append_assoc]; rfl
    results_eq := spot.results_eq
    pure := spot.pure }
  have new_mem : new ∈ inserted.code := later.front_subset (by simp [later])
  have available : (⟨function.values.size⟩ : ValueId) ∈ inserted.availableAfter later.front := by
    refine List.mem_append_right _ (List.mem_flatMap.mpr ⟨new, by simp [later], ?_⟩)
    exact List.mem_singleton_self _
  obtain ⟨middle, changed, replaced, erased, done⟩ :=
    later.exists_substitution inserted_verified available
  refine ⟨inserted, middle, changed, insertion,
    inserted_verified.toRecorded.operation?_of_mem new_mem,
    inserted_verified.toRecorded.operation?_of_mem later.mem_code, replaced, erased, ?_,
    done.verified, extension.trans done.extension, ?_,
    fun id stray => inserted_strays id (done.strays id stray)⟩
  · rw [done.code_eq, Replacement.operations, List.append_nil]
    rfl
  · rintro _ _ _ ⟨⟩
    rw [done.extension.typeOf (by rw [size_eq]; exact Nat.lt_succ_self _)]
    exact types_eq 0 type rfl

end Spot

end Function

end Dataflow

end TensorLang
