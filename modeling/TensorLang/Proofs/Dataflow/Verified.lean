import TensorLang.Proofs.Dataflow.WellFormed

/-!
# What verification accepts

Verification accepts a function just if its records are right, every operand is available where it
is read, and the body ends with its only return, of as many values as the signature has.  The
records are the definitions of the values and the use lists; they say nothing about the order of the
body, so every single edit keeps them.
-/

namespace TensorLang

namespace Dataflow

/-- The users that a value has in a list of operations: each once for every time it reads the
value. -/
def readers (code : List Operation) (value : ValueId) : List OperationId :=
  code.flatMap fun operation => List.replicate (operation.operands.count value) operation.id

theorem mem_readers_iff {code : List Operation} {value : ValueId} {user : OperationId} :
    user ∈ readers code value ↔
      ∃ operation ∈ code, value ∈ operation.operands ∧ operation.id = user := by
  simp only [readers, List.mem_flatMap, List.mem_replicate, ne_eq, List.count_eq_zero,
    Decidable.not_not, eq_comm (a := user)]

theorem readers_append (front back : List Operation) (value : ValueId) :
    readers (front ++ back) value = readers front value ++ readers back value :=
  List.flatMap_append

namespace Function

variable {function : Function}

/-- The body, the definitions of values and the use lists say the same as the operations. -/
structure Recorded (function : Function) : Prop where
  /-- The operations of the body are live. -/
  live : ∀ id ∈ function.body, ∃ operation,
    function.operation? id = some operation ∧ operation.id = id
  /-- No operation stands twice in the body. -/
  nodup : function.body.Nodup
  /-- Arguments are defined as such. -/
  argumentsDefined : ∀ (position : Nat) argument, function.arguments[position]? = some argument →
    function.definition? argument = some (.argument position)
  /-- Results are defined by their operations. -/
  resultsDefined : ∀ operation ∈ function.code, ∀ (position : Nat) result,
    operation.results[position]? = some result →
      function.definition? result = some (.result operation.id position)
  /-- The use lists hold the users. -/
  users : ∀ value, (function.usersOf value).Perm (readers function.code value)

/-- What verification asks of a function. -/
structure Verified (function : Function) : Prop extends function.Recorded where
  /-- Operands are defined before they are read. -/
  dominated : Dominated function.arguments function.code
  /-- The body ends with its only return. -/
  ending : Ending function.code
  /-- As many values are returned as the signature has. -/
  returns : ∀ operation ∈ function.code, operation.kind.isLeave = true →
    operation.operands.length = function.resultTypes.length

/-- A function without results returns nothing. -/
theorem Verified.returns_nothing {function : Function} (verified : function.Verified)
    (no_results : function.resultTypes = []) :
    ∀ operation ∈ function.code, operation.kind.isLeave = true → operation.operands = [] :=
  fun operation member leaves => List.length_eq_zero_iff.mp
    ((verified.returns operation member leaves).trans (by rw [no_results]; rfl))

/-! ### Use lists -/

theorem of_addAll (uses : UseLists) (operands : List ValueId) (user : OperationId)
    (value : ValueId) :
    (operands.foldl (fun uses operand => uses.add operand user) uses).of value =
      uses.of value ++ List.replicate (operands.count value) user := by
  induction operands generalizing uses with
  | nil => simp
  | cons operand rest induction =>
      rw [List.foldl_cons, induction, UseLists.of_add, List.count_cons]
      by_cases same : value = operand
      · subst same
        rw [if_pos rfl, if_pos (beq_self_eq_true value), List.append_assoc, List.replicate_succ]
        rfl
      · rw [if_neg same, if_neg fun equal => same (beq_iff_eq.mp equal).symm, Nat.add_zero]

theorem of_recordedUses (code : List Operation) (value : ValueId) :
    (recordedUses code).of value = readers code value := by
  have general : ∀ uses : UseLists, (code.foldl (fun uses operation =>
      operation.operands.foldl (fun uses operand => uses.add operand operation.id) uses)
      uses).of value = uses.of value ++ readers code value := by
    induction code with
    | nil => simp [readers]
    | cons operation rest induction =>
        intro uses
        rw [List.foldl_cons, induction, of_addAll, List.append_assoc]
        rfl
  rw [recordedUses, general]
  rfl

/-- Use lists agree just if every value has the same users. -/
theorem agrees_iff {left right : UseLists} :
    left.agrees right = true ↔ ∀ value, (left.of value).Perm (right.of value) := by
  rw [UseLists.agrees, List.all_eq_true]
  simp only [List.isPerm_iff]
  refine ⟨fun agrees value => ?_, fun same value _ => same value⟩
  by_cases known : value ∈ left.values ++ right.values
  · exact agrees value known
  · rw [List.mem_append, not_or] at known
    rw [List.eq_nil_iff_forall_not_mem.mpr fun _ member => known.1 (mem_values_of_mem member),
      List.eq_nil_iff_forall_not_mem.mpr fun _ member => known.2 (mem_values_of_mem member)]

/-! ### Single checks -/

theorem checkArguments_eq_ok_iff :
    function.checkArguments = .ok () ↔ ∀ (position : Nat) argument,
      function.arguments[position]? = some argument →
        function.definition? argument = some (.argument position) := by
  refine ⟨fun accepted position argument found => checkArguments_eq_ok accepted found,
    fun defined => Except.forM_eq_ok_iff.mpr ?_⟩
  rintro ⟨argument, position⟩ member
  have found := defined position argument (List.mk_mem_zipIdx_iff_getElem?.mp member)
  obtain ⟨value, value_eq, definition_eq⟩ := Option.map_eq_some_iff.mp found
  simp only [Except.bind_eq_ok_iff, value_eq_ok_iff]
  refine ⟨value, value_eq, ?_⟩
  rw [if_neg (Decidable.not_not.mpr definition_eq)]
  rfl

theorem checkResults_eq_ok_iff {operation : Operation} :
    function.checkResults operation = .ok () ↔ ∀ (position : Nat) result,
      operation.results[position]? = some result →
        function.definition? result = some (.result operation.id position) := by
  refine ⟨fun accepted position result found => checkResults_eq_ok accepted found,
    fun defined => Except.forM_eq_ok_iff.mpr ?_⟩
  rintro ⟨result, position⟩ member
  have found := defined position result (List.mk_mem_zipIdx_iff_getElem?.mp member)
  obtain ⟨value, value_eq, definition_eq⟩ := Option.map_eq_some_iff.mp found
  simp only [Except.bind_eq_ok_iff, value_eq_ok_iff]
  refine ⟨value, value_eq, ?_⟩
  rw [if_neg (Decidable.not_not.mpr definition_eq)]
  rfl

theorem checkOperands_eq_ok_iff {seen : Std.TreeSet Nat} {operation : Operation} :
    function.checkOperands seen operation = .ok () ↔ ∀ operand ∈ operation.operands,
      ∃ value, function.values.get? operand = some value ∧
        function.available seen operand value = true := by
  refine ⟨fun accepted operand member => checkOperands_eq_ok accepted member,
    fun available => Except.forM_eq_ok_iff.mpr fun operand member => ?_⟩
  obtain ⟨value, value_eq, usable⟩ := available operand member
  simp only [value_eq, usable, if_true]

theorem checkReturn_eq_ok_iff {operation : Operation} {isLast : Bool} :
    function.checkReturn operation isLast = .ok () ↔ operation.kind.isLeave = isLast ∧
      (operation.kind.isLeave = true →
        operation.operands.length = function.resultTypes.length) := by
  rw [checkReturn]
  by_cases same : operation.kind.isLeave = isLast
  · rw [if_neg (Decidable.not_not.mpr same)]
    by_cases refused : operation.kind.isLeave = true ∧
        operation.operands.length ≠ function.resultTypes.length
    · simp only [if_pos refused]
      exact iff_of_false invalid_ne_ok fun accepted => refused.2 (accepted.2 refused.1)
    · simp only [if_neg refused]
      exact iff_of_true rfl ⟨same, fun leaves =>
        Decidable.not_not.mp fun differs => refused ⟨leaves, differs⟩⟩
  · rw [if_pos same, Except.bind_unit_eq_ok_iff]
    exact iff_of_false (fun accepted => invalid_ne_ok accepted.1) fun accepted => same accepted.1

theorem checkBody_cons_eq_ok_iff {seen : Std.TreeSet Nat} {id : OperationId}
    {rest : List OperationId} :
    function.checkBody seen (id :: rest) = .ok () ↔
      ∃ operation, function.operation? id = some operation ∧ operation.id = id ∧
        ¬ seen.contains id.index ∧ function.checkOperands seen operation = .ok () ∧
        function.checkResults operation = .ok () ∧
        function.checkReturn operation rest.isEmpty = .ok () ∧
        function.checkBody (seen.insert id.index) rest = .ok () := by
  refine ⟨checkBody_cons_eq_ok, ?_⟩
  rintro ⟨operation, found, id_eq, fresh, operands, results, returns, others⟩
  have kept : ¬ (operation.id ≠ id ∨ seen.contains id.index) := by
    rw [not_or]
    exact ⟨Decidable.not_not.mpr id_eq, fresh⟩
  rw [checkBody]
  simp only [found, if_neg kept, Except.bind_unit_eq_ok_iff]
  exact ⟨operands, results, returns, others⟩

/-! ### Verified functions -/

/-- A value that is available after some operations passes for available once they were seen. -/
theorem Recorded.available (recorded : function.Recorded) {front : List Operation}
    (subset : front ⊆ function.code) {seen : Std.TreeSet Nat}
    (seen_front : ∀ operation ∈ front, seen.contains operation.id.index = true) {id : ValueId}
    (member : id ∈ function.availableAfter front) :
    ∃ value, function.values.get? id = some value ∧ function.available seen id value = true := by
  rcases List.mem_append.mp member with argument | result
  · obtain ⟨position, found⟩ := List.mem_iff_getElem?.mp argument
    obtain ⟨value, value_eq, defined⟩ :=
      Option.map_eq_some_iff.mp (recorded.argumentsDefined position id found)
    refine ⟨value, value_eq, ?_⟩
    rw [Function.available, defined]
    simpa using found
  · obtain ⟨operation, operation_mem, defines⟩ := List.mem_flatMap.mp result
    obtain ⟨position, found⟩ := List.mem_iff_getElem?.mp defines
    obtain ⟨value, value_eq, defined⟩ := Option.map_eq_some_iff.mp
      (recorded.resultsDefined operation (subset operation_mem) position id found)
    refine ⟨value, value_eq, ?_⟩
    rw [Function.available, defined]
    exact seen_front operation operation_mem

theorem Recorded.operation?_of_mem (recorded : function.Recorded) {operation : Operation}
    (member : operation ∈ function.code) :
    function.operation? operation.id = some operation := by
  obtain ⟨id, id_mem, found⟩ := mem_code_iff.mp member
  obtain ⟨known, known_eq, rfl⟩ := recorded.live id id_mem
  obtain rfl := Option.some.inj (found.symm.trans known_eq)
  exact found

/-- A value is defined by one operation only. -/
theorem Recorded.eq_of_defines (recorded : function.Recorded) {left right : Operation}
    (left_mem : left ∈ function.code) (right_mem : right ∈ function.code) {id : ValueId}
    (left_defines : id ∈ left.results) (right_defines : id ∈ right.results) : left = right := by
  obtain ⟨position, found⟩ := List.mem_iff_getElem?.mp left_defines
  obtain ⟨other, other_found⟩ := List.mem_iff_getElem?.mp right_defines
  have left_definition := recorded.resultsDefined left left_mem position id found
  have right_definition := recorded.resultsDefined right right_mem other id other_found
  have definitions := Option.some.inj (left_definition.symm.trans right_definition)
  have same := (Definition.result.inj definitions).1
  have left_live := recorded.operation?_of_mem left_mem
  rw [same] at left_live
  exact Option.some.inj (left_live.symm.trans (recorded.operation?_of_mem right_mem))

theorem Recorded.nodup_ids (recorded : function.Recorded) :
    (function.code.map Operation.id).Nodup :=
  body_eq_code recorded.live ▸ recorded.nodup

theorem Verified.checkBody_eq_ok (verified : function.Verified) {front back : List Operation}
    (code_eq : function.code = front ++ back) {seen : Std.TreeSet Nat}
    (seen_iff : ∀ id : OperationId, seen.contains id.index = true ↔
      ∃ operation ∈ front, operation.id = id) :
    function.checkBody seen (back.map Operation.id) = .ok () := by
  induction back generalizing front seen with
  | nil => rfl
  | cons operation rest induction =>
      have member : operation ∈ function.code := by
        rw [code_eq]
        exact List.mem_append_right _ List.mem_cons_self
      have subset : front ⊆ function.code := by
        rw [code_eq]
        exact List.subset_append_left _ _
      have ids := verified.nodup_ids
      have dominated := verified.dominated
      have ending := verified.ending
      rw [code_eq] at ids dominated ending
      rw [ending_append_iff (List.cons_ne_nil _ _)] at ending
      rw [Dominated.append_iff] at dominated
      rw [List.map_append, List.map_cons, List.nodup_append] at ids
      refine checkBody_cons_eq_ok_iff.mpr ⟨operation,
        verified.toRecorded.operation?_of_mem member, rfl, ?_, ?_, ?_, ?_, ?_⟩
      · rw [seen_iff]
        rintro ⟨other, other_mem, same⟩
        exact ids.2.2 other.id (List.mem_map_of_mem other_mem) operation.id List.mem_cons_self
          same
      · exact checkOperands_eq_ok_iff.mpr fun operand reads =>
          verified.toRecorded.available subset
            (fun other other_mem => (seen_iff _).mpr ⟨other, other_mem, rfl⟩)
            (dominated.2.1 operand reads)
      · exact checkResults_eq_ok_iff.mpr (verified.resultsDefined operation member)
      · refine checkReturn_eq_ok_iff.mpr ⟨?_, verified.returns operation member⟩
        cases rest with
        | nil => exact ending.2
        | cons next rest => exact ending.2.1
      · have split_eq : function.code = (front ++ [operation]) ++ rest := by
          rw [code_eq, List.append_assoc]
          rfl
        refine induction split_eq fun ⟨index⟩ => ?_
        rw [Std.TreeSet.contains_insert, Bool.or_eq_true, seen_iff]
        simp only [List.mem_append, List.mem_singleton, Nat.compare_eq_eq, beq_iff_eq]
        constructor
        · rintro (rfl | ⟨other, other_mem, same⟩)
          · exact ⟨operation, .inr rfl, rfl⟩
          · exact ⟨other, .inl other_mem, same⟩
        · rintro ⟨other, other_mem | rfl, same⟩
          · exact .inr ⟨other, other_mem, same⟩
          · exact .inl (by rw [same])

private theorem checkBody_returns {seen : Std.TreeSet Nat} {body : List OperationId}
    (accepted : function.checkBody seen body = .ok ()) {id : OperationId} (member : id ∈ body) :
    ∃ operation isLast, function.operation? id = some operation ∧
      function.checkReturn operation isLast = .ok () := by
  induction body generalizing seen with
  | nil => cases member
  | cons first rest induction =>
      obtain ⟨operation, found, -, -, -, -, returns, others⟩ := checkBody_cons_eq_ok accepted
      rcases List.mem_cons.mp member with rfl | later
      · exact ⟨operation, _, found, returns⟩
      · exact induction others later

/-- Verification accepts just the functions that are in order. -/
theorem verify_eq_ok_iff : function.verify = .ok () ↔ function.Verified := by
  constructor
  · intro accepted
    have wellFormed := wellFormed_of_verify accepted
    obtain ⟨arguments, body, -, operations, operations_eq, agrees⟩ := verify_eq_ok accepted
    obtain rfl : operations = function.code :=
      Except.ok.inj (operations_eq.symm.trans (bodyOperations_eq wellFormed.live))
    refine ⟨⟨wellFormed.live, wellFormed.nodup, checkArguments_eq_ok_iff.mp arguments,
      fun operation member => checkResults_eq_ok_iff.mp (checkResults_of_mem body member),
      fun value => ?_⟩, wellFormed.dominated, wellFormed.ending, fun operation member => ?_⟩
    · rw [← of_recordedUses]
      exact agrees_iff.mp agrees value
    · obtain ⟨id, id_mem, found⟩ := mem_code_iff.mp member
      obtain ⟨known, _, known_eq, returns⟩ := checkBody_returns body id_mem
      obtain rfl := Option.some.inj (found.symm.trans known_eq)
      exact (checkReturn_eq_ok_iff.mp returns).2
  · intro verified
    have nonempty : ¬ function.body.isEmpty = true := by
      rw [body_eq_code verified.live, List.isEmpty_iff, List.map_eq_nil_iff]
      intro empty
      have ending := verified.ending
      rw [empty] at ending
      exact ending
    have unseen : ∀ id : OperationId, (∅ : Std.TreeSet Nat).contains id.index = true ↔
        ∃ operation ∈ ([] : List Operation), operation.id = id := by simp
    have body := verified.checkBody_eq_ok (List.nil_append function.code).symm unseen
    rw [← body_eq_code verified.live] at body
    have agrees : function.uses.agrees (recordedUses function.code) = true :=
      agrees_iff.mpr fun value => by
        rw [of_recordedUses]
        exact verified.users value
    rw [verify, checkArguments_eq_ok_iff.mpr verified.argumentsDefined, body, if_neg nonempty,
      bodyOperations_eq verified.live]
    simp only [bind, Except.bind, agrees]
    rfl

theorem Verified.wellFormed (verified : function.Verified) : function.WellFormed :=
  wellFormed_of_verify (verify_eq_ok_iff.mpr verified)

/-- Arguments are no results. -/
theorem Verified.argument_notMem (verified : function.Verified) {id : ValueId}
    (argument : id ∈ function.arguments) : id ∉ function.code.flatMap Operation.results :=
  fun result => (List.nodup_append.mp verified.wellFormed.distinct).2.2 id argument id result rfl

end Function

end Dataflow

end TensorLang
