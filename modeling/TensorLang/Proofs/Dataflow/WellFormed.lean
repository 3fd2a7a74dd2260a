import TensorLang.Dataflow.Verification
import TensorLang.Proofs.Dataflow.Evaluation

/-!
# Well-formed dataflow functions

What verification establishes, stated about the list of operations of a function: every operand is
available where it is read, no value is defined twice, the only return stands at the end, and the
use lists know every user.  All changes of functions keep this.
-/

namespace TensorLang

namespace Dataflow

/-- Number of operands of the operations of a kind, if it is fixed. -/
def OperationKind.operandCount? : OperationKind → Option Nat
  | .constant _ => some 0
  | .add | .multiply | .matmul => some 2
  | .transpose | .reshape _ | .cast | .print => some 1
  | .call _ | .leave => none

/-- Number of results of the operations of a kind. -/
def OperationKind.resultCount : OperationKind → Nat
  | .leave | .print => 0
  | .constant _ | .add | .multiply | .matmul | .transpose | .reshape _ | .call _ | .cast => 1

/-- The operation has as many operands and results as its kind calls for. -/
structure Operation.Proper (operation : Operation) : Prop where
  /-- The number of operands. -/
  operands : ∀ count, operation.kind.operandCount? = some count →
    operation.operands.length = count
  /-- The number of results. -/
  results : operation.results.length = operation.kind.resultCount

theorem OperationKind.resultCount_le (kind : OperationKind) : kind.resultCount ≤ 1 := by
  cases kind <;> first | exact Nat.le_refl _ | exact Nat.zero_le _

instance (operation : Operation) : Decidable operation.Proper :=
  decidable_of_iff
    ((∀ count ∈ operation.kind.operandCount?, operation.operands.length = count) ∧
      operation.results.length = operation.kind.resultCount)
    ⟨fun ⟨operands, results⟩ => ⟨operands, results⟩, fun ⟨operands, results⟩ => ⟨operands, results⟩⟩

/-- A result of an operation is its only one. -/
theorem Operation.Proper.results_eq {operation : Operation} (proper : operation.Proper)
    {result : ValueId} (defines : result ∈ operation.results) : operation.results = [result] := by
  have count := proper.results ▸ OperationKind.resultCount_le operation.kind
  cases results_eq : operation.results with
  | nil =>
      rw [results_eq] at defines
      cases defines
  | cons first rest =>
      rw [results_eq, List.length_cons] at count
      obtain rfl := List.length_eq_zero_iff.mp (Nat.le_zero.mp (Nat.le_of_succ_le_succ count))
      rw [results_eq] at defines
      rw [List.mem_singleton.mp defines]

theorem Operation.result_eq_ok_iff {operation : Operation} {result : ValueId} :
    operation.result = .ok result ↔ operation.results = [result] := by
  rw [Operation.result]
  split
  · rename_i only only_eq
    rw [only_eq]
    simp
  · rename_i several
    exact iff_of_false (by simp) (several result)

namespace Function

/-- All operations of the body have as many operands and results as their kinds call for. -/
def Proper (function : Function) : Prop := ∀ operation ∈ function.code, operation.Proper

instance (function : Function) : Decidable function.Proper :=
  inferInstanceAs (Decidable (∀ operation ∈ function.code, operation.Proper))

/-- The values that are available after the given operations. -/
def availableAfter (function : Function) (operations : List Operation) : List ValueId :=
  function.arguments ++ operations.flatMap Operation.results

/-- The body lists live operations. -/
def Live (function : Function) : Prop :=
  ∀ id ∈ function.body, ∃ operation,
    function.operation? id = some operation ∧ operation.id = id

/-- The body lists live operations, each once, and the use lists know what they read. -/
structure Embodied (function : Function) : Prop where
  /-- The operations of the body are live. -/
  live : ∀ id ∈ function.body, ∃ operation,
    function.operation? id = some operation ∧ operation.id = id
  /-- No operation stands twice in the body. -/
  nodup : function.body.Nodup
  /-- The users of each value are known. -/
  recorded : ∀ operation ∈ function.code, ∀ operand ∈ operation.operands,
    operation.id ∈ function.usersOf operand

/-- Operations, values and use lists fit together. -/
structure Listed (function : Function) : Prop extends function.Embodied where
  /-- All defined values exist. -/
  known : ∀ id ∈ function.availableAfter function.code, id.index < function.values.size
  /-- No value is defined twice. -/
  distinct : (function.availableAfter function.code).Nodup
  /-- All operands exist. -/
  existing : ∀ operation ∈ function.code, ∀ operand ∈ operation.operands,
    operand.index < function.values.size

/-- Operations, values and use lists fit together in the order of the body. -/
structure Linked (function : Function) : Prop extends function.Listed where
  /-- Operands are defined before they are read. -/
  dominated : Dominated function.arguments function.code

/-- Operations, values and use lists fit together, and the body ends with its only return. -/
structure WellFormed (function : Function) : Prop extends function.Linked where
  /-- The body ends with its only return. -/
  ending : Ending function.code

variable {function : Function}

/-- Code in front reads arguments and its own results, and code behind it also those in front. -/
theorem dominated_of_code_eq {front back : List Operation}
    (dominated : Dominated function.arguments function.code)
    (code_eq : function.code = front ++ back) :
    Dominated function.arguments front ∧ Dominated (function.availableAfter front) back :=
  Dominated.append_iff.mp (code_eq ▸ dominated)

theorem mem_code_iff {operation : Operation} :
    operation ∈ function.code ↔ ∃ id ∈ function.body, function.operation? id = some operation :=
  List.mem_filterMap

/-- The body lists the handles of its operations. -/
theorem body_eq_code (live : function.Live) :
    function.body = function.code.map Operation.id := by
  rw [code]
  rw [Live] at live
  generalize function.body = body at live ⊢
  induction body with
  | nil => rfl
  | cons id rest induction =>
      obtain ⟨operation, found, id_eq⟩ := live id List.mem_cons_self
      rw [List.filterMap_cons_some found, List.map_cons, id_eq,
        ← induction fun other member => live other (List.mem_cons_of_mem _ member)]

/-- All operations of a body are live if each is. -/
theorem bodyOperations_eq (live : function.Live) :
    function.bodyOperations = .ok function.code := by
  rw [bodyOperations, code]
  rw [Live] at live
  generalize function.body = body at live ⊢
  induction body with
  | nil => rfl
  | cons id rest induction =>
      obtain ⟨operation, found, id_eq⟩ := live id List.mem_cons_self
      rw [List.mapM_cons, List.filterMap_cons_some found, Function.operation, found,
        induction fun other member => live other (List.mem_cons_of_mem _ member)]
      rfl

theorem Embodied.operation?_of_mem (embodied : function.Embodied) {operation : Operation}
    (member : operation ∈ function.code) :
    function.operation? operation.id = some operation := by
  obtain ⟨id, id_mem, found⟩ := mem_code_iff.mp member
  obtain ⟨known, known_eq, rfl⟩ := embodied.live id id_mem
  obtain rfl := Option.some.inj (found.symm.trans known_eq)
  exact found

theorem Listed.operation?_of_mem (listed : function.Listed) {operation : Operation}
    (member : operation ∈ function.code) :
    function.operation? operation.id = some operation :=
  listed.toEmbodied.operation?_of_mem member

section Results

variable {front back : List Operation} {operation other : Operation} {result : ValueId}

theorem Listed.results_nodup (listed : function.Listed)
    (code_eq : function.code = front ++ operation :: back) : operation.results.Nodup := by
  have distinct := listed.distinct
  rw [code_eq, availableAfter, List.flatMap_append, List.flatMap_cons, ← List.append_assoc,
    ← List.append_assoc] at distinct
  exact (List.nodup_append.mp (List.nodup_append.mp distinct).1).2.1

/-- A result is not available in front of its operation. -/
theorem Listed.result_notMem (listed : function.Listed)
    (code_eq : function.code = front ++ operation :: back) (defines : result ∈ operation.results) :
    result ∉ function.availableAfter front := by
  intro available
  have distinct := listed.distinct
  rw [availableAfter, code_eq, List.flatMap_append, ← List.append_assoc,
    List.flatMap_cons] at distinct
  exact (List.nodup_append.mp distinct).2.2 _ available _ (List.mem_append_left _ defines) rfl

/-- No other operation defines a result. -/
theorem Listed.result_notMem_results (listed : function.Listed)
    (code_eq : function.code = front ++ operation :: back) (defines : result ∈ operation.results)
    (member : other ∈ front ∨ other ∈ back) : result ∉ other.results := by
  intro also
  have distinct := (List.nodup_append.mp listed.distinct).2.1
  rw [code_eq, List.flatMap_append, List.flatMap_cons, List.nodup_append,
    List.nodup_append] at distinct
  rcases member with earlier | later
  · exact distinct.2.2 _ (List.mem_flatMap.mpr ⟨other, earlier, also⟩) _
      (List.mem_append_left _ defines) rfl
  · exact distinct.2.1.2.2 _ defines _ (List.mem_flatMap.mpr ⟨other, later, also⟩) rfl

end Results

end Function

/-! ### Prints -/

/-- A print operation prints one tensor, and other operations than calls print none. -/
theorem OperationKind.length_printed {kind : OperationKind} {calls : Calls}
    {operands : List (Option Tensor)} {effects : Effects} (no_call : kind.callee? = none)
    (count : ∀ count, kind.operandCount? = some count → operands.length = count)
    (success : kind.perform calls operands = .ok effects) :
    effects.printed.length = if kind.isPrint then 1 else 0 := by
  cases kind with
  | call name => cases no_call
  | leave | cast =>
      obtain rfl := Except.ok.inj success
      rfl
  | print =>
      simp only [perform, Except.bind_eq_ok_iff, Except.pure_eq_ok_iff] at success
      obtain ⟨tensors, tensors_eq, rfl⟩ := success
      have length_eq := count 1 rfl
      rwa [present_eq_ok_iff.mp tensors_eq, List.length_map] at length_eq
  | constant | add | multiply | matmul | transpose | reshape =>
      simp only [perform, Except.bind_eq_ok_iff] at success
      obtain ⟨tensors, -, success⟩ := success
      split at success
      · obtain rfl := Except.pure_eq_ok_iff.mp success
        rfl
      · cases success

/-- Without calls, there is one printed tensor for each print operation. -/
theorem length_printed {code : List Operation} {calls : Calls} {environment : Environment}
    {effects : Effects} (ending : Ending code) (proper : ∀ operation ∈ code, operation.Proper)
    (no_calls : ∀ operation ∈ code, operation.kind.callee? = none)
    (success : evaluateCode calls code environment = .ok effects) :
    effects.printed.length = code.countP (·.kind.isPrint) := by
  induction code generalizing environment effects with
  | nil => exact ending.elim
  | cons operation rest induction =>
      rw [evaluateCode] at success
      split at success
      · rename_i leaves
        obtain rfl := Except.ok.inj success
        cases rest with
        | cons next rest => exact absurd ending.1 (by simp [leaves])
        | nil =>
            have silent : operation.kind.isPrint = false := by
              cases kind_eq : operation.kind with
              | leave => rfl
              | _ =>
                  rw [kind_eq] at leaves
                  cases leaves
            rw [List.countP_cons, silent]
            rfl
      · rename_i proceeds
        simp only [Except.bind_eq_ok_iff, Except.pure_eq_ok_iff] at success
        obtain ⟨first, first_eq, later, later_eq, rfl⟩ := success
        have ending_rest : Ending rest := by
          cases rest with
          | nil => exact absurd ending proceeds
          | cons next rest => exact ending.2
        have counts : ∀ count, operation.kind.operandCount? = some count →
            (operation.operands.map environment).length = count := fun count counted => by
          rw [List.length_map, (proper operation List.mem_cons_self).operands count counted]
        have others := induction ending_rest
          (fun other member => proper other (List.mem_cons_of_mem _ member))
          (fun other member => no_calls other (List.mem_cons_of_mem _ member)) later_eq
        rw [List.length_append, others, List.countP_cons, Nat.add_comm,
          OperationKind.length_printed (no_calls operation List.mem_cons_self) counts first_eq]

namespace Function

variable {function : Function}

/-! ### Verification -/

theorem invalid_ne_ok {α : Type} {location : Location} {message : String} {result : α} :
    function.invalid location message ≠ .ok result := by
  intro success
  cases success

theorem value_eq_ok_iff {id : ValueId} {value : Value} :
    function.value id = .ok value ↔ function.values.get? id = some value :=
  Outcome.promised_eq_ok_iff

/-- What defines a value, if it exists. -/
def definition? (function : Function) (id : ValueId) : Option Definition :=
  (function.values.get? id).map Value.definition

theorem lt_size_of_definition? {id : ValueId} {definition : Definition}
    (found : function.definition? id = some definition) : id.index < function.values.size := by
  obtain ⟨value, value_eq, -⟩ := Option.map_eq_some_iff.mp found
  exact Arena.lt_size_of_get? value_eq

theorem checkArguments_eq_ok (accepted : function.checkArguments = .ok ()) {position : Nat}
    {argument : ValueId} (found : function.arguments[position]? = some argument) :
    function.definition? argument = some (.argument position) := by
  have each := Except.forM_eq_ok_iff.mp accepted (argument, position)
    (List.mk_mem_zipIdx_iff_getElem?.mpr found)
  simp only [Except.bind_eq_ok_iff, value_eq_ok_iff] at each
  obtain ⟨value, value_eq, checked⟩ := each
  split at checked
  · exact absurd checked invalid_ne_ok
  · rename_i same
    rw [definition?, value_eq, Option.map_some, Decidable.not_not.mp same]

theorem checkResults_eq_ok {operation : Operation}
    (accepted : function.checkResults operation = .ok ()) {position : Nat} {result : ValueId}
    (found : operation.results[position]? = some result) :
    function.definition? result = some (.result operation.id position) := by
  have each := Except.forM_eq_ok_iff.mp accepted (result, position)
    (List.mk_mem_zipIdx_iff_getElem?.mpr found)
  simp only [Except.bind_eq_ok_iff, value_eq_ok_iff] at each
  obtain ⟨value, value_eq, checked⟩ := each
  split at checked
  · exact absurd checked invalid_ne_ok
  · rename_i same
    rw [definition?, value_eq, Option.map_some, Decidable.not_not.mp same]

/-- Values that are defined at their positions are distinct. -/
theorem nodup_of_definition? {ids : List ValueId} {make : Nat → Definition}
    (injective : ∀ first second, make first = make second → first = second)
    (defined : ∀ position id, ids[position]? = some id →
      function.definition? id = some (make position)) : ids.Nodup := by
  rw [List.nodup_iff_pairwise_ne, List.pairwise_iff_getElem]
  intro first second first_lt second_lt before equal
  have first_defined := defined first _ (List.getElem?_eq_getElem first_lt)
  have second_defined := defined second _ (List.getElem?_eq_getElem second_lt)
  rw [equal, second_defined] at first_defined
  have same := injective _ _ (Option.some.inj first_defined)
  omega

theorem checkOperands_eq_ok {seen : Std.TreeSet Nat} {operation : Operation}
    (accepted : function.checkOperands seen operation = .ok ()) {operand : ValueId}
    (member : operand ∈ operation.operands) :
    ∃ value, function.values.get? operand = some value ∧
      function.available seen operand value = true := by
  have each := Except.forM_eq_ok_iff.mp accepted operand member
  split at each
  · exact absurd each invalid_ne_ok
  · rename_i value value_eq
    split at each
    · exact ⟨value, value_eq, by assumption⟩
    · exact absurd each invalid_ne_ok

theorem checkReturn_eq_ok {operation : Operation} {isLast : Bool}
    (accepted : function.checkReturn operation isLast = .ok ()) :
    operation.kind.isLeave = isLast := by
  rw [checkReturn] at accepted
  by_cases same : operation.kind.isLeave = isLast
  · exact same
  · rw [if_pos same, Except.bind_unit_eq_ok_iff] at accepted
    exact absurd accepted.1 invalid_ne_ok

theorem checkBody_cons_eq_ok {seen : Std.TreeSet Nat} {id : OperationId}
    {rest : List OperationId} (accepted : function.checkBody seen (id :: rest) = .ok ()) :
    ∃ operation, function.operation? id = some operation ∧ operation.id = id ∧
      ¬ seen.contains id.index ∧ function.checkOperands seen operation = .ok () ∧
      function.checkResults operation = .ok () ∧
      function.checkReturn operation rest.isEmpty = .ok () ∧
      function.checkBody (seen.insert id.index) rest = .ok () := by
  rw [checkBody] at accepted
  split at accepted
  · exact absurd accepted invalid_ne_ok
  · rename_i operation found
    refine ⟨operation, found, ?_⟩
    by_cases refused : operation.id ≠ id ∨ seen.contains id.index
    · rw [if_pos refused, Except.bind_unit_eq_ok_iff] at accepted
      exact absurd accepted.1 invalid_ne_ok
    · rw [if_neg refused] at accepted
      rw [not_or] at refused
      simp only [Except.bind_unit_eq_ok_iff] at accepted
      exact ⟨Decidable.not_not.mp refused.1, refused.2, accepted⟩

theorem checkBody_live {seen : Std.TreeSet Nat} {body : List OperationId}
    (accepted : function.checkBody seen body = .ok ()) {id : OperationId} (member : id ∈ body) :
    ∃ operation, function.operation? id = some operation ∧ operation.id = id ∧
      function.checkResults operation = .ok () := by
  induction body generalizing seen with
  | nil => cases member
  | cons first rest induction =>
      obtain ⟨operation, found, id_eq, -, -, results, -, others⟩ := checkBody_cons_eq_ok accepted
      rcases List.mem_cons.mp member with rfl | later
      · exact ⟨operation, found, id_eq, results⟩
      · exact induction others later

theorem checkBody_nodup {seen : Std.TreeSet Nat} {body : List OperationId}
    (accepted : function.checkBody seen body = .ok ()) :
    body.Nodup ∧ ∀ id ∈ body, ¬ seen.contains id.index := by
  induction body generalizing seen with
  | nil => exact ⟨List.nodup_nil, by simp⟩
  | cons first rest induction =>
      obtain ⟨operation, -, -, fresh, -, -, -, others⟩ := checkBody_cons_eq_ok accepted
      obtain ⟨nodup, apart⟩ := induction others
      simp only [Std.TreeSet.contains_insert, Bool.or_eq_true, not_or] at apart
      refine ⟨List.nodup_cons.mpr ⟨fun member => ?_, nodup⟩, ?_⟩
      · exact (apart first member).1 (by simp)
      · intro id member
        rcases List.mem_cons.mp member with rfl | later
        · exact fresh
        · exact (apart id later).2

theorem checkBody_dominated {seen : Std.TreeSet Nat} {body : List OperationId}
    {available : List ValueId} (accepted : function.checkBody seen body = .ok ())
    (given : ∀ argument ∈ function.arguments, argument ∈ available)
    (done : ∀ id : OperationId, seen.contains id.index = true →
      ∃ operation, function.operation? id = some operation ∧
        ∀ result ∈ operation.results, result ∈ available) :
    Dominated available (body.filterMap function.operation?) := by
  induction body generalizing seen available with
  | nil => exact trivial
  | cons first rest induction =>
      obtain ⟨operation, found, id_eq, -, operands, -, -, others⟩ := checkBody_cons_eq_ok accepted
      rw [List.filterMap_cons_some found]
      refine ⟨fun operand member => ?_, induction others ?_ ?_⟩
      · obtain ⟨value, value_eq, usable⟩ := checkOperands_eq_ok operands member
        rw [Function.available] at usable
        split at usable
        · exact given operand (List.mem_of_getElem? (by simpa using usable))
        · rename_i definer position defined
          obtain ⟨earlier, earlier_eq, results_available⟩ := done definer usable
          obtain ⟨entry, entry_eq, stands⟩ :=
            function.coherent operand value definer position value_eq defined
          have live : entry = some earlier := by
            rw [operation?, entry_eq] at earlier_eq
            exact earlier_eq
          exact results_available operand (List.mem_of_getElem? (stands earlier live))
      · exact fun argument member => List.mem_append_left _ (given argument member)
      · intro id seen_id
        rw [Std.TreeSet.contains_insert, Bool.or_eq_true] at seen_id
        rcases seen_id with new | old
        · obtain rfl : first = id := by
            obtain ⟨index⟩ := id
            obtain ⟨place⟩ := first
            simpa using new
          exact ⟨operation, found, fun result member => List.mem_append_right _ member⟩
        · obtain ⟨earlier, earlier_eq, results_available⟩ := done id old
          exact ⟨earlier, earlier_eq,
            fun result member => List.mem_append_left _ (results_available result member)⟩

theorem checkBody_ending {seen : Std.TreeSet Nat} {body : List OperationId}
    (accepted : function.checkBody seen body = .ok ()) (nonempty : body ≠ []) :
    Ending (body.filterMap function.operation?) := by
  induction body generalizing seen with
  | nil => exact absurd rfl nonempty
  | cons first rest induction =>
      obtain ⟨operation, found, -, -, -, -, returns, others⟩ := checkBody_cons_eq_ok accepted
      have returns := checkReturn_eq_ok returns
      rw [List.filterMap_cons_some found]
      cases rest with
      | nil => exact returns
      | cons second rest =>
          have nonempty : (second :: rest).filterMap function.operation? ≠ [] := by
            obtain ⟨next, next_found, -⟩ := checkBody_cons_eq_ok others
            rw [List.filterMap_cons_some next_found]
            exact List.cons_ne_nil _ _
          rw [← List.singleton_append, ending_append_iff nonempty]
          exact ⟨by simpa using returns, induction others (List.cons_ne_nil _ _)⟩

theorem mem_of_addAll {uses : UseLists} {operands : List ValueId} {user other : OperationId}
    {value : ValueId} (member : other ∈ uses.of value ∨ other = user ∧ value ∈ operands) :
    other ∈ (operands.foldl (fun uses operand => uses.add operand user) uses).of value := by
  induction operands generalizing uses with
  | nil => simpa using member
  | cons operand rest induction =>
      rw [List.foldl_cons]
      apply induction
      rw [UseLists.of_add]
      rcases member with old | ⟨rfl, new⟩
      · split
        · rename_i same
          subst same
          exact .inl (List.mem_append_left _ old)
        · exact .inl old
      · rcases List.mem_cons.mp new with rfl | later
        · rw [if_pos rfl]
          exact .inl (List.mem_append_right _ (List.mem_singleton_self _))
        · exact .inr ⟨rfl, later⟩

theorem mem_recordedUses {operations : List Operation} {operation : Operation} {operand : ValueId}
    (member : operation ∈ operations) (reads : operand ∈ operation.operands) :
    operation.id ∈ (recordedUses operations).of operand := by
  have general : ∀ uses : UseLists, operation.id ∈ uses.of operand ∨ operation ∈ operations →
      operation.id ∈ (operations.foldl (fun uses operation =>
        operation.operands.foldl (fun uses operand => uses.add operand operation.id) uses)
        uses).of operand := by
    clear member
    induction operations with
    | nil =>
        intro uses member
        simpa using member
    | cons first rest induction =>
        intro uses member
        rw [List.foldl_cons]
        apply induction
        rcases member with old | member
        · exact .inl (mem_of_addAll (.inl old))
        · rcases List.mem_cons.mp member with rfl | later
          · exact .inl (mem_of_addAll (.inr ⟨rfl, reads⟩))
          · exact .inr later
  exact general _ (.inr member)

theorem mem_values_of_mem {uses : UseLists} {value : ValueId} {user : OperationId}
    (member : user ∈ uses.of value) : value ∈ uses.values := by
  rw [UseLists.of] at member
  cases found : uses.lists[value.index]? with
  | none =>
      rw [found] at member
      cases member
  | some users =>
      have contained : value.index ∈ uses.lists.keys := by
        rw [Std.TreeMap.mem_keys, Std.TreeMap.mem_iff_isSome_getElem?, found]
        rfl
      exact List.mem_map_of_mem (f := Handle.mk) contained

theorem mem_of_agrees {left right : UseLists} (agrees : left.agrees right = true) {value : ValueId}
    {user : OperationId} (member : user ∈ right.of value) : user ∈ left.of value := by
  have each := List.all_eq_true.mp agrees value
    (List.mem_append_right _ (mem_values_of_mem member))
  exact (List.isPerm_iff.mp each).mem_iff.mpr member

theorem verify_eq_ok (accepted : function.verify = .ok ()) :
    function.checkArguments = .ok () ∧ function.checkBody ∅ function.body = .ok () ∧
      function.body ≠ [] ∧ ∃ operations, function.bodyOperations = .ok operations ∧
        function.uses.agrees (recordedUses operations) = true := by
  rw [verify] at accepted
  simp only [Except.bind_unit_eq_ok_iff] at accepted
  obtain ⟨arguments, body, rest⟩ := accepted
  refine ⟨arguments, body, ?_⟩
  split at rest
  · obtain ⟨_, refused, -⟩ := Except.bind_eq_ok_iff.mp rest
    exact absurd refused invalid_ne_ok
  · rename_i nonempty
    obtain ⟨operations, operations_eq, agrees⟩ := Except.bind_eq_ok_iff.mp rest
    refine ⟨by simpa using nonempty, operations, operations_eq, ?_⟩
    split at agrees
    · exact absurd agrees invalid_ne_ok
    · rename_i agreed
      simpa using agreed

theorem checkResults_of_mem (body : function.checkBody ∅ function.body = .ok ())
    {operation : Operation} (member : operation ∈ function.code) :
    function.checkResults operation = .ok () := by
  obtain ⟨id, id_mem, found⟩ := mem_code_iff.mp member
  obtain ⟨known, known_eq, -, checked⟩ := checkBody_live body id_mem
  obtain rfl := Option.some.inj (found.symm.trans known_eq)
  exact checked

theorem definition?_of_result (body : function.checkBody ∅ function.body = .ok ())
    {operation : Operation} (member : operation ∈ function.code) {result : ValueId}
    (defined : result ∈ operation.results) :
    ∃ position, function.definition? result = some (.result operation.id position) := by
  obtain ⟨position, found⟩ := List.mem_iff_getElem?.mp defined
  exact ⟨position, checkResults_eq_ok (checkResults_of_mem body member) found⟩

private theorem distinct_of_verify (arguments : function.checkArguments = .ok ())
    (body : function.checkBody ∅ function.body = .ok ()) :
    (function.availableAfter function.code).Nodup := by
  rw [availableAfter, List.nodup_append]
  refine ⟨?_, ?_, ?_⟩
  · exact nodup_of_definition? (fun _ _ same => Definition.argument.inj same)
      fun position id found => checkArguments_eq_ok arguments found
  · rw [List.nodup_iff_pairwise_ne, List.pairwise_flatMap]
    constructor
    · intro operation member
      exact nodup_of_definition? (fun _ _ same => (Definition.result.inj same).2)
        fun position id found => checkResults_eq_ok (checkResults_of_mem body member) found
    · have ids := (checkBody_nodup body).1
      rw [body_eq_code fun id member => ?_, List.nodup_iff_pairwise_ne, List.pairwise_map] at ids
      · refine ids.imp_of_mem ?_
        intro first second first_mem second_mem apart result first_defines other second_defines
        rintro rfl
        obtain ⟨_, first_eq⟩ := definition?_of_result body first_mem first_defines
        obtain ⟨_, second_eq⟩ := definition?_of_result body second_mem second_defines
        rw [first_eq] at second_eq
        exact apart (Definition.result.inj (Option.some.inj second_eq)).1
      · obtain ⟨operation, found, id_eq, -⟩ := checkBody_live body member
        exact ⟨operation, found, id_eq⟩
  · rintro argument is_argument result is_result rfl
    obtain ⟨position, found⟩ := List.mem_iff_getElem?.mp is_argument
    obtain ⟨operation, member, defines⟩ := List.mem_flatMap.mp is_result
    obtain ⟨_, defined⟩ := definition?_of_result body member defines
    rw [checkArguments_eq_ok arguments found] at defined
    cases defined

/-- A verified function is well formed. -/
theorem wellFormed_of_verify (accepted : function.verify = .ok ()) : function.WellFormed := by
  obtain ⟨arguments, body, nonempty, operations, operations_eq, agrees⟩ := verify_eq_ok accepted
  have live : ∀ id ∈ function.body, ∃ operation,
      function.operation? id = some operation ∧ operation.id = id := by
    intro id member
    obtain ⟨operation, found, id_eq, -⟩ := checkBody_live body member
    exact ⟨operation, found, id_eq⟩
  have known : ∀ id ∈ function.availableAfter function.code, id.index < function.values.size := by
    intro id member
    rcases List.mem_append.mp member with argument | result
    · obtain ⟨position, found⟩ := List.mem_iff_getElem?.mp argument
      exact lt_size_of_definition? (checkArguments_eq_ok arguments found)
    · obtain ⟨operation, operation_mem, defines⟩ := List.mem_flatMap.mp result
      obtain ⟨_, defined⟩ := definition?_of_result body operation_mem defines
      exact lt_size_of_definition? defined
  have dominated : Dominated function.arguments function.code :=
    checkBody_dominated body (fun _ member => member) (by simp)
  exact {
    live
    nodup := (checkBody_nodup body).1
    recorded := by
      intro operation member operand reads
      rw [bodyOperations_eq live, Except.ok.injEq] at operations_eq
      subst operations_eq
      exact mem_of_agrees agrees (mem_recordedUses member reads)
    known
    distinct := distinct_of_verify arguments body
    existing := fun operation member operand reads =>
      known operand (dominated.operand_mem member reads)
    dominated
    ending := checkBody_ending body nonempty }

end Function

end Dataflow

end TensorLang
