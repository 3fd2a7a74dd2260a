import TensorLang.Dataflow.Editing
import TensorLang.Proofs.Dataflow.WellFormed

/-!
# What edits do to the list of operations

Each edit changes the list of operations in one place and keeps the function linked: an insertion
adds an operation that defines new values, a replacement redirects operands, and an erasure takes
out an operation whose results nobody reads.
-/

namespace TensorLang

namespace Dataflow

/-! ### Success of edits -/

namespace Edit

variable {α : Type} {function changed : Function}

/-- An edit whose outcome is a result succeeds. -/
theorem eq_ok_of_outcome {edit : Edit α} {result : α}
    (found : (edit.outcome function).2.toOption = some result) :
    edit function = .ok result (edit.outcome function).1 := by
  rw [outcome] at found ⊢
  cases edit_eq : edit function with
  | ok known changed =>
      simp only [edit_eq, Except.toOption, Option.some.injEq] at found
      rw [found]
  | error failure changed =>
      simp only [edit_eq, Except.toOption] at found
      cases found

theorem query_eq_ok_iff {lookup : Function → Outcome α} {result : α} :
    query lookup function = .ok result changed ↔
      lookup function = .ok result ∧ function = changed := by
  rw [query]
  cases lookup function <;> simp

theorem lift_eq_ok_iff {outcome : Outcome α} {result : α} :
    (liftM outcome : Edit α) function = .ok result changed ↔
      outcome = .ok result ∧ function = changed := by
  cases outcome with
  | ok value =>
      change (EStateM.Result.ok value function : EStateM.Result Failure Function α) = _ ↔ _
      simp
  | error failure =>
      change (EStateM.Result.error failure function : EStateM.Result Failure Function α) = _ ↔ _
      simp

/-- Look-ups one after the other. -/
theorem mapM_lift_eq_ok_iff {β : Type} {items : List α} {step : α → Outcome β}
    {results : List β} :
    (items.mapM fun item => (liftM (step item) : Edit β)) function = .ok results changed ↔
      items.map step = results.map .ok ∧ function = changed := by
  induction items generalizing results with
  | nil => cases results <;> simp [EStateM.pure_eq_ok_iff]
  | cons item items induction =>
      simp only [List.mapM_cons, EStateM.bind_eq_ok_iff, lift_eq_ok_iff,
        EStateM.pure_eq_ok_iff, List.map_cons]
      constructor
      · rintro ⟨value, _, ⟨value_eq, rfl⟩, values, _, values_eq, rfl, rfl⟩
        obtain ⟨others_eq, rfl⟩ := induction.mp values_eq
        rw [value_eq, others_eq, List.map_cons]
        exact ⟨rfl, rfl⟩
      · rintro ⟨equal, rfl⟩
        cases results with
        | nil => cases equal
        | cons value values =>
            rw [List.map_cons, List.cons.injEq] at equal
            exact ⟨value, function, ⟨equal.1, rfl⟩, values, function,
              induction.mpr ⟨equal.2, rfl⟩, rfl, rfl⟩

theorem require_eq_ok_iff {property : Function → Bool} {result : Unit} :
    require property function = .ok result changed ↔
      property function = true ∧ function = changed := by
  simp only [require, EStateM.bind_eq_ok_iff, EStateM.get_eq_ok_iff]
  constructor
  · rintro ⟨_, _, ⟨rfl, rfl⟩, success⟩
    split at success
    · exact absurd success EStateM.throw_ne_ok
    · rename_i holds
      exact ⟨by simpa using holds, (EStateM.pure_eq_ok_iff.mp success).2⟩
  · rintro ⟨holds, rfl⟩
    refine ⟨function, function, ⟨rfl, rfl⟩, ?_⟩
    rw [holds]
    rfl

theorem create_eq_ok_iff {kind : OperationKind} {operands : List ValueId}
    {types : List TensorType} {location : Location} {id : OperationId} :
    create kind operands types location function = .ok id changed ↔
      function.hasValues types.length operands = true ∧
        function.addOperation kind operands types location = (changed, id) := by
  simp only [create, EStateM.bind_eq_ok_iff, require_eq_ok_iff]
  constructor
  · rintro ⟨_, _, ⟨known, rfl⟩, success⟩
    cases success
    exact ⟨known, rfl⟩
  · rintro ⟨known, added⟩
    refine ⟨⟨⟩, function, ⟨known, rfl⟩, ?_⟩
    change EStateM.Result.ok _ _ = _
    rw [added]

theorem append_eq_ok_iff {kind : OperationKind} {operands : List ValueId}
    {types : List TensorType} {location : Location} {id : OperationId} :
    append kind operands types location function = .ok id changed ↔
      function.hasValues types.length operands = true ∧ id = function.operations.nextId ∧
        changed = { (function.addOperation kind operands types location).1 with
          body := function.body ++ [id] } := by
  simp only [append, EStateM.bind_eq_ok_iff, create_eq_ok_iff, EStateM.modify_eq_ok_iff,
    EStateM.pure_eq_ok_iff]
  constructor
  · rintro ⟨_, _, ⟨known, rfl, rfl⟩, _, _, rfl, rfl, rfl⟩
    exact ⟨known, rfl, rfl⟩
  · rintro ⟨known, rfl, rfl⟩
    exact ⟨_, _, ⟨known, rfl⟩, ⟨⟩, _, rfl, rfl, rfl⟩

theorem insertBefore_eq_ok_iff {anchor : OperationId} {kind : OperationKind}
    {operands : List ValueId} {types : List TensorType} {location : Location}
    {id : OperationId} :
    insertBefore anchor kind operands types location function = .ok id changed ↔
      ∃ position, function.body.idxOf? anchor = some position ∧
        function.hasValues types.length operands = true ∧ id = function.operations.nextId ∧
        changed = { (function.addOperation kind operands types location).1 with
          body := function.body.insertIdx position id } := by
  simp only [insertBefore, EStateM.bind_eq_ok_iff, query_eq_ok_iff, create_eq_ok_iff,
    EStateM.modify_eq_ok_iff, EStateM.pure_eq_ok_iff, Outcome.promised_eq_ok_iff]
  constructor
  · rintro ⟨position, _, ⟨found, rfl⟩, _, _, ⟨known, rfl, rfl⟩, _, _, rfl, rfl, rfl⟩
    exact ⟨position, found, known, rfl, rfl⟩
  · rintro ⟨position, found, known, rfl, rfl⟩
    exact ⟨position, function, ⟨found, rfl⟩, _, _, ⟨known, rfl⟩, ⟨⟩, _, rfl, rfl, rfl⟩

theorem replaceUses_eq_ok {replaced replacement : ValueId} {result : Unit}
    (success : replaceUses replaced replacement function = .ok result changed) :
    function.redirectUsers replaced replacement = changed := by
  simp only [replaceUses, EStateM.bind_eq_ok_iff, require_eq_ok_iff,
    EStateM.modify_eq_ok_iff] at success
  obtain ⟨_, _, ⟨-, rfl⟩, changed_eq⟩ := success
  exact changed_eq

theorem erase_eq_ok {id : OperationId} {result : Unit}
    (success : erase id function = .ok result changed) :
    ∃ operation, function.operation? id = some operation ∧ function.resultUses operation = 0 ∧
      function.removeOperation operation = changed := by
  simp only [erase, EStateM.bind_eq_ok_iff, query_eq_ok_iff] at success
  obtain ⟨operation, _, ⟨found, rfl⟩, uses, _, ⟨uses_eq, rfl⟩, rest⟩ := success
  cases uses_eq
  refine ⟨operation, Outcome.promised_eq_ok_iff.mp found, ?_⟩
  split at rest
  · obtain ⟨failed, -⟩ := lift_eq_ok_iff.mp rest
    cases failed
  · exact ⟨Nat.eq_zero_of_not_pos (by assumption), EStateM.modify_eq_ok_iff.mp rest⟩

theorem setType_eq_ok {id : ValueId} {type : TensorType} {result : Unit}
    (success : setType id type function = .ok result changed) :
    function.withType id type = changed := by
  simp only [setType, EStateM.bind_eq_ok_iff, require_eq_ok_iff,
    EStateM.modify_eq_ok_iff] at success
  obtain ⟨_, _, ⟨-, rfl⟩, changed_eq⟩ := success
  exact changed_eq

end Edit

/-! ### Changed functions -/

/-- The change keeps the signature and all values that were there. -/
structure Extends (before after : Function) : Prop where
  /-- The name stays. -/
  name : after.name = before.name
  /-- The arguments stay. -/
  arguments : after.arguments = before.arguments
  /-- The result types stay. -/
  resultTypes : after.resultTypes = before.resultTypes
  /-- The values stay. -/
  values : ∀ id : ValueId, id.index < before.values.size →
    after.values.get? id = before.values.get? id
  /-- No value is lost. -/
  size : before.values.size ≤ after.values.size

namespace Extends

variable {first second third : Function}

theorem refl (function : Function) : Extends function function :=
  ⟨rfl, rfl, rfl, fun _ _ => rfl, Nat.le_refl _⟩

theorem trans (early : Extends first second) (late : Extends second third) :
    Extends first third where
  name := late.name.trans early.name
  arguments := late.arguments.trans early.arguments
  resultTypes := late.resultTypes.trans early.resultTypes
  values := fun id inside =>
    (late.values id (Nat.lt_of_lt_of_le inside early.size)).trans (early.values id inside)
  size := Nat.le_trans early.size late.size

theorem typeOf (extension : Extends first second) {id : ValueId}
    (inside : id.index < first.values.size) : second.typeOf id = first.typeOf id := by
  rw [Function.typeOf, Function.typeOf, Function.value, Function.value, extension.values id inside]

end Extends

namespace Function

variable {function : Function}

/-- A list of live operations that the body lists is the list of operations. -/
theorem code_eq_of {code : List Operation} (body_eq : function.body = code.map Operation.id)
    (live : ∀ operation ∈ code, function.operation? operation.id = some operation) :
    function.code = code := by
  rw [Function.code, body_eq]
  clear body_eq
  induction code with
  | nil => rfl
  | cons operation rest induction =>
      rw [List.map_cons, List.filterMap_cons_some (live operation List.mem_cons_self),
        induction fun other member => live other (List.mem_cons_of_mem _ member)]

theorem live_code {code : List Operation} (body_eq : function.body = code.map Operation.id)
    (live : ∀ operation ∈ code, function.operation? operation.id = some operation) :
    ∀ id ∈ function.body, ∃ operation,
      function.operation? id = some operation ∧ operation.id = id := by
  intro id member
  rw [body_eq] at member
  obtain ⟨operation, operation_mem, rfl⟩ := List.mem_map.mp member
  exact ⟨operation, live operation operation_mem, rfl⟩

theorem lt_size_of_operation? {id : OperationId} {operation : Operation}
    (found : function.operation? id = some operation) : id.index < function.operations.size := by
  exact Arena.lt_size_of_get? (Option.join_eq_some_iff.mp found)

/-! ### New operations -/

/-- The values that the next operation defines. -/
def freshValues (function : Function) (count : Nat) : List ValueId :=
  (List.range' function.values.size count).map Handle.mk

/-- The next operation. -/
def nextOperation (function : Function) (kind : OperationKind) (operands : List ValueId)
    (count : Nat) (location : Location) : Operation where
  id := function.operations.nextId
  kind := kind
  operands := operands
  results := function.freshValues count
  location := location

theorem mem_freshValues {count : Nat} {id : ValueId} :
    id ∈ function.freshValues count ↔
      function.values.size ≤ id.index ∧ id.index < function.values.size + count := by
  obtain ⟨index⟩ := id
  simp [freshValues, List.mem_range'_1]

theorem nodup_freshValues (count : Nat) : (function.freshValues count).Nodup := by
  rw [freshValues, List.nodup_iff_pairwise_ne, List.pairwise_map]
  have nodup := List.nodup_range' (s := function.values.size) (n := count)
  exact nodup.imp fun apart equal => apart (Handle.mk.inj equal)

section Adding

variable (kind : OperationKind) (operands : List ValueId) (types : List TensorType)
variable (location : Location)

theorem operation?_addOperation (id : OperationId) :
    (function.addOperation kind operands types location).1.operation? id =
      if id = function.operations.nextId then
        some (function.nextOperation kind operands types.length location)
      else function.operation? id := by
  rw [operation?, addOperation]
  simp only [Arena.get?_push]
  split
  · rfl
  · rfl

theorem mem_usersOf_addOperation {user : OperationId} {value : ValueId}
    (member : user ∈ function.usersOf value ∨
      user = function.operations.nextId ∧ value ∈ operands) :
    user ∈ (function.addOperation kind operands types location).1.usersOf value :=
  mem_of_addAll member

theorem extends_addOperation :
    Extends function (function.addOperation kind operands types location).1 where
  name := rfl
  arguments := rfl
  resultTypes := rfl
  values := by
    intro id inside
    exact (Arena.get?_pushAll _ _ _).trans (if_pos inside)
  size := by
    change _ ≤ (function.values.pushAll _).size
    rw [Arena.size_pushAll]
    exact Nat.le_add_right _ _

theorem size_addOperation :
    (function.addOperation kind operands types location).1.values.size =
      function.values.size + types.length := by
  change (function.values.pushAll _).size = _
  rw [Arena.size_pushAll, List.length_map, List.length_zipIdx]

/-- The new values have the given types. -/
theorem get?_addOperation {position : Nat} {type : TensorType}
    (found : types[position]? = some type) :
    (function.addOperation kind operands types location).1.values.get?
        ⟨function.values.size + position⟩ =
      some ⟨type, .result function.operations.nextId position⟩ := by
  change (function.values.pushAll _).get? _ = _
  rw [Arena.get?_pushAll, if_neg (by simp), Nat.add_sub_cancel_left, List.getElem?_map,
    List.getElem?_zipIdx, found]
  simp

end Adding

end Function

/-- Being available is kept when more is available. -/
theorem Dominated.mono {available more : List ValueId} {code : List Operation}
    (dominated : Dominated available code) (subset : available ⊆ more) : Dominated more code := by
  induction code generalizing available more with
  | nil => exact trivial
  | cons operation rest induction =>
      refine ⟨fun operand member => subset (dominated.1 operand member), induction dominated.2 ?_⟩
      exact List.append_subset.mpr ⟨fun id member => List.mem_append_left _ (subset member),
        List.subset_append_right _ _⟩

/-- Values that no operation reads need not be available. -/
theorem Dominated.drop {available dropped : List ValueId} {code : List Operation}
    (dominated : Dominated (available ++ dropped) code)
    (unread : ∀ operation ∈ code, ∀ operand ∈ operation.operands, operand ∉ dropped) :
    Dominated available code := by
  have general : ∀ later : List ValueId, Dominated (available ++ dropped ++ later) code →
      Dominated (available ++ later) code := by
    clear dominated
    induction code with
    | nil => exact fun _ _ => trivial
    | cons operation rest induction =>
        intro later dominated
        refine ⟨fun operand member => ?_, ?_⟩
        · have place := dominated.1 operand member
          rw [List.append_assoc, List.mem_append, List.mem_append] at place
          have apart := unread operation List.mem_cons_self operand member
          exact List.mem_append.mpr (place.imp_right fun place => place.resolve_left apart)
        · rw [List.append_assoc]
          apply induction fun other member => unread other (List.mem_cons_of_mem _ member)
          rw [← List.append_assoc]
          exact dominated.2
  have dropped_eq := general [] (by rwa [List.append_nil])
  rwa [List.append_nil] at dropped_eq

namespace Function

variable {function changed : Function}

theorem nextId_notMem (embodied : function.Embodied) :
    function.operations.nextId ∉ function.code.map Operation.id := by
  intro member
  obtain ⟨operation, operation_mem, id_eq⟩ := List.mem_map.mp member
  have inside := lt_size_of_operation? (embodied.operation?_of_mem operation_mem)
  rw [id_eq] at inside
  exact Nat.lt_irrefl _ inside

theorem freshValues_disjoint (listed : function.Listed) {count : Nat} {id : ValueId}
    (fresh : id ∈ function.freshValues count) : id ∉ function.availableAfter function.code := by
  intro defined
  exact Nat.not_lt.mpr (mem_freshValues.mp fresh).1 (listed.known id defined)

/-- A new operation fits in anywhere. -/
theorem Embodied.insert (embodied : function.Embodied) {front back : List Operation}
    (code_eq : function.code = front ++ back) {kind : OperationKind} {operands : List ValueId}
    {types : List TensorType} {location : Location}
    (changed_eq : changed = { (function.addOperation kind operands types location).1 with
      body := front.map Operation.id ++ function.operations.nextId :: back.map Operation.id }) :
    changed.Embodied ∧
      changed.code =
        front ++ function.nextOperation kind operands types.length location :: back ∧
      Extends function changed ∧ changed.values.size = function.values.size + types.length := by
  let new := function.nextOperation kind operands types.length location
  have moved : (front ++ new :: back).Perm (new :: function.code) := by
    rw [code_eq]
    exact List.perm_middle
  have live : ∀ operation ∈ front ++ new :: back,
      changed.operation? operation.id = some operation := by
    intro operation member
    rw [changed_eq]
    refine (operation?_addOperation kind operands types location operation.id).trans ?_
    rcases List.mem_cons.mp (moved.mem_iff.mp member) with rfl | member
    · exact if_pos rfl
    · have apart : operation.id ≠ function.operations.nextId := by
        intro equal
        exact nextId_notMem embodied (List.mem_map.mpr ⟨operation, member, equal⟩)
      rw [if_neg apart, embodied.operation?_of_mem member]
  have body_eq : changed.body = (front ++ new :: back).map Operation.id := by
    rw [changed_eq, List.map_append, List.map_cons]
    rfl
  have changed_code := code_eq_of body_eq live
  have extension := function.extends_addOperation kind operands types location
  have size_eq : changed.values.size = function.values.size + types.length := by
    rw [changed_eq]
    exact size_addOperation kind operands types location
  have extended : Extends function changed := by
    rw [changed_eq]
    exact ⟨extension.name, extension.arguments, extension.resultTypes, extension.values,
      extension.size⟩
  refine ⟨?_, changed_code, extended, size_eq⟩
  exact {
    live := live_code body_eq live
    nodup := by
      rw [body_eq, (moved.map _).nodup_iff, List.map_cons, List.nodup_cons,
        ← body_eq_code embodied.live]
      exact ⟨body_eq_code embodied.live ▸ nextId_notMem embodied, embodied.nodup⟩
    recorded := by
      rw [changed_code]
      intro operation member operand reads
      rw [changed_eq]
      refine mem_usersOf_addOperation kind operands types location ?_
      rcases List.mem_cons.mp (moved.mem_iff.mp member) with rfl | member
      · exact .inr ⟨rfl, reads⟩
      · exact .inl (embodied.recorded operation member operand reads) }

/-- An operation whose operands exist fits in anywhere. -/
theorem Listed.insert (listed : function.Listed) {front back : List Operation}
    (code_eq : function.code = front ++ back) {kind : OperationKind} {operands : List ValueId}
    {types : List TensorType} {location : Location}
    (usable : function.hasValues types.length operands = true)
    (changed_eq : changed = { (function.addOperation kind operands types location).1 with
      body := front.map Operation.id ++ function.operations.nextId :: back.map Operation.id }) :
    changed.Listed ∧
      changed.code =
        front ++ function.nextOperation kind operands types.length location :: back ∧
      Extends function changed ∧ changed.values.size = function.values.size + types.length := by
  obtain ⟨embodied, changed_code, extended, size_eq⟩ := listed.toEmbodied.insert code_eq changed_eq
  let new := function.nextOperation kind operands types.length location
  have moved : (front ++ new :: back).Perm (new :: function.code) := by
    rw [code_eq]
    exact List.perm_middle
  have rearranged : (changed.availableAfter changed.code).Perm
      (new.results ++ function.availableAfter function.code) := by
    rw [availableAfter, extended.arguments, changed_code]
    refine ((moved.flatMap_right _).append_left _).trans ?_
    rw [List.flatMap_cons]
    exact List.perm_append_comm_assoc _ _ _
  refine ⟨?_, changed_code, extended, size_eq⟩
  exact {
    live := embodied.live
    nodup := embodied.nodup
    recorded := embodied.recorded
    known := by
      intro id member
      rw [size_eq]
      rcases List.mem_append.mp (rearranged.mem_iff.mp member) with fresh | defined
      · exact (mem_freshValues.mp fresh).2
      · exact Nat.lt_add_right _ (listed.known id defined)
    distinct := by
      rw [rearranged.nodup_iff, List.nodup_append]
      refine ⟨nodup_freshValues _, listed.distinct, ?_⟩
      rintro id fresh other defined rfl
      exact freshValues_disjoint listed fresh defined
    existing := by
      rw [changed_code, size_eq]
      intro operation member operand reads
      rcases List.mem_cons.mp (moved.mem_iff.mp member) with rfl | member
      · simpa using List.all_eq_true.mp usable operand reads
      · exact Nat.lt_add_right _ (listed.existing operation member operand reads) }

private theorem insertIdx_idxOf? {front back : List OperationId} {anchor new : OperationId}
    {position : Nat} (fresh : anchor ∉ front)
    (found : (front ++ anchor :: back).idxOf? anchor = some position) :
    (front ++ anchor :: back).insertIdx position new = front ++ new :: anchor :: back := by
  induction front generalizing position with
  | nil =>
      obtain rfl : 0 = position := by simpa [List.idxOf?_cons] using found
      rfl
  | cons first front induction =>
      simp only [List.mem_cons, not_or] at fresh
      rw [List.cons_append, List.idxOf?_cons, if_neg (by simpa using Ne.symm fresh.1),
        Option.map_eq_some_iff] at found
      obtain ⟨earlier, earlier_eq, rfl⟩ := found
      rw [List.cons_append, List.insertIdx_succ_cons, induction fresh.2 earlier_eq,
        List.cons_append]

/-- An insertion before an operation of the body changes the body there. -/
theorem Embodied.insertBefore_eq (embodied : function.Embodied) {front back : List Operation}
    {anchor : Operation} (code_eq : function.code = front ++ anchor :: back)
    {kind : OperationKind} {operands : List ValueId} {types : List TensorType}
    {location : Location} {id : OperationId}
    (success : Edit.insertBefore anchor.id kind operands types location function =
      .ok id changed) :
    function.hasValues types.length operands = true ∧ id = function.operations.nextId ∧
      changed = { (function.addOperation kind operands types location).1 with
        body := front.map Operation.id ++
          function.operations.nextId :: (anchor :: back).map Operation.id } := by
  obtain ⟨position, found, usable, rfl, changed_eq⟩ := Edit.insertBefore_eq_ok_iff.mp success
  have body_eq := body_eq_code embodied.live
  rw [code_eq, List.map_append, List.map_cons] at body_eq
  have nodup := embodied.nodup
  rw [body_eq] at found nodup
  have fresh : anchor.id ∉ front.map Operation.id := fun member =>
    (List.nodup_append.mp nodup).2.2 _ member _ List.mem_cons_self rfl
  rw [body_eq, insertIdx_idxOf? fresh found, ← List.map_cons] at changed_eq
  exact ⟨usable, rfl, changed_eq⟩

/-- An insertion before an operation of the body. -/
theorem Listed.insertBefore (listed : function.Listed) {front back : List Operation}
    {anchor : Operation} (code_eq : function.code = front ++ anchor :: back)
    {kind : OperationKind} {operands : List ValueId} {types : List TensorType}
    {location : Location} {id : OperationId}
    (success : Edit.insertBefore anchor.id kind operands types location function =
      .ok id changed) :
    id = function.operations.nextId ∧ changed.Listed ∧
      changed.code = front ++
        function.nextOperation kind operands types.length location :: anchor :: back ∧
      Extends function changed ∧ changed.values.size = function.values.size + types.length ∧
      changed.operation id =
        .ok (function.nextOperation kind operands types.length location) ∧
      ∀ position type, types[position]? = some type →
        changed.typeOf ⟨function.values.size + position⟩ = .ok type := by
  obtain ⟨usable, rfl, changed_eq⟩ := listed.toEmbodied.insertBefore_eq code_eq success
  obtain ⟨changed_listed, changed_code, extended, size_eq⟩ :=
    listed.insert code_eq usable changed_eq
  have new_mem : function.nextOperation kind operands types.length location ∈ changed.code := by
    rw [changed_code]
    exact List.mem_append_right _ List.mem_cons_self
  refine ⟨rfl, changed_listed, changed_code, extended, size_eq,
    Outcome.promised_eq_ok_iff.mpr (changed_listed.operation?_of_mem new_mem), ?_⟩
  intro position type type_eq
  rw [changed_eq]
  have value_eq := function.get?_addOperation kind operands types location type_eq
  simp only [typeOf, value, value_eq]
  rfl

/-- An insertion where the operands are available keeps the order. -/
theorem Linked.insertBefore (linked : function.Linked) {front back : List Operation}
    {anchor : Operation} (code_eq : function.code = front ++ anchor :: back)
    {kind : OperationKind} {operands : List ValueId} {types : List TensorType}
    {location : Location} {id : OperationId}
    (usable : ∀ operand ∈ operands, operand ∈ function.availableAfter front)
    (success : Edit.insertBefore anchor.id kind operands types location function =
      .ok id changed) :
    changed.Linked ∧
      changed.code = front ++
        function.nextOperation kind operands types.length location :: anchor :: back ∧
      Extends function changed ∧
      changed.operation id =
        .ok (function.nextOperation kind operands types.length location) := by
  obtain ⟨-, listed, changed_code, extension, -, operation_eq, -⟩ :=
    linked.toListed.insertBefore code_eq success
  refine ⟨⟨listed, ?_⟩, changed_code, extension, operation_eq⟩
  have dominated := Function.dominated_of_code_eq linked.dominated code_eq
  rw [changed_code, extension.arguments, Dominated.append_iff]
  exact ⟨dominated.1, usable, dominated.2.mono (List.subset_append_left _ _)⟩

/-- A new operation at the end of the body. -/
theorem Listed.append (listed : function.Listed) {kind : OperationKind}
    {operands : List ValueId} {types : List TensorType} {location : Location} {id : OperationId}
    (success : Edit.append kind operands types location function = .ok id changed) :
    id = function.operations.nextId ∧ changed.Listed ∧
      changed.code = function.code ++
        [function.nextOperation kind operands types.length location] ∧
      Extends function changed ∧ changed.values.size = function.values.size + types.length := by
  obtain ⟨usable, rfl, changed_eq⟩ := Edit.append_eq_ok_iff.mp success
  rw [body_eq_code listed.live] at changed_eq
  exact ⟨rfl, listed.insert (List.append_nil _).symm usable changed_eq⟩

end Function

/-! ### Redirected operands -/

/-- One handle instead of another. -/
def redirect (replaced replacement id : ValueId) : ValueId :=
  if id = replaced then replacement else id

/-- The operation with its operands changed. -/
def Operation.reading (change : ValueId → ValueId) (operation : Operation) : Operation :=
  { operation with operands := operation.operands.map change }

/-- The operation with one value read instead of another. -/
abbrev Operation.redirected (replaced replacement : ValueId) (operation : Operation) : Operation :=
  operation.reading (redirect replaced replacement)

@[simp]
theorem redirect_self (id : ValueId) : redirect id id = fun other => other := by
  funext other
  rw [redirect]
  split
  · exact Eq.symm (by assumption)
  · rfl

theorem Operation.reading_of_unchanged {change : ValueId → ValueId} {operation : Operation}
    (unchanged : ∀ operand ∈ operation.operands, change operand = operand) :
    operation.reading change = operation := by
  have same : operation.operands.map change = operation.operands := by
    rw [List.map_congr_left unchanged, List.map_id']
  rw [reading, same]

theorem Operation.reading_reading (first second : ValueId → ValueId) (operation : Operation) :
    (operation.reading first).reading second =
      operation.reading fun id => second (first id) := by
  rw [reading, reading, reading, List.map_map]
  rfl

theorem Operation.redirected_of_notMem {replaced replacement : ValueId} {operation : Operation}
    (unread : replaced ∉ operation.operands) :
    operation.redirected replaced replacement = operation := by
  apply Operation.reading_of_unchanged
  intro operand member
  refine if_neg fun equal => unread ?_
  rwa [← equal]

theorem Operation.redirected_self (id : ValueId) (operation : Operation) :
    operation.redirected id id = operation := by
  apply Operation.reading_of_unchanged
  intro operand _
  rw [redirect_self]

theorem Operation.redirected_redirected {replaced replacement : ValueId}
    (apart : replaced ≠ replacement) (operation : Operation) :
    (operation.redirected replaced replacement).redirected replaced replacement =
      operation.redirected replaced replacement := by
  apply Operation.redirected_of_notMem
  intro member
  obtain ⟨operand, -, operand_eq⟩ := List.mem_map.mp member
  rw [redirect] at operand_eq
  split at operand_eq
  · exact apart operand_eq.symm
  · contradiction

/-- Available values may be read instead of others. -/
theorem Dominated.redirected {replaced replacement : ValueId} {available : List ValueId}
    {code : List Operation} (dominated : Dominated available code)
    (usable : replacement ∈ available) :
    Dominated available (code.map (Operation.redirected replaced replacement)) := by
  induction code generalizing available with
  | nil => exact trivial
  | cons operation rest induction =>
      refine ⟨fun operand member => ?_,
        induction dominated.2 (List.mem_append_left _ usable)⟩
      obtain ⟨before, reads, rfl⟩ := List.mem_map.mp member
      rw [redirect]
      split
      · exact usable
      · exact dominated.1 before reads

namespace Function

variable {function changed : Function} {replaced replacement : ValueId}

theorem operation?_redirectUser (user id : OperationId) :
    (redirectUser replaced replacement function user).operation? id =
      if id = user then (function.operation? id).map (Operation.redirected replaced replacement)
      else function.operation? id := by
  rw [redirectUser]
  split
  · rename_i missing
    split
    · rename_i same
      rw [same, missing]
      rfl
    · rfl
  · rename_i operation found
    simp only [operation?, Arena.set, Arena.get?_modify]
    split
    · rename_i same
      subst same
      rw [operation?, Option.join_eq_some_iff] at found
      rw [found]
      rfl
    · rfl

private theorem mem_of_addUsers {uses : UseLists} {users : List OperationId} {other : OperationId}
    {target value : ValueId} (member : other ∈ uses.of value ∨ value = target ∧ other ∈ users) :
    other ∈ (users.foldl (fun uses user => uses.add target user) uses).of value := by
  induction users generalizing uses with
  | nil => simpa using member
  | cons user rest induction =>
      rw [List.foldl_cons]
      apply induction
      rw [UseLists.of_add]
      rcases member with old | ⟨rfl, new⟩
      · split
        · rename_i same
          subst same
          exact .inl (List.mem_append_left _ old)
        · exact .inl old
      · rcases List.mem_cons.mp new with rfl | later
        · rw [if_pos rfl]
          exact .inl (List.mem_append_right _ (List.mem_singleton_self _))
        · exact .inr ⟨rfl, later⟩

theorem mem_usersOf_redirectUser {user other : OperationId} {value : ValueId}
    (member : other ∈ function.usersOf value ∨
      value = replacement ∧ other = user ∧
        ∃ operation, function.operation? user = some operation ∧
          replaced ∈ operation.operands) :
    other ∈ (redirectUser replaced replacement function user).usersOf value := by
  rw [redirectUser]
  split
  · rename_i missing
    rcases member with old | ⟨-, -, operation, found, -⟩
    · exact old
    · rw [missing] at found
      cases found
  · rename_i operation found
    apply mem_of_addUsers
    refine member.imp_right ?_
    rintro ⟨rfl, rfl, known, known_eq, reads⟩
    obtain rfl := Option.some.inj (known_eq.symm.trans found)
    exact ⟨rfl, List.mem_replicate.mpr ⟨Nat.pos_iff_ne_zero.mp (List.count_pos_iff.mpr reads), rfl⟩⟩

theorem redirectUser_keeps (function : Function) (replaced replacement : ValueId)
    (user : OperationId) :
    Extends function (redirectUser replaced replacement function user) ∧
      (redirectUser replaced replacement function user).body = function.body ∧
      (redirectUser replaced replacement function user).values = function.values := by
  rw [redirectUser]
  split
  · exact ⟨Extends.refl _, rfl, rfl⟩
  · exact ⟨⟨rfl, rfl, rfl, fun _ _ => rfl, Nat.le_refl _⟩, rfl, rfl⟩

section Users

variable (users : List OperationId)

private theorem redirectAll_keeps (function : Function) :
    Extends function (users.foldl (redirectUser replaced replacement) function) ∧
      (users.foldl (redirectUser replaced replacement) function).body = function.body ∧
      (users.foldl (redirectUser replaced replacement) function).values = function.values := by
  induction users generalizing function with
  | nil => exact ⟨Extends.refl _, rfl, rfl⟩
  | cons user rest induction =>
      obtain ⟨extension, body_eq, values_eq⟩ :=
        redirectUser_keeps function replaced replacement user
      obtain ⟨later, later_body, later_values⟩ :=
        induction (redirectUser replaced replacement function user)
      exact ⟨extension.trans later, later_body.trans body_eq, later_values.trans values_eq⟩

theorem operation?_redirectAll (apart : replaced ≠ replacement) (function : Function)
    (id : OperationId) :
    (users.foldl (redirectUser replaced replacement) function).operation? id =
      if id ∈ users then (function.operation? id).map (Operation.redirected replaced replacement)
      else function.operation? id := by
  induction users generalizing function with
  | nil => rfl
  | cons user rest induction =>
      rw [List.foldl_cons, induction, operation?_redirectUser]
      by_cases same : id = user
      · subst same
        rw [if_pos rfl, if_pos List.mem_cons_self]
        split
        · rw [Option.map_map]
          exact Option.map_congr fun operation _ =>
            Operation.redirected_redirected apart operation
        · rfl
      · rw [if_neg same]
        by_cases later : id ∈ rest
        · rw [if_pos later, if_pos (List.mem_cons_of_mem _ later)]
        · rw [if_neg later, if_neg (by simp [same, later])]

private theorem mem_usersOf_redirectAll {function : Function} {other : OperationId}
    {value : ValueId}
    (member : other ∈ function.usersOf value ∨
      value = replacement ∧ other ∈ users ∧
        ∃ operation, function.operation? other = some operation ∧
          replaced ∈ operation.operands) :
    other ∈ (users.foldl (redirectUser replaced replacement) function).usersOf value := by
  induction users generalizing function with
  | nil =>
      rcases member with old | ⟨-, none, -⟩
      · exact old
      · cases none
  | cons user rest induction =>
      rw [List.foldl_cons]
      apply induction
      rcases member with old | ⟨rfl, new, operation, found, reads⟩
      · exact .inl (mem_usersOf_redirectUser (.inl old))
      · by_cases same : other = user
        · exact .inl (mem_usersOf_redirectUser
            (.inr ⟨rfl, same, operation, same ▸ found, reads⟩))
        · refine .inr ⟨rfl, (List.mem_cons.mp new).resolve_left same, operation, ?_, reads⟩
          rw [operation?_redirectUser, if_neg same]
          exact found

end Users

theorem redirectUsers_keeps (function : Function) (replaced replacement : ValueId) :
    Extends function (function.redirectUsers replaced replacement) ∧
      (function.redirectUsers replaced replacement).body = function.body ∧
      (function.redirectUsers replaced replacement).values = function.values := by
  rw [redirectUsers]
  split
  · exact ⟨Extends.refl _, rfl, rfl⟩
  · obtain ⟨extension, body_eq, values_eq⟩ :=
      redirectAll_keeps (function.usersOf replaced).eraseDups
        { function with uses := function.uses.clear replaced }
    exact ⟨⟨extension.name, extension.arguments, extension.resultTypes, extension.values,
      extension.size⟩, body_eq, values_eq⟩

private theorem Embodied.operation?_redirectUsers (embodied : function.Embodied)
    {operation : Operation} (member : operation ∈ function.code) :
    (function.redirectUsers replaced replacement).operation? operation.id =
      some (operation.redirected replaced replacement) := by
  have found := embodied.operation?_of_mem member
  rw [redirectUsers]
  split
  · rename_i same
    rw [same, Operation.redirected_self]
    exact found
  · rename_i apart
    rw [operation?_redirectAll _ apart]
    split
    · exact congrArg (Option.map _) found
    · rename_i unread
      rw [Operation.redirected_of_notMem]
      · exact found
      · exact fun reads => unread (List.mem_eraseDups.mpr (embodied.recorded _ member _ reads))

private theorem Embodied.recorded_redirectUsers (embodied : function.Embodied)
    {operation : Operation} (member : operation ∈ function.code) {operand : ValueId}
    (reads : operand ∈ (operation.redirected replaced replacement).operands) :
    operation.id ∈ (function.redirectUsers replaced replacement).usersOf operand := by
  rw [redirectUsers]
  split
  · rename_i same
    rw [same, Operation.redirected_self] at reads
    exact embodied.recorded operation member operand reads
  · apply mem_usersOf_redirectAll
    obtain ⟨before, before_reads, rfl⟩ := List.mem_map.mp reads
    have known := embodied.recorded operation member before before_reads
    rw [redirect]
    split
    · rename_i same
      subst same
      exact .inr ⟨rfl, List.mem_eraseDups.mpr known, operation,
        embodied.operation?_of_mem member, before_reads⟩
    · rename_i other
      refine .inl ?_
      rw [usersOf, UseLists.of_clear, if_neg other]
      exact known

/-- All operations of the body are redirected. -/
theorem Embodied.redirectUsers (embodied : function.Embodied) (replaced replacement : ValueId) :
    (function.redirectUsers replaced replacement).Embodied ∧
      (function.redirectUsers replaced replacement).code =
        function.code.map (Operation.redirected replaced replacement) := by
  obtain ⟨extension, kept_body, values_eq⟩ := redirectUsers_keeps function replaced replacement
  have body_eq : (function.redirectUsers replaced replacement).body =
      (function.code.map (Operation.redirected replaced replacement)).map Operation.id := by
    rw [kept_body, body_eq_code embodied.live, List.map_map]
    rfl
  have live : ∀ operation ∈ function.code.map (Operation.redirected replaced replacement),
      (function.redirectUsers replaced replacement).operation? operation.id = some operation := by
    intro operation member
    obtain ⟨before, before_mem, rfl⟩ := List.mem_map.mp member
    exact embodied.operation?_redirectUsers before_mem
  have changed_code := code_eq_of body_eq live
  refine ⟨⟨live_code body_eq live, kept_body ▸ embodied.nodup, ?_⟩, changed_code⟩
  rw [changed_code]
  intro operation member operand reads
  obtain ⟨before, before_mem, rfl⟩ := List.mem_map.mp member
  exact embodied.recorded_redirectUsers before_mem reads

/-- Redirected operations stay in order as long as what they read exists. -/
theorem Listed.redirectUsers (listed : function.Listed) {code : List Operation}
    (code_eq : code = function.code.map (Operation.redirected replaced replacement))
    (existing : ∀ operation ∈ code, ∀ operand ∈ operation.operands,
      operand.index < function.values.size) :
    (function.redirectUsers replaced replacement).Listed ∧
      (function.redirectUsers replaced replacement).code = code := by
  obtain ⟨extension, -, values_eq⟩ := redirectUsers_keeps function replaced replacement
  obtain ⟨embodied, changed_code⟩ := listed.toEmbodied.redirectUsers replaced replacement
  rw [← code_eq] at changed_code
  have results_eq : (function.redirectUsers replaced replacement).availableAfter
      (function.redirectUsers replaced replacement).code =
        function.availableAfter function.code := by
    rw [availableAfter, availableAfter, changed_code, extension.arguments, code_eq,
      List.flatMap_map]
    rfl
  refine ⟨?_, changed_code⟩
  exact {
    live := embodied.live
    nodup := embodied.nodup
    recorded := embodied.recorded
    known := by
      rw [results_eq, values_eq]
      exact listed.known
    distinct := by
      rw [results_eq]
      exact listed.distinct
    existing := by
      rw [changed_code, values_eq]
      exact existing }

/-- Redirected operations stay linked as long as what they read is available. -/
theorem Linked.redirectUsers (linked : function.Linked) {code : List Operation}
    (code_eq : code = function.code.map (Operation.redirected replaced replacement))
    (dominated : Dominated function.arguments code) :
    (function.redirectUsers replaced replacement).Linked ∧
      (function.redirectUsers replaced replacement).code = code := by
  have results_eq : code.flatMap Operation.results = function.code.flatMap Operation.results := by
    rw [code_eq, List.flatMap_map]
    rfl
  obtain ⟨listed, changed_code⟩ := linked.toListed.redirectUsers code_eq
    fun operation member operand reads => linked.known operand (by
      rw [availableAfter, ← results_eq]
      exact dominated.operand_mem member reads)
  refine ⟨⟨listed, ?_⟩, changed_code⟩
  rw [changed_code, (redirectUsers_keeps function replaced replacement).1.arguments]
  exact dominated

/-! ### Erased operations -/

private theorem mem_removeSwap {user other : OperationId} {users : List OperationId}
    (apart : other ≠ user) (member : other ∈ users) :
    other ∈ UseLists.removeSwap user users := by
  rw [UseLists.removeSwap]
  split
  · rename_i position last position_eq last_eq
    obtain ⟨inside, user_eq, -⟩ := List.idxOf?_eq_some_iff.mp position_eq
    obtain ⟨place, place_eq⟩ := List.mem_iff_getElem?.mp member
    have place_lt := (List.getElem?_eq_some_iff.mp place_eq).1
    have place_ne : position ≠ place := by
      rintro rfl
      rw [List.getElem?_eq_getElem inside, user_eq] at place_eq
      exact apart (Option.some.inj place_eq).symm
    rw [List.getLast?_eq_getElem?] at last_eq
    by_cases is_last : place = users.length - 1
    · rw [← is_last, place_eq] at last_eq
      obtain rfl := Option.some.inj last_eq
      refine List.mem_iff_getElem?.mpr ⟨position, ?_⟩
      rw [List.getElem?_dropLast, List.length_set, if_pos (by omega),
        List.getElem?_set_self inside]
    · refine List.mem_iff_getElem?.mpr ⟨place, ?_⟩
      rw [List.getElem?_dropLast, List.length_set, if_pos (by omega),
        List.getElem?_set_ne place_ne, place_eq]
  · exact member

theorem operation?_removeOperation (operation : Operation) (id : OperationId) :
    (function.removeOperation operation).operation? id =
      if id = operation.id then none else function.operation? id := by
  simp only [operation?, removeOperation, Arena.set, Arena.get?_modify]
  split
  · cases function.operations.get? id <;> rfl
  · rfl

private theorem mem_of_removeAll {uses : UseLists} {operands : List ValueId}
    {user other : OperationId}
    {value : ValueId} (apart : other ≠ user) (member : other ∈ uses.of value) :
    other ∈ (operands.foldl (fun uses operand => uses.remove operand user) uses).of value := by
  induction operands generalizing uses with
  | nil => exact member
  | cons operand rest induction =>
      apply induction
      rw [UseLists.of_remove]
      split
      · rename_i same
        subst same
        exact mem_removeSwap apart member
      · exact member

theorem of_clearAll {uses : UseLists} {results : List ValueId} {value : ValueId}
    (kept : value ∉ results) : (results.foldl UseLists.clear uses).of value = uses.of value := by
  induction results generalizing uses with
  | nil => rfl
  | cons result rest induction =>
      simp only [List.mem_cons, not_or] at kept
      rw [List.foldl_cons, induction kept.2, UseLists.of_clear, if_neg kept.1]

private theorem mem_usersOf_removeOperation {operation : Operation} {other : OperationId}
    {value : ValueId} (apart : other ≠ operation.id) (kept : value ∉ operation.results)
    (member : other ∈ function.usersOf value) :
    other ∈ (function.removeOperation operation).usersOf value := by
  rw [usersOf, removeOperation]
  simp only [of_clearAll kept]
  exact mem_of_removeAll apart member

theorem unread_of_resultUses (embodied : function.Embodied) {operation reader : Operation}
    (unused : function.resultUses operation = 0) (member : reader ∈ function.code)
    {operand : ValueId} (reads : operand ∈ reader.operands) : operand ∉ operation.results := by
  intro defined
  rw [resultUses, List.length_eq_zero_iff, List.flatMap_eq_nil_iff] at unused
  have known := embodied.recorded reader member operand reads
  rw [unused operand defined] at known
  cases known

/-- An operation whose results nobody reads leaves the others. -/
theorem Embodied.removeOperation (embodied : function.Embodied) {front back : List Operation}
    {operation : Operation} (code_eq : function.code = front ++ operation :: back)
    (unused : function.resultUses operation = 0) :
    (function.removeOperation operation).Embodied ∧
      (function.removeOperation operation).code = front ++ back := by
  have moved : function.code.Perm (operation :: (front ++ back)) := by
    rw [code_eq]
    exact List.perm_middle
  have kept : ∀ other ∈ front ++ back, other ∈ function.code := fun other member =>
    moved.mem_iff.mpr (List.mem_cons_of_mem _ member)
  have nodup := embodied.nodup
  rw [body_eq_code embodied.live, (moved.map _).nodup_iff, List.map_cons, List.nodup_cons] at nodup
  have apart : ∀ other ∈ front ++ back, other.id ≠ operation.id := fun other member equal =>
    nodup.1 (List.mem_map.mpr ⟨other, member, equal⟩)
  have body_eq : (function.removeOperation operation).body =
      (front ++ back).map Operation.id := by
    change function.body.erase operation.id = _
    rw [body_eq_code embodied.live, code_eq, List.map_append, List.map_cons,
      List.erase_append_right _ ?_, List.erase_cons_head, List.map_append]
    intro member
    apply nodup.1
    rw [List.map_append]
    exact List.mem_append_left _ member
  have live : ∀ other ∈ front ++ back,
      (function.removeOperation operation).operation? other.id = some other := by
    intro other member
    rw [operation?_removeOperation, if_neg (apart other member)]
    exact embodied.operation?_of_mem (kept other member)
  have changed_code := code_eq_of body_eq live
  refine ⟨⟨live_code body_eq live, body_eq ▸ nodup.2, ?_⟩, changed_code⟩
  rw [changed_code]
  intro other member operand reads
  exact mem_usersOf_removeOperation (apart other member)
    (unread_of_resultUses embodied unused (kept other member) reads)
    (embodied.recorded other (kept other member) operand reads)

/-- An operation whose results nobody reads can go. -/
theorem Listed.removeOperation (listed : function.Listed) {front back : List Operation}
    {operation : Operation} (code_eq : function.code = front ++ operation :: back)
    (unused : function.resultUses operation = 0) :
    (function.removeOperation operation).Listed ∧
      (function.removeOperation operation).code = front ++ back := by
  obtain ⟨embodied, changed_code⟩ := listed.toEmbodied.removeOperation code_eq unused
  have moved : function.code.Perm (operation :: (front ++ back)) := by
    rw [code_eq]
    exact List.perm_middle
  have rearranged : (function.availableAfter function.code).Perm
      (operation.results ++ (function.removeOperation operation).availableAfter
        (function.removeOperation operation).code) := by
    rw [availableAfter, availableAfter, changed_code]
    refine ((moved.flatMap_right _).append_left _).trans ?_
    rw [List.flatMap_cons]
    exact List.perm_append_comm_assoc _ _ _
  refine ⟨?_, changed_code⟩
  exact {
    live := embodied.live
    nodup := embodied.nodup
    recorded := embodied.recorded
    known := fun id member =>
      listed.known id (rearranged.mem_iff.mpr (List.mem_append_right _ member))
    distinct := (List.nodup_append.mp (rearranged.nodup_iff.mp listed.distinct)).2.1
    existing := by
      rw [changed_code]
      exact fun other member =>
        listed.existing other (moved.mem_iff.mpr (List.mem_cons_of_mem _ member)) }

theorem extends_removeOperation (operation : Operation) :
    Extends function (function.removeOperation operation) :=
  ⟨rfl, rfl, rfl, fun _ _ => rfl, Nat.le_refl _⟩

/-- An erasure of an operation of the body. -/
theorem Listed.erase (listed : function.Listed) {front back : List Operation}
    {operation : Operation} (code_eq : function.code = front ++ operation :: back)
    {result : Unit} (success : Edit.erase operation.id function = .ok result changed) :
    changed.Listed ∧ changed.code = front ++ back ∧ Extends function changed ∧
      changed.values = function.values ∧
      ∀ reader ∈ function.code, ∀ operand ∈ reader.operands, operand ∉ operation.results := by
  obtain ⟨known, found, unused, rfl⟩ := Edit.erase_eq_ok success
  have member : operation ∈ function.code := by
    rw [code_eq]
    exact List.mem_append_right _ List.mem_cons_self
  obtain rfl := Option.some.inj ((listed.operation?_of_mem member).symm.trans found)
  obtain ⟨changed_listed, changed_code⟩ := listed.removeOperation code_eq unused
  exact ⟨changed_listed, changed_code, extends_removeOperation _, rfl,
    fun reader reader_mem operand reads =>
      unread_of_resultUses listed.toEmbodied unused reader_mem reads⟩

/-- An erasure leaves the order of the others. -/
theorem Linked.erase (linked : function.Linked) {front back : List Operation}
    {operation : Operation} (code_eq : function.code = front ++ operation :: back)
    {result : Unit} (success : Edit.erase operation.id function = .ok result changed) :
    changed.Linked ∧ changed.code = front ++ back ∧ Extends function changed ∧
      changed.values = function.values ∧
      ∀ reader ∈ function.code, ∀ operand ∈ reader.operands, operand ∉ operation.results := by
  obtain ⟨listed, changed_code, extension, values_eq, unread⟩ :=
    linked.toListed.erase code_eq success
  refine ⟨⟨listed, ?_⟩, changed_code, extension, values_eq, unread⟩
  have dominated := Function.dominated_of_code_eq linked.dominated code_eq
  rw [changed_code, extension.arguments, Dominated.append_iff]
  refine ⟨dominated.1, dominated.2.2.drop fun reader member => unread reader ?_⟩
  rw [code_eq]
  exact List.mem_append_right _ (List.mem_cons_of_mem _ member)

end Function

end Dataflow

end TensorLang
