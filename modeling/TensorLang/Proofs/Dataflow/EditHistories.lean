import TensorLang.Proofs.Dataflow.Replacement
import TensorLang.Proofs.Dataflow.Stock

/-!
# Histories of edits

A function that starts empty and is changed by edits alone, one after the other, stays in step with
itself: its body lists what was made and not erased, its use lists count the reads, and its values
know what defines them.  An edit of what exists fails only if it is the erasure of an operation
whose results are used, and such a failure changes nothing.
-/

namespace TensorLang

namespace Dataflow

/-! ### Changes -/

/-- A change that is asked of a function. -/
inductive Change where
  /-- A further argument. -/
  | pushArgument (type : TensorType)
  /-- A new operation at the end of the body. -/
  | append (kind : OperationKind) (operands : List ValueId) (types : List TensorType)
      (location : Location)
  /-- A new operation before another one. -/
  | insertBefore (anchor : OperationId) (kind : OperationKind) (operands : List ValueId)
      (types : List TensorType) (location : Location)
  /-- Another value for the users of a value. -/
  | replaceUses (replaced replacement : ValueId)
  /-- The end of an operation. -/
  | erase (id : OperationId)

namespace Change

/-- Makes the change; gives the handles of the operations that it makes. -/
def edit : Change → Edit (List OperationId)
  | pushArgument type => do
      let _ ← Edit.pushArgument type
      return []
  | append kind operands types location => do
      return [← Edit.append kind operands types location]
  | insertBefore anchor kind operands types location => do
      return [← Edit.insertBefore anchor kind operands types location]
  | replaceUses replaced replacement => do
      Edit.replaceUses replaced replacement
      return []
  | erase id => do
      Edit.erase id
      return []

/-- The operations that the change ends, if it succeeds. -/
def erases : Change → List OperationId
  | erase id => [id]
  | _ => []

/-- The operands and operations that the change names exist.  A new operation may read its own
results, and any value may be replaced by any other. -/
def Applies (function : Function) : Change → Prop
  | pushArgument _ => True
  | append _ operands types _ => function.hasValues types.length operands = true
  | insertBefore anchor _ operands types _ =>
      (function.operation? anchor).isSome = true ∧ function.hasValues types.length operands = true
  | replaceUses _ _ => True
  | erase id => (function.operation? id).isSome = true

instance (function : Function) : (change : Change) → Decidable (change.Applies function)
  | pushArgument _ | replaceUses _ _ => inferInstanceAs (Decidable True)
  | append _ operands types _ =>
      inferInstanceAs (Decidable (function.hasValues types.length operands = true))
  | insertBefore anchor _ operands types _ =>
      inferInstanceAs (Decidable ((function.operation? anchor).isSome = true ∧
        function.hasValues types.length operands = true))
  | erase id => inferInstanceAs (Decidable ((function.operation? id).isSome = true))

/-- The change is to end an operation whose results are used. -/
def Blocked (function : Function) : Change → Prop
  | erase id => ∃ operation, function.operation? id = some operation ∧
      ∃ result ∈ operation.results, function.usersOf result ≠ []
  | _ => False

end Change

/-- What came of a function, and the handles that edits gave out and took back so far. -/
structure History where
  /-- The function as it is now. -/
  function : Function
  /-- Handles of the operations made so far, the first made first. -/
  made : List OperationId
  /-- Handles of the operations erased so far. -/
  erased : List OperationId

namespace History

/-- An empty function, to which nothing has happened. -/
def start (name : String) (location : Location) : History :=
  ⟨Function.new name location, [], []⟩

/-- The history after one more change.  A change that fails makes and erases nothing. -/
def extend (history : History) (change : Change) : History :=
  match change.edit history.function with
  | .ok made changed => ⟨changed, history.made ++ made, history.erased ++ change.erases⟩
  | .error _ changed => ⟨changed, history.made, history.erased⟩

/-- Histories that begin with an empty function, of changes that name only what exists when their
turn comes. -/
inductive Reachable : History → Prop where
  | start (name : String) (location : Location) : Reachable (start name location)
  | extend {history : History} {change : Change} (reachable : Reachable history)
      (applies : change.Applies history.function) : Reachable (history.extend change)

/-- No more operations and values were made than there are handles, which are words. -/
structure Short (history : History) : Prop where
  /-- There is a handle for each operation. -/
  operations : history.function.operations.size ≤ Handle.wordSize
  /-- There is a handle for each value. -/
  values : history.function.values.size ≤ Handle.wordSize

/-- Body, use lists and definitions of the function are in step with what happened to it. -/
structure InStep (history : History) : Prop where
  /-- No operation stands twice in the body. -/
  nodup : history.function.body.Nodup
  /-- The body lists the operations that were made and not erased. -/
  listed : ∀ id, id ∈ history.function.body ↔ id ∈ history.made ∧ id ∉ history.erased
  /-- Just these are live. -/
  live : ∀ id, id ∈ history.function.body ↔ (history.function.operation? id).isSome = true
  /-- No handle is given out twice, whether or not its operation was erased in between. -/
  fresh : history.made.Nodup
  /-- Handles of operations are words. -/
  operationWords : ∀ id ∈ history.made, Handle.ofNumber id.index = id
  /-- Handles of values are words. -/
  valueWords : ∀ value definition, history.function.definition? value = some definition →
    Handle.ofNumber value.index = value
  /-- Operations know their handles. -/
  named : ∀ id operation, history.function.operation? id = some operation → operation.id = id
  /-- A use list has each live operation as often as it reads the value, and nothing else. -/
  counted : ∀ value user, (history.function.usersOf value).count user =
    match history.function.operation? user with
    | some operation => operation.operands.count value
    | none => 0
  /-- The results of live operations are defined by them at their positions. -/
  defined : ∀ id operation, history.function.operation? id = some operation →
    ∀ (position : Nat) result, operation.results[position]? = some result →
      history.function.definition? result = some (.result id position)

end History

/-! ### Edits and records -/

namespace Function

variable {function : Function}

theorem mem_ids_of_operation? {id : OperationId} {operation : Operation}
    (found : function.operation? id = some operation) : id ∈ function.operations.ids := by
  rw [operation?, Option.join_eq_some_iff] at found
  exact Arena.mem_ids_iff.mpr ⟨_, found⟩

theorem size_redirectUsers (replaced replacement : ValueId) :
    (function.redirectUsers replaced replacement).operations.size = function.operations.size := by
  have each : ∀ (users : List OperationId) (function : Function),
      (users.foldl (redirectUser replaced replacement) function).operations.size =
        function.operations.size := by
    intro users
    induction users with
    | nil => exact fun _ => rfl
    | cons user users induction =>
        intro function
        rw [List.foldl_cons, induction, redirectUser]
        split
        · rfl
        · exact Arena.size_modify _ _ _
  rw [redirectUsers]
  split
  · rfl
  · exact each _ _

theorem Recorded.new (name : String) (location : Location) :
    (Function.new name location).Recorded where
  live := by simp [Function.new]
  nodup := List.nodup_nil
  argumentsDefined := by simp [Function.new]
  resultsDefined := by simp [Function.code, Function.new]
  users := fun _ => List.Perm.nil

theorem Recorded.pushArgument (recorded : function.Recorded) (type : TensorType) :
    (function.pushArgument type).1.Recorded := by
  have definition_eq : ∀ id, (function.pushArgument type).1.definition? id =
      if id = function.values.nextId then some (.argument function.arguments.length)
      else function.definition? id := by
    intro id
    rw [definition?, definition?]
    change ((function.values.push _).get? id).map _ = _
    rw [Arena.get?_push]
    split
    · rfl
    · rfl
  have kept : ∀ {id definition}, function.definition? id = some definition →
      (function.pushArgument type).1.definition? id = some definition := by
    intro id definition found
    rw [definition_eq, if_neg, found]
    rintro rfl
    exact Nat.lt_irrefl _ (lt_size_of_definition? found)
  refine ⟨recorded.live, recorded.nodup, fun position argument found => ?_,
    fun operation member position result found =>
      kept (recorded.resultsDefined operation member position result found), recorded.users⟩
  have found : (function.arguments ++ [function.values.nextId])[position]? = some argument := found
  rw [List.getElem?_append] at found
  split at found
  · exact kept (recorded.argumentsDefined position argument found)
  · rename_i beyond
    obtain ⟨inside, rfl⟩ := List.getElem?_eq_some_iff.mp found
    rw [List.length_singleton] at inside
    rw [List.getElem_singleton, definition_eq, if_pos rfl]
    congr
    omega

end Function

/-- An erasure fails, and changes nothing, while the results are used. -/
theorem Edit.erase_eq {function : Function} {id : OperationId} {operation : Operation}
    (found : function.operation? id = some operation) :
    Edit.erase id function =
      if 0 < function.resultUses operation then
        .error (.error ⟨.stillUsed operation.name (function.resultUses operation),
          some operation.location⟩) function
      else .ok () (function.removeOperation operation) := by
  have query_eq : Edit.query (fun function => function.operation id) function =
      .ok operation function :=
    Edit.query_eq_ok_iff.mpr ⟨Outcome.promised_eq_ok_iff.mpr found, rfl⟩
  simp only [Edit.erase, bind, EStateM.bind, query_eq]
  change ite _ (liftM _ : Edit Unit) _ function = _
  split
  · rfl
  · rfl

theorem Edit.erase_eq_ok_of {function : Function} {id : OperationId} {operation : Operation}
    (found : function.operation? id = some operation) (unused : function.resultUses operation = 0) :
    Edit.erase id function = .ok () (function.removeOperation operation) := by
  rw [Edit.erase_eq found, if_neg (unused ▸ Nat.lt_irrefl 0)]

theorem Function.resultUses_pos_iff {function : Function} {operation : Operation} :
    0 < function.resultUses operation ↔ ∃ result ∈ operation.results,
      function.usersOf result ≠ [] := by
  rw [resultUses, List.length_pos_iff, ne_eq, List.flatMap_eq_nil_iff]
  simp only [Classical.not_forall, exists_prop, ne_eq]

/-! ### Kept records -/

namespace History

/-- Records are right, and handles tell what became of their operations. -/
structure Kept (history : History) : Prop where
  /-- Definitions and use lists are right. -/
  recorded : history.function.Recorded
  /-- The body lists all live operations. -/
  stocked : history.function.Stocked fun _ => True
  /-- The handles given out are those of the operations in the arena. -/
  made : history.made = history.function.operations.ids
  /-- The erased operations are those that are not live any more. -/
  erased : ∀ id, id ∈ history.erased ↔
    id ∈ history.made ∧ history.function.operation? id = none

variable {history : History}

theorem Kept.start (name : String) (location : Location) : (start name location).Kept where
  recorded := .new name location
  stocked := fun _ _ found => by cases found
  made := rfl
  erased := by simp [History.start]

theorem Kept.id_eq (kept : history.Kept) {id : OperationId} {operation : Operation}
    (found : history.function.operation? id = some operation) : operation.id = id := by
  obtain ⟨known, known_eq, id_eq⟩ := kept.recorded.live id (kept.stocked id operation found).1
  obtain rfl := Option.some.inj (found.symm.trans known_eq)
  exact id_eq

theorem Kept.mem_body_iff (kept : history.Kept) (id : OperationId) :
    id ∈ history.function.body ↔ (history.function.operation? id).isSome = true := by
  rw [Option.isSome_iff_exists]
  constructor
  · intro member
    obtain ⟨operation, found, -⟩ := kept.recorded.live id member
    exact ⟨operation, found⟩
  · rintro ⟨operation, found⟩
    exact (kept.stocked id operation found).1

theorem Kept.inStep (kept : history.Kept) (short : history.Short) : history.InStep where
  nodup := kept.recorded.nodup
  listed := by
    intro id
    rw [kept.erased, kept.mem_body_iff, not_and, kept.made]
    constructor
    · intro live
      obtain ⟨operation, found⟩ := Option.isSome_iff_exists.mp live
      exact ⟨Function.mem_ids_of_operation? found, fun _ => found ▸ Option.some_ne_none _⟩
    · rintro ⟨made, live⟩
      exact Option.isSome_iff_ne_none.mpr (live made)
  live := kept.mem_body_iff
  fresh := kept.made ▸ Arena.nodup_ids _
  operationWords := by
    intro id made
    obtain ⟨entry, found⟩ := Arena.mem_ids_iff.mp (kept.made ▸ made)
    exact Handle.ofNumber_of_lt (Nat.lt_of_lt_of_le (Arena.lt_size_of_get? found) short.operations)
  valueWords := fun value definition found =>
    Handle.ofNumber_of_lt (Nat.lt_of_lt_of_le (Function.lt_size_of_definition? found) short.values)
  named := fun _ _ found => kept.id_eq found
  counted := by
    intro value user
    obtain ⟨counts, known⟩ :=
      (Function.perm_readers_iff kept.recorded.nodup_ids).mp (kept.recorded.users value)
    split
    · rename_i operation found
      rw [← kept.id_eq found]
      exact counts operation (kept.stocked.mem_code found)
    · rename_i missing
      refine List.count_eq_zero.mpr fun reads => ?_
      obtain ⟨operation, member, rfl⟩ := List.mem_map.mp (known user reads)
      rw [kept.recorded.operation?_of_mem member] at missing
      cases missing
  defined := by
    intro id operation found position result result_eq
    rw [← kept.id_eq found]
    exact kept.recorded.resultsDefined operation (kept.stocked.mem_code found) position result
      result_eq

/-! ### Steps -/

section Extending

variable {changed : Function}

theorem Kept.of_same (kept : history.Kept) (recorded : changed.Recorded)
    (stocked : changed.Stocked fun _ => True)
    (ids_eq : changed.operations.ids = history.function.operations.ids)
    (live_eq : ∀ id, (changed.operation? id).isSome = (history.function.operation? id).isSome) :
    Kept ⟨changed, history.made ++ [], history.erased ++ []⟩ where
  recorded := recorded
  stocked := stocked
  made := by rw [List.append_nil, kept.made, ids_eq]
  erased := by
    intro id
    have missing : changed.operation? id = none ↔ history.function.operation? id = none := by
      rw [← Option.not_isSome_iff_eq_none, ← Option.not_isSome_iff_eq_none, live_eq]
    rw [List.append_nil, List.append_nil, kept.erased, missing]

theorem Kept.of_added (kept : history.Kept) (recorded : changed.Recorded)
    (stocked : changed.Stocked fun _ => True) {kind : OperationKind} {operands : List ValueId}
    {types : List TensorType} {location : Location}
    (operations_eq : changed.operations =
      (history.function.addOperation kind operands types location).1.operations) :
    Kept ⟨changed, history.made ++ [history.function.operations.nextId],
      history.erased ++ []⟩ where
  recorded := recorded
  stocked := stocked
  made := by
    rw [kept.made, operations_eq]
    exact (Arena.ids_push _ _).symm
  erased := by
    intro id
    have found : changed.operation? id = if id = history.function.operations.nextId then _ else _ :=
      (congrArg (fun arena => (arena.get? id).join) operations_eq).trans
        (Function.operation?_addOperation kind operands types location id)
    rw [List.append_nil, kept.erased, found, List.mem_append, List.mem_singleton]
    by_cases new : id = history.function.operations.nextId
    · rw [if_pos new, kept.made, new]
      simp [Arena.nextId_notMem_ids]
    · rw [if_neg new]
      simp only [new, or_false]

private theorem Kept.of_erased (kept : history.Kept) {id : OperationId} {operation : Operation}
    (found : history.function.operation? id = some operation)
    (unused : history.function.resultUses operation = 0) :
    Kept ⟨history.function.removeOperation operation, history.made ++ [],
      history.erased ++ [id]⟩ where
  recorded := kept.recorded.removeOperation (kept.stocked.mem_code found) unused
  stocked := kept.stocked.erase (Edit.erase_eq_ok_of found unused)
  made := by
    rw [List.append_nil, kept.made]
    exact (Arena.ids_of_size (Arena.size_modify _ _ _)).symm
  erased := by
    intro other
    rw [List.append_nil, List.mem_append, List.mem_singleton, kept.erased,
      Function.operation?_removeOperation, kept.id_eq found]
    by_cases same : other = id
    · rw [if_pos same, same, kept.made]
      simp [Function.mem_ids_of_operation? found]
    · rw [if_neg same]
      simp only [same, or_false]

end Extending

/-- A change does what it is asked to do, unless it is blocked: then it fails with an error and
changes nothing. -/
theorem Kept.edit_cases (kept : history.Kept) {change : Change}
    (applies : change.Applies history.function) :
    (¬ change.Blocked history.function ∧ ∃ made changed,
      change.edit history.function = .ok made changed ∧
        Kept ⟨changed, history.made ++ made, history.erased ++ change.erases⟩) ∨
    (change.Blocked history.function ∧ ∃ error,
      change.edit history.function = .error (.error error) history.function) := by
  cases change with
  | pushArgument type =>
      exact .inl ⟨id, [], _, rfl, kept.of_same (kept.recorded.pushArgument type) kept.stocked rfl
        fun _ => rfl⟩
  | append kind operands types location =>
      have success : Edit.append kind operands types location history.function = .ok _ _ :=
        Edit.append_eq_ok_iff.mpr ⟨applies, rfl, rfl⟩
      exact .inl ⟨id, [_], _, EStateM.bind_eq_ok_iff.mpr ⟨_, _, success, rfl⟩,
        kept.of_added (Edit.append_recorded kept.recorded success)
          (kept.stocked.append trivial success) rfl⟩
  | insertBefore anchor kind operands types location =>
      obtain ⟨operation, found⟩ := Option.isSome_iff_exists.mp applies.1
      obtain ⟨position, position_eq⟩ :=
        kept.recorded.idxOf?_isSome (kept.stocked.mem_code found)
      rw [kept.id_eq found] at position_eq
      have success : Edit.insertBefore anchor kind operands types location history.function =
          .ok _ _ := Edit.insertBefore_eq_ok_iff.mpr ⟨position, position_eq, applies.2, rfl, rfl⟩
      exact .inl ⟨id, [_], _, EStateM.bind_eq_ok_iff.mpr ⟨_, _, success, rfl⟩,
        kept.of_added (Edit.insertBefore_recorded kept.recorded success)
          (kept.stocked.insertBefore trivial success) rfl⟩
  | replaceUses replaced replacement =>
      have success := kept.recorded.replaceUses_eq replaced replacement
      exact .inl ⟨id, [], _, EStateM.bind_eq_ok_iff.mpr ⟨_, _, success, rfl⟩,
        kept.of_same (Edit.replaceUses_recorded kept.recorded success)
          (kept.stocked.replaceUses success)
          (Arena.ids_of_size (Function.size_redirectUsers replaced replacement))
          fun _ => Function.isSome_operation?_redirectUsers replaced replacement⟩
  | erase id =>
      obtain ⟨operation, found⟩ := Option.isSome_iff_exists.mp applies
      have blocked_iff : (Change.erase id).Blocked history.function ↔
          0 < history.function.resultUses operation := by
        rw [Function.resultUses_pos_iff]
        constructor
        · rintro ⟨known, known_eq, used⟩
          obtain rfl := Option.some.inj (found.symm.trans known_eq)
          exact used
        · exact fun used => ⟨operation, found, used⟩
      by_cases used : 0 < history.function.resultUses operation
      · have failed := Edit.erase_eq found
        rw [if_pos used] at failed
        refine .inr ⟨blocked_iff.mpr used, ⟨.stillUsed operation.name
          (history.function.resultUses operation), some operation.location⟩, ?_⟩
        simp only [Change.edit, bind, EStateM.bind, failed]
      · have unused := Nat.eq_zero_of_not_pos used
        exact .inl ⟨fun blocked => used (blocked_iff.mp blocked), [], _,
          EStateM.bind_eq_ok_iff.mpr ⟨_, _, Edit.erase_eq_ok_of found unused, rfl⟩,
          kept.of_erased found unused⟩

theorem Kept.extend (kept : history.Kept) {change : Change}
    (applies : change.Applies history.function) : (history.extend change).Kept := by
  rw [History.extend]
  obtain ⟨-, made, changed, success, changed_kept⟩ | ⟨-, error, failed⟩ := kept.edit_cases applies
  · rw [success]
    exact changed_kept
  · rw [failed]
    exact kept

/-- Whatever happened to a function, its records are kept. -/
theorem Reachable.kept (reachable : history.Reachable) : history.Kept := by
  induction reachable with
  | start name location => exact .start name location
  | extend _ applies induction => exact induction.extend applies

/-- After any edits of what exists, use lists and body are in step with what happened, as long as
handles last, and a further edit fails only if it is the erasure of an operation with results in
use, and then it changes nothing. -/
theorem inStep_of_reachable (reachable : history.Reachable) (short : history.Short) :
    history.InStep ∧ ∀ change : Change, change.Applies history.function →
      (change.Blocked history.function → ∃ error,
        change.edit history.function = .error (.error error) history.function) ∧
      (¬ change.Blocked history.function → ∃ made changed,
        change.edit history.function = .ok made changed) := by
  refine ⟨reachable.kept.inStep short, fun change applies => ?_⟩
  obtain ⟨free, made, changed, success, -⟩ | ⟨blocked, failed⟩ :=
    reachable.kept.edit_cases applies
  · exact ⟨fun blocked => absurd blocked free, fun _ => ⟨made, changed, success⟩⟩
  · exact ⟨fun _ => failed, fun free => absurd blocked free⟩

/-- A sum of an argument and itself is printed.  Its erasure fails first, and succeeds once the
argument is printed instead. -/
def retriedErasure : History :=
  start "main" ⟨"main", 1, 1⟩
    |>.extend (.pushArgument .unranked)
    |>.extend (.append .add [⟨0⟩, ⟨0⟩] [.unranked] ⟨"main", 2, 1⟩)
    |>.extend (.append .print [⟨1⟩] [] ⟨"main", 3, 1⟩)
    |>.extend (.insertBefore ⟨1⟩ .transpose [⟨1⟩] [.unranked] ⟨"main", 3, 7⟩)
    |>.extend (.erase ⟨0⟩)
    |>.extend (.replaceUses ⟨1⟩ ⟨0⟩)
    |>.extend (.erase ⟨0⟩)

theorem inStep_of_reachable_retriedErasure :
    retriedErasure.Reachable ∧ retriedErasure.Short ∧ retriedErasure.InStep ∧
      retriedErasure.made = [⟨0⟩, ⟨1⟩, ⟨2⟩] ∧ retriedErasure.erased = [⟨0⟩] ∧
      retriedErasure.function.body = [⟨2⟩, ⟨1⟩] ∧
      retriedErasure.function.usersOf ⟨0⟩ = [⟨2⟩, ⟨1⟩] := by
  have reachable : retriedErasure.Reachable := by
    unfold retriedErasure
    iterate 7 refine .extend ?_ (by decide)
    exact .start _ _
  have short : retriedErasure.Short := ⟨by decide, by decide⟩
  exact ⟨reachable, short, (inStep_of_reachable reachable short).1,
    by decide, by decide, by decide, by decide⟩

end History

end Dataflow

end TensorLang
