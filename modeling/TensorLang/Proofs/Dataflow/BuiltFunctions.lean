import TensorLang.Proofs.Dataflow.EditHistories
import TensorLang.Proofs.Dataflow.Typing
import TensorLang.Proofs.Refusing

/-!
# Verification of functions that were built by edits

Edits keep the body, the results and the use lists of a function in step, whatever values are listed
as its arguments and whatever its signature says.  So of such a function verification finds out just
what edits may leave wrong: the list of arguments, the order of definitions and reads, and the
return.
-/

namespace TensorLang

namespace Dataflow

namespace Function

variable {function changed : Function}

/-- Functions that edits build from an empty one.  In between, values may be given other types, and
any existing values may be listed as the arguments and any types as those of the results. -/
inductive Built : Function → Prop
  | new (name : String) (location : Location) : Built (Function.new name location)
  | edit {function : Function} {change : Change} (built : Built function)
      (applies : change.Applies function) : Built (change.edit.outcome function).1
  | retype {function : Function} {id : ValueId} (built : Built function)
      (existing : id.index < function.values.size) (type : TensorType) :
      Built (function.withType id type)
  | assign {function : Function} {arguments : List ValueId} (built : Built function)
      (existing : ∀ argument ∈ arguments, argument.index < function.values.size)
      (resultTypes : List TensorType) : Built { function with arguments, resultTypes }

/-- Arguments, operands and the return of a function are in order. -/
structure Orderly (function : Function) : Prop where
  /-- Each listed argument is defined as the argument at its position. -/
  arguments : ∀ (position : Nat) argument, function.arguments[position]? = some argument →
    function.definition? argument = some (.argument position)
  /-- Each operand is a listed argument or a result of an operation that stands earlier. -/
  operands : ∀ front operation back, function.code = front ++ operation :: back →
    ∀ operand ∈ operation.operands,
      operand ∈ function.arguments ∨ ∃ earlier ∈ front, operand ∈ earlier.results
  /-- The last operation is the only return, and the signature has as many results. -/
  returns : ∃ front last, function.code = front ++ [last] ∧ last.kind = .leave ∧
    (∀ operation ∈ front, operation.kind ≠ .leave) ∧
      last.operands.length = function.resultTypes.length

/-! ### What edits keep -/

/-- The function without the list of its arguments. -/
def withoutArguments (function : Function) : Function := { function with arguments := [] }

/-- Everything but the list of arguments is in step, and the arguments exist. -/
structure Consistent (function : Function) : Prop where
  /-- Body, results and use lists say the same as the operations. -/
  recorded : function.withoutArguments.Recorded
  /-- The body lists all live operations. -/
  stocked : function.Stocked fun _ => True
  /-- The arguments exist. -/
  existing : ∀ argument ∈ function.arguments, argument.index < function.values.size

theorem Recorded.of_definitions (recorded : function.Recorded)
    (arguments_eq : changed.arguments = function.arguments)
    (body_eq : changed.body = function.body)
    (operations_eq : changed.operations = function.operations)
    (uses_eq : changed.uses = function.uses)
    (kept : ∀ {id definition}, function.definition? id = some definition →
      changed.definition? id = some definition) : changed.Recorded := by
  have operation?_eq : changed.operation? = function.operation? := by
    funext id
    rw [operation?, operation?, operations_eq]
  have code_eq : changed.code = function.code := by
    rw [code, code, operation?_eq, body_eq]
  constructor
  · rw [body_eq, operation?_eq]
    exact recorded.live
  · rw [body_eq]
    exact recorded.nodup
  · intro position argument found
    rw [arguments_eq] at found
    exact kept (recorded.argumentsDefined position argument found)
  · intro operation member position result found
    rw [code_eq] at member
    exact kept (recorded.resultsDefined operation member position result found)
  · intro value
    rw [usersOf, uses_eq, code_eq]
    exact recorded.users value

private theorem withoutArguments_redirectUser (replaced replacement : ValueId) (function : Function)
    (user : OperationId) :
    (redirectUser replaced replacement function user).withoutArguments =
      redirectUser replaced replacement function.withoutArguments user := by
  unfold redirectUser
  split
  · rename_i missing
    split
    · rfl
    · rename_i operation found
      cases missing.symm.trans found
  · rename_i operation found
    split
    · rename_i missing
      cases found.symm.trans missing
    · rename_i other other_eq
      obtain rfl := Option.some.inj (found.symm.trans other_eq)
      rfl

theorem withoutArguments_redirectUsers (replaced replacement : ValueId) :
    (function.redirectUsers replaced replacement).withoutArguments =
      function.withoutArguments.redirectUsers replaced replacement := by
  have each : ∀ (users : List OperationId) (function : Function),
      (users.foldl (redirectUser replaced replacement) function).withoutArguments =
        users.foldl (redirectUser replaced replacement) function.withoutArguments := by
    intro users
    induction users with
    | nil => exact fun _ => rfl
    | cons user users induction =>
        intro function
        rw [List.foldl_cons, List.foldl_cons, induction, withoutArguments_redirectUser]
  rw [redirectUsers, redirectUsers]
  split
  · rfl
  · exact each _ _

namespace Consistent

theorem live (consistent : function.Consistent) : function.Live := consistent.recorded.live

theorem id_eq (consistent : function.Consistent) {id : OperationId} {operation : Operation}
    (found : function.operation? id = some operation) : operation.id = id := by
  obtain ⟨known, known_eq, id_eq⟩ :=
    consistent.recorded.live id (consistent.stocked id operation found).1
  obtain rfl := Option.some.inj (found.symm.trans known_eq)
  exact id_eq

theorem new (name : String) (location : Location) : (Function.new name location).Consistent where
  recorded := .new name location
  stocked := fun _ _ found => by cases found
  existing := by simp [Function.new]

theorem assign (consistent : function.Consistent) {arguments : List ValueId}
    (existing : ∀ argument ∈ arguments, argument.index < function.values.size)
    (resultTypes : List TensorType) :
    ({ function with arguments, resultTypes } : Function).Consistent where
  recorded := consistent.recorded.of_definitions rfl rfl rfl rfl fun found => found
  stocked := consistent.stocked
  existing := existing

theorem retype (consistent : function.Consistent) (id : ValueId) (type : TensorType) :
    (function.withType id type).Consistent where
  recorded := consistent.recorded.of_definitions rfl rfl rfl rfl fun found =>
    (definition?_withType id _ type).trans found
  stocked := consistent.stocked
  existing := by
    intro argument member
    have size_eq : (function.withType id type).values.size = function.values.size :=
      Arena.size_modify _ _ _
    rw [size_eq]
    exact consistent.existing argument member

theorem pushArgument (consistent : function.Consistent) (type : TensorType) :
    (function.pushArgument type).1.Consistent where
  recorded := by
    refine consistent.recorded.of_definitions rfl rfl rfl rfl fun {id definition} found => ?_
    have old := lt_size_of_definition? found
    rw [definition?] at found ⊢
    change ((function.values.push _).get? id).map _ = _
    rw [Arena.get?_push, if_neg]
    · exact found
    · rintro rfl
      exact Nat.lt_irrefl _ old
  stocked := consistent.stocked
  existing := by
    intro argument member
    change argument ∈ function.arguments ++ [function.values.nextId] at member
    change argument.index < (function.values.push _).size
    rw [Arena.size_push]
    rcases List.mem_append.mp member with earlier | last
    · exact Nat.lt_succ_of_lt (consistent.existing argument earlier)
    · rw [List.mem_singleton.mp last]
      exact Nat.lt_succ_self _

/-- A new operation keeps everything in step, wherever it stands. -/
theorem insert (consistent : function.Consistent) {front back : List Operation}
    (code_eq : function.code = front ++ back) {kind : OperationKind} {operands : List ValueId}
    {types : List TensorType} {location : Location}
    (changed_eq : changed = { (function.addOperation kind operands types location).1 with
      body := front.map Operation.id ++ function.operations.nextId :: back.map Operation.id }) :
    changed.Consistent := by
  have bare_eq : changed.withoutArguments =
      { (function.withoutArguments.addOperation kind operands types location).1 with
        body := front.map Operation.id ++
          function.operations.nextId :: back.map Operation.id } := by
    rw [changed_eq]
    rfl
  have kept : function.body ⊆
      front.map Operation.id ++ function.operations.nextId :: back.map Operation.id := by
    rw [body_eq_code consistent.live, code_eq, List.map_append]
    exact List.append_subset.mpr ⟨List.subset_append_left _ _,
      List.subset_append_of_subset_right _ (List.subset_cons_self _ _)⟩
  constructor
  · exact consistent.recorded.insert code_eq bare_eq
  · exact consistent.stocked.add trivial kept
      (List.mem_append_right _ List.mem_cons_self) changed_eq
  · obtain ⟨-, -, extension, -⟩ := consistent.recorded.embodied.insert code_eq bare_eq
    intro argument member
    rw [changed_eq] at member
    exact Nat.lt_of_lt_of_le (consistent.existing argument member) extension.size

theorem redirectUsers (consistent : function.Consistent) (replaced replacement : ValueId) :
    (function.redirectUsers replaced replacement).Consistent where
  recorded := by
    rw [withoutArguments_redirectUsers]
    exact consistent.recorded.redirectUsers replaced replacement
  stocked := consistent.stocked.redirectUsers replaced replacement
  existing := by
    obtain ⟨extension, -, values_eq⟩ := redirectUsers_keeps function replaced replacement
    rw [extension.arguments, values_eq]
    exact consistent.existing

theorem removeOperation (consistent : function.Consistent) {id : OperationId}
    {operation : Operation} (found : function.operation? id = some operation)
    (unused : function.resultUses operation = 0) :
    (function.removeOperation operation).Consistent where
  recorded := consistent.recorded.removeOperation (consistent.stocked.mem_code found) unused
  stocked := consistent.stocked.erase (Edit.erase_eq_ok_of found unused)
  existing := consistent.existing

/-- Whatever an edit is asked to do with what exists, it keeps everything in step. -/
theorem edit (consistent : function.Consistent) {change : Change}
    (applies : change.Applies function) : (change.edit.outcome function).1.Consistent := by
  have ended : ∀ {made changed}, change.edit function = .ok made changed → changed.Consistent →
      (change.edit.outcome function).1.Consistent := by
    intro made changed success kept
    rw [Edit.outcome, success]
    exact kept
  cases change with
  | pushArgument type => exact consistent.pushArgument type
  | append kind operands types location =>
      have success : Edit.append kind operands types location function = .ok _ _ :=
        Edit.append_eq_ok_iff.mpr ⟨applies, rfl, rfl⟩
      refine ended (EStateM.bind_eq_ok_iff.mpr ⟨_, _, success, rfl⟩) ?_
      apply consistent.insert (List.append_nil _).symm
      rw [body_eq_code consistent.live]
      rfl
  | insertBefore anchor kind operands types location =>
      obtain ⟨operation, found⟩ := Option.isSome_iff_exists.mp applies.1
      have member := consistent.stocked.mem_code found
      obtain ⟨position, position_eq⟩ := consistent.recorded.idxOf?_isSome member
      obtain rfl := consistent.id_eq found
      have success : Edit.insertBefore operation.id kind operands types location function =
          .ok _ _ := Edit.insertBefore_eq_ok_iff.mpr ⟨position, position_eq, applies.2, rfl, rfl⟩
      refine ended (EStateM.bind_eq_ok_iff.mpr ⟨_, _, success, rfl⟩) ?_
      obtain ⟨front, back, code_eq⟩ := List.append_of_mem member
      have embodied : function.Embodied :=
        ⟨consistent.live, consistent.recorded.nodup, consistent.recorded.embodied.recorded⟩
      exact consistent.insert code_eq (embodied.insertBefore_eq code_eq success).2.2
  | replaceUses replaced replacement =>
      have success : Edit.replaceUses replaced replacement function = .ok _ _ :=
        replaceUses_of_live fun _ uses => consistent.recorded.isSome_of_uses uses
      exact ended (EStateM.bind_eq_ok_iff.mpr ⟨_, _, success, rfl⟩)
        (consistent.redirectUsers replaced replacement)
  | erase id =>
      obtain ⟨operation, found⟩ := Option.isSome_iff_exists.mp applies
      by_cases used : 0 < function.resultUses operation
      · have failed := Edit.erase_eq found
        rw [if_pos used] at failed
        have kept : ((Change.erase id).edit.outcome function).1 = function := by
          simp only [Change.edit, Edit.outcome, bind, EStateM.bind, failed]
        rw [kept]
        exact consistent
      · have unused := Nat.eq_zero_of_not_pos used
        exact ended (EStateM.bind_eq_ok_iff.mpr ⟨_, _, Edit.erase_eq_ok_of found unused, rfl⟩)
          (consistent.removeOperation found unused)

end Consistent

theorem Built.consistent (built : function.Built) : function.Consistent := by
  induction built with
  | new name location => exact .new name location
  | edit _ applies consistent => exact consistent.edit applies
  | retype _ _ type consistent => exact consistent.retype _ type
  | assign _ existing resultTypes consistent => exact consistent.assign existing resultTypes

/-- The body of a function that edits have built lists live operations only. -/
theorem Built.live (built : function.Built) : function.Live := built.consistent.live

/-! ### What verification finds out -/

theorem isLeave_iff {kind : OperationKind} : kind.isLeave = true ↔ kind = .leave := by
  cases kind <;> simp [OperationKind.isLeave]

/-- Operands are available if they are where the list is split in front of their reader. -/
theorem dominated_iff {available : List ValueId} {code : List Operation} :
    Dominated available code ↔ ∀ front operation back, code = front ++ operation :: back →
      ∀ operand ∈ operation.operands,
        operand ∈ available ∨ ∃ earlier ∈ front, operand ∈ earlier.results := by
  constructor
  · rintro dominated front operation back rfl operand reads
    rw [Dominated.append_iff] at dominated
    have usable := dominated.2.1 operand reads
    rwa [List.mem_append, List.mem_flatMap] at usable
  · intro ordered
    induction code generalizing available with
    | nil => trivial
    | cons first rest induction =>
        constructor
        · intro operand reads
          simpa using ordered [] first rest rfl operand reads
        · apply induction
          rintro front operation back rfl operand reads
          have usable := ordered (first :: front) operation back rfl operand reads
          rw [List.mem_append, or_assoc]
          refine usable.imp_right ?_
          rintro ⟨earlier, earlier_mem, defines⟩
          rcases List.mem_cons.mp earlier_mem with rfl | later
          · exact .inl defines
          · exact .inr ⟨earlier, later, defines⟩

theorem Consistent.verified_iff (consistent : function.Consistent) :
    function.Verified ↔ function.Orderly := by
  constructor
  · intro verified
    obtain ⟨front, last, code_eq, leaves, goes_on⟩ := verified.ending.exists_last
    have last_mem : last ∈ function.code := by simp [code_eq]
    refine ⟨verified.argumentsDefined, dominated_iff.mp verified.dominated, front, last, code_eq,
      isLeave_iff.mp leaves, fun operation member kind_eq => ?_,
      verified.returns last last_mem leaves⟩
    have proceeds := goes_on operation member
    rw [isLeave_iff.mpr kind_eq] at proceeds
    cases proceeds
  · intro orderly
    obtain ⟨front, last, code_eq, leaves, goes_on, count⟩ := orderly.returns
    have proceeds : ∀ operation ∈ front, operation.kind.isLeave = false := by
      intro operation member
      rw [← Bool.not_eq_true, isLeave_iff]
      exact goes_on operation member
    exact {
      live := consistent.live
      nodup := consistent.recorded.nodup
      argumentsDefined := orderly.arguments
      resultsDefined := consistent.recorded.resultsDefined
      users := consistent.recorded.users
      dominated := dominated_iff.mpr orderly.operands
      ending := by
        rw [code_eq, ending_append_iff (List.cons_ne_nil _ _)]
        exact ⟨proceeds, isLeave_iff.mpr leaves⟩
      returns := by
        intro operation member ends
        rw [code_eq] at member
        rcases List.mem_append.mp member with earlier | final
        · cases (proceeds operation earlier).symm.trans ends
        · rw [List.mem_singleton.mp final]
          exact count }

/-- A broken invariant at some place is reported. -/
def Reported (error : Error) : Prop :=
  ∃ message location, error = ⟨.brokenInvariant message, some location⟩

private theorem delivers_checkArguments
    (existing : ∀ argument ∈ function.arguments, argument.index < function.values.size) :
    Outcome.Delivers function.checkArguments (fun _ => True) Reported := by
  apply Outcome.Delivers.forM
  rintro ⟨argument, position⟩ member
  have inside := existing argument (List.fst_mem_of_mem_zipIdx member)
  obtain ⟨value, found⟩ := Option.ne_none_iff_exists'.mp fun missing =>
    absurd inside (Nat.not_lt.mpr ((Arena.get?_eq_none_iff _ argument).mp missing))
  refine (Outcome.Delivers.promised found trivial).bind fun value _ (_ : True) => ?_
  split
  · exact .failAt ⟨_, _, rfl⟩
  · trivial

private theorem delivers_checkOperands {seen : Std.TreeSet Nat} {operation : Operation} :
    Outcome.Delivers (function.checkOperands seen operation) (fun _ => True) Reported := by
  apply Outcome.Delivers.forM
  intro operand _
  split
  · exact .failAt ⟨_, _, rfl⟩
  · split
    · trivial
    · exact .failAt ⟨_, _, rfl⟩

private theorem delivers_checkResults {operation : Operation}
    (defined : ∀ (position : Nat) result, operation.results[position]? = some result →
      function.definition? result = some (.result operation.id position)) :
    Outcome.Delivers (function.checkResults operation) (fun _ => True) Reported :=
  .of_ok (checkResults_eq_ok_iff.mpr defined) trivial

private theorem delivers_checkReturn {operation : Operation} {isLast : Bool} :
    Outcome.Delivers (function.checkReturn operation isLast) (fun _ => True) Reported := by
  rw [checkReturn]
  split
  · exact .failAt ⟨_, _, rfl⟩
  · dsimp only
    split
    · exact .failAt ⟨_, _, rfl⟩
    · trivial

private theorem delivers_checkBody {seen : Std.TreeSet Nat} {body : List OperationId}
    (defined : ∀ operation ∈ function.code, ∀ (position : Nat) result,
      operation.results[position]? = some result →
        function.definition? result = some (.result operation.id position))
    (subset : body ⊆ function.body) :
    Outcome.Delivers (function.checkBody seen body) (fun _ => True) Reported := by
  induction body generalizing seen with
  | nil => trivial
  | cons id rest induction =>
      obtain ⟨id_mem, rest_subset⟩ := List.cons_subset.mp subset
      rw [checkBody]
      split
      · exact .failAt ⟨_, _, rfl⟩
      · rename_i operation found
        have member := mem_code_iff.mpr ⟨id, id_mem, found⟩
        have later : Outcome.Delivers (do
            function.checkOperands seen operation
            function.checkResults operation
            function.checkReturn operation rest.isEmpty
            function.checkBody (seen.insert id.index) rest) (fun _ => True) Reported :=
          delivers_checkOperands.bind fun _ _ _ =>
            (delivers_checkResults (defined operation member)).bind fun _ _ _ =>
              delivers_checkReturn.bind fun _ _ _ => induction rest_subset
        split
        · exact .failAt ⟨_, _, rfl⟩
        · exact later

/-- Verification ends, and what it does not accept it reports. -/
theorem Consistent.delivers_verify (consistent : function.Consistent) :
    Outcome.Delivers function.verify (fun _ => True) Reported := by
  have defined : ∀ operation ∈ function.code, ∀ (position : Nat) result,
      operation.results[position]? = some result →
        function.definition? result = some (.result operation.id position) :=
    consistent.recorded.resultsDefined
  rw [verify, bodyOperations_eq consistent.live]
  refine (delivers_checkArguments consistent.existing).bind fun _ _ _ => ?_
  refine (delivers_checkBody defined (List.Subset.refl _)).bind fun _ _ _ => ?_
  dsimp only
  split
  · exact .failAt ⟨_, _, rfl⟩
  · change Outcome.Delivers (ite _ _ _) _ _
    split
    · exact .failAt ⟨_, _, rfl⟩
    · trivial

/-- Verification of a function that edits have built accepts it exactly if its arguments, operands
and return are in order, and otherwise reports a broken invariant at some place. -/
theorem verify_iff_orderly_of_built (built : function.Built) :
    (function.verify = .ok () ↔ function.Orderly) ∧
      ∀ failure, function.verify = .error failure →
        ∃ message location, failure = .error ⟨.brokenInvariant message, some location⟩ := by
  have consistent := built.consistent
  refine ⟨verify_eq_ok_iff.trans consistent.verified_iff, fun failure failed => ?_⟩
  cases failure with
  | fault => exact absurd failed consistent.delivers_verify.ne_fault
  | error error =>
      obtain ⟨message, location, rfl⟩ := consistent.delivers_verify.refused failed
      exact ⟨message, location, rfl⟩

/-- Returns the second of two arguments; these are listed as given. -/
def returningSecond (arguments : List ValueId) : Function :=
  let changes : List Change :=
    [.pushArgument .unranked, .pushArgument .unranked, .append .leave [⟨1⟩] [] ⟨"main", 2, 1⟩]
  let function := changes.foldl (fun function change => (change.edit.outcome function).1)
    (Function.new "main" ⟨"main", 1, 1⟩)
  { function with arguments, resultTypes := [.unranked] }

theorem verify_iff_orderly_of_built_returningSecond :
    (returningSecond [⟨0⟩, ⟨1⟩]).Built ∧ (returningSecond [⟨0⟩, ⟨1⟩]).Orderly ∧
      (returningSecond [⟨1⟩, ⟨0⟩]).Built ∧ ¬ (returningSecond [⟨1⟩, ⟨0⟩]).Orderly := by
  have built : ∀ arguments : List ValueId, (∀ argument ∈ arguments, argument.index < 2) →
      (returningSecond arguments).Built := by
    intro arguments existing
    refine .assign ?_ existing _
    refine .edit ?_ (by decide)
    refine .edit ?_ (by decide)
    refine .edit ?_ (by decide)
    exact .new _ _
  have straight := built [⟨0⟩, ⟨1⟩] (by decide)
  have crossed := built [⟨1⟩, ⟨0⟩] (by decide)
  obtain ⟨failure, refused⟩ : ∃ failure, (returningSecond [⟨1⟩, ⟨0⟩]).verify = .error failure :=
    ⟨_, by rfl⟩
  refine ⟨straight, (verify_iff_orderly_of_built straight).1.mp (by rfl), crossed, ?_⟩
  intro orderly
  rw [(verify_iff_orderly_of_built crossed).1.mpr orderly] at refused
  cases refused

end Function

end Dataflow

end TensorLang
