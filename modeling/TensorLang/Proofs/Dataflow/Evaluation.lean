import TensorLang.Dataflow
import TensorLang.Proofs.Failing
import TensorLang.Proofs.Tensor.Operations

/-!
# The meaning of dataflow functions

An operation turns the tensors of its operands into those of its results, and it may print.  A call
does what the body of its callee does.  A value may be missing: that of a call whose callee returns
nothing.  It may be passed on, but an operation that reads its elements fails.
-/

namespace TensorLang

namespace Dataflow

/-- Why an evaluation has no result. -/
inductive Fault where
  /-- The elements of a missing value were read. -/
  | missing
  /-- The shapes of the operands do not fit the operation. -/
  | mismatch
  /-- A call has more or fewer arguments than the callee has parameters. -/
  | arity
  /-- Nothing has the name that a call names. -/
  | undeclared
  /-- Calls nest too deeply. -/
  | depth
  deriving DecidableEq

/-- What an evaluation prints and which values it gives.  A missing value is `none`. -/
structure Effects where
  /-- The printed tensors in order. -/
  printed : List Tensor
  /-- The values. -/
  values : List (Option Tensor)
  deriving DecidableEq

/-- What calls of functions do, by name. -/
abbrev Calls : Type := String → List (Option Tensor) → Except Fault Effects

/-- The tensor of each value; `none` for a missing value. -/
abbrev Environment : Type := ValueId → Option Tensor

namespace Environment

/-- No values. -/
def empty : Environment := fun _ => none

/-- Gives values in order to handles. -/
def define (environment : Environment) (ids : List ValueId) (values : List (Option Tensor)) :
    Environment := fun id =>
  match ids.idxOf? id with
  | some position => (values[position]?).join
  | none => environment id

end Environment

/-- The tensors of values that are all present. -/
def present (values : List (Option Tensor)) : Except Fault (List Tensor) :=
  match values.mapM id with
  | some tensors => .ok tensors
  | none => .error .missing

namespace OperationKind

/-- The tensor that a kind computes from those of its operands. -/
def compute? : OperationKind → List Tensor → Option Tensor
  | .constant literal, [] => some literal.toTensor
  | .add, [left, right] => left.combine? (· + ·) right
  | .multiply, [left, right] => left.combine? (· * ·) right
  | .matmul, [left, right] => left.matmul? right
  | .transpose, [tensor] => some tensor.transpose
  | .reshape shape, [tensor] => tensor.reshape? shape
  | _, _ => none

/-- Whether the kind prints. -/
def isPrint : OperationKind → Bool
  | print => true
  | _ => false

/-- What a kind prints and which results it gives for the values of its operands. -/
def perform (calls : Calls) : OperationKind → List (Option Tensor) → Except Fault Effects
  | .call callee, operands => calls callee operands
  | .cast, operands => .ok ⟨[], operands⟩
  | .leave, _ => .ok ⟨[], []⟩
  | .print, operands => do return ⟨← present operands, []⟩
  | kind, operands => do
      let tensors ← present operands
      match kind.compute? tensors with
      | some tensor => return ⟨[], [some tensor]⟩
      | none => throw .mismatch

end OperationKind

theorem present_eq_ok_iff {values : List (Option Tensor)} {tensors : List Tensor} :
    present values = .ok tensors ↔ values = tensors.map some := by
  rw [present, ← List.map_id values, ← Option.mapM_eq_some_iff, List.map_id]
  cases values.mapM id <;> simp

namespace OperationKind

/-- Whether an operation of the kind computes its only result from tensors. -/
def computes : OperationKind → Bool
  | .constant _ | .add | .multiply | .matmul | .transpose | .reshape _ => true
  | .call _ | .leave | .cast | .print => false

private theorem perform_of_computes {kind : OperationKind} {calls : Calls}
    {operands : List (Option Tensor)} (computes : kind.computes = true) :
    kind.perform calls operands = (do
      let tensors ← present operands
      match kind.compute? tensors with
      | some tensor => return ⟨[], [some tensor]⟩
      | none => throw .mismatch) := by
  cases kind with
  | call | leave | cast | print => cases computes
  | constant | add | multiply | matmul | transpose | reshape => rfl

/-- Performing an operation that computes succeeds if its operands are there and fit. -/
theorem perform_eq_ok_iff {kind : OperationKind} {calls : Calls}
    {operands : List (Option Tensor)} {effects : Effects} (computes : kind.computes = true) :
    kind.perform calls operands = .ok effects ↔
      ∃ tensors tensor, operands = tensors.map some ∧ kind.compute? tensors = some tensor ∧
        effects = ⟨[], [some tensor]⟩ := by
  rw [perform_of_computes computes, Except.bind_eq_ok_iff]
  refine exists_congr fun tensors => ?_
  rw [present_eq_ok_iff]
  cases kind.compute? tensors with
  | none => simp [throw, throwThe, MonadExceptOf.throw]
  | some tensor =>
      rw [Except.pure_eq_ok_iff]
      simp [eq_comm]

end OperationKind

/-- Evaluates operations in order until one returns; gives the returned values. -/
def evaluateCode (calls : Calls) : List Operation → Environment → Except Fault Effects
  | [], _ => .ok ⟨[], []⟩
  | operation :: rest, environment =>
      if operation.kind.isLeave then
        .ok ⟨[], operation.operands.map environment⟩
      else do
        let effects ← operation.kind.perform calls (operation.operands.map environment)
        let later ← evaluateCode calls rest (environment.define operation.results effects.values)
        return ⟨effects.printed ++ later.printed, later.values⟩

namespace Function

/-- The operations of the body in order. -/
def code (function : Function) : List Operation := function.body.filterMap function.operation?

/-- Evaluates the function with the values of its arguments. -/
def evaluate (function : Function) (calls : Calls) (values : List (Option Tensor)) :
    Except Fault Effects :=
  if values.length = function.arguments.length then
    evaluateCode calls function.code (Environment.empty.define function.arguments values)
  else
    .error .arity

end Function

/-- What calls do when each evaluates the body of its callee, nested no deeper than `depth`. -/
def Module.calls (module : Module) : (depth : Nat) → Calls
  | 0 => fun _ _ => .error .depth
  | depth + 1 => fun callee values =>
      match module.function? callee with
      | some function => function.evaluate (module.calls depth) values
      | none => .error .undeclared

/-! ### Environments -/

namespace Environment

variable {environment other : Environment} {ids : List ValueId} {values : List (Option Tensor)}
variable {id : ValueId}

theorem define_of_notMem (apart : id ∉ ids) :
    environment.define ids values id = environment id := by
  rw [define, List.idxOf?_eq_none_iff.mpr apart]

/-- What a defined handle gets does not depend on the values before. -/
theorem define_congr (member : id ∈ ids) :
    environment.define ids values id = other.define ids values id := by
  rw [define, define]
  cases found : ids.idxOf? id with
  | some position => rfl
  | none => exact absurd member (List.idxOf?_eq_none_iff.mp found)

theorem define_of_getElem? (distinct : ids.Nodup) {position : Nat}
    (found : ids[position]? = some id) :
    environment.define ids values id = (values[position]?).join := by
  obtain ⟨inside, get_eq⟩ := List.getElem?_eq_some_iff.mp found
  have first : ids.idxOf? id = some position := by
    refine List.idxOf?_eq_some_iff.mpr ⟨inside, get_eq, ?_⟩
    intro earlier before equal
    have same := (List.getElem_inj distinct).mp (equal.trans get_eq.symm)
    omega
  rw [define, first]

private theorem idxOf?_map {change : ValueId → ValueId}
    (apart : ∀ result ∈ ids, change id = change result → id = result) :
    (ids.map change).idxOf? (change id) = ids.idxOf? id := by
  induction ids with
  | nil => rfl
  | cons first rest induction =>
      have tail := induction fun result member => apart result (List.mem_cons_of_mem _ member)
      have head : (change first == change id) = (first == id) := by
        rw [Bool.eq_iff_iff, beq_iff_eq, beq_iff_eq]
        exact ⟨fun equal => (apart first List.mem_cons_self equal.symm).symm, congrArg change⟩
      rw [List.map_cons, List.idxOf?_cons, List.idxOf?_cons, head, tail]

theorem define_map {change : ValueId → ValueId}
    (apart : ∀ result ∈ ids, change id = change result → id = result)
    (agree : id ∉ ids → environment id = other (change id)) :
    environment.define ids values id = other.define (ids.map change) values (change id) := by
  rw [define, define, idxOf?_map apart]
  cases found : ids.idxOf? id with
  | some position => rfl
  | none => exact agree (List.idxOf?_eq_none_iff.mp found)

end Environment

/-! ### Parts of a body -/

/-- Evaluates operations that do not return; gives what they print and the environment after
them. -/
def advance (calls : Calls) :
    List Operation → Environment → Except Fault (List Tensor × Environment)
  | [], environment => return ([], environment)
  | operation :: rest, environment => do
      let effects ← operation.kind.perform calls (operation.operands.map environment)
      let (printed, final) ← advance calls rest
        (environment.define operation.results effects.values)
      return (effects.printed ++ printed, final)

variable {calls : Calls} {environment : Environment}

theorem evaluateCode_append {front back : List Operation}
    (goes_on : ∀ operation ∈ front, operation.kind.isLeave = false) :
    evaluateCode calls (front ++ back) environment = (do
      let (printed, middle) ← advance calls front environment
      let later ← evaluateCode calls back middle
      return ⟨printed ++ later.printed, later.values⟩) := by
  induction front generalizing environment with
  | nil => simp [advance]
  | cons operation front induction =>
      have others : ∀ other ∈ front, other.kind.isLeave = false :=
        fun other member => goes_on other (List.mem_cons_of_mem _ member)
      have proceeds : ¬ operation.kind.isLeave = true := by
        rw [goes_on operation List.mem_cons_self]
        exact Bool.false_ne_true
      rw [List.cons_append, evaluateCode, if_neg proceeds, advance, bind_assoc]
      refine bind_congr fun effects => ?_
      rw [induction others]
      simp [List.append_assoc]

theorem advance_append {front back : List Operation} :
    advance calls (front ++ back) environment = (do
      let (printed, middle) ← advance calls front environment
      let (later, final) ← advance calls back middle
      return (printed ++ later, final)) := by
  induction front generalizing environment with
  | nil => simp [advance]
  | cons operation front induction =>
      rw [List.cons_append, advance, advance, bind_assoc]
      refine bind_congr fun effects => ?_
      rw [induction]
      simp [List.append_assoc]

/-- A body that ends with its only return gives the values that the return names. -/
theorem evaluateCode_leave {front : List Operation} {last : Operation}
    (goes_on : ∀ operation ∈ front, operation.kind.isLeave = false)
    (leaves : last.kind.isLeave = true) :
    evaluateCode calls (front ++ [last]) environment = (do
      let (printed, final) ← advance calls front environment
      return ⟨printed, last.operands.map final⟩) := by
  rw [evaluateCode_append goes_on]
  refine bind_congr fun (printed, final) => ?_
  simp only [evaluateCode, if_pos leaves]
  change (.ok ⟨printed ++ [], _⟩ : Except Fault Effects) = _
  rw [List.append_nil]
  rfl

/-- Only results of operations are defined. -/
theorem advance_frame {code : List Operation} {printed : List Tensor} {final : Environment}
    (success : advance calls code environment = .ok (printed, final)) {id : ValueId}
    (apart : id ∉ code.flatMap Operation.results) : final id = environment id := by
  induction code generalizing environment printed with
  | nil =>
      cases success
      rfl
  | cons operation rest induction =>
      rw [List.flatMap_cons, List.mem_append, not_or] at apart
      simp only [advance, Except.bind_eq_ok_iff, Except.pure_eq_ok_iff, Prod.mk.injEq] at success
      obtain ⟨effects, -, ⟨later, last⟩, rest_eq, -, rfl⟩ := success
      rw [induction rest_eq apart.2, Environment.define_of_notMem apart.1]

/-! ### Bodies that end with a return -/

/-- The last operation returns, and no other one. -/
def Ending : List Operation → Prop
  | [] => False
  | [last] => last.kind.isLeave = true
  | operation :: next :: rest => operation.kind.isLeave = false ∧ Ending (next :: rest)

theorem ending_append_iff {front back : List Operation} (nonempty : back ≠ []) :
    Ending (front ++ back) ↔
      (∀ operation ∈ front, operation.kind.isLeave = false) ∧ Ending back := by
  induction front with
  | nil => simp
  | cons operation front induction =>
      have unfold_eq : Ending (operation :: (front ++ back)) ↔
          operation.kind.isLeave = false ∧ Ending (front ++ back) := by
        cases rest_eq : front ++ back with
        | nil => exact absurd (List.append_eq_nil_iff.mp rest_eq).2 nonempty
        | cons next rest => rfl
      rw [List.cons_append, unfold_eq, induction, List.forall_mem_cons, and_assoc]

theorem Ending.exists_last {code : List Operation} (ending : Ending code) :
    ∃ front last, code = front ++ [last] ∧ last.kind.isLeave = true ∧
      ∀ operation ∈ front, operation.kind.isLeave = false := by
  have nonempty : code ≠ [] := by
    rintro rfl
    exact ending
  refine ⟨code.dropLast, code.getLast nonempty, (List.dropLast_concat_getLast nonempty).symm, ?_⟩
  rw [← List.dropLast_concat_getLast nonempty, ending_append_iff (by simp)] at ending
  exact ending.symm

theorem goes_on_of_kinds {code other : List Operation}
    (kinds : other.map Operation.kind = code.map Operation.kind)
    (goes_on : ∀ operation ∈ code, operation.kind.isLeave = false) :
    ∀ operation ∈ other, operation.kind.isLeave = false := by
  intro operation member
  have kind_mem := List.mem_map_of_mem (f := Operation.kind) member
  rw [kinds] at kind_mem
  obtain ⟨original, original_mem, same⟩ := List.mem_map.mp kind_mem
  rw [← same]
  exact goes_on original original_mem

/-- Whether a list of operations ends with its only return depends on their kinds. -/
theorem Ending.of_kinds {code other : List Operation} (ending : Ending code)
    (kinds : other.map Operation.kind = code.map Operation.kind) : Ending other := by
  obtain ⟨front, last, rfl, leaves, goes_on⟩ := ending.exists_last
  rw [List.map_append, List.map_singleton] at kinds
  obtain ⟨twins, ends, rfl, twins_eq, ends_eq⟩ := List.map_eq_append_iff.mp kinds
  obtain ⟨twin, rfl, twin_eq⟩ := List.map_eq_singleton_iff.mp ends_eq
  have twin_leaves : twin.kind.isLeave = true := by rwa [twin_eq]
  exact (ending_append_iff (by simp)).mpr ⟨goes_on_of_kinds twins_eq goes_on, twin_leaves⟩

/-! ### Renaming -/

/-- What an operation does, whatever its handle and location. -/
def Operation.action (operation : Operation) : OperationKind × List ValueId × List ValueId :=
  (operation.kind, operation.operands, operation.results)

/-- What an operation does after a change of its operands and results. -/
def Operation.renamed (change : ValueId → ValueId) (operation : Operation) :
    OperationKind × List ValueId × List ValueId :=
  (operation.kind, operation.operands.map change, operation.results.map change)

/-- Every operand is available: given at first, or the result of an earlier operation. -/
def Dominated (available : List ValueId) : List Operation → Prop
  | [] => True
  | operation :: rest =>
      (∀ operand ∈ operation.operands, operand ∈ available) ∧
        Dominated (available ++ operation.results) rest

theorem Dominated.append_iff {available : List ValueId} {front back : List Operation} :
    Dominated available (front ++ back) ↔
      Dominated available front ∧
        Dominated (available ++ front.flatMap Operation.results) back := by
  induction front generalizing available with
  | nil => simp [Dominated]
  | cons operation front induction =>
      simp only [List.cons_append, Dominated, induction, List.flatMap_cons, and_assoc,
        List.append_assoc]

/-- Operands are available at first or results. -/
theorem Dominated.operand_mem {available : List ValueId} {code : List Operation}
    (dominated : Dominated available code) {operation : Operation} (member : operation ∈ code)
    {operand : ValueId} (reads : operand ∈ operation.operands) :
    operand ∈ available ++ code.flatMap Operation.results := by
  induction code generalizing available with
  | nil => cases member
  | cons first rest induction =>
      rw [List.flatMap_cons, ← List.append_assoc]
      rcases List.mem_cons.mp member with rfl | later
      · exact List.mem_append_left _ (List.mem_append_left _ (dominated.1 operand reads))
      · exact induction dominated.2 later

/-- Renamed operations do the same: environments that agree along the renaming on what is available
agree on what is available afterwards. -/
theorem advance_renamed (calls : Calls) {change : ValueId → ValueId} {available : List ValueId}
    {code copy : List Operation} {environment other : Environment}
    (copied : copy.map Operation.action = code.map (Operation.renamed change))
    (dominated : Dominated available code)
    (apart : ∀ result ∈ code.flatMap Operation.results,
      ∀ id ∈ available ++ code.flatMap Operation.results, change id = change result → id = result)
    (agree : ∀ id ∈ available, environment id = other (change id)) :
    (∀ fault, advance calls code environment = .error fault →
      advance calls copy other = .error fault) ∧
    ∀ printed final, advance calls code environment = .ok (printed, final) →
      ∃ last, advance calls copy other = .ok (printed, last) ∧
        ∀ id ∈ available ++ code.flatMap Operation.results, final id = last (change id) := by
  induction code generalizing available copy environment other with
  | nil =>
      obtain rfl := List.map_eq_nil_iff.mp copied
      refine ⟨fun fault failed => (by cases failed), fun printed final success => ?_⟩
      cases success
      exact ⟨other, rfl, by simpa using agree⟩
  | cons operation rest induction =>
      obtain ⟨twin, copies, rfl, action_eq, copies_eq⟩ := List.map_eq_cons_iff.mp copied
      simp only [Operation.action, Operation.renamed, Prod.mk.injEq] at action_eq
      obtain ⟨kind_eq, operands_eq, results_eq⟩ := action_eq
      have read : twin.operands.map other = operation.operands.map environment := by
        rw [operands_eq, List.map_map]
        exact List.map_congr_left fun operand member =>
          (agree operand (dominated.1 operand member)).symm
      have step : twin.kind.perform calls (twin.operands.map other) =
          operation.kind.perform calls (operation.operands.map environment) := by
        rw [kind_eq, read]
      rw [List.flatMap_cons, ← List.append_assoc] at apart ⊢
      rw [advance, advance, step]
      cases performed : operation.kind.perform calls (operation.operands.map environment) with
      | error fault =>
          refine ⟨fun other failed => ?_, fun printed final success => (by cases success)⟩
          cases failed
          rfl
      | ok effects =>
          have defined : ∀ id ∈ available ++ operation.results,
              environment.define operation.results effects.values id =
                other.define twin.results effects.values (change id) := by
            intro id member
            rw [results_eq]
            apply Environment.define_map
            · intro result result_mem
              exact apart result (List.mem_append_left _ result_mem) id
                (List.mem_append_left _ member)
            · intro outside
              exact agree id ((List.mem_append.mp member).resolve_right outside)
          obtain ⟨fails, succeeds⟩ := induction copies_eq dominated.2
            (fun result member => apart result (List.mem_append_right _ member)) defined
          simp only [bind, Except.bind]
          cases rest_eq : advance calls rest
              (environment.define operation.results effects.values) with
          | error inner =>
              rw [fails inner rest_eq]
              exact ⟨fun fault failed => failed, fun printed final success => (by cases success)⟩
          | ok pair =>
              obtain ⟨last, last_eq, agree_last⟩ := succeeds pair.1 pair.2 rest_eq
              refine ⟨fun fault failed => (by cases failed), fun printed final success => ?_⟩
              cases success
              rw [last_eq]
              exact ⟨last, rfl, agree_last⟩

/-- Renamed operations are of the same kinds. -/
theorem kinds_of_renamed {change : ValueId → ValueId} {code copy : List Operation}
    (copied : copy.map Operation.action = code.map (Operation.renamed change)) :
    copy.map Operation.kind = code.map Operation.kind := by
  have kinds := congrArg (List.map Prod.fst) copied
  rwa [List.map_map, List.map_map] at kinds

/-- Renamed operations that end with a return give the same effects. -/
theorem evaluateCode_renamed {change : ValueId → ValueId} {available : List ValueId}
    {code copy : List Operation} {environment other : Environment} (ending : Ending code)
    (copied : copy.map Operation.action = code.map (Operation.renamed change))
    (dominated : Dominated available code)
    (apart : ∀ result ∈ code.flatMap Operation.results,
      ∀ id ∈ available ++ code.flatMap Operation.results, change id = change result → id = result)
    (agree : ∀ id ∈ available, environment id = other (change id)) :
    evaluateCode calls copy other = evaluateCode calls code environment := by
  obtain ⟨front, last, rfl, leaves, goes_on⟩ := ending.exists_last
  rw [List.map_append, List.map_singleton] at copied
  obtain ⟨twins, ends, rfl, twins_eq, ends_eq⟩ := List.map_eq_append_iff.mp copied
  obtain ⟨twin, rfl, twin_eq⟩ := List.map_eq_singleton_iff.mp ends_eq
  simp only [Operation.action, Operation.renamed, Prod.mk.injEq] at twin_eq
  obtain ⟨kind_eq, operands_eq, -⟩ := twin_eq
  have twins_go_on := goes_on_of_kinds (kinds_of_renamed twins_eq) goes_on
  rw [Dominated.append_iff] at dominated
  have subset : front.flatMap Operation.results ⊆ (front ++ [last]).flatMap Operation.results := by
    rw [List.flatMap_append]
    exact List.subset_append_left _ _
  obtain ⟨fails, succeeds⟩ := advance_renamed calls twins_eq dominated.1
    (fun result member id place => apart result (subset member) id
      (List.append_subset.mpr ⟨List.subset_append_left _ _,
        fun _ defined => List.mem_append_right _ (subset defined)⟩ place)) agree
  rw [evaluateCode_leave goes_on leaves, evaluateCode_leave twins_go_on (kind_eq ▸ leaves)]
  cases advanced : advance calls front environment with
  | error fault =>
      rw [fails fault advanced]
      rfl
  | ok pair =>
      obtain ⟨final, final_eq, agree_final⟩ := succeeds pair.1 pair.2 advanced
      rw [final_eq]
      have values_eq : twin.operands.map final = last.operands.map pair.2 := by
        rw [operands_eq, List.map_map]
        exact List.map_congr_left fun operand member =>
          (agree_final operand (dominated.2.1 operand member)).symm
      simp only [bind, Except.bind, values_eq]

end Dataflow

end TensorLang
