import Mathlib.Data.List.Nodup
import TensorLang.Dataflow.Inlining
import TensorLang.Proofs.Dataflow.WellFormed

/-!
# Calls without recursion

A walk along the calls from a function lists the functions that it reaches, each in front of those
that it calls.  Such a list is a proof that calls end: they nest no deeper than the list is long,
and evaluation does not change when they may nest deeper.
-/

namespace TensorLang

namespace Dataflow

/-- The functions that operations call, in the order of the calls. -/
def calledNames (code : List Operation) : List String :=
  code.filterMap fun operation => operation.kind.callee?

/-- The functions that a function calls, in the order of the calls. -/
def Function.callees (function : Function) : List String := calledNames function.code

theorem mem_calledNames {code : List Operation} {name : String} :
    name ∈ calledNames code ↔ ∃ operation ∈ code, operation.kind = .call name := by
  rw [calledNames, List.mem_filterMap]
  refine exists_congr fun operation => and_congr_right fun _ => ?_
  cases operation.kind <;> simp [OperationKind.callee?]

theorem callSite?_eq_some_iff {operation : Operation} {site : CallSite} :
    operation.callSite? = some site ↔
      operation.kind = .call site.callee ∧ operation.id = site.id ∧
        operation.location = site.location := by
  obtain ⟨id, callee, location⟩ := site
  obtain ⟨own, kind, operands, results, place⟩ := operation
  cases kind with
  | call name => simp [Operation.callSite?, OperationKind.callee?, and_left_comm]
  | _ => simp [Operation.callSite?, OperationKind.callee?]

theorem calledNames_append (front back : List Operation) :
    calledNames (front ++ back) = calledNames front ++ calledNames back :=
  List.filterMap_append

/-- Which functions are called depends on the kinds of the operations. -/
theorem calledNames_of_kinds {code other : List Operation}
    (kinds : other.map Operation.kind = code.map Operation.kind) :
    calledNames other = calledNames code := by
  have same := congrArg (List.filterMap OperationKind.callee?) kinds
  rwa [List.filterMap_map, List.filterMap_map] at same

private theorem evaluateCode_congr {calls other : Calls} {code : List Operation}
    {environment : Environment} (same : ∀ name ∈ calledNames code, calls name = other name) :
    evaluateCode calls code environment = evaluateCode other code environment := by
  induction code generalizing environment with
  | nil => rfl
  | cons operation rest induction =>
      have tail : ∀ name ∈ calledNames rest, calls name = other name := by
        intro name member
        obtain ⟨caller, caller_mem, kind_eq⟩ := mem_calledNames.mp member
        exact same name (mem_calledNames.mpr ⟨caller, List.mem_cons_of_mem _ caller_mem, kind_eq⟩)
      have step : ∀ operands, operation.kind.perform calls operands =
          operation.kind.perform other operands := by
        intro operands
        cases kind_eq : operation.kind with
        | call name =>
            have called : name ∈ calledNames (operation :: rest) :=
              mem_calledNames.mpr ⟨operation, List.mem_cons_self, kind_eq⟩
            exact congrFun (same name called) operands
        | _ => rfl
      rw [evaluateCode, evaluateCode, step]
      simp only [induction tail]

theorem Function.evaluate_congr {calls other : Calls} {function : Function}
    (same : ∀ name ∈ function.callees, calls name = other name) (values : List (Option Tensor)) :
    function.evaluate calls values = function.evaluate other values := by
  rw [evaluate, evaluate, evaluateCode_congr same]

namespace Module

variable {module : Module} {names path finished : List String} {name : String}
variable {function : Function}

theorem name_of_function? (found : module.function? name = some function) :
    function.name = name := by
  have named := List.find?_some found
  exact beq_iff_eq.mp named

theorem mem_of_function? (found : module.function? name = some function) :
    function ∈ module.functions :=
  List.mem_of_find?_eq_some found

/-- Different names make a function the one of its name. -/
theorem function?_of_mem (unique : (module.functions.map Function.name).Nodup)
    (member : function ∈ module.functions) : module.function? function.name = some function := by
  cases found : module.function? function.name with
  | none => exact absurd (beq_self_eq_true _) (List.find?_eq_none.mp found function member)
  | some other =>
      rw [List.inj_on_of_nodup_map unique (mem_of_function? found) member (name_of_function? found)]

/-- The order of functions with different names is of no account. -/
theorem function?_of_perm {other : Module} (unique : (module.functions.map Function.name).Nodup)
    (same : other.functions.Perm module.functions) (name : String) :
    other.function? name = module.function? name := by
  cases found : other.function? name with
  | none =>
      refine (List.find?_eq_none.mpr fun function member => ?_).symm
      exact List.find?_eq_none.mp found function (same.mem_iff.mpr member)
  | some function =>
      obtain rfl := name_of_function? found
      exact (function?_of_mem unique (same.mem_iff.mp (mem_of_function? found))).symm

/-- There are at least as many functions as a list of them without repetitions names. -/
theorem length_le_of_nodup (nodup : names.Nodup)
    (existing : ∀ name ∈ names, ∃ function, module.function? name = some function) :
    names.length ≤ module.functions.length := by
  have subset : names ⊆ module.functions.map Function.name := by
    intro name member
    obtain ⟨function, found⟩ := existing name member
    exact List.mem_map.mpr ⟨function, mem_of_function? found, name_of_function? found⟩
  have bound := nodup.length_le_of_subset subset
  rwa [List.length_map] at bound

/-- Calls lead from one function to another. -/
inductive Reaches (module : Module) (entry : String) : String → Prop
  /-- No call is needed. -/
  | start : Reaches module entry entry
  /-- A function that calls lead to calls another. -/
  | call {name callee : String} {function : Function} (reaches : Reaches module entry name)
      (found : module.function? name = some function) (calls : callee ∈ function.callees) :
      Reaches module entry callee

/-- Every function of the list exists and calls only functions that stand after it. -/
def Resolved (module : Module) : List String → Prop
  | [] => True
  | name :: rest =>
      (∃ function, module.function? name = some function ∧ function.callees ⊆ rest) ∧
        module.Resolved rest

namespace Resolved

theorem function_of_mem (resolved : module.Resolved names) (member : name ∈ names) :
    ∃ function, module.function? name = some function ∧ function.callees ⊆ names := by
  induction names with
  | nil => cases member
  | cons first rest induction =>
      obtain ⟨⟨function, found, callees⟩, others⟩ := resolved
      rcases List.mem_cons.mp member with rfl | later
      · exact ⟨function, found, List.subset_cons_of_subset _ callees⟩
      · obtain ⟨function, found, callees⟩ := induction others later
        exact ⟨function, found, List.subset_cons_of_subset _ callees⟩

/-- There are at least as many functions as a list without repetitions resolves. -/
theorem length_le (resolved : module.Resolved names) (nodup : names.Nodup) :
    names.length ≤ module.functions.length :=
  length_le_of_nodup nodup fun _ member =>
    let ⟨function, found, _⟩ := resolved.function_of_mem member
    ⟨function, found⟩

private theorem calls_succ (resolved : module.Resolved names) {depth : Nat}
    (deep : names.length ≤ depth)
    (member : name ∈ names) : module.calls (depth + 1) name = module.calls depth name := by
  induction names generalizing depth name with
  | nil => cases member
  | cons first rest induction =>
      obtain ⟨⟨function, found, callees⟩, others⟩ := resolved
      cases depth with
      | zero => cases deep
      | succ depth =>
          rw [List.length_cons, Nat.succ_le_succ_iff] at deep
          rcases List.mem_cons.mp member with rfl | later
          · funext values
            simp only [calls, found]
            exact Function.evaluate_congr
              (fun callee called => induction others deep (callees called)) values
          · exact induction others (Nat.le_succ_of_le deep) later

/-- Deep enough, a call does what its callee does at the same depth. -/
theorem calls_eq (resolved : module.Resolved names) {depth : Nat} (deep : names.length ≤ depth)
    (member : name ∈ names) (found : module.function? name = some function)
    (values : List (Option Tensor)) :
    module.calls depth name values = function.evaluate (module.calls depth) values := by
  rw [← resolved.calls_succ deep member]
  simp only [calls, found]

end Resolved

/-- What a walk has found so far: the functions that are done stand in front of those that they
call, and none of them is on the path. -/
structure Walked (module : Module) (path finished : List String) : Prop where
  /-- Functions stand in front of those that they call. -/
  resolved : module.Resolved finished
  /-- No function is done twice. -/
  nodup : finished.Nodup
  /-- No function on the path is done. -/
  apart : ∀ name ∈ finished, name ∉ path

namespace Walked

private theorem enter (walked : module.Walked path finished) (undone : name ∉ finished) :
    module.Walked (path ++ [name]) finished where
  resolved := walked.resolved
  nodup := walked.nodup
  apart := by
    intro other member
    rw [List.mem_append, List.mem_singleton, not_or]
    exact ⟨walked.apart other member, fun same => undone (same ▸ member)⟩

/-- A function is done once all that it calls are. -/
private theorem leave {callee : Function} (walked : module.Walked (path ++ [callee.name]) finished)
    (outside : callee.name ∉ path) (found : module.function? callee.name = some callee)
    (called : callee.callees ⊆ finished) : module.Walked path (callee.name :: finished) where
  resolved := ⟨⟨callee, found, called⟩, walked.resolved⟩
  nodup := by
    refine List.nodup_cons.mpr ⟨fun member => ?_, walked.nodup⟩
    exact walked.apart _ member (List.mem_append_right _ (List.mem_singleton_self _))
  apart := by
    intro name member
    rcases List.mem_cons.mp member with rfl | earlier
    · exact outside
    · exact fun on_path => walked.apart name earlier (List.mem_append_left _ on_path)

end Walked

/-- The calls of a function whose operations are live. -/
theorem callSites_eq (live : function.Live) :
    function.callSites = .ok (function.code.filterMap Operation.callSite?) := by
  rw [Function.callSites, Function.bodyOperations_eq live]
  rfl

private theorem map_callee_callSites (code : List Operation) :
    (code.filterMap Operation.callSite?).map CallSite.callee = calledNames code := by
  rw [List.map_filterMap, calledNames]
  refine congrArg (List.filterMap · code) (funext fun operation => ?_)
  rw [Operation.callSite?, Option.map_map]
  exact Option.map_id'

private theorem walkCalls_eq_ok (live : ∀ function ∈ module.functions, function.Live)
    {depth : Nat} {visited : List String} (found : module.function? function.name = some function)
    (walked : module.Walked path finished)
    (success : module.walkCalls depth path finished function = .ok visited) :
    ∃ rest, visited = function.name :: rest ∧ module.Walked path rest ∧ finished ⊆ rest ∧
      function.callees ⊆ rest := by
  induction depth generalizing path finished function visited with
  | zero => cases success
  | succ depth induction =>
      rw [walkCalls, callSites_eq (live function (mem_of_function? found))] at success
      simp only [Except.bind_eq_ok_iff, Except.pure_eq_ok_iff] at success
      obtain ⟨_, ⟨⟩, rest, folded, rfl⟩ := success
      refine ⟨rest, rfl, ?_⟩
      rw [Function.callees, ← map_callee_callSites]
      generalize function.code.filterMap Operation.callSite? = sites at folded
      clear found
      induction sites generalizing finished with
      | nil =>
          obtain rfl := Except.pure_eq_ok_iff.mp folded
          exact ⟨walked, fun _ member => member, List.nil_subset _⟩
      | cons site sites later =>
          rw [List.foldlM_cons, Except.bind_eq_ok_iff] at folded
          obtain ⟨between, step, folded⟩ := folded
          obtain ⟨id, name, location⟩ := site
          have reached : module.Walked path between ∧ finished ⊆ between ∧
              name ∈ between := by
            split at step
            · cases step
            · rename_i outside
              split at step
              · rename_i done
                obtain rfl := Except.ok.inj step
                exact ⟨walked, fun _ member => member, done⟩
              · rename_i undone
                split at step
                · cases step
                · rename_i callee callee_eq
                  obtain rfl := name_of_function? callee_eq
                  obtain ⟨below, rfl, done, kept, called⟩ :=
                    induction callee_eq (walked.enter undone) step
                  exact ⟨done.leave outside callee_eq called,
                    List.subset_cons_of_subset _ kept, List.mem_cons_self⟩
          obtain ⟨between_walked, kept, called⟩ := reached
          obtain ⟨rest_walked, kept_later, called_later⟩ := later between_walked folded
          refine ⟨rest_walked, List.Subset.trans kept kept_later, ?_⟩
          exact List.cons_subset.mpr ⟨kept_later called, called_later⟩

/-- When the check of calls succeeds, the functions that the entry reaches can be put in order. -/
theorem resolved_of_checkCalls (live : ∀ function ∈ module.functions, function.Live)
    (found : module.function? function.name = some function)
    (success : module.checkCalls function = .ok ()) :
    ∃ rest, module.Resolved (function.name :: rest) ∧ (function.name :: rest).Nodup ∧
      function.callees ⊆ rest := by
  simp only [checkCalls, Except.bind_eq_ok_iff] at success
  obtain ⟨visited, walk, -⟩ := success
  have start : module.Walked [function.name] [] := ⟨trivial, List.nodup_nil, by simp⟩
  obtain ⟨rest, rfl, walked, -, callees⟩ := walkCalls_eq_ok live found start walk
  refine ⟨rest, ⟨⟨function, found, callees⟩, walked.resolved⟩, ?_, callees⟩
  exact List.nodup_cons.mpr
    ⟨fun member => walked.apart _ member (List.mem_singleton_self _), walked.nodup⟩

end Module

end Dataflow

end TensorLang
