import TensorLang.Proofs.Normalization

/-!
# Optimisation keeps inferred types

A reduction lets the readers of a value read another one, and that has the type that the readers
were checked with; what it makes obeys its own rule.  So once the types of a function are inferred,
they stay: no pass takes a type away, what is printed and returned is of the types that it was of,
and a later inference finds everything in place.  Nothing fails after the first inference.
-/

namespace TensorLang

namespace Dataflow

theorem OperationKind.isLink_of_agrees {left right : OperationKind}
    (agrees : left.agrees right = true) : left.isLink = right.isLink := by
  cases left <;> cases right <;> first | rfl | cases agrees

namespace Function

variable {alike : OperationKind → OperationKind → Prop} {count : Nat}
variable {function changed : Function}

/-- The operations that do more than define values, and the types of what they read. -/
def outlets (function : Function) :
    List (OperationId × OperationKind × List (Outcome TensorType)) :=
  (function.code.filter fun operation => operation.kind.hasEffects).map fun operation =>
    (operation.id, operation.kind, operation.operands.map function.typeOf)

/-- All operands and results of the body have known shapes. -/
def Ranked (function : Function) : Prop :=
  ∀ operation ∈ function.code, ∀ id ∈ operation.operands ++ operation.results,
    ∃ shape, function.typeOf id = .ok (.ranked shape)

/-- The types that were inferred for the first function hold for the second. -/
structure KeepsTypes (function changed : Function) : Prop where
  /-- Verification accepts the function. -/
  accepted : changed.verify = .ok ()
  /-- Operands and results have the right numbers. -/
  proper : changed.Proper
  /-- All operands and results have known shapes. -/
  ranked : changed.Ranked
  /-- Prints and returns read values of the same types. -/
  outlets : changed.outlets = function.outlets
  /-- Inference succeeds again and changes nothing. -/
  inferred : Edit.inferTypes changed = .ok () changed

theorem Typed.ranked (typed : function.Typed) (proper : function.Proper) : function.Ranked := by
  intro operation member id listed
  obtain ⟨shapes, resolution, rule⟩ := typed operation member
  rcases List.mem_append.mp listed with reads | defines
  · obtain ⟨position, found⟩ := List.mem_iff_getElem?.mp reads
    obtain ⟨shape, -, type_eq⟩ := rule.typeOf_operand found
    exact ⟨shape, type_eq⟩
  · exact Inference.ranked_of_typed rule (proper operation member) defines

/-- New operations do nothing but define values. -/
theorem Spot.Replaceable.operations_pure {spot : function.Spot} {replacement : Replacement}
    (replaceable : spot.Replaceable alike replacement) {location : Location} :
    ∀ operation ∈ replacement.operations function location, operation.kind.hasEffects = false := by
  intro operation new
  cases replaceable with
  | unread | reshape | cast | equal => cases new
  | constant | reshapes => rw [List.mem_singleton.mp new]; rfl

private theorem outlets_of_reduction (reduction : Reduction alike function changed)
    (verified : function.Verified) (typed : function.Typed) :
    changed.outlets = function.outlets := by
  obtain ⟨spot, replacement, replaceable, replaced⟩ := reduction
  have made : (replacement.operations function spot.operation.location).filter
      (fun operation => operation.kind.hasEffects) = [] := by
    rw [List.filter_eq_nil_iff]
    intro operation member
    rw [replaceable.operations_pure operation member]
    exact Bool.false_ne_true
  rw [outlets, outlets, replaced.code_eq, spot.code_eq, List.filter_append, List.filter_append,
    made, List.append_nil, List.filter_append, List.filter_cons_of_neg (by simp [spot.pure]),
    List.filter_map, List.map_append, List.map_append, List.map_map]
  congr 1
  · refine List.map_congr_left fun operation member => ?_
    have old := spot.front_subset (List.mem_filter.mp member).1
    have types : operation.operands.map changed.typeOf = operation.operands.map function.typeOf :=
      List.map_congr_left fun operand reads =>
        replaced.extension.typeOf (verified.lt_size_of_operand old reads)
    rw [types]
  · refine List.map_congr_left fun operation member => ?_
    have old := spot.back_subset (List.mem_filter.mp member).1
    have types : (operation.operands.map (redirect spot.result (replacement.target function))).map
        changed.typeOf = operation.operands.map function.typeOf := by
      rw [List.map_map]
      exact List.map_congr_left fun operand reads => replaceable.typeOf_redirect replaced verified
        typed (verified.lt_size_of_operand old reads)
    exact congrArg (fun types => (operation.id, operation.kind, types)) types

private theorem outlets_of_reduces (reduces : Reduces alike count function changed)
    (verified : function.Verified) (typed : function.Typed) :
    changed.outlets = function.outlets := by
  induction reduces with
  | refl => rfl
  | step first rest induction =>
      have single := Reduces.single first
      rw [induction (single.verified verified) (typed.reduces single verified),
        outlets_of_reduction first verified typed]

theorem keepsTypes_of_reduces (reduces : Reduces alike count function changed)
    (verified : function.Verified) (proper : function.Proper) (typed : function.Typed) :
    function.KeepsTypes changed := by
  have changed_typed := typed.reduces reduces verified
  have changed_verified := reduces.verified verified
  have changed_proper := proper.reduces reduces
  constructor
  · exact verify_eq_ok_iff.mpr changed_verified
  · exact changed_proper
  · exact changed_typed.ranked changed_proper
  · exact outlets_of_reduces reduces verified typed
  · exact Inference.inferTypes_of_typed changed_verified.live changed_typed

theorem among_true (function : Function) : function.Among fun _ => True := fun _ _ => trivial

end Function

end Dataflow

namespace Compiler

private theorem yields_settle {function inferred : Dataflow.Function} (options : Options)
    (inferring : Dataflow.Edit.inferTypes function = .ok () inferred)
    (verified : inferred.Verified) (proper : inferred.Proper) :
    ∃ last, Yields (settle options (roundBound ⟨[function]⟩) ⟨[function]⟩) ⟨[last]⟩ := by
  have any : Dataflow.Reshapable fun _ => True := fun _ _ _ _ _ _ => trivial
  obtain ⟨count, last, -, -, -, yields⟩ := exists_settle_of_exact options
    (fun _ _ => Dataflow.OperationKind.isLink_of_agrees) (fun _ _ _ _ agrees => agrees)
    any inferring verified proper inferred.among_true
  exact ⟨last, yields⟩

private theorem optimized_eq_error {options : Options} {module : Dataflow.Module}
    {before after : List Snapshot} {failure : Failure}
    (unique : (module.functions.map Dataflow.Function.name).Nodup)
    (functions : ∀ function ∈ module.functions, function.InOrder fun _ => True)
    (failed : optimized options module before = .error failure after) :
    module.inline options.entry = .error failure ∨ ∃ inlined inferred,
      module.inline options.entry = .ok inlined ∧
      inlined.inferTypes = (inferred, .error failure) := by
  have delivers := module.delivers_inline trivial unique functions options.entry
  cases inline_eq : module.inline options.entry with
  | error refused =>
      have same : optimized options module before = .error refused before := by
        rw [optimized, inline_eq]
        rfl
      obtain ⟨rfl, -⟩ := EStateM.Result.error.inj (same.symm.trans failed)
      exact .inl rfl
  | ok inlined =>
      obtain ⟨caller, function, -, rfl, inOrder, -⟩ := delivers.accepted inline_eq
      have accepted := Dataflow.Module.verify_of_verified inOrder.verified
      obtain ⟨middle, recorded, -⟩ := yields_verified options "inlining" accepted before
      have rounds : optimized options module before =
          settle options (roundBound ⟨[function]⟩) ⟨[function]⟩ middle := by
        rw [optimized, inline_eq]
        change EStateM.bind (verified options "inlining" ⟨[function]⟩) _ before = _
        rw [EStateM.bind, recorded]
      rw [rounds] at failed
      cases inferring : Dataflow.Edit.inferTypes function with
      | ok result inferred =>
          have refines := (Dataflow.Inference.inferTypes_eq_ok inferring).1
          obtain ⟨last, yields⟩ := yields_settle options inferring
            (refines.verified inOrder.verified) (refines.proper inOrder.proper)
          obtain ⟨final, success, -⟩ := yields middle
          cases success.symm.trans failed
      | error refused changed =>
          have stopped : settle options (roundBound ⟨[function]⟩) ⟨[function]⟩ middle =
              .error refused middle := settle_of_inferTypes_error inferring _
          obtain ⟨rfl, -⟩ := EStateM.Result.error.inj (stopped.symm.trans failed)
          exact .inr ⟨_, _, rfl, Dataflow.Module.inferTypes_of_error inferring⟩

/-- Optimisation keeps the types that were inferred.  Simplification and sharing of a function whose
types were inferred succeed and keep them, so that nothing but inlining and the first inference can
make optimisation fail. -/
theorem optimized_keeps_types :
    (∀ function inferred : Dataflow.Function, function.verify = .ok () → function.Proper →
      Dataflow.Edit.inferTypes function = .ok () inferred →
        (∃ count simplified, Dataflow.Edit.simplify inferred = .ok count simplified ∧
          inferred.KeepsTypes simplified) ∧
        ∃ count shared, Dataflow.Edit.share inferred = .ok count shared ∧
          inferred.KeepsTypes shared) ∧
    ∀ (options : Options) (module : Dataflow.Module) (before after : List Snapshot)
      (failure : Failure), (module.functions.map Dataflow.Function.name).Nodup →
      (∀ function ∈ module.functions, function.verify = .ok () ∧ function.Proper) →
        optimized options module before = .error failure after →
          module.inline options.entry = .error failure ∨ ∃ inlined inferred,
            module.inline options.entry = .ok inlined ∧
              inlined.inferTypes = (inferred, .error failure) := by
  constructor
  · intro function inferred accepted proper inferring
    obtain ⟨refines, typed⟩ := Dataflow.Inference.inferTypes_eq_ok inferring
    have verified := refines.verified (Dataflow.Function.verify_eq_ok_iff.mp accepted)
    have inferred_proper := refines.proper proper
    obtain ⟨applied, simplified, simplifies, reduces⟩ := Dataflow.Simplification.exists_simplify
      (fun _ _ => Dataflow.OperationKind.isLink_of_agrees) verified inferred_proper
    obtain ⟨merged, shared, shares, merges⟩ := Dataflow.Sharing.exists_share
      (fun _ _ _ _ agrees => agrees) verified inferred_proper inferred.among_true
    constructor
    · exact ⟨applied, simplified, simplifies,
        Dataflow.Function.keepsTypes_of_reduces reduces verified inferred_proper typed⟩
    · exact ⟨merged, shared, shares,
        Dataflow.Function.keepsTypes_of_reduces merges verified inferred_proper typed⟩
  · intro options module before after failure unique functions failed
    exact optimized_eq_error unique (fun function member =>
      (functions function member).elim Dataflow.Function.inOrder_of_verify) failed

theorem optimized_keeps_types_layingOutColumn :
    (∃ inferred count simplified,
        Dataflow.Edit.inferTypes Dataflow.Function.layingOutColumn = .ok () inferred ∧
          Dataflow.Edit.simplify inferred = .ok count simplified ∧
            inferred.KeepsTypes simplified) ∧
      let module : Dataflow.Module := ⟨[Dataflow.Inlining.showing]⟩
      ∃ failure after, optimized ⟨"show", true, false⟩ module [] = .error failure after ∧
        (module.inline "show" = .error failure ∨ ∃ inlined inferred,
          module.inline "show" = .ok inlined ∧
          inlined.inferTypes = (inferred, .error failure)) := by
  constructor
  · have accepted : Dataflow.Function.layingOutColumn.verify = .ok () := by rfl
    have proper : Dataflow.Function.layingOutColumn.Proper := by decide
    let inferred := (Dataflow.Edit.inferTypes.outcome Dataflow.Function.layingOutColumn).1
    have success : Dataflow.Edit.inferTypes Dataflow.Function.layingOutColumn =
        .ok () inferred := by
      rfl
    obtain ⟨⟨count, simplified, simplifies, keeps⟩, -⟩ :=
      optimized_keeps_types.1 _ inferred accepted proper success
    exact ⟨inferred, count, simplified, success, simplifies, keeps⟩
  · intro module
    have failed : optimized ⟨"show", true, false⟩ module [] =
        .error (.error ⟨.unresolvedShape "print", some ⟨"main", 1, 4⟩⟩) [] := by
      rfl
    refine ⟨_, _, failed, optimized_keeps_types.2 _ module [] [] _ (by decide)
      (fun function member => ?_) failed⟩
    obtain rfl := List.mem_singleton.mp member
    exact ⟨by rfl, by decide⟩

end Compiler

end TensorLang
