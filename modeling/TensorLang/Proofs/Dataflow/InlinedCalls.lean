import TensorLang.Proofs.Dataflow.CallGraph
import TensorLang.Proofs.Dataflow.Inlining

/-!
# Inlining all calls

Each expansion of the first call keeps what the entry function does, keeps the numbers of operands
and results, and brings in only calls to functions that are further down in the order of calls.
When no call is left, nothing can be missing: every value that an operation reads has been computed.
-/

namespace TensorLang

namespace Dataflow

/-! ### Functions without calls -/

/-- Handles that get as many values as there are of them are all present if the values are. -/
theorem Environment.isSome_define {environment : Environment} {ids : List ValueId}
    {values : List (Option Tensor)} (same_length : values.length = ids.length)
    (present_values : none ∉ values) {id : ValueId} (member : id ∈ ids) :
    (environment.define ids values id).isSome := by
  rw [define]
  cases found : ids.idxOf? id with
  | none => exact absurd member (List.idxOf?_eq_none_iff.mp found)
  | some position =>
      have inside : position < values.length := by
        rw [same_length]
        exact (List.idxOf?_eq_some_iff.mp found).1
      have value_mem := List.getElem_mem inside
      simp only [List.getElem?_eq_getElem inside, Option.join_some]
      cases value_eq : values[position] with
      | none => exact absurd (value_eq ▸ value_mem) present_values
      | some tensor => rfl

private theorem present_eq_ok {values : List (Option Tensor)} (present_values : none ∉ values) :
    ∃ tensors, present values = .ok tensors := by
  refine ⟨values.filterMap id, present_eq_ok_iff.mpr ?_⟩
  induction values with
  | nil => rfl
  | cons value rest induction =>
      rw [List.mem_cons, not_or] at present_values
      cases value with
      | none => exact absurd rfl present_values.1
      | some tensor => exact congrArg (some tensor :: ·) (induction present_values.2)

namespace OperationKind

variable {kind : OperationKind} {operands : List (Option Tensor)}

/-- With all operands present, an operation other than a call fails only when the shapes do not fit,
and its results are present. -/
theorem perform_of_present (calls : Calls) (no_call : kind.callee? = none)
    (count : ∀ count, kind.operandCount? = some count → operands.length = count)
    (goes_on : kind.isLeave = false) (present_operands : none ∉ operands) :
    kind.perform calls operands = .error .mismatch ∨
      ∃ effects, kind.perform calls operands = .ok effects ∧
        effects.values.length = kind.resultCount ∧ none ∉ effects.values := by
  obtain ⟨tensors, tensors_eq⟩ := present_eq_ok present_operands
  cases kind with
  | call name => cases no_call
  | leave => cases goes_on
  | cast => exact .inr ⟨_, rfl, count 1 rfl, present_operands⟩
  | print =>
      simp only [perform, tensors_eq]
      exact .inr ⟨_, rfl, rfl, List.not_mem_nil⟩
  | constant | add | multiply | matmul | transpose | reshape =>
      simp only [perform, tensors_eq, bind, Except.bind]
      split
      · exact .inr ⟨_, rfl, rfl, by simp⟩
      · exact .inl rfl

end OperationKind

/-- Code without calls fails only when shapes do not fit, and returns only values that are present,
as long as all values at the start are. -/
theorem evaluateCode_of_present {calls : Calls} {code : List Operation} {available : List ValueId}
    {environment : Environment} (proper : ∀ operation ∈ code, operation.Proper)
    (no_calls : calledNames code = []) (dominated : Dominated available code)
    (given : ∀ id ∈ available, (environment id).isSome) :
    evaluateCode calls code environment = .error .mismatch ∨
      ∃ effects, evaluateCode calls code environment = .ok effects ∧ none ∉ effects.values := by
  induction code generalizing available environment with
  | nil => exact .inr ⟨_, rfl, List.not_mem_nil⟩
  | cons operation rest induction =>
      have operands_present : none ∉ operation.operands.map environment := by
        intro member
        obtain ⟨operand, reads, value_eq⟩ := List.mem_map.mp member
        have there := given operand (dominated.1 operand reads)
        rw [value_eq] at there
        cases there
      have tail_calls : calledNames rest = [] := by
        rw [← List.singleton_append, calledNames_append] at no_calls
        exact (List.append_eq_nil_iff.mp no_calls).2
      have no_call : operation.kind.callee? = none := by
        cases kind_eq : operation.kind with
        | call name =>
            have called : name ∈ calledNames (operation :: rest) :=
              mem_calledNames.mpr ⟨operation, List.mem_cons_self, kind_eq⟩
            rw [no_calls] at called
            cases called
        | _ => rfl
      have well := proper operation List.mem_cons_self
      rw [evaluateCode]
      split
      · exact .inr ⟨_, rfl, operands_present⟩
      · rename_i proceeds
        have goes_on : operation.kind.isLeave = false := by simpa using proceeds
        have count : ∀ count, operation.kind.operandCount? = some count →
            (operation.operands.map environment).length = count := fun count counted => by
          rw [List.length_map, well.operands count counted]
        rcases OperationKind.perform_of_present calls no_call count goes_on operands_present with
          failed | ⟨effects, effects_eq, counted, effects_present⟩
        · rw [failed]
          exact .inl rfl
        · have results_count : effects.values.length = operation.results.length := by
            rw [counted, well.results]
          have given_later : ∀ id ∈ available ++ operation.results,
              (environment.define operation.results effects.values id).isSome := by
            intro id member
            by_cases defined : id ∈ operation.results
            · exact Environment.isSome_define results_count effects_present defined
            · rw [Environment.define_of_notMem defined]
              exact given id ((List.mem_append.mp member).resolve_right defined)
          rw [effects_eq]
          rcases induction (fun other member => proper other (List.mem_cons_of_mem _ member))
            tail_calls dominated.2 given_later with failed | ⟨last, last_eq, last_present⟩
          · simp only [bind, Except.bind, failed]
            exact .inl trivial
          · simp only [bind, Except.bind, last_eq]
            exact .inr ⟨_, rfl, last_present⟩

theorem Function.evaluate_of_present {calls : Calls} {function : Function}
    (wellFormed : function.WellFormed) (proper : function.Proper) (no_calls : function.callees = [])
    {arguments : List Tensor} (count : arguments.length = function.arguments.length) :
    function.evaluate calls (arguments.map some) = .error .mismatch ∨
      ∃ effects, function.evaluate calls (arguments.map some) = .ok effects ∧
        none ∉ effects.values := by
  have length_eq : (arguments.map some).length = function.arguments.length := by
    rwa [List.length_map]
  rw [evaluate, if_pos length_eq]
  exact evaluateCode_of_present proper no_calls wellFormed.dominated
    fun id member => Environment.isSome_define length_eq (by simp) member

namespace Inlining

variable {caller changed : Function}

/-! ### The first call -/

/-- The first call splits the body. -/
theorem firstCall?_eq_ok (linked : caller.Linked) {first : Option CallSite}
    (found : caller.firstCall? caller.body = .ok first) :
    (first = none ∧ caller.callees = []) ∨
      ∃ site front call back, first = some site ∧ caller.code = front ++ call :: back ∧
        call.kind = .call site.callee ∧ call.id = site.id := by
  have live := linked.live
  rw [Function.callees, Function.code]
  generalize caller.body = body at found live
  induction body with
  | nil =>
      rw [Function.firstCall?] at found
      cases found
      exact .inl ⟨rfl, rfl⟩
  | cons id rest induction =>
      obtain ⟨operation, operation_eq, -⟩ := live id List.mem_cons_self
      rw [Function.firstCall?, Function.operation, operation_eq] at found
      rw [List.filterMap_cons_some operation_eq]
      cases site_eq : operation.callSite? with
      | some site =>
          simp only [Outcome.promised, bind, Except.bind, site_eq] at found
          cases found
          obtain ⟨kind_eq, id_eq, -⟩ := callSite?_eq_some_iff.mp site_eq
          exact .inr ⟨site, [], operation, _, rfl, rfl, kind_eq, id_eq⟩
      | none =>
          simp only [Outcome.promised, bind, Except.bind, site_eq] at found
          have no_call : operation.kind.callee? = none := by
            rwa [Operation.callSite?, Option.map_eq_none_iff] at site_eq
          rcases induction found fun other member => live other (List.mem_cons_of_mem _ member)
            with ⟨rfl, none_called⟩ | ⟨site, front, call, back, rfl, rest_eq, called⟩
          · refine .inl ⟨rfl, ?_⟩
            rw [calledNames, List.filterMap_cons, no_call]
            exact none_called
          · exact .inr ⟨site, operation :: front, call, back, rfl, by rw [rest_eq]; rfl, called⟩

/-! ### One expansion -/

namespace Expansion.Expands

variable {callee : Function} {front back : List Operation} {call : Operation}
variable {expansion : Expansion}

/-- An expansion brings in the calls of the callee. -/
theorem callees_eq (expands : expansion.Expands callee caller changed front call back) :
    changed.callees = calledNames front ++ calledNames expansion.body ++ calledNames back := by
  have cast_free : calledNames expansion.casts = [] :=
    List.filterMap_eq_nil_iff.mpr fun operation member => by
      rw [(expands.casts operation member).1]
      rfl
  have kinds : (back.map (Operation.reading expansion.change)).map Operation.kind =
      back.map Operation.kind := List.map_map
  rw [Function.callees, expands.code_eq, calledNames_append, calledNames_append, added,
    calledNames_append, cast_free, List.nil_append,
    calledNames_of_kinds (kinds_of_renamed expands.copies), calledNames_of_kinds kinds]

theorem callees_subset (expands : expansion.Expands callee caller changed front call back)
    (code_eq : caller.code = front ++ call :: back) {names : List String}
    (known : caller.callees ⊆ names) (below : callee.callees ⊆ names) :
    changed.callees ⊆ names := by
  rw [Function.callees, code_eq, ← List.singleton_append, calledNames_append,
    calledNames_append] at known
  rw [Function.callees, expands.callee_code, calledNames_append] at below
  rw [expands.callees_eq]
  obtain ⟨before, rest⟩ := List.append_subset.mp known
  exact List.append_subset.mpr ⟨List.append_subset.mpr
    ⟨before, (List.append_subset.mp below).1⟩, (List.append_subset.mp rest).2⟩

/-- An expansion keeps the numbers of operands and results in order. -/
theorem changed_proper (expands : expansion.Expands callee caller changed front call back)
    (code_eq : caller.code = front ++ call :: back) (proper : caller.Proper)
    (callee_proper : callee.Proper) : changed.Proper := by
  intro operation member
  rw [expands.code_eq, List.mem_append, List.mem_append] at member
  rcases member with (before | new) | after
  · apply proper
    rw [code_eq]
    exact List.mem_append_left _ before
  · rcases List.mem_append.mp new with cast | copy
    · exact (expands.casts operation cast).2.1
    · have action_mem := List.mem_map_of_mem (f := Operation.action) copy
      rw [expands.copies] at action_mem
      obtain ⟨original, original_mem, action_eq⟩ := List.mem_map.mp action_mem
      simp only [Operation.action, Operation.renamed, Prod.mk.injEq] at action_eq
      obtain ⟨kind_eq, operands_eq, results_eq⟩ := action_eq
      have original_proper : original.Proper := by
        apply callee_proper
        rw [expands.callee_code]
        exact List.mem_append_left _ original_mem
      refine ⟨fun count counted => ?_, ?_⟩
      · rw [← operands_eq, List.length_map]
        exact original_proper.operands count (kind_eq ▸ counted)
      · rw [← results_eq, List.length_map, ← kind_eq]
        exact original_proper.results
  · obtain ⟨original, original_mem, rfl⟩ := List.mem_map.mp after
    have original_proper : original.Proper := by
      apply proper
      rw [code_eq]
      exact List.mem_append_right _ (List.mem_cons_of_mem _ original_mem)
    refine ⟨fun count counted => ?_, original_proper.results⟩
    rw [Operation.reading, List.length_map]
    exact original_proper.operands count counted

end Expansion.Expands

/-! ### All expansions -/

/-- A function that is in order and calls only functions of a list. -/
structure Callable (names : List String) (function : Function) : Prop where
  /-- The function is well formed. -/
  wellFormed : function.WellFormed
  /-- Operands and results have the right numbers. -/
  proper : function.Proper
  /-- Only functions of the list are called. -/
  callees : function.callees ⊆ names

variable {others : Module} {names : List String} {calls : Calls}

theorem expandCalls_eq_ok {budget : Nat}
    (functions : ∀ name ∈ names, ∃ function, others.function? name = some function ∧
      Callable names function ∧
      ∀ values, calls name values = function.evaluate calls values)
    (callable : Callable names caller)
    (success : expandCalls others budget caller = .ok () changed) :
    changed.WellFormed ∧ changed.Proper ∧ changed.callees = [] ∧
      ∀ values, changed.evaluate calls values = caller.evaluate calls values := by
  induction budget generalizing caller with
  | zero =>
      simp only [expandCalls, EStateM.bind_eq_ok_iff, Edit.query_eq_ok_iff] at success
      obtain ⟨first, _, ⟨found, rfl⟩, success⟩ := success
      rcases firstCall?_eq_ok callable.wellFormed.toLinked found
        with ⟨rfl, no_calls⟩ | ⟨site, front, call, back, rfl, -⟩
      · obtain ⟨-, rfl⟩ := EStateM.pure_eq_ok_iff.mp success
        exact ⟨callable.wellFormed, callable.proper, no_calls, fun _ => rfl⟩
      · exact absurd success EStateM.throw_ne_ok
  | succ budget induction =>
      simp only [expandCalls, EStateM.bind_eq_ok_iff, Edit.query_eq_ok_iff] at success
      obtain ⟨first, _, ⟨found, rfl⟩, success⟩ := success
      rcases firstCall?_eq_ok callable.wellFormed.toLinked found
        with ⟨rfl, no_calls⟩ | ⟨site, front, call, back, rfl, code_eq, kind_eq, id_eq⟩
      · obtain ⟨-, rfl⟩ := EStateM.pure_eq_ok_iff.mp success
        exact ⟨callable.wellFormed, callable.proper, no_calls, fun _ => rfl⟩
      · have called : site.callee ∈ names := by
          apply callable.callees
          refine mem_calledNames.mpr ⟨call, ?_, kind_eq⟩
          rw [code_eq]
          exact List.mem_append_right _ List.mem_cons_self
        obtain ⟨callee, callee_eq, callee_callable, meaning⟩ := functions _ called
        simp only [callee_eq, EStateM.bind_eq_ok_iff, ← id_eq] at success
        obtain ⟨_, middle, expanded, success⟩ := success
        obtain ⟨expansion, expands⟩ := expandCall_eq_ok callable.wellFormed.toLinked
          callee_callable.wellFormed code_eq expanded
        have proceeds : call.kind.isLeave = false := by
          rw [kind_eq]
          rfl
        have middle_callable : Callable names middle :=
          ⟨expands.changed_wellFormed callable.wellFormed code_eq callee_callable.wellFormed
              proceeds,
            expands.changed_proper code_eq callable.proper callee_callable.proper,
            expands.callees_subset code_eq callable.callees callee_callable.callees⟩
        obtain ⟨wellFormed, proper, no_calls, same⟩ := induction middle_callable success
        refine ⟨wellFormed, proper, no_calls, fun values => ?_⟩
        rw [same, expands.evaluate_eq callable.wellFormed code_eq callee_callable.wellFormed
          kind_eq meaning]

private theorem function?_eraseP {module : Module} {entry name : String} (apart : name ≠ entry) :
    Module.function? ⟨module.functions.eraseP fun function => function.name == entry⟩ name =
      module.function? name := by
  rw [Module.function?, Module.function?]
  generalize module.functions = functions
  induction functions with
  | nil => rfl
  | cons function rest induction =>
      rw [List.eraseP_cons]
      by_cases named : function.name = entry
      · have other : (function.name == name) = false :=
          beq_eq_false_iff_ne.mpr fun same => apart (same.symm.trans named)
        simp only [beq_iff_eq.mpr named, cond_true, List.find?_cons, other]
      · have kept : (function.name == entry) = false := beq_eq_false_iff_ne.mpr named
        simp only [kept, cond_false, List.find?_cons]
        rw [← induction]

/-- Functions with different names are found under these also when another one is taken out. -/
theorem function?_without {module : Module} (unique : (module.functions.map Function.name).Nodup)
    {entry name : String} (apart : name ≠ entry) :
    (module.without entry).function? name = module.function? name := by
  have kept : ((module.functions.eraseP fun function => function.name == entry).map
      Function.name).Nodup := unique.sublist (List.eraseP_sublist.map _)
  have found : (module.without entry).function? name =
      Module.function? ⟨module.functions.eraseP fun function => function.name == entry⟩ name :=
    Module.function?_of_perm kept (swapRemove_perm _ _) name
  exact found.trans (function?_eraseP apart)

theorem verify_of_mem {module : Module} (verified : module.verify = .ok ()) {function : Function}
    (member : function ∈ module.functions) : function.verify = .ok () :=
  Except.forM_eq_ok_iff.mp verified function member

/-- Inlining leaves one function without calls, which does what a call of the entry does. -/
theorem inline_eq_ok {module inlined : Module} {entry : String}
    (unique : (module.functions.map Function.name).Nodup)
    (wellFormed : ∀ function ∈ module.functions, function.WellFormed)
    (proper : ∀ function ∈ module.functions, function.Proper)
    (success : module.inline entry = .ok inlined) :
    ∃ function, inlined.functions = [function] ∧ function.WellFormed ∧ function.Proper ∧
      function.callees = [] ∧
      ∀ depth, module.functions.length < depth → ∀ calls values,
        function.evaluate calls values = module.calls depth entry values := by
  rw [Module.inline] at success
  split at success
  · cases success
  · rename_i caller caller_eq
    obtain rfl := Module.name_of_function? caller_eq
    rw [Except.bind_unit_eq_ok_iff] at success
    obtain ⟨checked, success⟩ := success
    obtain ⟨rest, resolved, nodup, callees⟩ :=
      Module.resolved_of_checkCalls (fun f member => (wellFormed f member).live) caller_eq checked
    have bound := resolved.length_le nodup
    cases expanded : expandCalls (module.without caller.name) module.expansionBound caller with
    | error failure function =>
        simp only [Edit.outcome, expanded] at success
        cases success
    | ok result function =>
        simp only [Edit.outcome, expanded] at success
        cases success
        have callable : ∀ function ∈ module.functions, function.callees ⊆ rest →
            Callable rest function := fun function member callees =>
          ⟨wellFormed function member, proper function member, callees⟩
        have caller_callable : Callable rest caller :=
          callable caller (Module.mem_of_function? caller_eq) callees
        have kept : ∀ depth, module.functions.length ≤ depth → function.WellFormed ∧
            function.Proper ∧ function.callees = [] ∧ ∀ values,
              function.evaluate (module.calls depth) values =
                caller.evaluate (module.calls depth) values := by
          intro depth deep
          rw [List.length_cons] at bound
          refine expandCalls_eq_ok (fun name member => ?_) caller_callable expanded
          obtain ⟨callee, callee_eq, below⟩ := resolved.2.function_of_mem member
          have apart : name ≠ caller.name :=
            fun same => (List.nodup_cons.mp nodup).1 (same ▸ member)
          refine ⟨callee, (function?_without unique apart).trans callee_eq,
            callable callee (Module.mem_of_function? callee_eq) below, fun values => ?_⟩
          exact resolved.2.calls_eq (Nat.le_of_succ_le (Nat.le_trans bound deep)) member
            callee_eq values
        obtain ⟨function_wellFormed, function_proper, no_calls, -⟩ := kept _ (Nat.le_refl _)
        refine ⟨function, rfl, function_wellFormed, function_proper, no_calls, ?_⟩
        intro depth deep calls values
        cases depth with
        | zero => cases deep
        | succ depth =>
            have called : module.calls (depth + 1) caller.name values =
                caller.evaluate (module.calls depth) values := by
              simp only [Module.calls, caller_eq]
            rw [called, ← (kept depth (Nat.le_of_lt_succ deep)).2.2.2 values]
            apply Function.evaluate_congr
            rw [no_calls]
            exact fun name member => absurd member List.not_mem_nil

/-- Inlining preserves meaning: whatever the values of the arguments, the function that is left
prints and returns what the entry prints and returns in the module, where a call evaluates its
callee.  Given tensors for its arguments, it reads and returns no missing value: it fails only when
shapes do not fit. -/
theorem inline_preserves_meaning {module inlined : Module} {entry : String}
    (unique : (module.functions.map Function.name).Nodup)
    (verified : module.verify = .ok ()) (proper : ∀ function ∈ module.functions, function.Proper)
    (success : module.inline entry = .ok inlined) :
    ∃ function, inlined.functions = [function] ∧
      ∀ depth, module.functions.length < depth →
        (∀ calls values,
          function.evaluate calls values = module.calls depth entry values) ∧
        ∀ arguments : List Tensor, arguments.length = function.arguments.length →
          module.calls depth entry (arguments.map some) = .error .mismatch ∨
            ∃ effects, module.calls depth entry (arguments.map some) = .ok effects ∧
              none ∉ effects.values := by
  have wellFormed : ∀ function ∈ module.functions, function.WellFormed := fun function member =>
    Function.wellFormed_of_verify (verify_of_mem verified member)
  obtain ⟨function, only, function_wellFormed, function_proper, no_calls, same⟩ :=
    inline_eq_ok unique wellFormed proper success
  refine ⟨function, only, fun depth deep => ⟨same depth deep, fun arguments count => ?_⟩⟩
  rw [← same depth deep (module.calls depth)]
  exact Function.evaluate_of_present function_wellFormed function_proper no_calls count

/-- Prints its argument and returns nothing. -/
def showing : Function :=
  let build : Edit Unit := do
    let tensor ← Edit.pushArgument .unranked
    let _ ← Edit.append .print [tensor] [] ⟨"main", 1, 4⟩
    let _ ← Edit.append .leave [] [] ⟨"main", 1, 4⟩
  (build.outcome (Function.new "show" ⟨"main", 1, 4⟩)).1

/-- Shows its argument twice. -/
def showingTwice : Function :=
  let build : Edit Unit := do
    let tensor ← Edit.pushArgument (.ranked ⟨[2]⟩)
    let _ ← Edit.append (.call "show") [tensor] [.unranked] ⟨"main", 2, 1⟩
    let _ ← Edit.append (.call "show") [tensor] [.unranked] ⟨"main", 3, 1⟩
    let _ ← Edit.append .leave [] [] ⟨"main", 2, 1⟩
  (build.outcome (Function.new "main" ⟨"main", 2, 1⟩)).1

theorem inline_preserves_meaning_showingTwice :
    let module : Module := ⟨[showing, showingTwice]⟩
    (module.functions.map Function.name).Nodup ∧ module.verify = .ok () ∧
      (∀ function ∈ module.functions, function.Proper) ∧
      ∃ inlined function, module.inline "main" = .ok inlined ∧ inlined.functions = [function] ∧
        ∀ calls values, function.evaluate calls values = module.calls 3 "main" values := by
  intro module
  have unique : (module.functions.map Function.name).Nodup := by decide
  have verified : module.verify = .ok () := by rfl
  have proper : ∀ function ∈ module.functions, function.Proper := by decide
  obtain ⟨inlined, success⟩ : ∃ inlined, module.inline "main" = .ok inlined := ⟨_, by rfl⟩
  obtain ⟨function, only, meaning⟩ := inline_preserves_meaning unique verified proper success
  exact ⟨unique, verified, proper, inlined, function, success, only,
    (meaning 3 (Nat.lt_succ_self 2)).1⟩

end Inlining

end Dataflow

end TensorLang
