import TensorLang.Proofs.Dataflow.MissingResults
import TensorLang.Proofs.Dataflow.CallExpansion

/-!
# Where calls come from

All calls that inlining meets are calls of functions of the module, and it meets copies of them:
they stand at the same locations of the source and pass as many values, and their results are read
only if those of the original calls are.  So what is reported of a copy holds of a call in the
module.
-/

namespace TensorLang

namespace Dataflow

/-- The second operation is a copy of the first, which stands in another function. -/
structure Descends (source : Function) (original : Operation) (function : Function)
    (operation : Operation) : Prop where
  /-- The kind is the same. -/
  kind_eq : operation.kind = original.kind
  /-- The location is the same. -/
  location_eq : operation.location = original.location
  /-- There are as many operands. -/
  operands : operation.operands.length = original.operands.length
  /-- Results are only read if they are in the other function. -/
  reads : ∀ result ∈ operation.results, function.Reads result →
    ∃ result ∈ original.results, source.Reads result

namespace Descends

variable {source middle function : Function} {original between operation : Operation}

theorem refl (function : Function) (operation : Operation) :
    Descends function operation function operation :=
  ⟨rfl, rfl, rfl, fun result defined reads => ⟨result, defined, reads⟩⟩

theorem trans (early : Descends source original middle between)
    (late : Descends middle between function operation) :
    Descends source original function operation where
  kind_eq := late.kind_eq.trans early.kind_eq
  location_eq := late.location_eq.trans early.location_eq
  operands := late.operands.trans early.operands
  reads := by
    intro result defined reads
    obtain ⟨result, defined, reads⟩ := late.reads result defined reads
    exact early.reads result defined reads

end Descends

namespace Inlining.Expansion.Expands

variable {caller callee changed : Function} {front back : List Operation} {call : Operation}
variable {expansion : Expansion}

/-- An operation of the caller still stands there, and its results are read as before. -/
theorem descends_of_caller (expands : expansion.Expands callee caller changed front call back)
    (code_eq : caller.code = front ++ call :: back) (linked : caller.Linked)
    (wellFormed : callee.WellFormed) {original : Operation} (member : original ∈ caller.code)
    (change : ValueId → ValueId) :
    Descends caller original changed (original.reading change) where
  kind_eq := rfl
  location_eq := rfl
  operands := List.length_map _
  reads := by
    intro result defined reads
    have old := linked.known result
      (List.mem_append_right _ (List.mem_flatMap.mpr ⟨original, member, defined⟩))
    exact ⟨result, defined, expands.reads_of_lt code_eq wellFormed old reads⟩

private theorem exists_descends_of_copy
    (expands : expansion.Expands callee caller changed front call back)
    (code_eq : caller.code = front ++ call :: back) (linked : caller.Linked)
    (wellFormed : callee.WellFormed) {copy : Operation} (member : copy ∈ expansion.copies) :
    ∃ original ∈ callee.code, Descends callee original changed copy := by
  obtain ⟨original, original_mem, kind_eq, location_eq, operands_eq, results_eq⟩ :=
    expands.exists_original member
  refine ⟨original, expands.mem_callee original_mem, kind_eq, location_eq, ?_, ?_⟩
  · rw [operands_eq, List.length_map]
  · intro target defines reads
    rw [results_eq] at defines
    obtain ⟨result, defined, rfl⟩ := List.mem_map.mp defines
    have in_body := List.mem_flatMap.mpr ⟨original, original_mem, defined⟩
    exact ⟨result, defined, expands.reads_of_image code_eq linked wellFormed in_body reads⟩

private theorem exists_descends (expands : expansion.Expands callee caller changed front call back)
    (code_eq : caller.code = front ++ call :: back) (linked : caller.Linked)
    (wellFormed : callee.WellFormed) {operation : Operation} (member : operation ∈ changed.code) :
    operation.kind = .cast ∨
      (∃ original ∈ caller.code, Descends caller original changed operation) ∨
      ∃ original ∈ callee.code, Descends callee original changed operation := by
  rw [expands.code_eq, List.append_assoc, List.mem_append, List.mem_append, Expansion.added,
    List.mem_append] at member
  rcases member with earlier | (cast | copy) | later
  · have stays : operation ∈ caller.code := code_eq ▸ List.mem_append_left _ earlier
    have descends := expands.descends_of_caller code_eq linked wellFormed stays fun id => id
    rw [Operation.reading_of_unchanged fun _ _ => rfl] at descends
    exact .inr (.inl ⟨operation, stays, descends⟩)
  · exact .inl (expands.casts operation cast).1
  · exact .inr (.inr (expands.exists_descends_of_copy code_eq linked wellFormed copy))
  · obtain ⟨original, original_mem, rfl⟩ := List.mem_map.mp later
    have stays : original ∈ caller.code := by
      rw [code_eq]
      exact List.mem_append_right _ (List.mem_cons_of_mem _ original_mem)
    exact .inr
      (.inl ⟨original, stays, expands.descends_of_caller code_eq linked wellFormed stays _⟩)

end Inlining.Expansion.Expands

namespace Module

variable {module : Module} {entry : String} {function caller callee changed : Function}
variable {front back : List Operation} {call : Operation}

/-- A function that calls from the entry lead to makes a call of another. -/
structure Makes (module : Module) (entry : String) (caller : Function) (call : Operation)
    (callee : Function) : Prop where
  /-- Calls lead to the caller. -/
  reaches : module.Reaches entry caller.name
  /-- The caller is a function of the module. -/
  caller_eq : module.function? caller.name = some caller
  /-- The call stands in its body. -/
  member : call ∈ caller.code
  /-- The call names the callee. -/
  kind_eq : call.kind = .call callee.name
  /-- The callee is a function of the module. -/
  callee_eq : module.function? callee.name = some callee

/-- A call that cannot be expanded, and what is reported of it. -/
inductive Unexpandable (module : Module) (entry : String) : Error → Prop
  /-- The call passes too many or too few values. -/
  | arity {caller callee : Function} {call : Operation}
      (makes : module.Makes entry caller call callee)
      (other : call.operands.length ≠ callee.arguments.length) :
      Unexpandable module entry
        ⟨.argumentCount callee.name callee.arguments.length call.operands.length,
          some call.location⟩
  /-- The callee returns nothing, but the result of the call is read. -/
  | missing {caller callee : Function} {call : Operation}
      (makes : module.Makes entry caller call callee) (returns_nothing : callee.resultTypes = [])
      {result : ValueId} (defined : result ∈ call.results) (reads : caller.Reads result) :
      Unexpandable module entry (Inlining.missingResult callee call)

/-- All calls of the function are copies of calls of functions that calls from the entry lead to. -/
def Stems (module : Module) (entry : String) (function : Function) : Prop :=
  ∀ call ∈ function.code, ∀ name, call.kind = .call name →
    ∃ caller original, module.Reaches entry caller.name ∧
      module.function? caller.name = some caller ∧ original ∈ caller.code ∧
        Descends caller original function call

theorem stems_of_reaches (reaches : module.Reaches entry function.name)
    (found : module.function? function.name = some function) : module.Stems entry function :=
  fun call member _ _ => ⟨function, call, reaches, found, member, .refl function call⟩

namespace Stems

/-- An expansion keeps where calls come from. -/
theorem expands (stems : module.Stems entry caller) (reaches : module.Reaches entry callee.name)
    (found : module.function? callee.name = some callee)
    (code_eq : caller.code = front ++ call :: back)
    (linked : caller.Linked) (wellFormed : callee.WellFormed) {expansion : Inlining.Expansion}
    (expands : expansion.Expands callee caller changed front call back) :
    module.Stems entry changed := by
  intro other member name kind_eq
  rcases expands.exists_descends code_eq linked wellFormed member
    with is_cast | ⟨between, stays, descends⟩ | ⟨original, original_mem, descends⟩
  · rw [is_cast] at kind_eq
    cases kind_eq
  · obtain ⟨source, original, source_reaches, source_eq, original_mem, earlier⟩ :=
      stems between stays name (descends.kind_eq.symm.trans kind_eq)
    exact ⟨source, original, source_reaches, source_eq, original_mem, earlier.trans descends⟩
  · exact ⟨callee, original, reaches, found, original_mem, descends⟩

/-- What is refused of a copy is to blame on its original. -/
theorem unexpandable (stems : module.Stems entry caller) (member : call ∈ caller.code)
    (kind_eq : call.kind = .call callee.name)
    (callee_eq : module.function? callee.name = some callee) {error : Error}
    (refused : Inlining.Refuses caller callee call error) : module.Unexpandable entry error := by
  obtain ⟨source, original, reaches, source_eq, original_mem, descends⟩ :=
    stems call member callee.name kind_eq
  have makes : module.Makes entry source original callee :=
    ⟨reaches, source_eq, original_mem, descends.kind_eq.symm.trans kind_eq, callee_eq⟩
  cases refused with
  | arity other =>
      rw [descends.operands] at other
      rw [descends.operands, descends.location_eq]
      exact .arity makes other
  | missing returns_nothing defined reader_mem reads =>
      obtain ⟨result, defined, reads⟩ := descends.reads _ defined ⟨_, reader_mem, reads⟩
      rw [Inlining.missingResult, descends.location_eq]
      exact .missing makes returns_nothing defined reads

end Stems

end Module

end Dataflow

end TensorLang
