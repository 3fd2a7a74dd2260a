import Mathlib.Algebra.Order.BigOperators.Group.List
import Mathlib.Algebra.Order.Ring.Nat
import TensorLang.Proofs.Dataflow.CallOrigins
import TensorLang.Proofs.Dataflow.Recursion

/-!
# Inlining comes to an end

What the check of calls accepts can be put in an order in which functions call only later ones.
Along this order each function takes a number of expansions: one for each call of it, and those of
its callees.  Every expansion lowers the number for the entry by one, and the bound that inlining
sets itself is never reached.
-/

namespace TensorLang

namespace Dataflow

namespace Module

variable {module : Module} {names : List String} {name : String} {function : Function}

/-! ### Numbers of expansions -/

/-- Number of expansions that a call of a function takes, where functions call only later ones of
the list. -/
def expansions (module : Module) : List String → String → Nat
  | [], _ => 0
  | first :: rest, name =>
      if name = first then
        1 + (((module.function? name).elim [] Function.callees).map (module.expansions rest)).sum
      else
        module.expansions rest name

theorem expansions_cons_of_ne {first : String} {rest : List String} (apart : name ≠ first) :
    module.expansions (first :: rest) name = module.expansions rest name := if_neg apart

/-- A call takes an expansion of its own and those of the calls that it brings in. -/
theorem Resolved.expansions_eq (resolved : module.Resolved names) (nodup : names.Nodup)
    (member : name ∈ names) (found : module.function? name = some function) :
    module.expansions names name =
      1 + (function.callees.map (module.expansions names)).sum := by
  induction names generalizing name function with
  | nil => cases member
  | cons first rest induction =>
      obtain ⟨⟨head, head_eq, callees⟩, others⟩ := resolved
      obtain ⟨first_apart, rest_nodup⟩ := List.nodup_cons.mp nodup
      have later : ∀ {called : List String}, called ⊆ rest →
          called.map (module.expansions (first :: rest)) = called.map (module.expansions rest) :=
        fun subset => List.map_congr_left fun callee member =>
          expansions_cons_of_ne fun same => first_apart (same ▸ subset member)
      by_cases same : name = first
      · subst same
        obtain rfl := Option.some.inj (head_eq.symm.trans found)
        rw [later callees, expansions, if_pos rfl, found]
        rfl
      · have below := List.mem_of_ne_of_mem same member
        obtain ⟨other, other_eq, other_callees⟩ := others.function_of_mem below
        obtain rfl := Option.some.inj (other_eq.symm.trans found)
        rw [expansions_cons_of_ne same, later other_callees,
          induction others rest_nodup below found]

private theorem length_callees_le (found : module.function? name = some function) :
    function.callees.length ≤ module.bodySize := by
  have calls : function.callees.length ≤ function.body.length :=
    Nat.le_trans (List.length_filterMap_le _ _) (List.length_filterMap_le _ _)
  refine Nat.le_trans calls ?_
  have member := mem_of_function? found
  rw [bodySize]
  generalize module.functions = functions at member
  induction functions with
  | nil => cases member
  | cons first rest induction =>
      rw [List.foldr_cons]
      rcases List.mem_cons.mp member with rfl | later
      · exact Nat.le_add_right _ _
      · exact Nat.le_add_left_of_le (induction later)

private theorem expansions_le (module : Module) (names : List String) (name : String) :
    module.expansions names name ≤ (module.bodySize + 1) ^ names.length := by
  induction names generalizing name with
  | nil => exact Nat.zero_le _
  | cons first rest induction =>
      have positive : 0 < (module.bodySize + 1) ^ rest.length := Nat.pow_pos (Nat.succ_pos _)
      rw [List.length_cons, Nat.pow_succ, Nat.mul_succ]
      rw [expansions]
      split
      · cases found : module.function? name with
        | none => exact Nat.le_add_left_of_le positive
        | some function =>
            have bound : ∀ count ∈ function.callees.map (module.expansions rest),
                count ≤ (module.bodySize + 1) ^ rest.length := by
              intro count member
              obtain ⟨callee, -, rfl⟩ := List.mem_map.mp member
              exact induction callee
            have total := List.sum_le_card_nsmul _ _ bound
            rw [List.length_map, Nat.nsmul_eq_mul] at total
            have calls := Nat.mul_le_mul_right ((module.bodySize + 1) ^ rest.length)
              (length_callees_le found)
            rw [Option.elim_some, Nat.mul_comm _ module.bodySize]
            omega
      · exact Nat.le_add_left_of_le (induction name)

theorem Resolved.sum_expansions_le {rest : List String}
    (resolved : module.Resolved (function.name :: rest)) (nodup : (function.name :: rest).Nodup)
    (found : module.function? function.name = some function) :
    (function.callees.map (module.expansions (function.name :: rest))).sum ≤
      module.expansionBound := by
  have all := module.expansions_le (function.name :: rest) function.name
  rw [resolved.expansions_eq nodup List.mem_cons_self found] at all
  refine Nat.le_trans (Nat.le_trans (Nat.le_add_left _ _) all) ?_
  exact Nat.pow_le_pow_right (Nat.succ_pos _) (resolved.length_le nodup)

/-! ### Missing results -/

/-- The function returns nothing. -/
def Silent (module : Module) (name : String) : Prop :=
  ∃ function, module.function? name = some function ∧ function.resultTypes = []

/-- A function that calls lead to reads the result of a call of a function that returns nothing. -/
def ReadsMissing (module : Module) (entry : String) : Prop :=
  ∃ name function, module.Reaches entry name ∧ module.function? name = some function ∧
    ∃ id, function.Lacks module.Silent id ∧ function.Reads id

end Module

namespace Inlining

variable {allowed : OperationKind → Prop} {reached : String → Prop} {module others : Module}
variable {caller callee changed : Function} {front back : List Operation} {call : Operation}

private theorem Expansion.Expands.changed_among {expansion : Expansion}
    (expands : expansion.Expands callee caller changed front call back)
    (code_eq : caller.code = front ++ call :: back) (cast_allowed : allowed .cast)
    (among : caller.Among allowed) (callee_among : callee.Among allowed) :
    changed.Among allowed := by
  intro operation member
  rw [expands.code_eq, List.append_assoc, List.mem_append, List.mem_append, Expansion.added,
    List.mem_append] at member
  rcases member with earlier | (cast | copy) | later
  · exact among operation (code_eq ▸ List.mem_append_left _ earlier)
  · rw [(expands.casts operation cast).1]
    exact cast_allowed
  · have kind_mem := List.mem_map_of_mem (f := Operation.kind) copy
    rw [kinds_of_renamed expands.copies] at kind_mem
    obtain ⟨original, original_mem, kind_eq⟩ := List.mem_map.mp kind_mem
    refine kind_eq ▸ callee_among original ?_
    rw [expands.callee_code]
    exact List.mem_append_left _ original_mem
  · obtain ⟨original, original_mem, rfl⟩ := List.mem_map.mp later
    refine among original ?_
    rw [code_eq]
    exact List.mem_append_right _ (List.mem_cons_of_mem _ original_mem)

private theorem exists_firstCall? {function : Function} {ids : List OperationId}
    (live : ∀ id ∈ ids, ∃ operation, function.operation? id = some operation) :
    ∃ first, function.firstCall? ids = .ok first := by
  induction ids with
  | nil => exact ⟨none, rfl⟩
  | cons id ids induction =>
      obtain ⟨⟨operation, found⟩, later⟩ := List.forall_mem_cons.mp live
      obtain ⟨first, first_eq⟩ := induction later
      rw [Function.firstCall?, Function.operation, found]
      cases site_eq : operation.callSite? with
      | none =>
          exact ⟨first, by simpa [Outcome.promised, bind, Except.bind, site_eq] using first_eq⟩
      | some site => exact ⟨some site, by simp [Outcome.promised, bind, Except.bind, site_eq]; rfl⟩

/-- The search for the first call ends, and it splits the body at the call. -/
theorem exists_first (verified : caller.Verified) :
    ∃ first, caller.firstCall? caller.body = .ok first ∧
      ((first = none ∧ caller.callees = []) ∨
        ∃ site front call back, first = some site ∧ caller.code = front ++ call :: back ∧
          call.kind = .call site.callee ∧ call.id = site.id) := by
  obtain ⟨first, first_eq⟩ := exists_firstCall? fun id member => by
    obtain ⟨operation, found, -⟩ := verified.live id member
    exact ⟨operation, found⟩
  exact ⟨first, first_eq, firstCall?_eq_ok verified.wellFormed.toLinked first_eq⟩

/-- The function is in order and calls only functions that calls lead to. -/
structure Inlinable (allowed : OperationKind → Prop) (reached : String → Prop)
    (function : Function) : Prop extends function.InOrder allowed where
  /-- Calls lead to all functions that are called. -/
  callees : ∀ name ∈ function.callees, reached name

/-- An expansion leaves a function that can be inlined into as before. -/
theorem Inlinable.expand (inlinable : Inlinable allowed reached caller)
    (callee_inlinable : Inlinable allowed reached callee) (cast_allowed : allowed .cast)
    {expansion : Expansion} (expands : expansion.Expands callee caller changed front call back)
    (code_eq : caller.code = front ++ call :: back) (verified : changed.Verified) :
    Inlinable allowed reached changed where
  verified := verified
  proper := expands.changed_proper code_eq inlinable.proper callee_inlinable.proper
  among := expands.changed_among code_eq cast_allowed inlinable.among callee_inlinable.among
  callees := by
    intro name member
    have known := expands.callees_subset code_eq (List.subset_append_left _ callee.callees)
      (List.subset_append_right caller.callees _) member
    rcases List.mem_append.mp known with called | called
    · exact inlinable.callees name called
    · exact callee_inlinable.callees name called

private theorem callees_eq_of_call {name : String} (code_eq : caller.code = front ++ call :: back)
    (kind_eq : call.kind = .call name) :
    caller.callees = calledNames front ++ name :: calledNames back := by
  have called : calledNames [call] = [name] := by
    rw [calledNames, List.filterMap_cons, kind_eq]
    rfl
  rw [Function.callees, code_eq, ← List.singleton_append, calledNames_append, calledNames_append,
    called]
  rfl

/-- An expansion saves what the call itself takes, and brings in no more than the calls of the
callee. -/
theorem Expansion.Expands.cost_lt {expansion : Expansion}
    (expands : expansion.Expands callee caller changed front call back)
    (code_eq : caller.code = front ++ call :: back) {name : String}
    (kind_eq : call.kind = .call name) {cost : String → Nat}
    (cost_eq : cost name = 1 + (callee.callees.map cost).sum) :
    (changed.callees.map cost).sum < (caller.callees.map cost).sum := by
  have below : callee.callees = calledNames expansion.body ++ calledNames [expansion.last] := by
    rw [Function.callees, expands.callee_code, calledNames_append]
  rw [below, List.map_append, List.sum_append] at cost_eq
  rw [expands.callees_eq, callees_eq_of_call code_eq kind_eq]
  simp only [List.map_append, List.map_cons, List.sum_append, List.sum_cons]
  omega

/-- Expansions end, as each of them takes one off the number that the calls of the caller take, or
one of them is refused. -/
theorem delivers_expandCalls (cast_allowed : allowed .cast) {cost : String → Nat} {entry : String}
    (functions : ∀ name, reached name → ∃ callee, others.function? name = some callee ∧
      module.function? name = some callee ∧ module.Reaches entry name ∧
      Inlinable allowed reached callee ∧ cost name = 1 + (callee.callees.map cost).sum)
    {budget : Nat} (inlinable : Inlinable allowed reached caller)
    (stems : module.Stems entry caller) (enough : (caller.callees.map cost).sum ≤ budget) :
    Delivers (expandCalls others budget) caller
      (fun _ changed => Inlinable allowed reached changed ∧ changed.callees = [] ∧
        Extends caller changed)
      fun error _ => module.Unexpandable entry error := by
  induction budget generalizing caller with
  | zero =>
      obtain ⟨first, first_eq, split⟩ := exists_first inlinable.verified
      rw [expandCalls]
      refine .bind_ok (Edit.query_eq_ok_iff.mpr ⟨first_eq, rfl⟩) ?_
      obtain ⟨rfl, no_calls⟩ | ⟨site, front, call, back, rfl, code_eq, kind_eq, -⟩ := split
      · exact ⟨inlinable, no_calls, Extends.refl _⟩
      · have called : site.callee ∈ caller.callees :=
          mem_calledNames.mpr ⟨call, by simp [code_eq], kind_eq⟩
        obtain ⟨callee, -, -, -, -, cost_eq⟩ := functions _ (inlinable.callees _ called)
        have counted := List.le_sum_of_mem (List.mem_map_of_mem (f := cost) called)
        omega
  | succ budget induction =>
      obtain ⟨first, first_eq, split⟩ := exists_first inlinable.verified
      rw [expandCalls]
      refine .bind_ok (Edit.query_eq_ok_iff.mpr ⟨first_eq, rfl⟩) ?_
      obtain ⟨rfl, no_calls⟩ | ⟨site, front, call, back, rfl, code_eq, kind_eq, id_eq⟩ := split
      · exact ⟨inlinable, no_calls, Extends.refl _⟩
      · have called : site.callee ∈ caller.callees :=
          mem_calledNames.mpr ⟨call, by simp [code_eq], kind_eq⟩
        have leads := inlinable.callees _ called
        obtain ⟨callee, callee_eq, original_eq, reaches, callee_inlinable, cost_eq⟩ :=
          functions _ leads
        have name_eq := Module.name_of_function? original_eq
        have proceeds : call.kind.isLeave = false := by rw [kind_eq]; rfl
        have call_proper := inlinable.proper call (by simp [code_eq])
        have one := call_proper.results
        rw [kind_eq] at one
        obtain ⟨result, results_eq⟩ := List.length_eq_one_iff.mp one
        have wellFormed := inlinable.verified.wellFormed
        have callee_wellFormed := callee_inlinable.verified.wellFormed
        simp only [callee_eq, ← id_eq]
        refine ((delivers_expandCall inlinable.verified callee_inlinable.verified code_eq proceeds
          results_eq).mono (fun _ _ _ verified => verified) fun error after _ refused => ?_).bind
            fun _ middle expanded middle_verified => ?_
        · exact stems.unexpandable (by simp [code_eq]) (name_eq ▸ kind_eq) (name_eq ▸ original_eq)
            refused
        · obtain ⟨expansion, expands⟩ :=
            expandCall_eq_ok wellFormed.toLinked callee_wellFormed code_eq expanded
          have middle_inlinable := inlinable.expand callee_inlinable cast_allowed expands code_eq
            middle_verified
          have lower := expands.cost_lt code_eq kind_eq cost_eq
          have middle_stems : module.Stems entry middle :=
            stems.expands (name_eq ▸ reaches) (name_eq ▸ original_eq) code_eq wellFormed.toLinked
              callee_wellFormed expands
          refine (induction middle_inlinable middle_stems (by omega)).mono_accepted
            fun _ changed ended => ?_
          obtain ⟨changed_inlinable, no_calls, extension⟩ := ended
          exact ⟨changed_inlinable, no_calls, expands.extension.trans extension⟩

end Inlining

namespace Module

variable {module : Module}

/-- Why a module is not inlined into an entry. -/
inductive Refuses (module : Module) (entry : String) : Cause → Prop
  /-- The entry, or a function that is called, does not exist. -/
  | undeclared (name : String) : Refuses module entry (.undeclared name)
  /-- Functions call each other in a circle. -/
  | recursion (cycle : List String) : Refuses module entry (.recursion cycle)
  /-- A call passes too many or too few arguments. -/
  | arity (callee : String) (expected actual : Nat) :
      Refuses module entry (.argumentCount callee expected actual)
  /-- A missing result is read. -/
  | missing (message : String) (reads : module.ReadsMissing entry) :
      Refuses module entry (.brokenInvariant message)

/-- Why a module is not inlined into an entry, and what is reported. -/
inductive Declines (module : Module) (entry : String) : Error → Prop
  /-- The entry does not exist. -/
  | absent (missing : module.function? entry = none) :
      Declines module entry ⟨.undeclared entry, none⟩
  /-- Calls do not come to an end, as the check of calls reports. -/
  | endless {caller : Function} {error : Error} (found : module.function? entry = some caller)
      (checked : module.checkCalls caller = .error (.error error))
      (endless : module.Endless entry error) : Declines module entry error
  /-- Calls come to an end, but one of them cannot be expanded. -/
  | unexpandable {caller : Function} {error : Error} (found : module.function? entry = some caller)
      (checked : module.checkCalls caller = .ok ()) (refused : module.Unexpandable entry error) :
      Declines module entry error

theorem Declines.refuses {entry : String} {error : Error} (declines : module.Declines entry error) :
    module.Refuses entry error.cause := by
  cases declines with
  | absent => exact .undeclared entry
  | endless found checked endless =>
      cases endless with
      | recursion => exact .recursion _
      | undeclared => exact .undeclared _
  | unexpandable found checked refused =>
      cases refused with
      | arity => exact .arity _ _ _
      | missing makes returns_nothing defined reads =>
          refine .missing _ ⟨_, _, makes.reaches, makes.caller_eq, _, ?_, reads⟩
          exact ⟨_, makes.member, _, makes.kind_eq, ⟨_, makes.callee_eq, returns_nothing⟩, defined⟩

/-- Inlining into an entry ends, and one function without calls is left, or it is declined. -/
theorem delivers_inline_or_declines {allowed : OperationKind → Prop} (cast_allowed : allowed .cast)
    (unique : (module.functions.map Function.name).Nodup)
    (functions : ∀ function ∈ module.functions, function.InOrder allowed) (entry : String) :
    Outcome.Delivers (module.inline entry)
      (fun inlined => ∃ caller function, module.function? entry = some caller ∧
        inlined = ⟨[function]⟩ ∧ function.InOrder allowed ∧ function.callees = [] ∧
        Extends caller function)
      (module.Declines entry) := by
  have live : ∀ function ∈ module.functions, function.Live :=
    fun function member => (functions function member).verified.live
  rw [inline]
  cases caller_eq : module.function? entry with
  | none => exact .absent caller_eq
  | some caller =>
      obtain rfl := name_of_function? caller_eq
      refine ((delivers_checkCalls live caller_eq).mono (fun _ _ _ => trivial)
        fun error failed endless => .endless caller_eq failed endless).bind
          fun _ checked (_ : True) => ?_
      obtain ⟨rest, resolved, nodup, callees⟩ := resolved_of_checkCalls live caller_eq checked
      have apart : ∀ name ∈ rest, name ≠ caller.name :=
        fun name member same => (List.nodup_cons.mp nodup).1 (same ▸ member)
      let reached : String → Prop := fun name => name ∈ rest ∧ module.Reaches caller.name name
      have each : ∀ name, reached name → ∃ callee,
          (module.without caller.name).function? name = some callee ∧
          module.function? name = some callee ∧ module.Reaches caller.name name ∧
          Inlining.Inlinable allowed reached callee ∧
          module.expansions (caller.name :: rest) name =
            1 + (callee.callees.map (module.expansions (caller.name :: rest))).sum := by
        intro name leads
        obtain ⟨callee, callee_eq, below⟩ := resolved.2.function_of_mem leads.1
        have same : (module.without caller.name).function? name = module.function? name :=
          Inlining.function?_without unique (apart name leads.1)
        refine ⟨callee, same.trans callee_eq, callee_eq, leads.2,
          ⟨functions callee (mem_of_function? callee_eq), fun other member => ?_⟩, ?_⟩
        · exact ⟨below member, .call leads.2 callee_eq member⟩
        · exact resolved.expansions_eq nodup (List.mem_cons_of_mem _ leads.1) callee_eq
      have inlinable : Inlining.Inlinable allowed reached caller :=
        ⟨functions caller (mem_of_function? caller_eq), fun name member =>
          ⟨callees member, .call .start caller_eq member⟩⟩
      have expanded := Inlining.delivers_expandCalls cast_allowed each inlinable
        (stems_of_reaches .start caller_eq) (resolved.sum_expansions_le nodup caller_eq)
      refine ((Edit.delivers_outcome expanded).mono (fun _ _ ended => ended)
        fun error _ refused => .unexpandable caller_eq checked refused).bind fun _ _ ended => ?_
      obtain ⟨changed_inlinable, no_calls, extension⟩ := ended
      exact ⟨caller, _, rfl, rfl, changed_inlinable.toInOrder, no_calls, extension⟩

/-- Inlining into an entry ends, and one function without calls is left, or it is refused. -/
theorem delivers_inline {allowed : OperationKind → Prop} (cast_allowed : allowed .cast)
    (unique : (module.functions.map Function.name).Nodup)
    (functions : ∀ function ∈ module.functions, function.InOrder allowed) (entry : String) :
    Outcome.Delivers (module.inline entry)
      (fun inlined => ∃ caller function, module.function? entry = some caller ∧
        inlined = ⟨[function]⟩ ∧ function.InOrder allowed ∧ function.callees = [] ∧
        Extends caller function)
      fun error => module.Refuses entry error.cause :=
  (delivers_inline_or_declines cast_allowed unique functions entry).mono
    (fun _ _ inlined => inlined)
    fun _ _ declines => declines.refuses

/-- The function stands for the entry that it was: what others see of it is the same. -/
structure Succeeds (caller function : Function) : Prop where
  /-- The name is the same. -/
  name : function.name = caller.name
  /-- The arguments are the same. -/
  arguments : function.arguments = caller.arguments
  /-- The arguments are defined as before, with the same types. -/
  values : ∀ id ∈ caller.arguments, function.values.get? id = caller.values.get? id
  /-- The result types are the same. -/
  resultTypes : function.resultTypes = caller.resultTypes

/-- Inlining into an entry ends.  On success the entry alone is left; verification accepts it, and
it makes no call.  Once calls are known to come to an end, nothing is refused but a call with a
wrong number of arguments and the use of a result that the callee does not return. -/
theorem inline_leaves_entry (unique : (module.functions.map Function.name).Nodup)
    (functions : ∀ function ∈ module.functions, function.verify = .ok () ∧ function.Proper)
    (entry : String) :
    Outcome.Delivers (module.inline entry)
      (fun inlined => ∃ caller function, module.function? entry = some caller ∧
        inlined = ⟨[function]⟩ ∧ Succeeds caller function ∧ function.verify = .ok () ∧
        ∀ operation ∈ function.code, operation.kind.callee? = none)
      (module.Declines entry) := by
  have inOrder : ∀ function ∈ module.functions, function.InOrder fun _ => True :=
    fun function member => (functions function member).elim Function.inOrder_of_verify
  refine (delivers_inline_or_declines trivial unique inOrder entry).mono (fun inlined _ ended => ?_)
    fun _ _ declines => declines
  obtain ⟨caller, function, caller_eq, rfl, changed, no_calls, extension⟩ := ended
  have listed := (inOrder caller (mem_of_function? caller_eq)).verified.wellFormed.toListed
  refine ⟨caller, function, caller_eq, rfl, ?_, Function.verify_eq_ok_iff.mpr changed.verified, ?_⟩
  · constructor
    · exact extension.name
    · exact extension.arguments
    · intro id argument
      exact extension.values id (listed.known id (List.mem_append_left _ argument))
    · exact extension.resultTypes
  · intro operation member
    by_contra calls
    obtain ⟨name, name_eq⟩ := Option.ne_none_iff_exists'.mp calls
    have called : name ∈ function.callees := List.mem_filterMap.mpr ⟨operation, member, name_eq⟩
    rw [no_calls] at called
    cases called

/-- Calls a function without the argument that it takes. -/
def showingNothing : Function :=
  let build : Edit Unit := do
    let _ ← Edit.append (.call "show") [] [.unranked] ⟨"main", 2, 1⟩
    let _ ← Edit.append .leave [] [] ⟨"main", 2, 1⟩
  (build.outcome (Function.new "main" ⟨"main", 2, 1⟩)).1

theorem inline_leaves_entry_showing :
    let twice : Module := ⟨[Inlining.showing, Inlining.showingTwice]⟩
    let nothing : Module := ⟨[Inlining.showing, showingNothing]⟩
    (twice.functions.map Function.name).Nodup ∧ (nothing.functions.map Function.name).Nodup ∧
      (∃ inlined function, twice.inline "main" = .ok inlined ∧ inlined = ⟨[function]⟩ ∧
        Succeeds Inlining.showingTwice function ∧ function.verify = .ok ()) ∧
      ∃ error, nothing.inline "main" = .error (.error error) ∧ nothing.Declines "main" error := by
  intro twice nothing
  have each : ∀ {second : Function}, second.verify = .ok () → second.Proper →
      ∀ function ∈ [Inlining.showing, second], function.verify = .ok () ∧ function.Proper := by
    intro second accepted proper function member
    rcases List.mem_pair.mp member with rfl | rfl
    · exact ⟨by rfl, by decide⟩
    · exact ⟨accepted, proper⟩
  have twice_unique : (twice.functions.map Function.name).Nodup := by decide
  have nothing_unique : (nothing.functions.map Function.name).Nodup := by decide
  refine ⟨twice_unique, nothing_unique, ?_, ?_⟩
  · have delivers : Outcome.Delivers (twice.inline "main") _ _ :=
      inline_leaves_entry twice_unique (each (by rfl) (by decide)) "main"
    obtain ⟨inlined, success⟩ : ∃ inlined, twice.inline "main" = .ok inlined := ⟨_, by rfl⟩
    obtain ⟨caller, function, found, only, succeeds, accepted, -⟩ := delivers.accepted success
    obtain rfl := Option.some.inj found
    exact ⟨inlined, function, success, only, succeeds, accepted⟩
  · have delivers : Outcome.Delivers (nothing.inline "main") _ _ :=
      inline_leaves_entry nothing_unique (each (by rfl) (by decide)) "main"
    have failure : nothing.inline "main" =
      .error (.error ⟨.argumentCount "show" 1 0, some ⟨"main", 2, 1⟩⟩) := by rfl
    exact ⟨_, failure, delivers.refused failure⟩

end Module

end Dataflow

end TensorLang
