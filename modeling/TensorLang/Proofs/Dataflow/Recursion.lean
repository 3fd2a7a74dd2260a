import Mathlib.Data.List.Chain
import Mathlib.Logic.Relation
import TensorLang.Proofs.Dataflow.CallGraph
import TensorLang.Proofs.Refusing

/-!
# Detection of recursion

The check of calls accepts an entry exactly if all functions that calls lead to exist and none of
them calls itself, directly or through others.  Otherwise it names a call to blame: one of an
unknown function, or the last one of a circle.

The path of the walk is a list of functions each of which calls the next, and no function stands on
it twice.  A call back into the path closes a circle.  In the other direction, the functions that
are done are listed in front of those that they call, so that none of them is on a circle.
-/

namespace TensorLang

namespace Dataflow

namespace Module

variable {module : Module} {entry name caller callee : String} {names path finished : List String}
variable {function : Function} {location : Location}

/-- A call of one function by another stands at the location. -/
def CallsAt (module : Module) (caller callee : String) (location : Location) : Prop :=
  ∃ function, module.function? caller = some function ∧
    ∃ call ∈ function.code, call.kind = .call callee ∧ call.location = location

/-- One function calls another. -/
def Invokes (module : Module) (caller callee : String) : Prop :=
  ∃ location, module.CallsAt caller callee location

theorem invokes_iff :
    module.Invokes caller callee ↔
      ∃ function, module.function? caller = some function ∧ callee ∈ function.callees := by
  constructor
  · rintro ⟨location, function, found, call, member, kind_eq, -⟩
    exact ⟨function, found, mem_calledNames.mpr ⟨call, member, kind_eq⟩⟩
  · rintro ⟨function, found, called⟩
    obtain ⟨call, member, kind_eq⟩ := mem_calledNames.mp called
    exact ⟨call.location, function, found, call, member, kind_eq, rfl⟩

theorem Reaches.invokes (reaches : module.Reaches entry caller)
    (invokes : module.Invokes caller callee) : module.Reaches entry callee := by
  obtain ⟨function, found, called⟩ := invokes_iff.mp invokes
  exact reaches.call found called

theorem reaches_iff :
    module.Reaches entry name ↔ Relation.ReflTransGen module.Invokes entry name := by
  constructor
  · intro reaches
    induction reaches with
    | start => exact .refl
    | call _ found called leads => exact leads.tail (invokes_iff.mpr ⟨_, found, called⟩)
  · intro leads
    induction leads with
    | refl => exact .start
    | tail _ invokes reaches => exact reaches.invokes invokes

/-- Calls from the entry come to an end: the functions exist and do not lead back to themselves. -/
structure CallsEnd (module : Module) (entry : String) : Prop where
  /-- All functions that calls lead to exist. -/
  existing : ∀ name, module.Reaches entry name → ∃ function, module.function? name = some function
  /-- Calls lead from none of them back to it. -/
  acyclic : ∀ name, module.Reaches entry name → ¬ Relation.TransGen module.Invokes name name

/-- A circle of calls among the functions that an entry reaches. -/
structure Circle (module : Module) (entry : String) (cycle : List String) : Prop where
  /-- The first function is also the last. -/
  closed : ∃ name between, cycle = name :: (between ++ [name])
  /-- No other function stands there twice. -/
  distinct : cycle.dropLast.Nodup
  /-- Each function calls the next. -/
  calls : cycle.IsChain module.Invokes
  /-- Calls from the entry lead to all of them. -/
  reached : ∀ name ∈ cycle, module.Reaches entry name

/-- Calls from the entry do not come to an end, and what is to blame. -/
inductive Endless (module : Module) (entry : String) : Error → Prop
  /-- The last call of a circle. -/
  | recursion {front : List String} {caller callee : String} {location : Location}
      (circle : module.Circle entry (front ++ [caller, callee]))
      (calls : module.CallsAt caller callee location) :
      Endless module entry ⟨.recursion (front ++ [caller, callee]), some location⟩
  /-- A call of an unknown function. -/
  | undeclared {caller callee : String} {location : Location}
      (reaches : module.Reaches entry caller) (calls : module.CallsAt caller callee location)
      (missing : module.function? callee = none) :
      Endless module entry ⟨.undeclared callee, some location⟩

/-! ### Circles -/

private theorem Circle.exists_transGen {cycle : List String} (circle : module.Circle entry cycle) :
    ∃ name, module.Reaches entry name ∧ Relation.TransGen module.Invokes name name := by
  obtain ⟨name, between, rfl⟩ := circle.closed
  refine ⟨name, circle.reached name List.mem_cons_self, ?_⟩
  obtain ⟨next, later, rest_eq⟩ := List.exists_cons_of_ne_nil (l := between ++ [name]) (by simp)
  have calls := circle.calls
  have ending : (next :: later).getLast (List.cons_ne_nil _ _) = name := by
    simp only [← rest_eq, List.getLast_append_singleton]
  rw [rest_eq, List.isChain_cons_cons] at calls
  exact .head' calls.1 (List.relationReflTransGen_of_exists_isChain_cons later calls.2 ending)

theorem CallsEnd.not_endless (ends : module.CallsEnd entry) {error : Error} :
    ¬ module.Endless entry error := by
  rintro (⟨circle, -⟩ | ⟨reaches, calls, missing⟩)
  · obtain ⟨name, reaches, circular⟩ := circle.exists_transGen
    exact ends.acyclic name reaches circular
  · obtain ⟨function, found⟩ := ends.existing _ (reaches.invokes ⟨_, calls⟩)
    rw [missing] at found
    cases found

/-! ### The order of the functions that are done -/

/-- Calls do not lead out of a list that resolves its functions. -/
theorem Resolved.mem_of_leads (resolved : module.Resolved names) (member : caller ∈ names)
    (leads : Relation.ReflTransGen module.Invokes caller callee) : callee ∈ names := by
  induction leads with
  | refl => exact member
  | tail _ invokes earlier =>
      obtain ⟨function, found, called⟩ := invokes_iff.mp invokes
      obtain ⟨known, known_eq, callees⟩ := resolved.function_of_mem earlier
      obtain rfl := Option.some.inj (found.symm.trans known_eq)
      exact callees called

/-- Functions that stand in front of those that they call are on no circle. -/
theorem Resolved.acyclic (resolved : module.Resolved names) (nodup : names.Nodup)
    (member : name ∈ names) : ¬ Relation.TransGen module.Invokes name name := by
  induction names with
  | nil => cases member
  | cons first rest induction =>
      obtain ⟨⟨function, found, callees⟩, others⟩ := resolved
      obtain ⟨apart, rest_nodup⟩ := List.nodup_cons.mp nodup
      rcases List.mem_cons.mp member with rfl | later
      · intro circular
        obtain ⟨next, invokes, leads⟩ := Relation.TransGen.head'_iff.mp circular
        obtain ⟨known, known_eq, called⟩ := invokes_iff.mp invokes
        obtain rfl := Option.some.inj (found.symm.trans known_eq)
        exact apart (others.mem_of_leads (callees called) leads)
      · exact induction others rest_nodup later

theorem callsEnd_of_checkCalls (live : ∀ function ∈ module.functions, function.Live)
    (found : module.function? function.name = some function)
    (success : module.checkCalls function = .ok ()) : module.CallsEnd function.name := by
  obtain ⟨rest, resolved, nodup, -⟩ := resolved_of_checkCalls live found success
  have inside : ∀ name, module.Reaches function.name name → name ∈ function.name :: rest :=
    fun name reaches => resolved.mem_of_leads List.mem_cons_self (reaches_iff.mp reaches)
  refine ⟨fun name reaches => ?_, fun name reaches => resolved.acyclic nodup (inside name reaches)⟩
  obtain ⟨callee, callee_eq, -⟩ := resolved.function_of_mem (inside name reaches)
  exact ⟨callee, callee_eq⟩

/-! ### The path of the walk -/

/-- The path leads along calls from the entry to a function, without a repetition. -/
structure Path (module : Module) (entry : String) (path : List String) (name : String) :
    Prop where
  /-- The function is the last one. -/
  ending : ∃ front, path = front ++ [name]
  /-- No function stands there twice. -/
  distinct : path.Nodup
  /-- Each function calls the next. -/
  calls : path.IsChain module.Invokes
  /-- Calls from the entry lead to all functions. -/
  reached : ∀ name ∈ path, module.Reaches entry name
  /-- All functions exist. -/
  existing : ∀ name ∈ path, ∃ function, module.function? name = some function

namespace Path

theorem single (found : module.function? entry = some function) :
    module.Path entry [entry] entry where
  ending := ⟨[], rfl⟩
  distinct := List.nodup_singleton _
  calls := .singleton _
  reached := fun _ member => List.mem_singleton.mp member ▸ .start
  existing := fun _ member => List.mem_singleton.mp member ▸ ⟨function, found⟩

theorem last_mem (leads : module.Path entry path caller) : caller ∈ path := by
  obtain ⟨front, rfl⟩ := leads.ending
  exact List.mem_append_right _ (List.mem_singleton_self _)

theorem calls_append (leads : module.Path entry path caller)
    (invokes : module.Invokes caller callee) : (path ++ [callee]).IsChain module.Invokes := by
  obtain ⟨front, rfl⟩ := leads.ending
  refine leads.calls.append (.singleton _) fun last last_mem next next_mem => ?_
  rw [List.getLast?_concat, Option.mem_some_iff] at last_mem
  rw [List.head?_cons, Option.mem_some_iff] at next_mem
  exact last_mem ▸ next_mem ▸ invokes

theorem reached_append (leads : module.Path entry path caller)
    (invokes : module.Invokes caller callee) :
    ∀ name ∈ path ++ [callee], module.Reaches entry name := by
  intro name member
  rcases List.mem_append.mp member with earlier | last
  · exact leads.reached name earlier
  · rw [List.mem_singleton.mp last]
    exact (leads.reached _ leads.last_mem).invokes invokes

/-- A call of a function that is not on the path makes the path longer. -/
theorem push (leads : module.Path entry path caller) (invokes : module.Invokes caller callee)
    (outside : callee ∉ path) (found : module.function? callee = some function) :
    module.Path entry (path ++ [callee]) callee where
  ending := ⟨path, rfl⟩
  distinct := by
    rw [← List.concat_eq_append]
    exact leads.distinct.concat outside
  calls := leads.calls_append invokes
  reached := leads.reached_append invokes
  existing := by
    intro name member
    rcases List.mem_append.mp member with earlier | last
    · exact leads.existing name earlier
    · exact List.mem_singleton.mp last ▸ ⟨function, found⟩

end Path

private theorem exists_dropWhile_ne (member : name ∈ names) :
    ∃ front back, names = front ++ name :: back ∧ names.dropWhile (· ≠ name) = name :: back := by
  obtain ⟨front, back, rfl, apart⟩ := List.eq_append_cons_of_mem member
  refine ⟨front, back, rfl, ?_⟩
  rw [List.dropWhile_append_of_pos, List.dropWhile_cons_of_neg (by simp)]
  intro other other_mem
  rw [decide_eq_true_eq]
  rintro rfl
  exact apart other_mem

/-- A call back into the path closes a circle. -/
theorem Path.endless (leads : module.Path entry path caller)
    (calls : module.CallsAt caller callee location) (inside : callee ∈ path) :
    module.Endless entry
      ⟨.recursion (path.dropWhile (· ≠ callee) ++ [callee]), some location⟩ := by
  obtain ⟨before, back, path_eq, rest_eq⟩ := exists_dropWhile_ne inside
  have suffix : callee :: back <:+ path := ⟨before, path_eq.symm⟩
  have longer : callee :: back ++ [callee] <:+ path ++ [callee] := by
    rw [path_eq, List.append_assoc]
    exact List.suffix_append _ _
  obtain ⟨front, front_eq⟩ : ∃ front, callee :: back = front ++ [caller] := by
    obtain ⟨whole, whole_eq⟩ := leads.ending
    obtain ⟨front, last, split⟩ :=
      (List.eq_nil_or_concat (callee :: back)).resolve_left (List.cons_ne_nil callee back)
    rw [List.concat_eq_append] at split
    rw [path_eq, split, ← List.append_assoc] at whole_eq
    exact ⟨front, split.trans (by rw [List.append_inj_right' whole_eq rfl])⟩
  have circle : module.Circle entry (callee :: back ++ [callee]) :=
    { closed := ⟨callee, back, rfl⟩
      distinct := by
        rw [List.dropLast_concat]
        exact leads.distinct.sublist suffix.sublist
      calls := (leads.calls_append ⟨location, calls⟩).suffix longer
      reached := fun name member =>
        leads.reached_append ⟨location, calls⟩ name (longer.subset member) }
  rw [rest_eq, front_eq, List.append_assoc]
  rw [front_eq, List.append_assoc] at circle
  exact .recursion circle calls

/-! ### The walk -/

private theorem delivers_walkCalls (live : ∀ function ∈ module.functions, function.Live)
    {depth : Nat} (leads : module.Path entry path function.name)
    (found : module.function? function.name = some function)
    (deep : module.functions.length < path.length + depth) :
    Outcome.Delivers (module.walkCalls depth path finished function) (fun _ => True)
      (module.Endless entry) := by
  induction depth generalizing path finished function with
  | zero =>
      -- No function stands on the path twice, so it is never longer than the module.
      have short := length_le_of_nodup leads.distinct leads.existing
      omega
  | succ depth induction =>
      rw [walkCalls, callSites_eq (live function (mem_of_function? found))]
      refine (Outcome.Delivers.foldlM_of_each fun finished site member => ?_).bind
        fun _ _ _ => trivial
      obtain ⟨call, call_mem, site_eq⟩ := List.mem_filterMap.mp member
      obtain ⟨kind_eq, -, location_eq⟩ := callSite?_eq_some_iff.mp site_eq
      have calls : module.CallsAt function.name site.callee site.location :=
        ⟨function, found, call, call_mem, kind_eq, location_eq⟩
      split
      · rename_i inside
        exact .failAt (leads.endless calls inside)
      · rename_i outside
        split
        · trivial
        · cases callee_eq : module.function? site.callee with
          | none => exact .failAt (.undeclared (leads.reached _ leads.last_mem) calls callee_eq)
          | some callee =>
              have name_eq := name_of_function? callee_eq
              have longer := leads.push ⟨_, calls⟩ outside callee_eq
              apply induction
              · exact name_eq ▸ longer
              · exact name_eq ▸ callee_eq
              · rw [List.length_append, List.length_singleton]
                omega

theorem delivers_checkCalls (live : ∀ function ∈ module.functions, function.Live)
    (found : module.function? function.name = some function) :
    Outcome.Delivers (module.checkCalls function) (fun _ => True)
      (module.Endless function.name) := by
  have walk :
      Outcome.Delivers (module.walkCalls module.functions.length [function.name] [] function)
      (fun _ => True) (module.Endless function.name) :=
    delivers_walkCalls live (.single found) found (by simp)
  exact walk.bind fun _ _ _ => trivial

/-- The check of calls accepts an entry exactly if the calls from it come to an end, and otherwise
it reports what is to blame. -/
theorem checkCalls_detects_recursion {caller : Function}
    (unique : (module.functions.map Function.name).Nodup)
    (live : ∀ function ∈ module.functions, function.Live) (member : caller ∈ module.functions) :
    (module.checkCalls caller = .ok () ↔ module.CallsEnd caller.name) ∧
      ∀ failure, module.checkCalls caller = .error failure →
        ∃ error, failure = .error error ∧ module.Endless caller.name error := by
  have found := function?_of_mem unique member
  have delivers := delivers_checkCalls live found
  have reports : ∀ failure, module.checkCalls caller = .error failure →
      ∃ error, failure = .error error ∧ module.Endless caller.name error := by
    intro failure failed
    cases failure with
    | error error => exact ⟨error, rfl, delivers.refused failed⟩
    | fault => exact absurd failed delivers.ne_fault
  refine ⟨⟨callsEnd_of_checkCalls live found, fun ends => ?_⟩, reports⟩
  cases outcome : module.checkCalls caller with
  | ok => rfl
  | error failure =>
      obtain ⟨error, -, endless⟩ := reports failure outcome
      exact absurd endless ends.not_endless

/-- Calls another function and returns nothing. -/
def calling (name callee : String) : Function :=
  let build : Edit Unit := do
    let _ ← Edit.append (.call callee) [] [.unranked] ⟨name, 2, 1⟩
    let _ ← Edit.append .leave [] [] ⟨name, 3, 1⟩
  (build.outcome (Function.new name ⟨name, 1, 4⟩)).1

theorem checkCalls_detects_recursion_even_odd :
    let module : Module := ⟨[calling "even" "odd", calling "odd" "even"]⟩
    let error : Error := ⟨.recursion ["even", "odd", "even"], some ⟨"odd", 2, 1⟩⟩
    module.checkCalls (calling "even" "odd") = .error (.error error) ∧
      ¬ module.CallsEnd "even" ∧ module.Endless "even" error := by
  intro module error
  have live : ∀ function ∈ module.functions, function.Live := by
    intro function member
    have verified : module.functions.Forall fun function => function.verify = .ok () := ⟨rfl, rfl⟩
    exact (Function.wellFormed_of_verify (List.forall_iff_forall_mem.mp verified _ member)).live
  have member : calling "even" "odd" ∈ module.functions := List.mem_cons_self
  have failed : module.checkCalls (calling "even" "odd") = .error (.error error) := by rfl
  obtain ⟨accepts, reports⟩ := checkCalls_detects_recursion (by decide) live member
  obtain ⟨_, ⟨⟩, endless⟩ := reports _ failed
  refine ⟨failed, fun ends => ?_, endless⟩
  rw [accepts.mpr ends] at failed
  cases failed

end Module

end Dataflow

end TensorLang
