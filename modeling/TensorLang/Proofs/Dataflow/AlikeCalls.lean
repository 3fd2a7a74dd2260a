import TensorLang.Proofs.Dataflow.AlikeModules
import TensorLang.Proofs.Dataflow.InlinedCalls

/-!
# Inlining in alike modules

Inlining finds functions by their names, so it does the same in every module that has alike
functions for all names that matter: the order of the functions, and functions that no call leads
to, make no difference.  Its bounds grow with the module, and a larger bound never stops an inlining
that a smaller one allows.
-/

namespace TensorLang

namespace Dataflow

variable {excused : Prop} {left right : Function} {operation other : Operation}

/-- The same call, perhaps at another location. -/
inductive CallSite.Alike (site : CallSite) : CallSite → Prop
  | relocated (location : Location) : Alike site { site with location }

/-! ### Calls -/

namespace Function.Alike

theorem callSite? (same : operation.Alike other) :
    Option.Rel CallSite.Alike operation.callSite? other.callSite? := by
  obtain ⟨location⟩ := same
  rw [Operation.callSite?, Operation.callSite?]
  cases operation.kind.callee? with
  | none => exact .none
  | some callee => exact .some (.relocated location)

theorem callSites (alike : left.Alike right) :
    (outcomes excused).Relates (List.Forall₂ CallSite.Alike) left.callSites right.callSites := by
  refine (outcomes excused).bind alike.bodyOperations fun operations others same => outcomes_ok ?_
  induction same with
  | nil => exact .nil
  | @cons operation other _ _ head _ induction =>
      have site := callSite? head
      rw [List.filterMap_cons, List.filterMap_cons]
      generalize operation.callSite? = first at site ⊢
      generalize other.callSite? = second at site ⊢
      cases site with
      | none => exact induction
      | some site => exact .cons site induction

theorem firstCall? (alike : left.Alike right) (ids : List OperationId) :
    (outcomes excused).Relates (Option.Rel CallSite.Alike) (left.firstCall? ids)
      (right.firstCall? ids) := by
  induction ids with
  | nil => exact outcomes_ok .none
  | cons id ids induction =>
      refine (outcomes excused).bind (alike.operation id) fun operation other same => ?_
      have site := callSite? same
      generalize operation.callSite? = first at site ⊢
      generalize other.callSite? = second at site ⊢
      cases site with
      | none => exact induction
      | some site => exact outcomes_ok (.some site)

end Function.Alike

/-! ### The walk along the calls -/

/-- The second bound is the first; a larger one will do where the first computation is excused. -/
def Allows (excused : Prop) (bound larger : Nat) : Prop := larger = bound ∨ excused ∧ bound ≤ larger

theorem Allows.exists_succ {bound larger : Nat} (allows : Allows excused (bound + 1) larger) :
    ∃ rest, larger = rest + 1 ∧ Allows excused bound rest := by
  rcases allows with rfl | ⟨excuse, above⟩
  · exact ⟨bound, rfl, .inl rfl⟩
  · exact ⟨larger - 1, by omega, .inr ⟨excuse, by omega⟩⟩

/-- The second module has an alike function for every function of the first, by name.  It has others
only if the first is excused when it misses them. -/
def Module.Provides (excused : Prop) (first second : Module) : Prop :=
  ∀ name, Option.Rel Function.Alike (first.function? name) (second.function? name) ∨
    excused ∧ first.function? name = none

namespace Module.Provides

variable {first second : Module}

theorem lookup (provides : first.Provides excused second) (name : String) :
    (excused ∧ first.function? name = none) ∨
      (first.function? name = none ∧ second.function? name = none) ∨
      ∃ function another, first.function? name = some function ∧
        second.function? name = some another ∧ function.Alike another := by
  rcases provides name with related | missing
  · right
    generalize first.function? name = before at related ⊢
    generalize second.function? name = after at related ⊢
    cases related with
    | none => exact .inl ⟨rfl, rfl⟩
    | some alike => exact .inr ⟨_, _, rfl, rfl, alike⟩
  · exact .inl missing

theorem walkCalls (provides : first.Provides excused second) {depth larger : Nat}
    (allows : Allows excused depth larger) (alike : left.Alike right)
    (path finished : List String) :
    (outcomes excused).Relates Eq (first.walkCalls depth path finished left)
      (second.walkCalls larger path finished right) := by
  induction depth generalizing larger path finished left right with
  | zero =>
      rcases allows with rfl | ⟨excuse, -⟩
      · exact .error .fault
      · exact .excused excuse
  | succ depth induction =>
      obtain ⟨larger, rfl, deeper⟩ := allows.exists_succ
      rw [Module.walkCalls, Module.walkCalls, alike.name]
      refine (outcomes excused).bind alike.callSites fun sites others same => ?_
      refine (outcomes excused).bind_same ((outcomes excused).foldlM same ?_ rfl)
        fun _ => outcomes_ok rfl
      rintro finished _ rfl site _ ⟨location⟩
      refine (outcomes excused).ite (fun _ => outcomes_failAt _ _ _) fun _ => ?_
      refine (outcomes excused).ite (fun _ => outcomes_ok rfl) fun _ => ?_
      rcases provides.lookup site.callee with ⟨excuse, before⟩ | ⟨before, after⟩ |
        ⟨callee, another, before, after, same⟩
      · rw [before]
        exact .excused excuse
      · rw [before, after]
        exact outcomes_failAt _ _ _
      · rw [before, after]
        exact induction deeper same _ _

theorem checkCalls (provides : first.Provides excused second)
    (allows : Allows excused first.functions.length second.functions.length)
    (alike : left.Alike right) :
    (outcomes excused).Relates Eq (first.checkCalls left) (second.checkCalls right) := by
  rw [Module.checkCalls, Module.checkCalls, alike.name]
  exact (outcomes excused).bind_same (provides.walkCalls allows alike _ _) fun _ => outcomes_ok rfl

end Module.Provides

/-! ### Expansion of calls -/

namespace Inlining

variable {callee another : Function} {call site : Operation}

private theorem edits_passArgument (alike : callee.Alike another) (same : call.Alike site)
    (values : ValueMap) (parameter argument : ValueId) :
    (edits excused).Relates Eq (passArgument callee call values parameter argument)
      (passArgument another site values parameter argument) := by
  obtain ⟨location⟩ := same
  unfold passArgument
  rw [alike.typeOf]
  refine (edits excused).bind_same (edits_lift (outcomes_refl _)) fun parameterType => ?_
  refine (edits excused).bind_same (edits_typeOf argument) fun argumentType => ?_
  refine (edits excused).ite (fun _ => (edits excused).pure rfl) fun _ => ?_
  refine (edits excused).bind_same (edits_insertBefore _ _ _ _ _ _) fun cast => ?_
  refine (edits excused).bind (edits_operation cast) fun operation other same => ?_
  exact (edits excused).bind_same (edits_result same) fun _ => (edits excused).pure rfl

private theorem edits_copyOperation (alike : callee.Alike another) (call : OperationId)
    (same : operation.Alike other) (state : ValueMap × List ValueId) :
    (edits excused).Relates Eq (copyOperation callee call state operation)
      (copyOperation another call state other) := by
  obtain ⟨location⟩ := same
  unfold copyOperation
  rw [alike.typeOf]
  have operands_eq : (edits excused).Relates Eq
      (operation.operands.mapM fun operand =>
        (liftM (Outcome.promised state.1[operand.index]?) : Edit ValueId))
      (operation.operands.mapM fun operand =>
        (liftM (Outcome.promised state.1[operand.index]?) : Edit ValueId)) :=
    (edits excused).mapM_same _ fun _ => edits_lift (outcomes_refl _)
  have types_eq : (edits excused).Relates Eq
      (operation.results.mapM fun result => (liftM (callee.typeOf result) : Edit TensorType))
      (operation.results.mapM fun result => (liftM (callee.typeOf result) : Edit TensorType)) :=
    (edits excused).mapM_same _ fun _ => edits_lift (outcomes_refl _)
  refine (edits excused).bind_same operands_eq fun operands => ?_
  refine (edits excused).ite (fun _ => (edits excused).pure rfl) fun _ => ?_
  refine (edits excused).bind_same types_eq fun types => ?_
  refine (edits excused).bind_same (edits_insertBefore _ _ _ _ _ _) fun copy => ?_
  refine (edits excused).bind (edits_operation copy) ?_
  rintro copied _ ⟨_⟩
  exact (edits excused).pure rfl

private theorem edits_connectResult (alike : callee.Alike another) (same : call.Alike site)
    (returned : List ValueId) (position : Nat) (result : ValueId) :
    (edits excused).Relates Eq (connectResult callee call returned position result)
      (connectResult another site returned position result) := by
  obtain ⟨location⟩ := same
  unfold connectResult
  cases returned[position]? with
  | some value => exact edits_replaceUses result value
  | none =>
      refine (edits excused).bind edits_get fun left right caller => ?_
      rw [caller.isUsed, alike.name]
      exact (edits excused).ite (fun _ => edits_throw (.failAt _ _ _))
        fun _ => (edits excused).pure rfl

private theorem edits_expandCall (alike : callee.Alike another) (id : OperationId) :
    (edits excused).Relates Eq (expandCall callee id) (expandCall another id) := by
  refine (edits excused).bind (edits_operation id) fun call site same => ?_
  have passed (values : ValueMap) (parameter argument : ValueId) : (edits excused).Relates Eq
      (passArgument callee call values parameter argument)
      (passArgument another site values parameter argument) :=
    edits_passArgument alike same values parameter argument
  have connected (returned : List ValueId) (position : Nat) (result : ValueId) :
      (edits excused).Relates Eq (connectResult callee call returned position result)
        (connectResult another site returned position result) :=
    edits_connectResult alike same returned position result
  have body : (edits excused).Relates (List.Forall₂ Operation.Alike) (liftM callee.bodyOperations)
      (liftM another.bodyOperations) := edits_lift alike.bodyOperations
  obtain ⟨location⟩ := same
  rw [alike.arguments, alike.name]
  refine (edits excused).ite (fun _ => ?_) fun _ => ?_
  · exact (edits excused).stop (edits_throw (.failAt _ _ _))
  · refine (edits excused).bind_same ((edits excused).foldlM (List.forall₂_same.mpr fun _ _ => rfl)
      ?_ rfl) fun values => ?_
    · rintro values _ rfl ⟨parameter, argument⟩ _ rfl
      exact passed values parameter argument
    refine (edits excused).bind body fun operations others same => ?_
    refine (edits excused).bind_same ((edits excused).foldlM same ?_ rfl) fun state => ?_
    · rintro state _ rfl operation other same
      exact edits_copyOperation alike id same state
    refine (edits excused).bind_same ((edits excused).forM (List.forall₂_same.mpr fun _ _ => rfl)
      ?_) fun _ => edits_erase id
    rintro ⟨result, position⟩ _ rfl
    exact connected state.2 position result

theorem edits_firstCall? : (edits excused).Relates (Option.Rel CallSite.Alike)
    (Edit.query fun caller => caller.firstCall? caller.body)
    (Edit.query fun caller => caller.firstCall? caller.body) :=
  edits_query fun _ _ alike => by
    rw [alike.body]
    exact alike.firstCall? _

theorem edits_expandCalls {first second : Module} (provides : first.Provides excused second)
    {budget larger : Nat} (allows : Allows excused budget larger) :
    (edits excused).Relates Eq (expandCalls first budget) (expandCalls second larger) := by
  induction budget generalizing larger with
  | zero =>
      cases larger with
      | zero =>
          refine (edits excused).bind edits_firstCall? ?_
          rintro _ _ (_ | _)
          · exact edits_throw .fault
          · exact (edits excused).pure rfl
      | succ larger =>
          -- A first run that stops here has used up its budget; the second may go on.
          refine (edits excused).bind edits_firstCall? ?_
          rintro _ _ (_ | _)
          · exact fun _ _ _ => .excused (allows.resolve_left (by omega)).1
          · exact (edits excused).pure rfl
  | succ budget induction =>
      obtain ⟨larger, rfl, fewer⟩ := allows.exists_succ
      refine (edits excused).bind edits_firstCall? ?_
      rintro _ _ (⟨⟨location⟩⟩ | _)
      · rename_i site
        dsimp only
        rcases provides.lookup site.callee with ⟨excuse, before⟩ | ⟨before, after⟩ |
          ⟨callee, another, before, after, same⟩
        · rw [before]
          exact fun _ _ _ => .excused excuse
        · rw [before, after]
          exact edits_throw (.failAt _ _ _)
        · rw [before, after]
          exact (edits excused).bind_same (edits_expandCall same site.id)
            fun _ => induction fewer
      · exact (edits excused).pure rfl

end Inlining

namespace Module

variable {first second : Module}

private theorem function?_eraseP_self {module : Module}
    (names : (module.functions.map Function.name).Nodup) (entry : String) :
    Module.function? ⟨module.functions.eraseP fun function => function.name == entry⟩ entry =
      none := by
  rw [Module.function?]
  generalize module.functions = functions at names
  induction functions with
  | nil => rfl
  | cons function rest induction =>
      obtain ⟨fresh, names⟩ := List.nodup_cons.mp names
      rw [List.eraseP_cons]
      by_cases named : function.name = entry
      · simp only [beq_iff_eq.mpr named, cond_true]
        refine List.find?_eq_none.mpr fun other member same => fresh ?_
        exact List.mem_map.mpr ⟨other, member, (eq_of_beq same).trans named.symm⟩
      · have kept : (function.name == entry) = false := beq_eq_false_iff_ne.mpr named
        simp only [kept, cond_false, List.find?_cons]
        exact induction names

theorem function?_without_self {module : Module}
    (unique : (module.functions.map Function.name).Nodup) (entry : String) :
    (module.without entry).function? entry = none := by
  have kept : ((module.functions.eraseP fun function => function.name == entry).map
      Function.name).Nodup := unique.sublist (List.eraseP_sublist.map _)
  have found : (module.without entry).function? entry =
      Module.function? ⟨module.functions.eraseP fun function => function.name == entry⟩ entry :=
    Module.function?_of_perm kept (swapRemove_perm _ _) entry
  exact found.trans (function?_eraseP_self unique entry)

theorem Provides.without (provides : first.Provides excused second)
    (names : (first.functions.map Function.name).Nodup)
    (others : (second.functions.map Function.name).Nodup) (entry : String) :
    (first.without entry).Provides excused (second.without entry) := by
  intro name
  by_cases apart : name = entry
  · subst apart
    rw [function?_without_self names, function?_without_self others]
    exact .inl .none
  · rw [Inlining.function?_without names apart, Inlining.function?_without others apart]
    exact provides name

theorem Provides.inline (provides : first.Provides excused second)
    (names : (first.functions.map Function.name).Nodup)
    (others : (second.functions.map Function.name).Nodup)
    (allows : Allows excused first.functions.length second.functions.length)
    (bounds : Allows excused first.expansionBound second.expansionBound) (entry : String) :
    (outcomes excused).Relates Module.Alike (first.inline entry) (second.inline entry) := by
  rw [Module.inline, Module.inline]
  rcases provides.lookup entry with ⟨excuse, before⟩ | ⟨before, after⟩ |
    ⟨caller, another, before, after, alike⟩
  · rw [before]
    exact .excused excuse
  · rw [before, after]
    exact outcomes_fail _
  · rw [before, after]
    refine (outcomes excused).bind_same (provides.checkCalls allows alike) fun _ => ?_
    have expanded := Inlining.edits_expandCalls (provides.without names others entry) bounds
    refine (outcomes excused).bind (edits_outcome expanded alike) ?_
    rintro _ _ ⟨-, inlined⟩
    exact outcomes_ok (.cons inlined .nil)

/-! ### The same functions in the same order -/

namespace Alike

theorem provides (alike : first.Alike second) : first.Provides excused second :=
  fun name => .inl (alike.function? name)

theorem names (alike : first.Alike second) :
    second.functions.map Function.name = first.functions.map Function.name := by
  rw [Module.Alike] at alike
  generalize first.functions = functions at alike ⊢
  generalize second.functions = others at alike ⊢
  induction alike with
  | nil => rfl
  | cons head _ induction => rw [List.map_cons, List.map_cons, head.name, induction]

theorem bodySize (alike : first.Alike second) : second.bodySize = first.bodySize := by
  rw [Module.bodySize, Module.bodySize]
  rw [Module.Alike] at alike
  generalize first.functions = functions at alike ⊢
  generalize second.functions = others at alike ⊢
  induction alike with
  | nil => rfl
  | cons head _ induction => rw [List.foldr_cons, List.foldr_cons, head.body, induction]

theorem inline (alike : first.Alike second) (distinct : (first.functions.map Function.name).Nodup)
    (entry : String) :
    (outcomes excused).Relates Module.Alike (first.inline entry) (second.inline entry) := by
  have length_eq : second.functions.length = first.functions.length := alike.length_eq.symm
  have bound_eq : second.expansionBound = first.expansionBound := by
    rw [expansionBound, expansionBound, alike.bodySize, length_eq]
  have others : (second.functions.map Function.name).Nodup := alike.names ▸ distinct
  exact alike.provides.inline distinct others (.inl length_eq) (.inl bound_eq) entry

end Alike

end Module

end Dataflow

end TensorLang
