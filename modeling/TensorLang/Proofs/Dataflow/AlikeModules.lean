import TensorLang.Dataflow.Listing
import TensorLang.Dataflow.Verification
import TensorLang.Proofs.Dataflow.AlikePasses

/-!
# Alike modules

Alike functions are in order together, or break the same rule.  Their listings are the same text as
long as locations are left out.  Modules of alike functions stay alike under every pass.
-/

namespace TensorLang

namespace Dataflow

variable {excused : Prop} {left right : Function} {operation other : Operation}

namespace Function.Alike

/-! ### Verification -/

theorem invalid {α β : Type} {values : α → β → Prop} (alike : left.Alike right)
    (location another : Location) (message : String) :
    (outcomes excused).Relates values (left.invalid location message)
      (right.invalid another message) := by
  rw [Function.invalid, Function.invalid, alike.name]
  exact outcomes_failAt _ _ _

theorem checkArguments (alike : left.Alike right) :
    (outcomes excused).Relates Eq left.checkArguments right.checkArguments := by
  rw [Function.checkArguments, Function.checkArguments, alike.arguments]
  refine (outcomes excused).forM (List.forall₂_same.mpr fun _ _ => rfl) ?_
  rintro ⟨argument, position⟩ _ rfl
  rw [alike.value]
  refine (outcomes excused).bind_same (outcomes_refl _) fun value => ?_
  exact (outcomes excused).ite (fun _ => alike.invalid _ _ _) fun _ => outcomes_ok rfl

theorem checkOperands (alike : left.Alike right) (same : operation.Alike other)
    (seen : Std.TreeSet Nat) : (outcomes excused).Relates Eq (left.checkOperands seen operation)
      (right.checkOperands seen other) := by
  obtain ⟨location⟩ := same
  refine (outcomes excused).forM (List.forall₂_same.mpr fun _ _ => rfl) ?_
  rintro operand _ rfl
  have available_eq : right.available = left.available := by
    funext seen id value
    rw [Function.available, Function.available, alike.arguments]
  rw [alike.values, available_eq]
  cases left.values.get? operand with
  | none => exact alike.invalid _ _ _
  | some value =>
      exact (outcomes excused).ite (fun _ => outcomes_ok rfl) fun _ => alike.invalid _ _ _

theorem checkResults (alike : left.Alike right) (same : operation.Alike other) :
    (outcomes excused).Relates Eq (left.checkResults operation) (right.checkResults other) := by
  obtain ⟨location⟩ := same
  refine (outcomes excused).forM (List.forall₂_same.mpr fun _ _ => rfl) ?_
  rintro ⟨result, position⟩ _ rfl
  rw [alike.value]
  refine (outcomes excused).bind_same (outcomes_refl _) fun value => ?_
  exact (outcomes excused).ite (fun _ => alike.invalid _ _ _) fun _ => outcomes_ok rfl

theorem checkReturn (alike : left.Alike right) (same : operation.Alike other) (isLast : Bool) :
    (outcomes excused).Relates Eq (left.checkReturn operation isLast)
      (right.checkReturn other isLast) := by
  obtain ⟨location⟩ := same
  refine (outcomes excused).ite (fun _ => ?_) fun _ => ?_
  · exact (outcomes excused).stop (alike.invalid _ _ _)
  · dsimp only
    rw [alike.resultTypes]
    exact (outcomes excused).ite (fun _ => alike.invalid _ _ _) fun _ => outcomes_ok rfl

theorem checkBody (alike : left.Alike right) (ids : List OperationId) (seen : Std.TreeSet Nat) :
    (outcomes excused).Relates Eq (left.checkBody seen ids) (right.checkBody seen ids) := by
  induction ids generalizing seen with
  | nil => exact outcomes_ok rfl
  | cons id ids induction =>
      rw [Function.checkBody, Function.checkBody]
      rcases alike.lookup id with ⟨before, after⟩ | ⟨operation, location, before, after⟩
      · rw [before, after]
        exact alike.invalid _ _ _
      · rw [before, after]
        have same : operation.Alike { operation with location } := .relocated location
        refine (outcomes excused).ite (fun _ => ?_) fun _ => ?_
        · exact (outcomes excused).stop (alike.invalid _ _ _)
        · refine (outcomes excused).bind_same (alike.checkOperands same seen) fun _ => ?_
          refine (outcomes excused).bind_same (alike.checkResults same) fun _ => ?_
          refine (outcomes excused).bind_same (alike.checkReturn same _) fun _ => ?_
          exact induction _

private theorem recordedUses_of_alike {operations others : List Operation}
    (same : List.Forall₂ Operation.Alike operations others) :
    recordedUses others = recordedUses operations := by
  rw [recordedUses, recordedUses]
  generalize UseLists.empty = uses
  induction same generalizing uses with
  | nil => rfl
  | cons head _ induction =>
      obtain ⟨location⟩ := head
      exact induction _

theorem verify (alike : left.Alike right) :
    (outcomes excused).Relates Eq left.verify right.verify := by
  rw [Function.verify, Function.verify, alike.body, alike.uses]
  refine (outcomes excused).bind_same alike.checkArguments fun _ => ?_
  refine (outcomes excused).bind_same (alike.checkBody _ _) fun _ => ?_
  refine (outcomes excused).ite (fun _ => ?_) fun _ => ?_
  · exact (outcomes excused).stop (alike.invalid _ _ _)
  · refine (outcomes excused).bind alike.bodyOperations fun operations others same => ?_
    rw [recordedUses_of_alike same]
    exact (outcomes excused).ite (fun _ => alike.invalid _ _ _) fun _ => outcomes_ok rfl

/-! ### Listings -/

theorem numbering (alike : left.Alike right) {operations others : List Operation}
    (same : List.Forall₂ Operation.Alike operations others) :
    right.numbering others = left.numbering operations := by
  have results_eq : others.flatMap Operation.results = operations.flatMap Operation.results := by
    induction same with
    | nil => rfl
    | cons head _ induction =>
        obtain ⟨location⟩ := head
        rw [List.flatMap_cons, List.flatMap_cons, induction]
  rw [Function.numbering, Function.numbering, alike.arguments, results_eq]

theorem operationLine (alike : left.Alike right) (same : operation.Alike other) (ink : Ink)
    (numbers : ValueNumbers) : right.operationLine ⟨ink, false⟩ numbers other =
      left.operationLine ⟨ink, false⟩ numbers operation := by
  have typesText_eq : right.typesText = left.typesText := by
    funext values
    rw [typesText, typesText, alike.typeOf]
  obtain ⟨location⟩ := same
  rw [Function.operationLine, Function.operationLine, typesText_eq]
  rfl

theorem listing (alike : left.Alike right) (ink : Ink) :
    (outcomes excused).Relates Eq (left.listing ⟨ink, false⟩) (right.listing ⟨ink, false⟩) := by
  have argumentText_eq : right.argumentText = left.argumentText := by
    funext style numbers argument
    rw [argumentText, argumentText, alike.typeOf]
  rw [Function.listing, Function.listing, alike.arguments, alike.name, alike.resultTypes,
    argumentText_eq]
  refine (outcomes excused).bind alike.bodyOperations fun operations others same => ?_
  rw [alike.numbering same]
  refine (outcomes excused).bind_same (outcomes_refl _) fun arguments => ?_
  have lines : (outcomes excused).Relates (List.Forall₂ Eq)
      (operations.mapM (left.operationLine ⟨ink, false⟩ (left.numbering operations)))
      (others.mapM (right.operationLine ⟨ink, false⟩ (left.numbering operations))) :=
    (outcomes excused).mapM same fun _ _ same => by
      rw [alike.operationLine same]
      exact outcomes_refl _
  refine (outcomes excused).bind lines fun _ _ listed => ?_
  rw [List.forall₂_eq_eq_eq] at listed
  subst listed
  exact outcomes_ok rfl

end Function.Alike

/-! ### Modules -/

/-- The same functions in the same order, perhaps with other locations. -/
def Module.Alike (left right : Module) : Prop :=
  List.Forall₂ Function.Alike left.functions right.functions

namespace Module.Alike

variable {first second : Module}

/-- Functions of the same name are alike. -/
theorem function? (alike : first.Alike second) (name : String) :
    Option.Rel Function.Alike (first.function? name) (second.function? name) := by
  rw [Module.function?, Module.function?]
  rw [Module.Alike] at alike
  generalize first.functions = functions at alike ⊢
  generalize second.functions = others at alike ⊢
  induction alike with
  | nil => exact .none
  | @cons left right _ _ head _ induction =>
      rw [List.find?_cons, List.find?_cons, head.name]
      cases left.name == name
      · exact induction
      · exact .some head

theorem editFrom {edit : Edit Nat} (same : (edits excused).Relates Eq edit edit)
    {functions others : List Function} (alike : List.Forall₂ Function.Alike functions others)
    (total : Nat) : (outcomes excused).Relates
      (fun count other => count = other ∧ List.Forall₂ Function.Alike
        (Module.editFrom edit total functions).1 (Module.editFrom edit total others).1)
      (Module.editFrom edit total functions).2 (Module.editFrom edit total others).2 := by
  induction alike generalizing total with
  | nil => exact outcomes_ok ⟨rfl, .nil⟩
  | @cons left right _ _ head _ induction =>
      have early := same left right head
      rw [Module.editFrom, Module.editFrom]
      generalize edit left = before at early ⊢
      generalize edit right = after at early ⊢
      cases before <;> cases after <;> cases early
      case ok.ok holds =>
        obtain ⟨rfl, changed⟩ := holds
        refine (outcomes excused).mono (induction (total + _)) ?_
        rintro _ _ ⟨same_count, listed⟩
        exact ⟨same_count, .cons changed listed⟩
      case error.error.error failed => exact .error failed
      all_goals exact .excused (by assumption)

theorem editAll {edit : Edit Nat} (same : (edits excused).Relates Eq edit edit)
    (alike : first.Alike second) : (outcomes excused).Relates
      (fun count other => count = other ∧ (first.editAll edit).1.Alike (second.editAll edit).1)
      (first.editAll edit).2 (second.editAll edit).2 :=
  editFrom same alike 0

theorem inferTypes (alike : first.Alike second) :
    (outcomes excused).Relates (fun _ _ => first.inferTypes.1.Alike second.inferTypes.1)
      first.inferTypes.2 second.inferTypes.2 := by
  have same : (edits excused).Relates Eq (do Edit.inferTypes; return 0 : Edit Nat)
      (do Edit.inferTypes; return 0) :=
    (edits excused).bind_same edits_inferTypes fun _ => (edits excused).pure rfl
  refine (outcomes excused).map (editAll same alike) ?_
  rintro _ _ ⟨-, inferred⟩
  exact inferred

theorem simplify (alike : first.Alike second) : (outcomes excused).Relates
    (fun applied other => applied = other ∧ first.simplify.1.Alike second.simplify.1)
    first.simplify.2 second.simplify.2 :=
  editAll edits_simplify alike

theorem share (alike : first.Alike second) : (outcomes excused).Relates
    (fun merged other => merged = other ∧ first.share.1.Alike second.share.1)
    first.share.2 second.share.2 :=
  editAll edits_share alike

theorem verify (alike : first.Alike second) :
    (outcomes excused).Relates Eq first.verify second.verify :=
  (outcomes excused).forM alike fun _ _ same => same.verify

theorem listing (alike : first.Alike second) (ink : Ink) :
    (outcomes excused).Relates Eq (first.listing ⟨ink, false⟩) (second.listing ⟨ink, false⟩) := by
  refine (outcomes excused).bind ((outcomes excused).mapM alike fun _ _ same => same.listing ink)
    fun _ _ listed => ?_
  rw [List.forall₂_eq_eq_eq] at listed
  subst listed
  exact outcomes_ok rfl

end Module.Alike

end Dataflow

end TensorLang
