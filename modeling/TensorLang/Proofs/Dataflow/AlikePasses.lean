import TensorLang.Dataflow.Inference
import TensorLang.Dataflow.Sharing
import TensorLang.Dataflow.Simplification
import TensorLang.Proofs.Dataflow.Alike

/-!
# Passes over alike functions

Shape inference, simplification and sharing read locations only to put them into errors and into the
operations that they make.  So they do the same to alike functions: they leave alike functions
behind and count the same, or they fail for the same cause.
-/

namespace TensorLang

namespace Dataflow

variable {excused : Prop} {left right : Function} {operation other : Operation}

/-! ### Shape inference -/

namespace Inference

theorem outcomes_mismatch {α β : Type} {values : α → β → Prop} (same : operation.Alike other)
    (reason : String) :
    (outcomes excused).Relates values (mismatch operation reason) (mismatch other reason) := by
  obtain ⟨location⟩ := same
  exact outcomes_failAt _ _ _

private theorem edits_setResult (same : operation.Alike other) (shape : Shape) :
    (edits excused).Relates Eq (setResult operation shape) (setResult other shape) := by
  refine (edits excused).ite (fun _ => ?_) fun _ => ?_
  · exact (edits excused).stop (edits_lift (outcomes_mismatch same _))
  · refine (edits excused).bind_same (edits_result same) fun result => ?_
    refine (edits excused).bind (edits_typeOf result) ?_
    rintro (_ | declared) _ rfl
    · exact edits_setType _ _
    · refine (edits excused).ite (fun _ => ?_) fun _ => (edits excused).pure rfl
      exact edits_lift (outcomes_mismatch same _)

private theorem edits_setReturned (location another : Location) (shape : Shape) (position : Nat) :
    (edits excused).Relates Eq (setReturned location shape position)
      (setReturned another shape position) := by
  refine (edits excused).bind edits_get fun left right alike => ?_
  rw [alike.resultTypes]
  refine (edits excused).bind (edits_lift (outcomes_refl _)) ?_
  rintro (_ | declared) _ rfl
  · exact edits_set (alike.withResultTypes _)
  · refine (edits excused).ite (fun _ => ?_) fun _ => (edits excused).pure rfl
    rw [alike.name]
    exact edits_throw (.failAt _ _ _)

private theorem edits_resolveOperation (id : OperationId) :
    (edits excused).Relates Eq (resolveOperation id) (resolveOperation id) := by
  refine (edits excused).bind (edits_operation id) ?_
  rintro operation _ ⟨location⟩
  have ranked : (edits excused).Relates Eq
      (Edit.query fun function => allRanked function operation.operands)
      (Edit.query fun function => allRanked function operation.operands) :=
    edits_query fun _ _ alike => by
      rw [allRanked, allRanked, alike.typeOf]
      exact outcomes_refl _
  refine (edits excused).bind_same ranked fun known => ?_
  refine (edits excused).ite (fun _ => (edits excused).pure rfl) fun _ => ?_
  have typed : (edits excused).Relates Eq
      (Edit.query fun function => operation.operands.mapM function.typeOf)
      (Edit.query fun function => operation.operands.mapM function.typeOf) :=
    edits_query fun _ _ alike => by
      rw [alike.typeOf]
      exact outcomes_refl _
  refine (edits excused).bind_same typed fun types => ?_
  dsimp only
  split
  · exact edits_lift (outcomes_mismatch (.relocated _) _)
  · exact (edits excused).bind_same (edits_setResult (.relocated _) _)
      fun _ => (edits excused).pure rfl
  · refine (edits excused).bind_same
      ((edits excused).forM (List.forall₂_same.mpr fun _ _ => rfl) ?_)
      fun _ => (edits excused).pure rfl
    rintro ⟨shape, position⟩ _ rfl
    exact edits_setReturned _ _ _ _
  · exact (edits excused).pure rfl
  · exact (edits excused).pure rfl

private theorem edits_scan (ids : List OperationId) :
    (edits excused).Relates Eq (scan ids) (scan ids) := by
  induction ids with
  | nil => exact (edits excused).pure rfl
  | cons id ids induction =>
      refine (edits excused).bind_same (edits_resolveOperation id) fun resolved => ?_
      refine (edits excused).bind_same induction fun pending => ?_
      exact (edits excused).pure rfl

private theorem edits_settle (bound : Nat) (ids : List OperationId) :
    (edits excused).Relates Eq (settle bound ids) (settle bound ids) := by
  induction bound generalizing ids with
  | zero => exact (edits excused).pure rfl
  | succ bound induction =>
      refine (edits excused).bind_same (edits_scan ids) fun rest => ?_
      exact (edits excused).ite (fun _ => induction rest) fun _ => (edits excused).pure rfl

end Inference

theorem edits_inferTypes : (edits excused).Relates Eq Edit.inferTypes Edit.inferTypes := by
  refine (edits excused).bind edits_get fun left right alike => ?_
  rw [alike.body]
  refine (edits excused).bind (Inference.edits_settle _ _) ?_
  rintro (_ | ⟨id, _⟩) _ rfl
  · exact (edits excused).pure rfl
  · refine (edits excused).bind (edits_operation id) ?_
    rintro operation _ ⟨location⟩
    exact edits_throw (.failAt _ _ _)

/-! ### Simplification -/

namespace SimplificationRule

theorem outcomes_operandDefinition? (alike : left.Alike right) (same : operation.Alike other) :
    (outcomes excused).Relates (Option.Rel Operation.Alike) (operandDefinition? left operation)
      (operandDefinition? right other) := by
  obtain ⟨location⟩ := same
  have operand_eq :
      Operation.onlyOperand? { operation with location } = operation.onlyOperand? := rfl
  rw [operandDefinition?, operandDefinition?, operand_eq]
  cases operation.onlyOperand? with
  | none => exact outcomes_ok .none
  | some operand => exact alike.definer? operand

theorem edits_operandDefinition? (same : operation.Alike other) :
    (edits excused).Relates (Option.Rel Operation.Alike)
      (Edit.query fun function => operandDefinition? function operation)
      (Edit.query fun function => operandDefinition? function other) :=
  edits_query fun _ _ alike => outcomes_operandDefinition? alike same

private theorem keepsType_alike (alike : left.Alike right) (same : operation.Alike other) :
    keepsType right other = keepsType left operation := by
  obtain ⟨location⟩ := same
  rw [keepsType, keepsType, alike.typeOf]

theorem literal?_of_rel {inner? another? : Option Operation}
    (related : Option.Rel Operation.Alike inner? another?) :
    (another?.bind fun inner => inner.kind.literal?) =
      inner?.bind fun inner => inner.kind.literal? := by
  rcases related with ⟨⟨_⟩⟩ | _ <;> rfl

private theorem isReshape_of_rel {inner? another? : Option Operation}
    (related : Option.Rel Operation.Alike inner? another?) :
    (another?.any fun inner => inner.kind.reshapeTarget?.isSome) =
      inner?.any fun inner => inner.kind.reshapeTarget?.isSome := by
  rcases related with ⟨⟨_⟩⟩ | _ <;> rfl

theorem outcomes_applies (alike : left.Alike right) (same : operation.Alike other)
    (rule : SimplificationRule) :
    (outcomes excused).Relates Eq (rule.applies left operation) (rule.applies right other) := by
  have defined : (outcomes excused).Relates (Option.Rel Operation.Alike)
      (operandDefinition? left operation) (operandDefinition? right other) :=
    outcomes_operandDefinition? alike same
  have kept := keepsType_alike alike same
  have unused := alike.isUsed
  obtain ⟨location⟩ := same
  have kind_eq : Operation.kind { operation with location } = operation.kind := rfl
  unfold applies
  rw [kind_eq, kept, unused]
  cases operation.kind.reshapeTarget? with
  | none => cases rule <;> exact outcomes_refl _
  | some shape =>
      cases rule with
      | reshapeOfConstant =>
          refine (outcomes excused).bind defined fun _ _ related => ?_
          rw [literal?_of_rel related]
          exact outcomes_refl _
      | reshapeOfReshape =>
          refine (outcomes excused).bind defined fun _ _ related => ?_
          rw [isReshape_of_rel related]
          exact outcomes_refl _
      | redundantReshape | redundantCast | deadOperation => exact outcomes_refl _

theorem edits_substitute (id : OperationId) (value : ValueId) :
    (edits excused).Relates Eq (substitute id value) (substitute id value) := by
  refine (edits excused).bind (edits_operation id) fun operation other same => ?_
  refine (edits excused).bind_same (edits_result same) fun result => ?_
  refine (edits excused).bind_same (edits_replaceUses result value) fun _ => ?_
  refine (edits excused).bind_same (edits_erase id) fun _ => ?_
  refine (edits excused).bind edits_get fun left right alike => ?_
  rw [alike.usersOf]
  exact (edits excused).pure rfl

theorem edits_replaceByNew (id : OperationId) (kind : OperationKind) (operands : List ValueId)
    (type : TensorType) (location another : Location) :
    (edits excused).Relates Eq (replaceByNew id kind operands type location)
      (replaceByNew id kind operands type another) := by
  refine (edits excused).bind_same (edits_insertBefore _ _ _ _ _ _) fun new => ?_
  refine (edits excused).bind (edits_operation new) fun operation other same => ?_
  refine (edits excused).bind_same (edits_result same) fun result => ?_
  refine (edits excused).bind_same (edits_substitute id result) fun touched => ?_
  exact (edits excused).pure rfl

private theorem edits_foldConstant (id : OperationId) :
    (edits excused).Relates Eq (foldConstant id) (foldConstant id) := by
  refine (edits excused).bind (edits_operation id) fun operation other same => ?_
  refine (edits excused).bind (edits_operandDefinition? same) fun inner? another? defined => ?_
  obtain ⟨location⟩ := same
  rw [literal?_of_rel defined]
  dsimp only
  split
  · split
    · exact edits_replaceByNew _ _ _ _ _ _
    · exact (edits excused).pure rfl
  · exact (edits excused).pure rfl

theorem edits_bypass (id : OperationId) :
    (edits excused).Relates Eq (bypass id) (bypass id) := by
  refine (edits excused).bind (edits_operation id) ?_
  rintro operation _ ⟨location⟩
  refine (edits excused).bind_same (edits_lift (outcomes_refl _)) fun operand => ?_
  exact edits_substitute id operand

private theorem edits_skipInnerReshape (id : OperationId) :
    (edits excused).Relates Eq (skipInnerReshape id) (skipInnerReshape id) := by
  refine (edits excused).bind (edits_operation id) fun operation other same => ?_
  refine (edits excused).bind (edits_operandDefinition? same) ?_
  rintro _ _ (⟨⟨_⟩⟩ | _)
  · refine (edits excused).bind_same (edits_result same) fun result => ?_
    refine (edits excused).bind_same (edits_typeOf result) fun type => ?_
    obtain ⟨location⟩ := same
    exact edits_replaceByNew _ _ _ _ _ _
  · exact (edits excused).pure rfl

private theorem edits_apply (rule : SimplificationRule) (id : OperationId) :
    (edits excused).Relates Eq (rule.apply id) (rule.apply id) := by
  cases rule with
  | reshapeOfConstant => exact edits_foldConstant id
  | redundantReshape => exact edits_bypass id
  | reshapeOfReshape => exact edits_skipInnerReshape id
  | redundantCast => exact edits_bypass id
  | deadOperation =>
      exact (edits excused).bind_same (edits_erase id) fun _ => (edits excused).pure rfl

private theorem outcomes_first? (alike : left.Alike right) (same : operation.Alike other) :
    (outcomes excused).Relates Eq (first? left operation) (first? right other) :=
  (outcomes excused).findM? all fun rule => outcomes_applies alike same rule

end SimplificationRule

namespace Simplification

private theorem ids_of_rel {definers others : List (Option Operation)}
    (related : List.Forall₂ (Option.Rel Operation.Alike) definers others) :
    (others.filterMap fun definer? => definer?.map Operation.id) =
      definers.filterMap fun definer? => definer?.map Operation.id := by
  induction related with
  | nil => rfl
  | cons head _ induction =>
      rw [List.filterMap_cons, List.filterMap_cons, induction]
      rcases head with ⟨⟨_⟩⟩ | _ <;> rfl

private theorem edits_step (id : OperationId) : (edits excused).Relates Eq (step id) (step id) := by
  refine (edits excused).bind edits_get fun left right alike => ?_
  rcases alike.lookup id with ⟨before, after⟩ | ⟨operation, location, before, after⟩
  · rw [before, after]
    exact (edits excused).pure rfl
  · rw [before, after]
    have chosen : (edits excused).Relates Eq
        (Edit.query fun function => SimplificationRule.first? function operation)
        (Edit.query fun function =>
          SimplificationRule.first? function { operation with location }) :=
      edits_query fun _ _ alike => SimplificationRule.outcomes_first? alike (.relocated location)
    refine (edits excused).bind chosen ?_
    rintro (_ | rule) _ rfl
    · exact (edits excused).pure rfl
    · have defined : (edits excused).Relates (List.Forall₂ (Option.Rel Operation.Alike))
          (Edit.query fun function => operation.operands.mapM function.definer?)
          (Edit.query fun function => operation.operands.mapM function.definer?) :=
        edits_query fun _ _ alike => (outcomes excused).mapM (List.forall₂_same.mpr fun _ _ => rfl)
          fun operand _ same => same ▸ alike.definer? operand
      refine (edits excused).bind defined fun definitions others related => ?_
      refine (edits excused).bind_same (SimplificationRule.edits_apply rule id) fun touched => ?_
      rw [ids_of_rel related]
      exact (edits excused).pure rfl

theorem edits_advance? (worklist : List OperationId) :
    (edits excused).Relates Eq (advance? worklist) (advance? worklist) := by
  induction worklist with
  | nil => exact (edits excused).pure rfl
  | cons id worklist induction =>
      refine (edits excused).bind (edits_step id) ?_
      rintro (_ | touched) _ rfl
      · exact induction
      · exact (edits excused).pure rfl

theorem edits_run (budget applied : Nat) (worklist : List OperationId) :
    (edits excused).Relates Eq (run budget applied worklist) (run budget applied worklist) := by
  induction budget generalizing applied worklist with
  | zero =>
      unfold run
      refine (edits excused).bind (edits_advance? worklist) ?_
      rintro (_ | worklist) _ rfl
      · exact (edits excused).pure rfl
      · exact edits_throw .fault
  | succ budget induction =>
      unfold run
      refine (edits excused).bind (edits_advance? worklist) ?_
      rintro (_ | worklist) _ rfl
      · exact (edits excused).pure rfl
      · exact induction (applied + 1) worklist

end Simplification

theorem edits_simplify : (edits excused).Relates Eq Edit.simplify Edit.simplify := by
  refine (edits excused).bind edits_get fun left right alike => ?_
  rw [Simplification.applicationBound, Simplification.applicationBound, alike.body]
  exact Simplification.edits_run _ _ _

/-! ### Sharing -/

namespace Sharing

private theorem sameComputation_alike (alike : left.Alike right)
    {first second kept merged : Operation}
    (first_same : first.Alike kept) (second_same : second.Alike merged) :
    sameComputation right kept merged = sameComputation left first second := by
  obtain ⟨_⟩ := first_same
  obtain ⟨_⟩ := second_same
  rw [sameComputation, sameComputation, alike.typeOf]

private theorem outcomes_earlier? (alike : left.Alike right) (same : operation.Alike other)
    (candidates : List Candidate) :
    (outcomes excused).Relates Eq (earlier? left candidates operation)
      (earlier? right candidates other) := by
  obtain ⟨location⟩ := same
  refine (outcomes excused).findM? candidates fun candidate => ?_
  refine (outcomes excused).ite (fun _ => ?_) fun _ => outcomes_ok rfl
  refine (outcomes excused).bind (alike.operation candidate.id) fun first kept same => ?_
  rw [sameComputation_alike alike same (.relocated location)]
  exact outcomes_refl _

private theorem edits_merge (earlier : OperationId) (same : operation.Alike other) :
    (edits excused).Relates Eq (merge earlier operation) (merge earlier other) := by
  obtain ⟨location⟩ := same
  refine (edits excused).bind (edits_operation earlier) ?_
  rintro kept _ ⟨_⟩
  refine (edits excused).bind_same ((edits excused).forM (List.forall₂_same.mpr fun _ _ => rfl) ?_)
    fun _ => edits_erase _
  rintro ⟨kept, duplicate⟩ _ rfl
  exact edits_replaceUses duplicate kept

theorem edits_run (ids : List OperationId) (candidates : List Candidate) (merged : Nat) :
    (edits excused).Relates Eq (run ids candidates merged) (run ids candidates merged) := by
  induction ids generalizing candidates merged with
  | nil => exact (edits excused).pure rfl
  | cons id ids induction =>
      refine (edits excused).bind (edits_operation id) ?_
      rintro operation _ ⟨location⟩
      refine (edits excused).ite (fun _ => induction _ _) fun _ => ?_
      have found : (edits excused).Relates Eq
          (Edit.query fun function => earlier? function candidates operation)
          (Edit.query fun function => earlier? function candidates { operation with location }) :=
        edits_query fun _ _ alike => outcomes_earlier? alike (.relocated location) candidates
      refine (edits excused).bind found ?_
      rintro (_ | earlier) _ rfl
      · exact induction _ _
      · exact (edits excused).bind_same (edits_merge earlier.id (.relocated location))
          fun _ => induction _ _

end Sharing

theorem edits_share : (edits excused).Relates Eq Edit.share Edit.share := by
  refine (edits excused).bind edits_get fun left right alike => ?_
  rw [alike.body]
  exact Sharing.edits_run _ _ _

end Dataflow

end TensorLang
