import TensorLang.Dataflow.OfProgram
import TensorLang.Proofs.Dataflow.AlikeModules
import TensorLang.Proofs.Program.Alike

/-!
# Dataflow of alike programs

A program is translated by its names, kinds and numbers; where its parts stand matters only for the
locations of operations and errors.  So alike programs become alike dataflow modules, or are refused
for the same cause, as long as all parts have locations.  A function is translated alike also where
more can be called.
-/

namespace TensorLang

variable {excused : Prop} {source other : Source}

/-! ### Locations -/

/-- Positions that have a location, one in each of two source texts. -/
structure Source.Places (source other : Source) (left right : Nat) : Prop where
  /-- The position in the first text has a location. -/
  first : ∃ location, source.location? left = some location
  /-- The position in the second text has a location. -/
  second : ∃ location, other.location? right = some location

theorem Source.Places.locate {left right : Span}
    (placed : source.Places other left.start right.start) :
    (outcomes excused).Relates (fun _ _ => True) (source.locate left) (other.locate right) := by
  obtain ⟨⟨first, first_eq⟩, second, second_eq⟩ := placed
  rw [Source.locate, Source.locate, first_eq, second_eq]
  exact outcomes_ok trivial

namespace Dataflow

/-! ### Literals -/

mutual

theorem outcomes_flatten {literal another : Literal}
    (same : literal.Alike (source.Places other) another) :
    (outcomes excused).Relates Eq (flatten source literal) (flatten other another) := by
  cases same with
  | number value start =>
      rw [flatten, flatten]
      exact outcomes_ok rfl
  | @array left right elements others start inside =>
      cases inside with
      | nil =>
          rw [flatten, flatten]
          exact (outcomes excused).bind start.locate fun _ _ _ => outcomes_failAt _ _ _
      | cons head rest =>
          rw [flatten, flatten, rest.length_eq]
          refine (outcomes excused).bind_same (outcomes_flatten head) fun inner => ?_
          exact (outcomes excused).bind_same (outcomes_flattenRest rest inner.dimensions)
            fun _ => outcomes_ok rfl

theorem outcomes_flattenRest {elements others : List Literal}
    (same : List.Forall₂ (Literal.Alike (source.Places other)) elements others)
    (dimensions : List Nat) : (outcomes excused).Relates Eq
      (flattenRest source dimensions elements) (flattenRest other dimensions others) := by
  cases same with
  | nil =>
      rw [flattenRest, flattenRest]
      exact outcomes_ok rfl
  | cons head rest =>
      rw [flattenRest, flattenRest]
      refine (outcomes excused).bind_same (outcomes_flatten head) fun flattened => ?_
      refine (outcomes excused).ite (fun _ => ?_) fun _ => ?_
      · exact (outcomes excused).bind head.start.locate fun _ _ _ => outcomes_failAt _ _ _
      · exact (outcomes excused).bind_same (outcomes_flattenRest rest dimensions)
          fun _ => outcomes_ok rfl

end

theorem outcomes_tensorLiteral {literal another : Literal}
    (same : literal.Alike (source.Places other) another) : (outcomes excused).Relates Eq
      (tensorLiteral source literal) (tensorLiteral other another) :=
  (outcomes excused).bind_same (outcomes_flatten same) fun _ => outcomes_refl _

/-! ### Contexts -/

/-- Whatever the first context can call, the second can call as well.  It can call more only if the
first is excused when it misses a callee. -/
def Context.Provides (excused : Prop) (context another : Context) : Prop :=
  ∀ name, another.callees.lookup name = context.callees.lookup name ∨
    excused ∧ context.callees.lookup name = none

variable {context another : Context}

/-- The positions that have a location in the texts of the contexts. -/
def Context.Places (context another : Context) : Nat → Nat → Prop :=
  context.source.Places another.source

theorem edits_locate {left right : Span} (placed : context.Places another left.start right.start) :
    (edits excused).Relates (fun _ _ => True) (liftM (context.locate left))
      (liftM (another.locate right)) := by
  rw [context.locate_eq, another.locate_eq]
  exact edits_lift (Source.Places.locate placed)

theorem edits_failAtSpan {α : Type} {values : α → α → Prop} {left right : Span}
    (placed : context.Places another left.start right.start) (cause : Cause) :
    (edits excused).Relates values
      (do let location ← context.locate left; Outcome.failAt location cause)
      (do let location ← another.locate right; Outcome.failAt location cause) :=
  (edits excused).bind (edits_locate placed) fun _ _ _ => edits_lift (outcomes_failAt _ _ _)

mutual

theorem edits_appendExpression (provides : context.Provides excused another) (scope : Scope)
    {expression other : Expression} (same : expression.Alike (context.Places another) other) :
    (edits excused).Relates Eq (appendExpression context scope expression)
      (appendExpression another scope other) := by
  cases same with
  | literal same =>
      rw [appendExpression, appendExpression]
      refine (edits excused).bind (edits_locate same.start) fun _ _ _ => ?_
      refine (edits excused).bind_same (edits_lift (outcomes_tensorLiteral same)) fun value => ?_
      exact edits_appendValue _ _ _ _ _
  | identifier same =>
      rw [appendExpression, appendExpression, same.name]
      split
      · exact (edits excused).pure rfl
      · exact edits_failAtSpan same.start _
  | binary operator start signs lefts rights =>
      rw [appendExpression, appendExpression]
      refine (edits excused).bind_same (edits_appendExpression provides scope lefts) fun left => ?_
      refine (edits excused).bind_same (edits_appendExpression provides scope rights)
        fun right => ?_
      exact (edits excused).bind (edits_locate signs) fun _ _ _ => edits_appendValue _ _ _ _ _
  | @call _ _ callee named arguments others start callees inside =>
      rw [appendExpression, appendExpression, callees.name, inside.length_eq]
      refine (edits excused).bind (edits_locate start) fun _ _ _ => ?_
      rcases provides callee.name with known | ⟨excuse, missing⟩
      · rw [known]
        split
        · exact edits_failAtSpan callees.start _
        · refine (edits excused).ite (fun _ => edits_lift (outcomes_failAt _ _ _)) fun _ => ?_
          exact (edits excused).bind_same (edits_appendExpressions provides scope inside)
            fun _ => edits_appendValue _ _ _ _ _
      · obtain ⟨⟨location, location_eq⟩, -⟩ := callees.start
        have located : context.locate callee.span = .ok location := by
          rw [context.locate_eq, Source.locate, location_eq]
          rfl
        rw [missing, located]
        exact fun _ _ _ => .excused excuse

theorem edits_appendExpressions (provides : context.Provides excused another) (scope : Scope)
    {expressions others : List Expression}
    (same : List.Forall₂ (Expression.Alike (context.Places another)) expressions others) :
    (edits excused).Relates Eq (appendExpressions context scope expressions)
      (appendExpressions another scope others) := by
  cases same with
  | nil =>
      rw [appendExpressions, appendExpressions]
      exact (edits excused).pure rfl
  | cons head rest =>
      rw [appendExpressions, appendExpressions]
      refine (edits excused).bind_same (edits_appendExpression provides scope head) fun value => ?_
      exact (edits excused).bind_same (edits_appendExpressions provides scope rest)
        fun _ => (edits excused).pure rfl

end

/-! ### Statements -/

private theorem outcomes_checkShapeClause {declaration second : Declaration}
    {clause shape : ShapeClause} (same : declaration.Alike (context.Places another) second)
    (declared : clause.Alike (context.Places another) shape) : (outcomes excused).Relates Eq
      (checkShapeClause context declaration clause) (checkShapeClause another second shape) := by
  have refused (cause : Cause) : (outcomes excused).Relates Eq
      (do Outcome.failAt (← context.locate clause.span) cause : Outcome Unit)
      (do Outcome.failAt (← another.locate shape.span) cause) := by
    rw [context.locate_eq, another.locate_eq]
    exact (outcomes excused).bind declared.start.locate fun _ _ _ => outcomes_failAt _ _ _
  unfold checkShapeClause
  rw [same.name.name, declared.dimensions]
  dsimp only
  split
  · exact refused _
  · have initial := same.initializer
    generalize declaration.initializer = before at initial ⊢
    generalize second.initializer = after at initial ⊢
    cases initial with
    | literal literal =>
        refine (outcomes excused).bind_same (outcomes_tensorLiteral literal) fun value => ?_
        exact (outcomes excused).ite (fun _ => refused _) fun _ => outcomes_ok rfl
    | identifier => exact outcomes_ok rfl
    | binary => exact outcomes_ok rfl
    | call => exact outcomes_ok rfl

private theorem edits_appendDeclaration (provides : context.Provides excused another)
    (scope : Scope)
    {declaration second : Declaration} (same : declaration.Alike (context.Places another) second) :
    (edits excused).Relates Eq (appendDeclaration context scope declaration)
      (appendDeclaration another scope second) := by
  have checked {clause shape : ShapeClause}
      (declared : clause.Alike (context.Places another) shape) :
      (outcomes excused).Relates Eq (checkShapeClause context declaration clause)
        (checkShapeClause another second shape) := outcomes_checkShapeClause same declared
  unfold appendDeclaration
  rw [same.name.name]
  dsimp only
  split
  · exact edits_failAtSpan same.name.start _
  · refine (edits excused).bind_same (edits_appendExpression provides scope same.initializer)
      fun value => ?_
    have declared := same.shape
    generalize declaration.shape = before at declared ⊢
    generalize second.shape = after at declared ⊢
    cases declared with
    | none => exact (edits excused).pure rfl
    | some clause =>
        refine (edits excused).bind_same (edits_lift (checked clause)) fun _ => ?_
        refine (edits excused).bind (edits_locate same.start) fun _ _ _ => ?_
        rw [clause.dimensions]
        exact (edits excused).bind_same (edits_appendValue _ _ _ _ _)
          fun _ => (edits excused).pure rfl

private theorem edits_appendStatement (provides : context.Provides excused another) (scope : Scope)
    {statement second : Statement} (same : statement.Alike (context.Places another) second) :
    (edits excused).Relates Eq (appendStatement context scope statement)
      (appendStatement another scope second) := by
  refine (edits excused).bind (edits_locate same.start) fun _ _ _ => ?_
  have action := same.action
  generalize statement.action = before at action ⊢
  generalize second.action = after at action ⊢
  rcases action with same | (same | _) | same | same
  · exact edits_appendDeclaration provides scope same
  · refine (edits excused).bind_same (edits_modify fun _ _ alike => alike.withResultTypes _)
      fun _ => ?_
    refine (edits excused).bind_same (edits_appendExpression provides scope same) fun value => ?_
    exact (edits excused).bind_same (edits_append _ _ _ _ _) fun _ => (edits excused).pure rfl
  · exact (edits excused).bind_same (edits_append _ _ _ _ _) fun _ => (edits excused).pure rfl
  · refine (edits excused).bind_same (edits_appendExpression provides scope same) fun value => ?_
    exact (edits excused).bind_same (edits_append _ _ _ _ _) fun _ => (edits excused).pure rfl
  · exact (edits excused).bind_same (edits_appendExpression provides scope same)
      fun _ => (edits excused).pure rfl

private theorem edits_appendStatements (provides : context.Provides excused another) (scope : Scope)
    {statements others : List Statement}
    (same : List.Forall₂ (Statement.Alike (context.Places another)) statements others) :
    (edits excused).Relates Eq (appendStatements context scope statements)
      (appendStatements another scope others) := by
  induction same generalizing scope with
  | nil =>
      refine (edits excused).bind edits_get fun _ _ _ => ?_
      exact (edits excused).bind_same (edits_append _ _ _ _ _) fun _ => (edits excused).pure rfl
  | @cons statement second rest others head tail induction =>
      have leaves_eq : second.action.leaves = statement.action.leaves := by
        have action := head.action
        generalize statement.action = before at action ⊢
        generalize second.action = after at action ⊢
        cases action <;> rfl
      refine (edits excused).bind_same (edits_appendStatement provides scope head) fun after => ?_
      rw [leaves_eq]
      refine (edits excused).ite (fun _ => ?_) fun _ => induction after
      cases tail with
      | nil => exact (edits excused).pure rfl
      | cons next _ => exact edits_failAtSpan next.start _

/-! ### Functions -/

private theorem edits_declareParameter (scope : Scope) {parameter second : Identifier}
    (same : parameter.Alike (context.Places another) second) :
    (edits excused).Relates Eq (declareParameter context scope parameter)
      (declareParameter another scope second) := by
  unfold declareParameter
  rw [same.name]
  split
  · exact edits_failAtSpan same.start _
  · exact (edits excused).bind_same (edits_pushArgument _) fun _ => (edits excused).pure rfl

private theorem Function.alike_new (name : String) (location another : Location) :
    (Function.new name location).Alike (Function.new name another) :=
  ⟨rfl, rfl, rfl, rfl, rfl, rfl, rfl, fun _ => .none⟩

theorem outcomes_ofDefinition (provides : context.Provides excused another)
    {definition second : FunctionDefinition}
    (same : definition.Alike (context.Places another) second) :
    (outcomes excused).Relates Function.Alike (Function.ofDefinition context definition)
      (Function.ofDefinition another second) := by
  have declared : (edits excused).Relates Eq
      (definition.parameters.foldlM (declareParameter context) Scope.empty)
      (second.parameters.foldlM (declareParameter another) Scope.empty) := by
    refine (edits excused).foldlM same.parameters ?_ rfl
    rintro scope _ rfl _ _ parameter
    exact edits_declareParameter scope parameter
  have built := (edits excused).bind_same declared
    fun scope => edits_appendStatements provides scope same.statements
  have located : (outcomes excused).Relates (fun _ _ => True) (context.locate definition.name.span)
      (another.locate second.name.span) := by
    rw [context.locate_eq, another.locate_eq]
    exact Source.Places.locate same.name.start
  refine (outcomes excused).bind located fun location place _ => ?_
  rw [same.name.name]
  refine (outcomes excused).bind (edits_outcome built (Function.alike_new _ _ _)) ?_
  rintro _ _ ⟨-, alike⟩
  exact outcomes_ok alike

/-! ### Programs -/

section Programs

variable {first second : Program}

private theorem outcomes_calleesOf (same : first.Alike (source.Places other) second) :
    (outcomes excused).Relates Eq (calleesOf source first) (calleesOf other second) := by
  refine (outcomes excused).foldlM same ?_ rfl
  rintro callees _ rfl definition another alike
  rw [addCallee, addCallee, alike.name.name, alike.parameters.length_eq]
  split
  · exact (outcomes excused).bind (Source.Places.locate alike.name.start)
      fun _ _ _ => outcomes_failAt _ _ _
  · exact outcomes_ok rfl

private theorem outcomes_add {module another : Module} {function third : Function}
    (modules : module.Alike another) (alike : function.Alike third) :
    (outcomes excused).Relates Module.Alike (module.add function) (another.add third) := by
  have taken := modules.function? function.name
  rw [Module.add, Module.add, alike.name]
  generalize module.function? function.name = before at taken ⊢
  generalize another.function? function.name = after at taken ⊢
  cases taken with
  | none => exact outcomes_ok (List.rel_append modules (.cons alike .nil))
  | some => exact outcomes_failAt _ _ _

/-- The same program has alike dataflow modules wherever its parts stand. -/
theorem outcomes_ofProgram (same : first.Alike (source.Places other) second) :
    (outcomes excused).Relates Module.Alike (Module.ofProgram source first)
      (Module.ofProgram other second) := by
  refine (outcomes excused).bind_same (outcomes_calleesOf same) fun callees => ?_
  refine (outcomes excused).foldlM same ?_ .nil
  intro module another modules definition second alike
  have provides : Context.Provides excused (.ofCallees source callees) (.ofCallees other callees) :=
    fun _ => .inl rfl
  exact (outcomes excused).bind (outcomes_ofDefinition provides alike)
    fun _ _ function => outcomes_add modules function

end Programs

end Dataflow

end TensorLang
