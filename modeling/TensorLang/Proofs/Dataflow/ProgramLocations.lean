import TensorLang.Dataflow.OfProgram
import TensorLang.Proofs.Dataflow.Locations
import TensorLang.Proofs.Program.NestedSpans

/-!
# Locations of translated programs

Translation locates spans of the program and nothing else.  So the functions that it builds, and the
errors that it reports, lie within any set that has the starts of all spans of the program.
-/

namespace TensorLang

/-- All nodes of the tree cover spans with the property. -/
inductive SpanTree.Every (property : Span → Prop) : SpanTree → Prop where
  | node {span : Span} {children : List SpanTree} (here : property span)
      (inside : ∀ child ∈ children, Every property child) : Every property (.node span children)

theorem SpanTree.every_node_iff {property : Span → Prop} {span : Span} {children : List SpanTree} :
    (SpanTree.node span children).Every property ↔
      property span ∧ ∀ child ∈ children, child.Every property := by
  constructor
  · rintro ⟨here, inside⟩
    exact ⟨here, inside⟩
  · rintro ⟨here, inside⟩
    exact .node here inside

/-- The nodes of a nested tree start where tokens start. -/
theorem SpanTree.Nests.every {tokens : List Token} {tree : SpanTree} {property : Span → Prop}
    (nests : tree.Nests tokens)
    (starts : ∀ span : Span, (∃ token ∈ tokens, token.span.start = span.start) → property span) :
    tree.Every property := by
  induction nests with
  | node first _ _ _ _ _ induction => exact .node (starts _ first) induction

/-- If the span has a location, it is a known one. -/
def Source.LocatesWithin (source : Source) (known : Location → Prop) (span : Span) : Prop :=
  ∀ location, source.locate span = .ok location → known location

/-- The span of each part of the program has a known location, if any. -/
def Program.SpansWithin (program : Program) (source : Source) (known : Location → Prop) : Prop :=
  ∀ tree ∈ program.spans, tree.Every (source.LocatesWithin known)

namespace Dataflow

variable {known : Location → Prop} {source : Source} {context : Context} {span : Span}

theorem within_locate (located : source.LocatesWithin known span) :
    (source.locate span).Within known known := by
  rw [Source.LocatesWithin, Source.locate] at located
  rw [Source.locate]
  exact Outcome.Within.promised.mono fun location found =>
    located location (Outcome.promised_eq_ok_iff.mpr found)

theorem Context.within_locate (located : context.source.LocatesWithin known span) :
    (context.locate span).Within known known := by
  rw [context.locate_eq]
  exact Dataflow.within_locate located

/-! ### Literals -/

private theorem span_of_every_literal {property : Span → Prop} {literal : Literal}
    (every : literal.spans.Every property) : property literal.span := by
  cases literal with
  | number => exact (SpanTree.every_node_iff.mp every).1
  | array => exact (SpanTree.every_node_iff.mp every).1

mutual

theorem within_flatten : (literal : Literal) → literal.spans.Every (source.LocatesWithin known) →
    (flatten source literal).Within known fun _ => True
  | .number _ _, _ => by
      rw [flatten]
      exact trivial
  | .array span [], every => by
      rw [flatten]
      rw [Literal.spans, SpanTree.every_node_iff] at every
      exact (within_locate every.1).bind fun _ => .failAt
  | .array _ (first :: rest), every => by
      rw [flatten]
      rw [Literal.spans, SpanTree.every_node_iff, Literal.spansAll, List.forall_mem_cons] at every
      refine (within_flatten first every.2.1).bind fun inner _ => ?_
      exact (within_flattenRest inner.dimensions rest every.2.2).bind fun _ _ => .pure trivial

theorem within_flattenRest (dimensions : List Nat) : (literals : List Literal) →
    (∀ tree ∈ Literal.spansAll literals, tree.Every (source.LocatesWithin known)) →
    (flattenRest source dimensions literals).Within known fun _ => True
  | [], _ => by
      rw [flattenRest]
      exact trivial
  | element :: rest, every => by
      rw [flattenRest]
      rw [Literal.spansAll, List.forall_mem_cons] at every
      refine (within_flatten element every.1).bind fun flattened _ => ?_
      dsimp only
      split
      · exact (within_locate (span_of_every_literal every.1)).bind fun _ => .failAt
      · exact (within_flattenRest dimensions rest every.2).bind fun _ _ => .pure trivial

end

theorem within_tensorLiteral {literal : Literal}
    (every : literal.spans.Every (source.LocatesWithin known)) :
    (tensorLiteral source literal).Within known fun _ => True :=
  (within_flatten literal every).bind fun _ _ => Outcome.Within.promised.trivial

/-! ### Expressions -/

mutual

theorem within_appendExpression (scope : Scope) : (expression : Expression) →
    expression.spans.Every (context.source.LocatesWithin known) →
    StaysWithin known (·.Within known) (appendExpression context scope expression) fun _ => True
  | .literal literal, every => by
      rw [appendExpression]
      rw [Expression.spans, SpanTree.every_node_iff, List.forall_mem_singleton] at every
      refine (Edit.within_lift (Context.within_locate every.1)).bind
        fun location known_location => ?_
      refine (Edit.within_lift (within_tensorLiteral every.2)).bind fun value _ => ?_
      exact Edit.within_appendValue known_location
  | .identifier identifier, every => by
      rw [appendExpression]
      rw [Expression.spans, SpanTree.every_node_iff] at every
      split
      · exact .pure trivial
      · exact (Edit.within_lift (Context.within_locate every.1)).bind fun _ known_location =>
          Edit.within_lift (.failAt known_location)
  | .binary _ left operator operatorSpan right, every => by
      rw [appendExpression]
      simp only [Expression.spans, SpanTree.every_node_iff, List.forall_mem_cons,
        List.not_mem_nil] at every
      refine (within_appendExpression scope left every.2.1).bind fun _ _ => ?_
      refine (within_appendExpression scope right every.2.2.2.1).bind fun _ _ => ?_
      exact (Edit.within_lift (Context.within_locate every.2.2.1.1)).bind
        fun _ known_location => Edit.within_appendValue known_location
  | .call span callee arguments, every => by
      rw [appendExpression]
      rw [Expression.spans, SpanTree.every_node_iff, List.forall_mem_cons, Identifier.spans,
        SpanTree.every_node_iff] at every
      refine (Edit.within_lift (Context.within_locate every.1)).bind
        fun location known_location => ?_
      split
      · exact (Edit.within_lift (Context.within_locate every.2.1.1)).bind fun _ known_callee =>
          Edit.within_lift (.failAt known_callee)
      · split
        · exact Edit.within_lift (.failAt known_location)
        · exact (within_appendExpressions scope arguments every.2.2).bind fun _ _ =>
            Edit.within_appendValue known_location

theorem within_appendExpressions (scope : Scope) : (expressions : List Expression) →
    (∀ tree ∈ Expression.spansAll expressions, tree.Every (context.source.LocatesWithin known)) →
    StaysWithin known (·.Within known) (appendExpressions context scope expressions) fun _ => True
  | [], _ => by
      rw [appendExpressions]
      exact .pure trivial
  | expression :: rest, every => by
      rw [appendExpressions]
      rw [Expression.spansAll, List.forall_mem_cons] at every
      exact (within_appendExpression scope expression every.1).bind fun _ _ =>
        (within_appendExpressions scope rest every.2).bind fun _ _ => .pure trivial

end

/-! ### Statements -/

private theorem within_checkShapeClause {declaration : Declaration} {clause : ShapeClause}
    (clause_every : clause.spans.Every (context.source.LocatesWithin known))
    (every : declaration.initializer.spans.Every (context.source.LocatesWithin known)) :
    (checkShapeClause context declaration clause).Within known fun _ => True := by
  have refused (reason : String) : Outcome.Within (do
      Outcome.failAt (← context.locate clause.span) (.literalShape reason) : Outcome Unit) known
      fun _ => True :=
    (Context.within_locate (SpanTree.every_node_iff.mp clause_every).1).bind fun _ => .failAt
  rw [checkShapeClause]
  dsimp only
  split
  · exact refused _
  · split
    · rename_i literal literal_eq
      rw [literal_eq, Expression.spans, SpanTree.every_node_iff, List.forall_mem_singleton] at every
      refine (within_tensorLiteral every.2).bind fun value _ => ?_
      split
      · exact refused _
      · exact .pure trivial
    · exact .pure trivial

private theorem within_appendDeclaration (scope : Scope) {declaration : Declaration}
    (every : declaration.spans.Every (context.source.LocatesWithin known)) :
    StaysWithin known (·.Within known) (appendDeclaration context scope declaration)
      fun _ => True := by
  rw [Declaration.spans, SpanTree.every_node_iff, List.forall_mem_cons, List.forall_mem_append,
    List.forall_mem_singleton, Identifier.spans, SpanTree.every_node_iff] at every
  obtain ⟨here, ⟨name, -⟩, clauses, initializer⟩ := every
  rw [appendDeclaration]
  dsimp only
  split
  · exact (Edit.within_lift (Context.within_locate name)).bind fun _ known_location =>
      Edit.within_lift (.failAt known_location)
  · refine (within_appendExpression scope _ initializer).bind fun value _ => ?_
    split
    · exact .pure trivial
    · rename_i clause clause_eq
      have clause_every := clauses clause.spans (by simp [clause_eq])
      refine (Edit.within_lift (within_checkShapeClause clause_every initializer)).bind
        fun _ _ => ?_
      refine (Edit.within_lift (Context.within_locate here)).bind fun location known_location => ?_
      exact (Edit.within_appendValue known_location).bind fun _ _ => .pure trivial

private theorem within_appendStatement (scope : Scope) {statement : Statement}
    (every : statement.spans.Every (context.source.LocatesWithin known)) :
    StaysWithin known (·.Within known) (appendStatement context scope statement) fun _ => True := by
  rw [Statement.spans, SpanTree.every_node_iff] at every
  obtain ⟨here, inside⟩ := every
  rw [appendStatement]
  refine (Edit.within_lift (Context.within_locate here)).bind fun location known_location => ?_
  have appends (kind : OperationKind) (operands : List ValueId) :
      StaysWithin known (fun function : Function => function.Within known)
        (do let _ ← Edit.append kind operands [] location; return scope) fun _ => True :=
    (Edit.within_append known_location).bind fun _ _ => .pure trivial
  split
  · rename_i declaration action_eq
    rw [action_eq, Action.spans, List.forall_mem_singleton] at inside
    exact within_appendDeclaration scope inside
  · exact appends _ _
  · rename_i expression action_eq
    rw [action_eq] at inside
    refine .bind (.modify fun _ within => ⟨within.location, within.operations⟩) fun _ _ => ?_
    exact (within_appendExpression scope expression (inside _ (by simp [Action.spans]))).bind
      fun _ _ => appends _ _
  · rename_i expression action_eq
    rw [action_eq, Action.spans, List.forall_mem_singleton] at inside
    exact (within_appendExpression scope expression inside).bind fun _ _ => appends _ _
  · rename_i expression action_eq
    rw [action_eq, Action.spans, List.forall_mem_singleton] at inside
    exact (within_appendExpression scope expression inside).bind fun _ _ => .pure trivial

private theorem within_appendStatements (scope : Scope) {statements : List Statement}
    (every : ∀ statement ∈ statements, statement.spans.Every (context.source.LocatesWithin known)) :
    StaysWithin known (·.Within known) (appendStatements context scope statements)
      fun _ => True := by
  induction statements generalizing scope with
  | nil =>
      rw [appendStatements]
      exact .bind .get fun function within =>
        (Edit.within_append within.location).bind fun _ _ => .pure trivial
  | cons statement rest induction =>
      rw [List.forall_mem_cons] at every
      simp only [appendStatements]
      refine (within_appendStatement scope every.1).bind fun after _ => ?_
      split
      · split
        · exact .pure trivial
        · rename_i next _
          have here := (SpanTree.every_node_iff.mp (every.2 next List.mem_cons_self)).1
          exact (Edit.within_lift (Context.within_locate here)).bind fun _ known_location =>
            Edit.within_lift (.failAt known_location)
      · exact induction after every.2

private theorem within_declareParameter (scope : Scope) {parameter : Identifier}
    (every : parameter.spans.Every (context.source.LocatesWithin known)) :
    StaysWithin known (·.Within known) (declareParameter context scope parameter)
      fun _ => True := by
  have here := (SpanTree.every_node_iff.mp every).1
  rw [declareParameter]
  split
  · exact (Edit.within_lift (Context.within_locate here)).bind fun _ known_location =>
      Edit.within_lift (.failAt known_location)
  · exact (Edit.within_pushArgument _).bind fun _ _ => .pure trivial

/-! ### Functions and modules -/

private theorem Function.within_new {location : Location} (known_location : known location)
    (name : String) :
    (Function.new name location).Within known := by
  refine ⟨known_location, fun id operation found => ?_⟩
  cases Option.join_eq_some_iff.mp found

/-- The parts of a function whose name and statements are located. -/
theorem parts_of_every_definition {property : Span → Prop} {definition : FunctionDefinition}
    (every : definition.spans.Every property) : property definition.name.span ∧
      (∀ parameter ∈ definition.parameters, parameter.spans.Every property) ∧
      ∀ statement ∈ definition.body.statements, statement.spans.Every property := by
  rw [FunctionDefinition.spans, SpanTree.every_node_iff, List.forall_mem_cons,
    List.forall_mem_append, List.forall_mem_singleton, List.forall_mem_map, Identifier.spans,
    SpanTree.every_node_iff, Block.spans, SpanTree.every_node_iff, List.forall_mem_map] at every
  exact ⟨every.2.1.1, every.2.2.1, every.2.2.2.2⟩

private theorem Function.within_ofDefinition {definition : FunctionDefinition}
    (every : definition.spans.Every (context.source.LocatesWithin known)) :
    (Function.ofDefinition context definition).Within known fun function =>
      function.Within known := by
  obtain ⟨name, parameters, statements⟩ := parts_of_every_definition every
  rw [Function.ofDefinition]
  refine (Context.within_locate name).bind fun location known_location => ?_
  extract_lets build
  have builds : StaysWithin known (fun function : Function => function.Within known) build
      fun _ => True :=
    StaysWithin.bind (.foldlM fun scope parameter member =>
      within_declareParameter scope (parameters parameter member)) fun scope _ =>
        within_appendStatements scope statements
  have built := builds _ (Function.within_new known_location definition.name.name)
  dsimp only [Edit.outcome]
  split at built
  · rename_i result function success
    simp only [success]
    exact .pure built.2
  · rename_i failure function failed
    simp only [failed]
    exact built.1

private theorem within_calleesOf {program : Program} (every : program.SpansWithin source known) :
    (calleesOf source program).Within known fun _ => True := by
  refine .foldlM_of_each fun callees definition member => ?_
  have name := (parts_of_every_definition (every _ (List.mem_map_of_mem member))).1
  rw [addCallee]
  split
  · exact (within_locate name).bind fun _ => .failAt
  · exact .pure trivial

theorem Module.Within.add {module : Module} (within : module.Within known) {function : Function}
    (function_within : function.Within known) :
    (module.add function).Within known fun added => added.Within known := by
  rw [Module.add]
  split
  · exact .failAt function_within.location
  · exact .pure (List.forall_mem_append.mpr ⟨within, List.forall_mem_singleton.mpr function_within⟩)

theorem Module.within_ofProgram {program : Program} (every : program.SpansWithin source known) :
    (Module.ofProgram source program).Within known fun module => module.Within known := by
  refine (within_calleesOf every).bind fun callees _ => ?_
  refine .foldlM (fun module within definition member => ?_) (List.forall_mem_nil _)
  have definition_every : definition.spans.Every
      ((Context.ofCallees source callees).source.LocatesWithin known) :=
    every _ (List.mem_map_of_mem member)
  exact (Function.within_ofDefinition definition_every).bind fun _ => within.add

end Dataflow

end TensorLang
