import TensorLang.Program.Parser
import TensorLang.Proofs.Relating

/-!
# Programs at other places

Two token lists are alike if they differ only in where their tokens stand.  Parsers take decisions
by the kinds and texts of tokens, so they read alike trees off alike token lists, or they refuse
both with the same message.  The places of tokens and of constructs are related by their starts;
nothing else of a span is ever looked at.  Whether trees are alike can be decided.
-/

namespace TensorLang

/-! ### Trees -/

section Trees

variable (starts : Nat → Nat → Prop)

/-- The same token, at places that are related. -/
structure Token.Alike (left right : Token) : Prop where
  /-- The classes are the same. -/
  kind : right.kind = left.kind
  /-- The texts are the same. -/
  text : right.text = left.text
  /-- The places are related. -/
  start : starts left.span.start right.span.start

/-- The same refusal, at places that are related. -/
structure Rejection.Alike (left right : Rejection) : Prop where
  /-- The messages are the same. -/
  message : right.message = left.message
  /-- The places are related, or the texts end. -/
  position : Option.Rel starts left.position right.position

/-- The same name, at places that are related. -/
structure Identifier.Alike (left right : Identifier) : Prop where
  /-- The names are the same. -/
  name : right.name = left.name
  /-- The places are related. -/
  start : starts left.span.start right.span.start

/-- The same literal, at places that are related. -/
inductive Literal.Alike : Literal → Literal → Prop
  | number {left right : Span} (value : Float) (start : starts left.start right.start) :
      Alike (.number left value) (.number right value)
  | array {left right : Span} {elements others : List Literal}
      (start : starts left.start right.start) (inside : List.Forall₂ Alike elements others) :
      Alike (.array left elements) (.array right others)

/-- The same expression, at places that are related. -/
inductive Expression.Alike : Expression → Expression → Prop
  | literal {left right : Literal} (same : left.Alike starts right) :
      Alike (.literal left) (.literal right)
  | identifier {left right : Identifier} (same : left.Alike starts right) :
      Alike (.identifier left) (.identifier right)
  | binary {span another sign other : Span} {left right first second : Expression}
      (operator : Operator) (start : starts span.start another.start)
      (signs : starts sign.start other.start) (lefts : Alike left first)
      (rights : Alike right second) :
      Alike (.binary span left operator sign right) (.binary another first operator other second)
  | call {span another : Span} {callee other : Identifier} {arguments others : List Expression}
      (start : starts span.start another.start) (callees : callee.Alike starts other)
      (inside : List.Forall₂ Alike arguments others) :
      Alike (.call span callee arguments) (.call another other others)

/-- The same shape, at places that are related. -/
structure ShapeClause.Alike (left right : ShapeClause) : Prop where
  /-- The dimensions are the same. -/
  dimensions : right.dimensions = left.dimensions
  /-- The places are related. -/
  start : starts left.span.start right.span.start

/-- The same declaration, at places that are related. -/
structure Declaration.Alike (left right : Declaration) : Prop where
  /-- The places are related. -/
  start : starts left.span.start right.span.start
  /-- The variables are the same. -/
  name : left.name.Alike starts right.name
  /-- The declared shapes are the same, if there are any. -/
  shape : Option.Rel (ShapeClause.Alike starts) left.shape right.shape
  /-- The initial values are the same. -/
  initializer : left.initializer.Alike starts right.initializer

/-- The same action, at places that are related. -/
inductive Action.Alike : Action → Action → Prop
  | declare {left right : Declaration} (same : left.Alike starts right) :
      Alike (.declare left) (.declare right)
  | leave {left right : Option Expression}
      (same : Option.Rel (Expression.Alike starts) left right) :
      Alike (.leave left) (.leave right)
  | print {left right : Expression} (same : left.Alike starts right) :
      Alike (.print left) (.print right)
  | evaluate {left right : Expression} (same : left.Alike starts right) :
      Alike (.evaluate left) (.evaluate right)

/-- The same statement, at places that are related. -/
structure Statement.Alike (left right : Statement) : Prop where
  /-- The places are related. -/
  start : starts left.span.start right.span.start
  /-- The actions are the same. -/
  action : left.action.Alike starts right.action

/-- The same function, at places that are related. -/
structure FunctionDefinition.Alike (left right : FunctionDefinition) : Prop where
  /-- The names are the same. -/
  name : left.name.Alike starts right.name
  /-- The parameters are the same. -/
  parameters : List.Forall₂ (Identifier.Alike starts) left.parameters right.parameters
  /-- The statements are the same. -/
  statements : List.Forall₂ (Statement.Alike starts) left.body.statements right.body.statements

/-- The same functions in the same order, at places that are related. -/
def Program.Alike (left right : Program) : Prop :=
  List.Forall₂ (FunctionDefinition.Alike starts) left.functions right.functions

end Trees

variable {starts : Nat → Nat → Prop}

theorem Literal.Alike.start {left right : Literal} (same : left.Alike starts right) :
    starts left.span.start right.span.start := by
  cases same with
  | number _ start => exact start
  | array start => exact start

theorem Expression.Alike.start {left right : Expression} (same : left.Alike starts right) :
    starts left.span.start right.span.start := by
  cases same with
  | literal same => exact same.start
  | identifier same => exact same.start
  | binary _ start => exact start
  | call start => exact start

/-! ### Deciding -/

section Decisions

variable {starts : Nat → Nat → Prop} [DecidableRel starts]

instance decideRel {α β : Type} {values : α → β → Prop}
    [∀ left right, Decidable (values left right)] :
    (left : Option α) → (right : Option β) → Decidable (Option.Rel values left right)
  | none, none => .isTrue .none
  | some left, some right =>
      decidable_of_iff (values left right) ⟨.some, by rintro ⟨same⟩; exact same⟩
  | none, some _ | some _, none => .isFalse (by rintro ⟨⟩)

instance Identifier.decideAlike (left right : Identifier) : Decidable (left.Alike starts right) :=
  decidable_of_iff (right.name = left.name ∧ starts left.span.start right.span.start)
    ⟨fun same => ⟨same.1, same.2⟩, fun same => ⟨same.name, same.start⟩⟩

mutual

instance Literal.decideAlike : (left right : Literal) → Decidable (left.Alike starts right)
  | .number left value, .number right other =>
      decidable_of_iff (value = other ∧ starts left.start right.start) <| by
        constructor
        · rintro ⟨rfl, start⟩
          exact .number value start
        · rintro ⟨_, start⟩
          exact ⟨rfl, start⟩
  | .array left elements, .array right others =>
      have := Literal.decideAllAlike elements others
      decidable_of_iff (starts left.start right.start ∧
          List.Forall₂ (Literal.Alike starts) elements others) <| by
        constructor
        · rintro ⟨start, inside⟩
          exact .array start inside
        · rintro (_ | ⟨start, inside⟩)
          exact ⟨start, inside⟩
  | .number _ _, .array _ _ | .array _ _, .number _ _ => .isFalse (by rintro ⟨⟩)

def Literal.decideAllAlike : (lefts rights : List Literal) →
    Decidable (List.Forall₂ (Literal.Alike starts) lefts rights)
  | [], [] => .isTrue .nil
  | left :: lefts, right :: rights =>
      have := left.decideAlike right
      have := Literal.decideAllAlike lefts rights
      decidable_of_iff _ List.forall₂_cons.symm
  | [], _ :: _ | _ :: _, [] => .isFalse (by rintro ⟨⟩)

end

mutual

instance Expression.decideAlike : (left right : Expression) → Decidable (left.Alike starts right)
  | .literal left, .literal right =>
      decidable_of_iff (left.Alike starts right) ⟨.literal, by rintro ⟨same⟩; exact same⟩
  | .identifier left, .identifier right =>
      decidable_of_iff (left.Alike starts right) ⟨.identifier, by rintro (_ | same); exact same⟩
  | .binary span left operator sign right, .binary another first operation other second =>
      have := left.decideAlike first
      have := right.decideAlike second
      decidable_of_iff (operator = operation ∧ starts span.start another.start ∧
          starts sign.start other.start ∧ left.Alike starts first ∧ right.Alike starts second) <| by
        constructor
        · rintro ⟨rfl, start, signs, lefts, rights⟩
          exact .binary operator start signs lefts rights
        · rintro (_ | _ | ⟨_, start, signs, lefts, rights⟩)
          exact ⟨rfl, start, signs, lefts, rights⟩
  | .call span callee arguments, .call another name others =>
      have := Expression.decideAllAlike arguments others
      decidable_of_iff (starts span.start another.start ∧ callee.Alike starts name ∧
          List.Forall₂ (Expression.Alike starts) arguments others) <| by
        constructor
        · rintro ⟨start, callees, inside⟩
          exact .call start callees inside
        · rintro (_ | _ | _ | ⟨start, callees, inside⟩)
          exact ⟨start, callees, inside⟩
  | .literal _, .identifier _ | .literal _, .binary .. | .literal _, .call ..
  | .identifier _, .literal _ | .identifier _, .binary .. | .identifier _, .call ..
  | .binary .., .literal _ | .binary .., .identifier _ | .binary .., .call ..
  | .call .., .literal _ | .call .., .identifier _ | .call .., .binary .. =>
      .isFalse (by rintro ⟨⟩)

def Expression.decideAllAlike : (lefts rights : List Expression) →
    Decidable (List.Forall₂ (Expression.Alike starts) lefts rights)
  | [], [] => .isTrue .nil
  | left :: lefts, right :: rights =>
      have := left.decideAlike right
      have := Expression.decideAllAlike lefts rights
      decidable_of_iff _ List.forall₂_cons.symm
  | [], _ :: _ | _ :: _, [] => .isFalse (by rintro ⟨⟩)

end

instance ShapeClause.decideAlike (left right : ShapeClause) : Decidable (left.Alike starts right) :=
  decidable_of_iff (right.dimensions = left.dimensions ∧ starts left.span.start right.span.start)
    ⟨fun same => ⟨same.1, same.2⟩, fun same => ⟨same.dimensions, same.start⟩⟩

instance Declaration.decideAlike (left right : Declaration) : Decidable (left.Alike starts right) :=
  decidable_of_iff (starts left.span.start right.span.start ∧ left.name.Alike starts right.name ∧
      Option.Rel (ShapeClause.Alike starts) left.shape right.shape ∧
      left.initializer.Alike starts right.initializer)
    ⟨fun same => ⟨same.1, same.2.1, same.2.2.1, same.2.2.2⟩,
      fun same => ⟨same.start, same.name, same.shape, same.initializer⟩⟩

instance Action.decideAlike : (left right : Action) → Decidable (left.Alike starts right)
  | .declare left, .declare right =>
      decidable_of_iff (left.Alike starts right) ⟨.declare, by rintro ⟨same⟩; exact same⟩
  | .leave left, .leave right =>
      decidable_of_iff (Option.Rel (Expression.Alike starts) left right)
        ⟨.leave, by rintro (_ | same); exact same⟩
  | .print left, .print right =>
      decidable_of_iff (left.Alike starts right) ⟨.print, by rintro (_ | _ | same); exact same⟩
  | .evaluate left, .evaluate right =>
      decidable_of_iff (left.Alike starts right)
        ⟨.evaluate, by rintro (_ | _ | _ | same); exact same⟩
  | .declare _, .leave _ | .declare _, .print _ | .declare _, .evaluate _
  | .leave _, .declare _ | .leave _, .print _ | .leave _, .evaluate _
  | .print _, .declare _ | .print _, .leave _ | .print _, .evaluate _
  | .evaluate _, .declare _ | .evaluate _, .leave _ | .evaluate _, .print _ =>
      .isFalse (by rintro ⟨⟩)

instance Statement.decideAlike (left right : Statement) : Decidable (left.Alike starts right) :=
  decidable_of_iff (starts left.span.start right.span.start ∧ left.action.Alike starts right.action)
    ⟨fun same => ⟨same.1, same.2⟩, fun same => ⟨same.start, same.action⟩⟩

instance FunctionDefinition.decideAlike (left right : FunctionDefinition) :
    Decidable (left.Alike starts right) :=
  decidable_of_iff (left.name.Alike starts right.name ∧
      List.Forall₂ (Identifier.Alike starts) left.parameters right.parameters ∧
      List.Forall₂ (Statement.Alike starts) left.body.statements right.body.statements)
    ⟨fun same => ⟨same.1, same.2.1, same.2.2⟩,
      fun same => ⟨same.name, same.parameters, same.statements⟩⟩

end Decisions

/-! ### Parsers -/

/-- Parsers that read related values off alike token lists, or refuse them alike. -/
def parses (starts : Nat → Nat → Prop) : Relator Parser :=
  (Relator.except False (Rejection.Alike starts)).state (List.Forall₂ (Token.Alike starts))

namespace Parser

variable {α β : Type} {values : α → β → Prop} {left right : Token}

theorem parses_get : (parses starts).Relates (List.Forall₂ (Token.Alike starts)) get get :=
  fun _ _ same => .ok ⟨same, same⟩

theorem parses_refuseAt (same : left.Alike starts right) (message : String) :
    (parses starts).Relates values (refuseAt left message) (refuseAt right message) :=
  fun _ _ _ => .error ⟨rfl, .some same.start⟩

theorem parses_refuseEnd (expected : String) :
    (parses starts).Relates values (refuseEnd expected) (refuseEnd expected) :=
  fun _ _ _ => .error ⟨rfl, .none⟩

theorem parses_peek (expected : String) :
    (parses starts).Relates (Token.Alike starts) (peek expected) (peek expected) := by
  refine (parses starts).bind parses_get ?_
  rintro _ _ (_ | ⟨same, _⟩)
  · exact parses_refuseEnd expected
  · exact (parses starts).pure same

theorem parses_isNext (kind : TokenKind) :
    (parses starts).Relates Eq (isNext kind) (isNext kind) := by
  refine (parses starts).bind parses_get ?_
  rintro _ _ (_ | ⟨same, _⟩)
  · exact (parses starts).pure rfl
  · exact (parses starts).pure (congrArg (· == kind) same.kind.symm)

theorem parses_skip : (parses starts).Relates Eq skip skip := by
  rintro _ _ (_ | ⟨_, rest⟩)
  · exact .ok ⟨rfl, .nil⟩
  · exact .ok ⟨rfl, rest⟩

theorem parses_next (expected : String) :
    (parses starts).Relates (Token.Alike starts) (next expected) (next expected) := by
  refine (parses starts).bind (parses_peek expected) fun _ _ same => ?_
  exact (parses starts).bind_same parses_skip fun _ => (parses starts).pure same

theorem parses_expect (kind : TokenKind) (expected : String) :
    (parses starts).Relates (Token.Alike starts) (expect kind expected) (expect kind expected) := by
  refine (parses starts).bind (parses_next expected) fun left right same => ?_
  rw [same.kind, same.text]
  exact (parses starts).ite (fun _ => (parses starts).pure same) fun _ => parses_refuseAt same _

/-! ### Lists -/

section Lists

variable {item another : Parser α} {items : α → α → Prop}

private theorem parses_moreItems (same : (parses starts).Relates items item another) (bound : Nat) :
    (parses starts).Relates (List.Forall₂ items) (moreItems item bound)
      (moreItems another bound) := by
  induction bound with
  | zero => exact (parses starts).pure .nil
  | succ bound induction =>
      refine (parses starts).bind_same (parses_isNext _) fun more => ?_
      refine (parses starts).ite (fun _ => ?_) fun _ => (parses starts).pure .nil
      refine (parses starts).bind_same parses_skip fun _ => ?_
      refine (parses starts).bind same fun _ _ first => ?_
      exact (parses starts).bind induction fun _ _ rest => (parses starts).pure (.cons first rest)

theorem parses_commaSeparated (same : (parses starts).Relates items item another) :
    (parses starts).Relates (List.Forall₂ items) (commaSeparated item)
      (commaSeparated another) := by
  refine (parses starts).bind same fun _ _ first => ?_
  refine (parses starts).bind parses_get fun tokens others listed => ?_
  rw [listed.length_eq]
  exact (parses starts).bind (parses_moreItems same _)
    fun _ _ rest => (parses starts).pure (.cons first rest)

theorem parses_parenthesized (same : (parses starts).Relates items item another) :
    (parses starts).Relates
      (fun first second => List.Forall₂ items first.1 second.1 ∧ first.2.Alike starts second.2)
      (parenthesized item) (parenthesized another) := by
  refine (parses starts).bind (parses_expect _ _) fun _ _ _ => ?_
  refine (parses starts).bind_same (parses_isNext _) fun empty => ?_
  refine (parses starts).branch (fun _ => (parses starts).pure .nil)
    (fun _ => parses_commaSeparated same) fun _ _ inside => ?_
  exact (parses starts).bind (parses_expect _ _)
    fun _ _ close => (parses starts).pure ⟨inside, close⟩

end Lists

theorem parses_identifier :
    (parses starts).Relates (Identifier.Alike starts) identifier identifier :=
  (parses starts).bind (parses_expect _ _) fun _ _ same =>
    (parses starts).pure ⟨same.text, same.start⟩

/-! ### Expressions -/

private theorem parses_literalOf {element another : Parser Literal}
    (same : (parses starts).Relates (Literal.Alike starts) element another) :
    (parses starts).Relates (Literal.Alike starts) (literalOf element) (literalOf another) := by
  refine (parses starts).bind (parses_next _) fun left right first => ?_
  rw [first.kind, first.text]
  split
  · split
    · exact (parses starts).pure (.number _ first.start)
    · exact parses_refuseAt first _
  · refine (parses starts).bind (parses_commaSeparated same) fun _ _ inside => ?_
    exact (parses starts).bind (parses_expect _ _)
      fun _ _ _ => (parses starts).pure (.array first.start inside)
  · exact parses_refuseAt first _

private theorem parses_literalWithin (depth : Nat) :
    (parses starts).Relates (Literal.Alike starts) (literalWithin depth) (literalWithin depth) := by
  induction depth with
  | zero => exact parses_refuseEnd _
  | succ depth induction => exact parses_literalOf induction

private theorem parses_literal :
    (parses starts).Relates (Literal.Alike starts) literal literal := by
  refine (parses starts).bind parses_get fun tokens others listed => ?_
  rw [listed.length_eq]
  exact parses_literalWithin _

section Chains

variable {operand another : Parser Expression}

private theorem parses_chainFrom
    (same : (parses starts).Relates (Expression.Alike starts) operand another)
    (operator? : TokenKind → Option Operator) (bound : Nat) {first second : Expression}
    (before : first.Alike starts second) : (parses starts).Relates (Expression.Alike starts)
      (chainFrom operand operator? first bound) (chainFrom another operator? second bound) := by
  induction bound generalizing first second with
  | zero => exact (parses starts).pure before
  | succ bound induction =>
      refine (parses starts).bind parses_get ?_
      rintro _ _ (_ | ⟨sign, rest⟩)
      · exact (parses starts).pure before
      · dsimp only
        rw [sign.kind]
        split
        · exact (parses starts).pure before
        · refine (parses starts).bind_same parses_skip fun _ => ?_
          refine (parses starts).bind same fun _ _ after => ?_
          exact induction (.binary _ before.start sign.start before after)

theorem parses_chain (same : (parses starts).Relates (Expression.Alike starts) operand another)
    (operator? : TokenKind → Option Operator) : (parses starts).Relates (Expression.Alike starts)
      (chain operand operator?) (chain another operator?) := by
  refine (parses starts).bind same fun _ _ first => ?_
  refine (parses starts).bind parses_get fun tokens others listed => ?_
  rw [listed.length_eq]
  exact parses_chainFrom same operator? _ first

theorem parses_sumOf (same : (parses starts).Relates (Expression.Alike starts) operand another) :
    (parses starts).Relates (Expression.Alike starts) (sumOf operand) (sumOf another) :=
  parses_chain (parses_chain same _) _

private theorem parses_operandOf
    (same : (parses starts).Relates (Expression.Alike starts) operand another) :
    (parses starts).Relates (Expression.Alike starts) (operandOf operand) (operandOf another) := by
  refine (parses starts).bind (parses_peek _) fun left right first => ?_
  have constant : (parses starts).Relates (Expression.Alike starts)
      (do return .literal (← literal)) (do return .literal (← literal)) :=
    (parses starts).bind parses_literal fun _ _ same => (parses starts).pure (.literal same)
  rw [first.kind, first.text]
  split
  · exact constant
  · exact constant
  · refine (parses starts).bind_same parses_skip fun _ => ?_
    refine (parses starts).bind same fun _ _ inside => ?_
    exact (parses starts).bind (parses_expect _ _) fun _ _ _ => (parses starts).pure inside
  · refine (parses starts).bind parses_identifier fun name other named => ?_
    refine (parses starts).bind_same (parses_isNext _) fun called => ?_
    rw [named.name]
    refine (parses starts).ite (fun _ => ?_) fun _ => (parses starts).pure (.identifier named)
    refine (parses starts).ite (fun _ => parses_refuseAt first _) fun _ => ?_
    refine (parses starts).bind (parses_parenthesized same) fun listed others inside => ?_
    exact (parses starts).pure (.call named.start named inside.1)
  · exact parses_refuseAt first _

end Chains

private theorem parses_operandWithin (depth : Nat) :
    (parses starts).Relates (Expression.Alike starts)
    (operandWithin depth) (operandWithin depth) := by
  induction depth with
  | zero => exact parses_refuseEnd _
  | succ depth induction => exact parses_operandOf (parses_sumOf induction)

theorem parses_expression :
    (parses starts).Relates (Expression.Alike starts) expression expression := by
  refine (parses starts).bind parses_get fun tokens others listed => ?_
  rw [listed.length_eq]
  exact parses_sumOf (parses_operandWithin _)

/-! ### Statements -/

private theorem parses_dimension : (parses starts).Relates Eq dimension dimension := by
  refine (parses starts).bind (parses_expect _ _) fun left right same => ?_
  rw [same.text]
  split
  · exact (parses starts).pure rfl
  · exact parses_refuseAt same _

private theorem parses_shapeClause :
    (parses starts).Relates (ShapeClause.Alike starts) shapeClause shapeClause := by
  refine (parses starts).bind (parses_expect _ _) fun _ _ opening => ?_
  refine (parses starts).bind (parses_commaSeparated parses_dimension) fun _ _ dimensions => ?_
  rw [List.forall₂_eq_eq_eq] at dimensions
  exact (parses starts).bind (parses_expect _ _)
    fun _ _ _ => (parses starts).pure ⟨dimensions.symm, opening.start⟩

private theorem parses_declaration :
    (parses starts).Relates (Declaration.Alike starts) declaration declaration := by
  refine (parses starts).bind (parses_expect _ _) fun _ _ keyword => ?_
  refine (parses starts).bind parses_identifier fun name other named => ?_
  refine (parses starts).bind_same (parses_isNext _) fun shaped => ?_
  have clause : (parses starts).Relates (Option.Rel (ShapeClause.Alike starts))
      (some <$> shapeClause) (some <$> shapeClause) :=
    (parses starts).map parses_shapeClause fun _ _ same => .some same
  refine (parses starts).branch (fun _ => clause) (fun _ => (parses starts).pure .none)
    fun shape another same => ?_
  refine (parses starts).bind (parses_next _) fun left right equals => ?_
  rw [equals.kind, named.name]
  refine (parses starts).ite (fun _ => ?_) fun _ => parses_refuseAt equals _
  exact (parses starts).bind parses_expression
    fun _ _ initial => (parses starts).pure ⟨keyword.start, named, same, initial⟩

private theorem startsPrint_alike {tokens others : List Token}
    (listed : List.Forall₂ (Token.Alike starts) tokens others) :
    startsPrint others = startsPrint tokens := by
  rcases listed with _ | ⟨word, _ | ⟨opening, _⟩⟩
  · rfl
  · rfl
  · rw [startsPrint, startsPrint, word.text, opening.kind]

private theorem parses_action : (parses starts).Relates
    (fun first second => starts first.1.start second.1.start ∧ first.2.Alike starts second.2)
    action action := by
  refine (parses starts).bind (parses_peek _) fun left right first => ?_
  rw [first.kind]
  split
  · refine (parses starts).bind parses_declaration fun _ _ same => ?_
    exact (parses starts).pure ⟨same.start, .declare same⟩
  · refine (parses starts).bind_same parses_skip fun _ => ?_
    refine (parses starts).bind_same (parses_isNext _) fun bare => ?_
    refine (parses starts).branch (fun _ => (parses starts).pure .none) (fun _ => ?_)
      fun _ _ same => (parses starts).pure ⟨first.start, .leave same⟩
    exact (parses starts).map parses_expression fun _ _ same => .some same
  · refine (parses starts).bind parses_get fun tokens others listed => ?_
    rw [startsPrint_alike listed]
    refine (parses starts).ite (fun _ => ?_) fun _ => ?_
    · refine (parses starts).bind_same parses_skip fun _ => ?_
      refine (parses starts).bind (parses_expect _ _) fun _ _ _ => ?_
      refine (parses starts).bind parses_expression fun _ _ same => ?_
      exact (parses starts).bind (parses_expect _ _)
        fun _ _ _ => (parses starts).pure ⟨first.start, .print same⟩
    · exact (parses starts).bind parses_expression
        fun _ _ same => (parses starts).pure ⟨same.start, .evaluate same⟩

private theorem parses_statement :
    (parses starts).Relates (Statement.Alike starts) statement statement :=
  (parses starts).bind parses_action fun _ _ same =>
    (parses starts).bind (parses_expect _ _)
      fun _ _ _ => (parses starts).pure ⟨same.1, same.2⟩

private theorem parses_statements (bound : Nat) : (parses starts).Relates
    (List.Forall₂ (Statement.Alike starts)) (statements bound) (statements bound) := by
  induction bound with
  | zero => exact parses_refuseEnd _
  | succ bound induction =>
      refine (parses starts).bind (parses_peek _) fun left right first => ?_
      rw [first.kind]
      refine (parses starts).ite (fun _ => (parses starts).pure .nil) fun _ => ?_
      refine (parses starts).bind parses_statement fun _ _ same => ?_
      exact (parses starts).bind induction fun _ _ rest => (parses starts).pure (.cons same rest)

private theorem parses_block : (parses starts).Relates
    (fun left right => List.Forall₂ (Statement.Alike starts) left.statements right.statements)
    block block := by
  refine (parses starts).bind (parses_expect _ _) fun _ _ _ => ?_
  refine (parses starts).bind parses_get fun tokens others listed => ?_
  rw [listed.length_eq]
  refine (parses starts).bind (parses_statements _) fun _ _ same => ?_
  exact (parses starts).bind (parses_expect _ _) fun _ _ _ => (parses starts).pure same

private theorem parses_functionDefinition :
    (parses starts).Relates (FunctionDefinition.Alike starts)
    functionDefinition functionDefinition := by
  refine (parses starts).bind (parses_next _) fun left right keyword => ?_
  rw [keyword.kind, keyword.text]
  refine (parses starts).ite (fun _ => ?_) fun _ => parses_refuseAt keyword _
  refine (parses starts).bind parses_identifier fun _ _ name => ?_
  refine (parses starts).bind (parses_parenthesized parses_identifier) fun _ _ parameters => ?_
  exact (parses starts).bind parses_block
    fun _ _ statements => (parses starts).pure ⟨name, parameters.1, statements⟩

private theorem parses_functionDefinitions (bound : Nat) : (parses starts).Relates
    (List.Forall₂ (FunctionDefinition.Alike starts)) (functionDefinitions bound)
    (functionDefinitions bound) := by
  induction bound with
  | zero => exact (parses starts).pure .nil
  | succ bound induction =>
      refine (parses starts).bind parses_get fun tokens others listed => ?_
      have isEmpty_eq : others.isEmpty = tokens.isEmpty := by cases listed <;> rfl
      rw [isEmpty_eq]
      refine (parses starts).ite (fun _ => (parses starts).pure .nil) fun _ => ?_
      refine (parses starts).bind parses_functionDefinition fun _ _ same => ?_
      exact (parses starts).bind induction fun _ _ rest => (parses starts).pure (.cons same rest)

private theorem parses_program :
    (parses starts).Relates (Program.Alike starts) program program := by
  refine (parses starts).bind parses_get fun tokens others listed => ?_
  rw [listed.length_eq]
  exact (parses starts).bind (parses_functionDefinitions _)
    fun _ _ same => (parses starts).pure same

end Parser

/-- Alike token lists spell alike programs, or are refused alike. -/
theorem Program.alike_ofTokens {tokens others : List Token}
    (listed : List.Forall₂ (Token.Alike starts) tokens others) :
    (Relator.except False (Rejection.Alike starts)).Relates (Program.Alike starts)
      (Program.ofTokens tokens) (Program.ofTokens others) :=
  (Relator.except False (Rejection.Alike starts)).map (Parser.parses_program _ _ listed)
    fun _ _ same => same.1

end TensorLang
