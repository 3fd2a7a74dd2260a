import TensorLang.Proofs.Decimal.Doubles
import TensorLang.Proofs.Program.Parsing

/-!
# The numbers of a program

A number of a program is read from digits and has no sign.  A program is built by a derivation, so
this follows by induction over derivations.
-/

namespace TensorLang

/-! ### Trees without signs -/

/-- No number of the literal has a sign. -/
inductive Literal.Unsigned : Literal → Prop where
  | number {span : Span} {value : Float} (unsigned : signBit value = false) :
      Unsigned (.number span value)
  | array {span : Span} {elements : List Literal}
      (unsigned : ∀ element ∈ elements, Unsigned element) : Unsigned (.array span elements)

/-- No number of the expression has a sign. -/
inductive Expression.Unsigned : Expression → Prop where
  | literal {value : Literal} (unsigned : value.Unsigned) : Unsigned (.literal value)
  | identifier (name : Identifier) : Unsigned (.identifier name)
  | binary {span operatorSpan : Span} {operator : Operator} {left right : Expression}
      (left_unsigned : Unsigned left) (right_unsigned : Unsigned right) :
      Unsigned (.binary span left operator operatorSpan right)
  | call {span : Span} {callee : Identifier} {arguments : List Expression}
      (unsigned : ∀ argument ∈ arguments, Unsigned argument) :
      Unsigned (.call span callee arguments)

/-- The expressions of an action. -/
def Action.expressions : Action → List Expression
  | .declare declaration => [declaration.initializer]
  | .leave value => value.toList
  | .print value => [value]
  | .evaluate expression => [expression]

/-- No number of the action has a sign. -/
def Action.Unsigned (action : Action) : Prop :=
  ∀ expression ∈ action.expressions, expression.Unsigned

/-- No number of the function has a sign. -/
def FunctionDefinition.Unsigned (definition : FunctionDefinition) : Prop :=
  ∀ statement ∈ definition.body.statements, statement.action.Unsigned

/-- No number of the program has a sign. -/
def Program.Unsigned (program : Program) : Prop :=
  ∀ definition ∈ program.functions, definition.Unsigned

/-- No number of the tree has a sign. -/
def Category.Unsigned : (category : Category) → category.Tree → Prop
  | .literal, tree => tree.Unsigned
  | .primary, tree | .term, tree | .expression, tree => tree.Unsigned
  | .statement, tree => tree.action.Unsigned
  | .block, tree => ∀ statement ∈ tree.statements, statement.action.Unsigned
  | .function, tree => tree.Unsigned
  | .optional item, found => ∀ tree ∈ found, item.Unsigned tree
  | .separated item, trees | .listed item, trees | .many item, trees =>
      ∀ tree ∈ trees, item.Unsigned tree
  | .identifier, _ | .dimension, _ | .shape, _ => True

/-! ### Derivations -/

private theorem Token.signBit_number (token : Token) : signBit token.number = false := by
  rw [Token.number]
  cases parsed : parseDouble? token.text with
  | none => rfl
  | some value => exact signBit_of_parseDouble? parsed

/-- A derivation builds a tree without signs. -/
theorem Spells.unsigned {category : Category} {tokens : List Token} {tree : category.Tree}
    (spelled : Spells category tokens tree) : category.Unsigned tree := by
  induction spelled with
  | number => exact Literal.Unsigned.number (Token.signBit_number _)
  | array _ _ _ inside => exact Literal.Unsigned.array inside
  | constant _ whole => exact Expression.Unsigned.literal whole
  | «variable» => exact Expression.Unsigned.identifier _
  | call _ _ _ _ _ inside => exact Expression.Unsigned.call inside
  | group _ _ _ inside => exact inside
  | factor _ whole | summand _ whole | listed _ whole => exact whole
  | multiply _ _ _ front back | matmul _ _ _ front back | add _ _ _ front back =>
      exact Expression.Unsigned.binary front back
  | declare _ _ _ _ _ _ _ inside | print _ _ _ _ _ inside | evaluate _ _ inside =>
      exact List.forall_mem_singleton.mpr inside
  | leave _ _ _ inside =>
      simpa [Category.Unsigned, Action.Unsigned, Action.expressions] using inside
  | block _ _ _ inside => exact inside
  | function _ _ _ _ _ _ _ defined => exact defined
  | present _ whole => simpa [Category.Unsigned] using whole
  | last _ whole => exact List.forall_mem_singleton.mpr whole
  | further _ _ _ front back | more _ _ front back => exact List.forall_mem_cons.mpr ⟨front, back⟩
  | identifier | dimension | shape => trivial
  | absent | unlisted | none => simp [Category.Unsigned]

/-- No number of a program has a sign. -/
theorem Source.unsigned_of_program {source : Source} {program : Program}
    (success : source.program = .ok program) : program.Unsigned := by
  simp only [Source.program, Except.bind_eq_ok_iff, accept_eq_ok_iff] at success
  obtain ⟨tokens, -, success⟩ := success
  obtain ⟨⟨_, rest⟩, parsed, rfl⟩ := Except.map_eq_ok_iff.mp success
  exact (Parser.spells_of_program parsed).2.unsigned

end TensorLang
