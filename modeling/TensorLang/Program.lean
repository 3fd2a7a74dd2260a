import TensorLang.Source

/-!
# Programs

The tree of a program: functions with parameters and statements, whose expressions are tensor
literals, names, binary operators and calls.  Every part knows the text that it covers;
parentheses leave no trace.
-/

namespace TensorLang

/-- A name where it stands. -/
structure Identifier where
  /-- The text that the name covers. -/
  span : Span
  /-- The name. -/
  name : String
  deriving DecidableEq

/-- A number or an array of literals. -/
inductive Literal where
  | number (span : Span) (value : Float)
  | array (span : Span) (elements : List Literal)

/-- The text that a literal covers. -/
def Literal.span : Literal → Span
  | .number span _ => span
  | .array span _ => span

/-- The binary operators. -/
inductive Operator where
  | add
  | multiply
  | matmul
  deriving DecidableEq

/-- How an operator is written. -/
def Operator.symbol : Operator → String
  | .add => "+"
  | .multiply => "*"
  | .matmul => "@"

/-- An expression. -/
inductive Expression where
  /-- A tensor literal. -/
  | literal (value : Literal)
  /-- The value of a variable or parameter. -/
  | identifier (name : Identifier)
  /-- A binary operator, which stands at `operatorSpan`, with its operands. -/
  | binary (span : Span) (left : Expression) (operator : Operator) (operatorSpan : Span)
      (right : Expression)
  /-- A call with its arguments. -/
  | call (span : Span) (callee : Identifier) (arguments : List Expression)

/-- The text that an expression covers. -/
def Expression.span : Expression → Span
  | .literal value => value.span
  | .identifier name => name.span
  | .binary span .. => span
  | .call span .. => span

/-- The shape that a variable is declared with. -/
structure ShapeClause where
  /-- The text from `<` to `>`. -/
  span : Span
  /-- The dimensions, outermost first. -/
  dimensions : List Nat
  deriving DecidableEq

/-- The declaration of a variable. -/
structure Declaration where
  /-- The text from the keyword to the end of the initializer. -/
  span : Span
  /-- The declared variable. -/
  name : Identifier
  /-- The declared shape, if there is one. -/
  shape : Option ShapeClause
  /-- The initial value. -/
  initializer : Expression

/-- What a statement does. -/
inductive Action where
  /-- Declares a variable. -/
  | declare (declaration : Declaration)
  /-- Leaves the function, with or without a value. -/
  | leave (value : Option Expression)
  /-- Prints a value. -/
  | print (value : Expression)
  /-- Evaluates an expression for its effects. -/
  | evaluate (expression : Expression)

/-- Whether the function ends with the statement. -/
def Action.leaves : Action → Bool
  | .leave _ => true
  | _ => false

/-- A statement of a function body. -/
structure Statement where
  /-- The text up to and including the semicolon. -/
  span : Span
  /-- What the statement does. -/
  action : Action

/-- Statements between braces. -/
structure Block where
  /-- The text from brace to brace. -/
  span : Span
  /-- The statements in order. -/
  statements : List Statement

/-- A function of the program. -/
structure FunctionDefinition where
  /-- The text from the keyword to the closing brace. -/
  span : Span
  /-- The function's name. -/
  name : Identifier
  /-- The parameters in order. -/
  parameters : List Identifier
  /-- The statements of the function. -/
  body : Block

/-- A program: its functions in order. -/
structure Program where
  /-- The functions. -/
  functions : List FunctionDefinition

end TensorLang
