import TensorLang.Decimal.Positional
import TensorLang.Program
import TensorLang.Tensor.Shape
import TensorLang.Token.Lexer

/-!
# Parsing

A parser takes tokens off the front of a list.  Sums are chains of products and products chains of
operands, both from the left.  Brackets can nest no deeper than there are tokens, and no list has
more items than there are tokens, so both kinds of repetition are bounded by the tokens left.
-/

namespace TensorLang

/-- Takes a value off the front of a token list, or refuses the list. -/
abbrev Parser (α : Type) : Type := StateT (List Token) (Except Rejection) α

namespace Parser

/-- Refuses the text at a token. -/
def refuseAt {α : Type} (token : Token) (message : String) : Parser α :=
  throw ⟨some token.span.start, message⟩

/-- Refuses the text because it ends. -/
def refuseEnd {α : Type} (expected : String) : Parser α :=
  throw ⟨none, s!"expected {expected} but reached end of file"⟩

/-- The next token, left in place. -/
def peek (expected : String) : Parser Token := do
  match ← get with
  | [] => refuseEnd expected
  | token :: _ => return token

/-- Whether the next token is of a kind. -/
def isNext (kind : TokenKind) : Parser Bool := do
  return (← get).head?.any fun token => token.kind == kind

/-- Drops the next token. -/
def skip : Parser Unit := modify List.tail

/-- Takes the next token. -/
def next (expected : String) : Parser Token := do
  let token ← peek expected
  skip
  return token

/-- Takes the next token, which must be of the given kind. -/
def expect (kind : TokenKind) (expected : String) : Parser Token := do
  let token ← next expected
  if token.kind = kind then
    return token
  else
    refuseAt token s!"expected {expected} but found {quoteName token.text}"

/-- Further items, each after a comma; at most `bound` of them. -/
def moreItems {α : Type} (item : Parser α) : Nat → Parser (List α)
  | 0 => return []
  | bound + 1 => do
      if ← isNext .comma then
        skip
        let first ← item
        let rest ← moreItems item bound
        return first :: rest
      else
        return []

/-- One or more items with commas between them. -/
def commaSeparated {α : Type} (item : Parser α) : Parser (List α) := do
  let first ← item
  let rest ← moreItems item (← get).length
  return first :: rest

/-- Items with commas between them, in parentheses; there may be none.  Gives the closing
parenthesis too. -/
def parenthesized {α : Type} (item : Parser α) : Parser (List α × Token) := do
  let _ ← expect .openParen (quoteName "(")
  let items ← if ← isNext .closeParen then pure [] else commaSeparated item
  let close ← expect .closeParen (quoteName ")")
  return (items, close)

/-- A name. -/
def identifier : Parser Identifier := do
  let token ← expect .identifier "identifier"
  return ⟨token.span, token.text⟩

/-- What a literal may start with, as messages say it. -/
def literalStart : String := "number or " ++ quoteName "["

/-- A number, or an array of what `element` reads. -/
def literalOf (element : Parser Literal) : Parser Literal := do
  let token ← next literalStart
  match token.kind with
  | .number =>
      match parseDouble? token.text with
      | some value => return .number token.span value
      | none => refuseAt token s!"invalid number literal {quoteName token.text}"
  | .openBracket =>
      let elements ← commaSeparated element
      let close ← expect .closeBracket (quoteName "]")
      return .array (token.span.to close.span) elements
  | _ =>
      refuseAt token s!"tensor literals may only contain numbers, found {quoteName token.text}"

/-- A literal with at most `depth` levels. -/
def literalWithin : Nat → Parser Literal
  | 0 => refuseEnd literalStart
  | depth + 1 => literalOf (literalWithin depth)

/-- A literal. -/
def literal : Parser Literal := do
  literalWithin (← get).length

/-- The operator that multiplies, if the token is one. -/
def productOperator? : TokenKind → Option Operator
  | .asterisk => some .multiply
  | .atSign => some .matmul
  | _ => none

/-- The operator that adds, if the token is one. -/
def sumOperator? : TokenKind → Option Operator
  | .plus => some .add
  | _ => none

/-- Continues a chain of operands to the right of `left`; at most `bound` operators follow. -/
def chainFrom (operand : Parser Expression) (operator? : TokenKind → Option Operator)
    (left : Expression) : Nat → Parser Expression
  | 0 => return left
  | bound + 1 => do
      match ← get with
      | [] => return left
      | token :: _ =>
          match operator? token.kind with
          | none => return left
          | some operator => do
              skip
              let right ← operand
              let span := left.span.to right.span
              chainFrom operand operator? (.binary span left operator token.span right) bound

/-- Operands with operators between them, taken from the left. -/
def chain (operand : Parser Expression) (operator? : TokenKind → Option Operator) :
    Parser Expression := do
  let first ← operand
  chainFrom operand operator? first (← get).length

/-- A sum of products of operands. -/
def sumOf (operand : Parser Expression) : Parser Expression :=
  chain (chain operand productOperator?) sumOperator?

/-- A literal, a name, a call or an expression in parentheses, the nested expressions being what
`inner` reads. -/
def operandOf (inner : Parser Expression) : Parser Expression := do
  let first ← peek "expression"
  match first.kind with
  | .number | .openBracket => return .literal (← literal)
  | .openParen =>
      skip
      let expression ← inner
      let _ ← expect .closeParen (quoteName ")")
      return expression
  | .identifier =>
      let name ← identifier
      if ← isNext .openParen then
        if name.name = "print" then
          refuseAt first (quoteName "print" ++ " can only be used as a statement")
        else
          let (arguments, close) ← parenthesized inner
          return .call (name.span.to close.span) name arguments
      else
        return .identifier name
  | _ => refuseAt first s!"expected expression but found {quoteName first.text}"

/-- An operand whose parentheses nest at most `depth` deep. -/
def operandWithin : Nat → Parser Expression
  | 0 => refuseEnd "expression"
  | depth + 1 => operandOf (sumOf (operandWithin depth))

/-- An expression. -/
def expression : Parser Expression := do
  sumOf (operandWithin (← get).length)

/-- A dimension: a whole number that fits in a word. -/
def dimension : Parser Nat := do
  let token ← expect .number "shape dimension"
  match parseNatural? countBound token.text with
  | some value => return value
  | none =>
      refuseAt token s!"shape dimension {quoteName token.text} is not a non-negative integer"

/-- The shape in a declaration. -/
def shapeClause : Parser ShapeClause := do
  let start ← expect .lessThan (quoteName "<")
  let dimensions ← commaSeparated dimension
  let close ← expect .greaterThan (quoteName ">")
  return ⟨start.span.to close.span, dimensions⟩

/-- The declaration of a variable, without the semicolon. -/
def declaration : Parser Declaration := do
  let keyword ← expect (.keyword .varWord) (quoteName "var")
  let name ← identifier
  let shape ← if ← isNext .lessThan then some <$> shapeClause else pure none
  let equals ← next (quoteName "=")
  if equals.kind = .equals then
    let initializer ← expression
    return ⟨keyword.span.to initializer.span, name, shape, initializer⟩
  else
    refuseAt equals s!"variable {quoteName name.name} must be initialized"

/-- Whether tokens start a print statement: the name `print` and an opening parenthesis. -/
def startsPrint : List Token → Bool
  | name :: paren :: _ => name.text == "print" && paren.kind == .openParen
  | _ => false

/-- A statement without its semicolon, and the span that it starts with. -/
def action : Parser (Span × Action) := do
  let first ← peek "statement"
  match first.kind with
  | .keyword .varWord =>
      let declaration ← declaration
      return (declaration.span, .declare declaration)
  | .keyword .returnWord =>
      skip
      let value ← if ← isNext .semicolon then pure none else some <$> expression
      return (first.span, .leave value)
  | _ =>
      if startsPrint (← get) then
        skip
        let _ ← expect .openParen (quoteName "(")
        let value ← expression
        let _ ← expect .closeParen (quoteName ")")
        return (first.span, .print value)
      else
        let expression ← expression
        return (expression.span, .evaluate expression)

/-- A statement with its semicolon. -/
def statement : Parser Statement := do
  let (start, action) ← action
  let semicolon ← expect .semicolon (quoteName ";")
  return ⟨start.to semicolon.span, action⟩

/-- The statements up to a closing brace; at most `bound` of them. -/
def statements : Nat → Parser (List Statement)
  | 0 => refuseEnd s!"statement or {quoteName braceClose}"
  | bound + 1 => do
      let first ← peek s!"statement or {quoteName braceClose}"
      if first.kind = .closeBrace then
        return []
      else
        let first ← statement
        let rest ← statements bound
        return first :: rest

/-- Statements between braces. -/
def block : Parser Block := do
  let start ← expect .openBrace (quoteName braceOpen)
  let statements ← statements (← get).length
  let close ← expect .closeBrace (quoteName braceClose)
  return ⟨start.span.to close.span, statements⟩

/-- A function with its name, parameters and body. -/
def functionDefinition : Parser FunctionDefinition := do
  let keyword ← next "function definition"
  if keyword.kind = .keyword .defWord ∨ keyword.kind = .keyword .funcWord then
    let name ← identifier
    let (parameters, _) ← parenthesized identifier
    let body ← block
    return ⟨keyword.span.to body.span, name, parameters, body⟩
  else
    refuseAt keyword
      s!"expected function definition in module but found {quoteName keyword.text}"

/-- The functions up to the end of the text; at most `bound` of them. -/
def functionDefinitions : Nat → Parser (List FunctionDefinition)
  | 0 => return []
  | bound + 1 => do
      if (← get).isEmpty then
        return []
      else
        let first ← functionDefinition
        let rest ← functionDefinitions bound
        return first :: rest

/-- A whole program. -/
def program : Parser Program := do
  return ⟨← functionDefinitions (← get).length⟩

end Parser

/-- The program that a token list spells. -/
def Program.ofTokens (tokens : List Token) : Except Rejection Program :=
  Parser.program.run' tokens

/-- The program that a source text spells. -/
def Source.program (source : Source) : Outcome Program := do
  let tokens ← source.tokens
  source.accept (Program.ofTokens tokens)

end TensorLang
