import TensorLang.Program.Parser

/-!
# The grammar of programs

One rule for each way to put a construct together:

    module     := function*
    function   := ("def" | "func") name "(" (name ("," name)*)? ")" block
    block      := "{" statement* "}"
    statement  := "var" name shape? "=" expression ";"
                | "return" expression? ";"
                | "print" "(" expression ")" ";"
                | expression ";"
    shape      := "<" dimension ("," dimension)* ">"
    expression := term | expression "+" term
    term       := primary | term ("*" | "@") primary
    primary    := literal | name | name "(" (expression ("," expression)*)? ")"
                | "(" expression ")"
    literal    := number | "[" literal ("," literal)* "]"

The name that is called is not `print`, and a dimension is written in digits alone and fits in a
word.  The chains of `+`, and those of `*` and `@`, are therefore taken from the left, and `*` and
`@` bind equally tightly.  A derivation builds the tree of its construct; parentheses add nothing to
it.
-/

namespace TensorLang

/-- The constructs of the language, and how they may be repeated. -/
inductive Category where
  | identifier
  | dimension
  | literal
  | primary
  | term
  | expression
  | shape
  | statement
  | block
  | function
  /-- At most one item. -/
  | optional (item : Category)
  /-- One or more items with commas between them. -/
  | separated (item : Category)
  /-- Any number of items with commas between them. -/
  | listed (item : Category)
  /-- Any number of items in a row. -/
  | many (item : Category)

/-- The trees of a construct. -/
@[reducible]
def Category.Tree : Category → Type
  | .identifier => Identifier
  | .dimension => Nat
  | .literal => Literal
  | .primary | .term | .expression => Expression
  | .shape => ShapeClause
  | .statement => Statement
  | .block => Block
  | .function => FunctionDefinition
  | .optional item => Option item.Tree
  | .separated item | .listed item | .many item => List item.Tree

/-- The name that a token is. -/
def Token.identifier (token : Token) : Identifier := ⟨token.span, token.text⟩

/-- The double nearest to the number that a token is. -/
def Token.number (token : Token) : Float := (parseDouble? token.text).getD 0

/-- The tokens are derived from the category, and the derivation builds the tree. -/
inductive Spells : (category : Category) → List Token → category.Tree → Prop where
  | identifier {token : Token} (name : token.kind = .identifier) :
      Spells .identifier [token] token.identifier
  | dimension {token : Token} (number : token.kind = .number)
      (digits : ∀ digit ∈ token.text.toList, digit.isDigit)
      (small : digitsValue token.text.toList < countBound) :
      Spells .dimension [token] (digitsValue token.text.toList)
  | number {token : Token} (number : token.kind = .number) :
      Spells .literal [token] (.number token.span token.number)
  | array {opening closing : Token} {tokens : List Token} {elements : List Literal}
      (opens : opening.kind = .openBracket) (inside : Spells (.separated .literal) tokens elements)
      (closes : closing.kind = .closeBracket) :
      Spells .literal (opening :: tokens ++ [closing])
        (.array (opening.span.to closing.span) elements)
  | constant {tokens : List Token} {value : Literal} (whole : Spells .literal tokens value) :
      Spells .primary tokens (.literal value)
  | variable {tokens : List Token} {name : Identifier} (whole : Spells .identifier tokens name) :
      Spells .primary tokens (.identifier name)
  | call {callee opening closing : Token} {tokens : List Token} {arguments : List Expression}
      (name : callee.kind = .identifier) (other : callee.text ≠ "print")
      (opens : opening.kind = .openParen) (inside : Spells (.listed .expression) tokens arguments)
      (closes : closing.kind = .closeParen) :
      Spells .primary (callee :: opening :: tokens ++ [closing])
        (.call (callee.span.to closing.span) callee.identifier arguments)
  | group {opening closing : Token} {tokens : List Token} {expression : Expression}
      (opens : opening.kind = .openParen) (inside : Spells .expression tokens expression)
      (closes : closing.kind = .closeParen) :
      Spells .primary (opening :: tokens ++ [closing]) expression
  | factor {tokens : List Token} {expression : Expression}
      (whole : Spells .primary tokens expression) : Spells .term tokens expression
  | multiply {sign : Token} {before after : List Token} {left right : Expression}
      (front : Spells .term before left) (asterisk : sign.kind = .asterisk)
      (back : Spells .primary after right) :
      Spells .term (before ++ sign :: after)
        (.binary (left.span.to right.span) left .multiply sign.span right)
  | matmul {sign : Token} {before after : List Token} {left right : Expression}
      (front : Spells .term before left) (atSign : sign.kind = .atSign)
      (back : Spells .primary after right) :
      Spells .term (before ++ sign :: after)
        (.binary (left.span.to right.span) left .matmul sign.span right)
  | summand {tokens : List Token} {expression : Expression}
      (whole : Spells .term tokens expression) : Spells .expression tokens expression
  | add {sign : Token} {before after : List Token} {left right : Expression}
      (front : Spells .expression before left) (plus : sign.kind = .plus)
      (back : Spells .term after right) :
      Spells .expression (before ++ sign :: after)
        (.binary (left.span.to right.span) left .add sign.span right)
  | shape {opening closing : Token} {tokens : List Token} {dimensions : List Nat}
      (opens : opening.kind = .lessThan) (inside : Spells (.separated .dimension) tokens dimensions)
      (closes : closing.kind = .greaterThan) :
      Spells .shape (opening :: tokens ++ [closing])
        ⟨opening.span.to closing.span, dimensions⟩
  | declare {keyword name equals semicolon : Token} {before after : List Token}
      {shape : Option ShapeClause} {value : Expression}
      (starts : keyword.kind = .keyword .varWord) (named : name.kind = .identifier)
      (shaped : Spells (.optional .shape) before shape) (initializes : equals.kind = .equals)
      (inside : Spells .expression after value) (ends : semicolon.kind = .semicolon) :
      Spells .statement (keyword :: name :: before ++ equals :: after ++ [semicolon])
        ⟨keyword.span.to semicolon.span,
          .declare ⟨keyword.span.to value.span, name.identifier, shape, value⟩⟩
  | leave {keyword semicolon : Token} {tokens : List Token} {value : Option Expression}
      (starts : keyword.kind = .keyword .returnWord)
      (inside : Spells (.optional .expression) tokens value)
      (ends : semicolon.kind = .semicolon) :
      Spells .statement (keyword :: tokens ++ [semicolon])
        ⟨keyword.span.to semicolon.span, .leave value⟩
  | print {word opening closing semicolon : Token} {tokens : List Token} {value : Expression}
      (prints : word.text = "print") (opens : opening.kind = .openParen)
      (inside : Spells .expression tokens value) (closes : closing.kind = .closeParen)
      (ends : semicolon.kind = .semicolon) :
      Spells .statement (word :: opening :: tokens ++ [closing, semicolon])
        ⟨word.span.to semicolon.span, .print value⟩
  | evaluate {semicolon : Token} {tokens : List Token} {expression : Expression}
      (inside : Spells .expression tokens expression) (ends : semicolon.kind = .semicolon) :
      Spells .statement (tokens ++ [semicolon])
        ⟨expression.span.to semicolon.span, .evaluate expression⟩
  | block {opening closing : Token} {tokens : List Token} {statements : List Statement}
      (opens : opening.kind = .openBrace) (inside : Spells (.many .statement) tokens statements)
      (closes : closing.kind = .closeBrace) :
      Spells .block (opening :: tokens ++ [closing])
        ⟨opening.span.to closing.span, statements⟩
  | function {keyword name opening closing : Token} {inside after : List Token}
      {parameters : List Identifier} {body : Block}
      (starts : keyword.kind = .keyword .defWord ∨ keyword.kind = .keyword .funcWord)
      (named : name.kind = .identifier) (opens : opening.kind = .openParen)
      (declared : Spells (.listed .identifier) inside parameters)
      (closes : closing.kind = .closeParen) (defined : Spells .block after body) :
      Spells .function (keyword :: name :: opening :: inside ++ closing :: after)
        ⟨keyword.span.to body.span, name.identifier, parameters, body⟩
  | absent {item : Category} : Spells (.optional item) [] none
  | present {item : Category} {tokens : List Token} {tree : item.Tree}
      (whole : Spells item tokens tree) : Spells (.optional item) tokens (some tree)
  | last {item : Category} {tokens : List Token} {tree : item.Tree}
      (whole : Spells item tokens tree) : Spells (.separated item) tokens [tree]
  | further {item : Category} {comma : Token} {before after : List Token} {first : item.Tree}
      {rest : List item.Tree} (front : Spells item before first) (separates : comma.kind = .comma)
      (back : Spells (.separated item) after rest) :
      Spells (.separated item) (before ++ comma :: after) (first :: rest)
  | unlisted {item : Category} : Spells (.listed item) [] []
  | listed {item : Category} {tokens : List Token} {trees : List item.Tree}
      (whole : Spells (.separated item) tokens trees) : Spells (.listed item) tokens trees
  | none {item : Category} : Spells (.many item) [] []
  | more {item : Category} {before after : List Token} {first : item.Tree}
      {rest : List item.Tree} (front : Spells item before first)
      (back : Spells (.many item) after rest) :
      Spells (.many item) (before ++ after) (first :: rest)

end TensorLang
