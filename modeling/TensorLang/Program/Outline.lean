import TensorLang.Decimal.General
import TensorLang.Program
import TensorLang.SymbolTable
import TensorLang.Text.Outline
import TensorLang.Text.Quoted

/-!
# Outlines of programs

The outline of a program shows every node of its tree with its span, and every name with its
number in a symbol table.
-/

namespace TensorLang

namespace Expression

mutual

/-- The names in an expression, in source order. -/
def names : Expression → List String
  | .literal _ => []
  | .identifier name => [name.name]
  | .binary _ left _ _ right => left.names ++ right.names
  | .call _ callee arguments => callee.name :: namesOfAll arguments

/-- The names in several expressions, in source order. -/
def namesOfAll : List Expression → List String
  | [] => []
  | expression :: expressions => expression.names ++ namesOfAll expressions

end

end Expression

/-- The names in a statement, in source order. -/
def Action.names : Action → List String
  | .declare declaration => declaration.name.name :: declaration.initializer.names
  | .leave none => []
  | .leave (some value) => value.names
  | .print value => value.names
  | .evaluate expression => expression.names

/-- The names in a function, in source order. -/
def FunctionDefinition.names (function : FunctionDefinition) : List String :=
  function.name.name :: function.parameters.map Identifier.name ++
    function.body.statements.flatMap fun statement => statement.action.names

/-- The names in a program, in source order. -/
def Program.names (program : Program) : List String :=
  program.functions.flatMap FunctionDefinition.names

/-- The outline of a span. -/
def Span.outline (span : Span) : Outline :=
  .record "Span"
    [.labelled "start" (.leaf (toString span.start)), .labelled "end" (.leaf (toString span.stop))]

/-- The outline of a name with its number. -/
def Identifier.outline (symbols : SymbolTable) (identifier : Identifier) : Outline :=
  let number := (symbols.numberOf? identifier.name).getD symbols.names.size
  .record "Identifier"
    [ .labelled "span" identifier.span.outline,
      .labelled "symbol"
        (.tuple "InternedSymbol" [.leaf (toString number), .leaf (quote identifier.name)]) ]

namespace Literal

mutual

/-- The outline of a literal. -/
def outline : Literal → Outline
  | .number span value =>
      .record "Literal"
        [ .labelled "span" span.outline,
          .labelled "kind" (.tuple "Number" [.leaf (generalNumberText outlineFormat value)]) ]
  | .array span elements =>
      .record "Literal"
        [ .labelled "span" span.outline,
          .labelled "kind" (.tuple "Array" [.list (outlines elements)]) ]

/-- The outlines of several literals. -/
def outlines : List Literal → List Outline
  | [] => []
  | literal :: literals => literal.outline :: outlines literals

end

end Literal

/-- The name of an operator in outlines. -/
def Operator.label : Operator → String
  | .add => "Add"
  | .multiply => "Multiply"
  | .matmul => "MatMul"

namespace Expression

/-- The outline of an expression with a span and a kind. -/
def outlineOf (span : Span) (kind : Outline) : Outline :=
  .record "Expression" [.labelled "span" span.outline, .labelled "kind" kind]

mutual

/-- The outline of an expression. -/
def outline (symbols : SymbolTable) : Expression → Outline
  | .literal value => outlineOf value.span (.tuple "Literal" [value.outline])
  | .identifier name => outlineOf name.span (.tuple "Identifier" [name.outline symbols])
  | .binary span left operator operatorSpan right =>
      outlineOf span (.record "Binary"
        [ .labelled "lhs" (left.outline symbols),
          .labelled "operator" (.record "BinaryOperator"
            [ .labelled "span" operatorSpan.outline,
              .labelled "kind" (.leaf operator.label) ]),
          .labelled "rhs" (right.outline symbols) ])
  | .call span callee arguments =>
      outlineOf span (.record "Call"
        [ .labelled "callee" (callee.outline symbols),
          .labelled "arguments" (.list (outlines symbols arguments)) ])

/-- The outlines of several expressions. -/
def outlines (symbols : SymbolTable) : List Expression → List Outline
  | [] => []
  | expression :: expressions => expression.outline symbols :: outlines symbols expressions

end

end Expression

/-- The outline of a declared shape. -/
def ShapeClause.outline (clause : ShapeClause) : Outline :=
  .record "ShapeAnnotation"
    [ .labelled "span" clause.span.outline,
      .labelled "dimensions"
        (.list (clause.dimensions.map fun dimension => .leaf (toString dimension))) ]

/-- The outline of a declaration. -/
def Declaration.outline (symbols : SymbolTable) (declaration : Declaration) : Outline :=
  .record "VariableDeclaration"
    [ .labelled "span" declaration.span.outline,
      .labelled "name" (declaration.name.outline symbols),
      .labelled "shape" (.optional (declaration.shape.map ShapeClause.outline)),
      .labelled "initializer" (declaration.initializer.outline symbols) ]

/-- The outline of what a statement does. -/
def Action.outline (symbols : SymbolTable) : Action → Outline
  | .declare declaration => .tuple "VariableDeclaration" [declaration.outline symbols]
  | .leave value =>
      .tuple "Return" [.optional (value.map fun expression => expression.outline symbols)]
  | .print value => .tuple "Print" [value.outline symbols]
  | .evaluate expression => .tuple "Expression" [expression.outline symbols]

/-- The outline of a statement. -/
def Statement.outline (symbols : SymbolTable) (statement : Statement) : Outline :=
  .record "Statement"
    [ .labelled "span" statement.span.outline,
      .labelled "kind" (statement.action.outline symbols) ]

/-- The outline of a function. -/
def FunctionDefinition.outline (symbols : SymbolTable) (function : FunctionDefinition) :
    Outline :=
  .record "FunctionDefinition"
    [ .labelled "span" function.span.outline,
      .labelled "name" (function.name.outline symbols),
      .labelled "parameters"
        (.list (function.parameters.map fun parameter => parameter.outline symbols)),
      .labelled "body" (.record "Block"
        [ .labelled "span" function.body.span.outline,
          .labelled "statements"
            (.list (function.body.statements.map fun statement => statement.outline symbols)) ]) ]

/-- The outline of where a text comes from. -/
def Origin.outline : Origin → Outline
  | .memory => .leaf "Memory"
  | .file path => .tuple "File" [.leaf (quote path)]

/-- The outline of a source text. -/
def Source.outline (source : Source) : Outline :=
  .record "SourceFile"
    [ .labelled "contents" (.leaf (quote source.contents)),
      .labelled "origin" source.origin.outline ]

/-- The outline of a program and its source text, with names numbered after `reserved` ones. -/
def Program.outline (program : Program) (source : Source) (reserved : List String) : Outline :=
  let symbols := SymbolTable.ofList (reserved ++ program.names)
  .record "Module"
    [ .labelled "source_file" source.outline,
      .labelled "functions"
        (.list (program.functions.map fun function => function.outline symbols)) ]

end TensorLang
