import TensorLang.Dataflow.Editing
import TensorLang.Program
import TensorLang.Source.PlaceTable

/-!
# Dataflow of programs

The functions of a program become dataflow functions.  Function names are known throughout the
program; parameters and variables belong to one function, and a variable may shadow a parameter.
Every operation keeps the location of the construct it stems from.
-/

namespace TensorLang

namespace Dataflow

/-- What the name of a callee refers to. -/
inductive Callee where
  /-- The transposition of a tensor. -/
  | transpose
  /-- A function of the program with a number of parameters. -/
  | function (arity : Nat)
  deriving DecidableEq

namespace Callee

/-- Number of arguments that a callee takes. -/
def arity : Callee → Nat
  | transpose => 1
  | function arity => arity

/-- The operation that a call of the callee becomes. -/
def kind (name : String) : Callee → OperationKind
  | transpose => .transpose
  | function _ => .call name

end Callee

/-- The callees of a program by name. -/
abbrev Callees : Type := List (String × Callee)

/-- The name of the built-in transposition. -/
def transposeName : String := "transpose"

/-- Adds a function to the callees, unless its name is taken. -/
def addCallee (source : Source) (callees : Callees) (definition : FunctionDefinition) :
    Outcome Callees := do
  match callees.lookup definition.name.name with
  | some _ =>
      Outcome.failAt (← source.locate definition.name.span)
        (.redefinition definition.name.name)
  | none =>
      return callees ++ [(definition.name.name, .function definition.parameters.length)]

/-- The callees that a program defines, and the transposition. -/
def calleesOf (source : Source) (program : Program) : Outcome Callees :=
  program.functions.foldlM (addCallee source) [(transposeName, .transpose)]

/-- The values of the names that a function body can see. -/
structure Scope where
  /-- Values of the parameters. -/
  parameters : List (String × ValueId)
  /-- Values of the variables declared so far. -/
  declared : List (String × ValueId)

namespace Scope

/-- The scope without names. -/
def empty : Scope := ⟨[], []⟩

/-- The value of a name; variables come before parameters. -/
def find? (scope : Scope) (name : String) : Option ValueId :=
  (scope.declared.lookup name).or (scope.parameters.lookup name)

/-- Binds a parameter. -/
def bindParameter (scope : Scope) (name : String) (value : ValueId) : Scope :=
  { scope with parameters := (name, value) :: scope.parameters }

/-- Binds a variable. -/
def bindVariable (scope : Scope) (name : String) (value : ValueId) : Scope :=
  { scope with declared := (name, value) :: scope.declared }

end Scope

/-- The elements of a literal, flattened into row-major order. -/
structure Flattened where
  /-- Lengths of the nested arrays, outermost first. -/
  dimensions : List Nat
  /-- The numbers in source order. -/
  values : List Float

mutual

/-- Flattens a literal whose arrays are rectangular at every level. -/
def flatten (source : Source) : Literal → Outcome Flattened
  | .number _ value => .ok ⟨[], [value]⟩
  | .array span [] => do
      Outcome.failAt (← source.locate span) (.literalShape "array literals cannot be empty")
  | .array _ (first :: rest) => do
      let inner ← flatten source first
      let values ← flattenRest source inner.dimensions rest
      return ⟨(rest.length + 1) :: inner.dimensions, inner.values ++ values⟩

/-- The numbers of further array elements, which must have the dimensions of the first. -/
def flattenRest (source : Source) (dimensions : List Nat) : List Literal → Outcome (List Float)
  | [] => .ok []
  | element :: rest => do
      let flattened ← flatten source element
      if flattened.dimensions ≠ dimensions then
        let found := (Shape.mk flattened.dimensions).text
        let expected := (Shape.mk dimensions).text
        Outcome.failAt (← source.locate element.span) (.literalShape
          s!"element has shape {found} but the first element has shape {expected}")
      else
        return flattened.values ++ (← flattenRest source dimensions rest)

end

/-- The tensor that a literal spells. -/
def tensorLiteral (source : Source) (literal : Literal) : Outcome TensorLiteral := do
  let flattened ← flatten source literal
  Outcome.promised (TensorLiteral.ofValues? ⟨flattened.dimensions⟩ flattened.values)

/-- The operation that a binary operator becomes. -/
def kindOf : Operator → OperationKind
  | .add => .add
  | .multiply => .multiply
  | .matmul => .matmul

/-- What the expressions of a function body depend on. -/
structure Context where
  /-- The source text, for locations. -/
  source : Source
  /-- The places of the source text. -/
  places : PlaceTable
  /-- They are those of the source text. -/
  places_eq : places = source.placeTable
  /-- What can be called. -/
  callees : Callees

namespace Context

/-- The context of a program. -/
def ofCallees (source : Source) (callees : Callees) : Context :=
  ⟨source, source.placeTable, rfl, callees⟩

/-- The location of the start of a span, looked up in the table of places. -/
def locate (context : Context) (span : Span) : Outcome Location := do
  let place ← Outcome.promised (context.places.lineColumn? span.start)
  return .ofPlace context.source.origin.name place

/-- A context locates spans as its source text does. -/
theorem locate_eq (context : Context) (span : Span) :
    context.locate span = context.source.locate span := by
  rw [locate, Source.locate, Source.location?, context.places_eq,
    Source.lineColumn?_placeTable]
  cases context.source.lineColumn? span.start <;> rfl

end Context

mutual

/-- Appends the operations of an expression; gives its value. -/
def appendExpression (context : Context) (scope : Scope) : Expression → Edit ValueId
  | .literal literal => do
      let location ← context.locate literal.span
      let value ← tensorLiteral context.source literal
      Edit.appendValue (.constant value) [] (.ranked value.shape) location
  | .identifier identifier => do
      match scope.find? identifier.name with
      | some value => return value
      | none =>
          let location ← context.locate identifier.span
          Outcome.failAt location (.undeclared identifier.name)
  | .binary _ left operator operatorSpan right => do
      let left ← appendExpression context scope left
      let right ← appendExpression context scope right
      let location ← context.locate operatorSpan
      Edit.appendValue (kindOf operator) [left, right] .unranked location
  | .call span callee arguments => do
      let location ← context.locate span
      match context.callees.lookup callee.name with
      | none =>
          let location ← context.locate callee.span
          Outcome.failAt location (.undeclared callee.name)
      | some target =>
          if arguments.length ≠ target.arity then
            Outcome.failAt location
              (.argumentCount callee.name target.arity arguments.length)
          else
            let operands ← appendExpressions context scope arguments
            Edit.appendValue (target.kind callee.name) operands .unranked location

/-- Appends the operations of several expressions from left to right; gives their values. -/
def appendExpressions (context : Context) (scope : Scope) :
    List Expression → Edit (List ValueId)
  | [] => return []
  | expression :: expressions => do
      let value ← appendExpression context scope expression
      let values ← appendExpressions context scope expressions
      return value :: values

end

/-- A declared shape must not have too many elements, and a literal must have exactly as many. -/
def checkShapeClause (context : Context) (declaration : Declaration) (clause : ShapeClause) :
    Outcome Unit := do
  let name := quoteName declaration.name.name
  let shape : Shape := ⟨clause.dimensions⟩
  match shape.boundedSize? with
  | none =>
      Outcome.failAt (← context.locate clause.span) (.literalShape
        s!"{name} is declared with shape {shape.text}, which has too many elements")
  | some count =>
      match declaration.initializer with
      | .literal literal =>
          let value ← tensorLiteral context.source literal
          let found := value.shape.size
          if found ≠ count then
            Outcome.failAt (← context.locate clause.span) (.literalShape
              (s!"literal of shape {value.shape.text} has {found} element(s) " ++
                s!"but {name} is declared with shape {shape.text}"))
      | _ => return

/-- Appends the operations of a declaration; gives the scope that knows the variable. -/
def appendDeclaration (context : Context) (scope : Scope) (declaration : Declaration) :
    Edit Scope := do
  let name := declaration.name.name
  match scope.declared.lookup name with
  | some _ =>
      let location ← context.locate declaration.name.span
      Outcome.failAt location (.redefinition name)
  | none =>
      let value ← appendExpression context scope declaration.initializer
      match declaration.shape with
      | none => return scope.bindVariable name value
      | some clause =>
          checkShapeClause context declaration clause
          let location ← context.locate declaration.span
          let shape : Shape := ⟨clause.dimensions⟩
          let reshaped ← Edit.appendValue (.reshape shape) [value] (.ranked shape) location
          return scope.bindVariable name reshaped

/-- Appends the operations of a statement; gives the scope after it. -/
def appendStatement (context : Context) (scope : Scope) (statement : Statement) :
    Edit Scope := do
  let location ← context.locate statement.span
  match statement.action with
  | .declare declaration => appendDeclaration context scope declaration
  | .leave none =>
      let _ ← Edit.append .leave [] [] location
      return scope
  | .leave (some expression) =>
      modify fun function => { function with resultTypes := [.unranked] }
      let value ← appendExpression context scope expression
      let _ ← Edit.append .leave [value] [] location
      return scope
  | .print expression =>
      let value ← appendExpression context scope expression
      let _ ← Edit.append .print [value] [] location
      return scope
  | .evaluate expression =>
      let _ ← appendExpression context scope expression
      return scope

/-- Appends the operations of statements; nothing may follow a return, and a return is added when
there is none. -/
def appendStatements (context : Context) (scope : Scope) : List Statement → Edit Unit
  | [] => do
      let location := (← get).location
      let _ ← Edit.append .leave [] [] location
  | statement :: rest => do
      let scope ← appendStatement context scope statement
      if statement.action.leaves then
        match rest with
        | [] => return
        | next :: _ =>
            let location ← context.locate next.span
            Outcome.failAt location
              (.malformed ("statement after " ++ quoteName "return" ++ " is never reached"))
      else
        appendStatements context scope rest

/-- Adds an argument for a parameter; gives the scope that knows it. -/
def declareParameter (context : Context) (scope : Scope) (parameter : Identifier) :
    Edit Scope := do
  match scope.parameters.lookup parameter.name with
  | some _ =>
      let location ← context.locate parameter.span
      Outcome.failAt location (.redefinition parameter.name)
  | none =>
      let value ← Edit.pushArgument .unranked
      return scope.bindParameter parameter.name value

/-- The dataflow function of a function definition. -/
def Function.ofDefinition (context : Context) (definition : FunctionDefinition) :
    Outcome Function := do
  let location ← context.locate definition.name.span
  let build : Edit Unit := do
    let scope ← definition.parameters.foldlM (declareParameter context) Scope.empty
    appendStatements context scope definition.body.statements
  let (function, outcome) := build.outcome (Function.new definition.name.name location)
  outcome
  return function

/-- The dataflow module of a program. -/
def Module.ofProgram (source : Source) (program : Program) : Outcome Module := do
  let context := Context.ofCallees source (← calleesOf source program)
  program.functions.foldlM (fun module definition => do
    module.add (← Function.ofDefinition context definition)) .empty

end Dataflow

end TensorLang
