import TensorLang.Dataflow.OfProgram
import TensorLang.Proofs.Program.Numbers
import TensorLang.Proofs.Program.Places

/-!
# Correct programs

A program is correct if each of its names is declared once and known where it is used, calls have as
many arguments as their callee takes, nothing follows a return, and literals are rectangular and
have as many numbers as the shapes that they are declared with.  A function may be called before it
is defined, and a variable may take the name of a parameter.
-/

namespace TensorLang

/-! ### Literals -/

namespace Literal

/-- At each level of nesting all arrays have the same length; these are the lengths, outermost
first. -/
inductive HasLengths : Literal → List Nat → Prop where
  | number (span : Span) (value : Float) : HasLengths (.number span value) []
  | array {span : Span} {elements : List Literal} {lengths : List Nat}
      (inside : ∀ element ∈ elements, HasLengths element lengths) :
      HasLengths (.array span elements) (elements.length :: lengths)

/-- The literal is rectangular at every level. -/
def Rectangular (literal : Literal) : Prop :=
  ∃ lengths, literal.HasLengths lengths

mutual

/-- The numbers of the literal from left to right. -/
def numbers : Literal → List Float
  | .number _ value => [value]
  | .array _ elements => numbersOfAll elements

/-- The numbers of several literals from left to right. -/
def numbersOfAll : List Literal → List Float
  | [] => []
  | literal :: literals => literal.numbers ++ numbersOfAll literals

end

/-- No array of the literal is empty. -/
inductive Filled : Literal → Prop where
  | number (span : Span) (value : Float) : Filled (.number span value)
  | array {span : Span} {elements : List Literal} (nonempty : elements ≠ [])
      (inside : ∀ element ∈ elements, Filled element) : Filled (.array span elements)

/-- The lengths of a literal without empty arrays are determined. -/
theorem HasLengths.unique {literal : Literal} {lengths others : List Nat}
    (has : literal.HasLengths lengths) (filled : literal.Filled)
    (has_others : literal.HasLengths others) : lengths = others := by
  induction filled generalizing lengths others with
  | number =>
      cases has
      cases has_others
      rfl
  | @array _ elements nonempty _ induction =>
      cases has with
      | array inside =>
          cases has_others with
          | array others_inside =>
              obtain ⟨first, member⟩ := List.exists_mem_of_ne_nil elements nonempty
              rw [induction first member (inside first member) (others_inside first member)]

mutual

theorem length_numbers : (literal : Literal) → literal.numbers.length = literal.count
  | .number _ _ => rfl
  | .array _ elements => length_numbersOfAll elements

theorem length_numbersOfAll : (literals : List Literal) →
    (numbersOfAll literals).length = countAll literals
  | [] => rfl
  | literal :: literals => by
      rw [numbersOfAll, List.length_append, length_numbers literal, length_numbersOfAll literals,
        countAll]

end

end Literal

namespace Expression

mutual

/-- The literals of the expression from left to right. -/
def literals : Expression → List Literal
  | .literal value => [value]
  | .identifier _ => []
  | .binary _ left _ _ right => left.literals ++ right.literals
  | .call _ _ arguments => literalsOfAll arguments

/-- The literals of several expressions from left to right. -/
def literalsOfAll : List Expression → List Literal
  | [] => []
  | expression :: expressions => expression.literals ++ literalsOfAll expressions

end

theorem literalsOfAll_eq_flatMap (expressions : List Expression) :
    literalsOfAll expressions = expressions.flatMap literals := by
  induction expressions with
  | nil => rfl
  | cons expression rest induction => rw [literalsOfAll, induction, List.flatMap_cons]

end Expression

/-- The literals of the action from left to right. -/
def Action.literals (action : Action) : List Literal :=
  action.expressions.flatMap Expression.literals

/-- The literals of statements from left to right. -/
def literalsOf (statements : List Statement) : List Literal :=
  statements.flatMap fun statement => statement.action.literals

/-- The literals of the function from left to right. -/
def FunctionDefinition.literals (definition : FunctionDefinition) : List Literal :=
  literalsOf definition.body.statements

/-! ### Expressions -/

/-- The program knows a callee of that name that takes so many arguments. -/
inductive Program.Callable (program : Program) : String → Nat → Prop where
  | transpose : Callable program Dataflow.transposeName 1
  | function {definition : FunctionDefinition} (member : definition ∈ program.functions) :
      Callable program definition.name.name definition.parameters.length

/-- The expression is correct where the names can be seen. -/
inductive Expression.Correct (program : Program) (names : List String) : Expression → Prop where
  | literal {value : Literal} (rectangular : value.Rectangular) :
      Correct program names (.literal value)
  | identifier {name : Identifier} (visible : name.name ∈ names) :
      Correct program names (.identifier name)
  | binary {span operatorSpan : Span} {operator : Operator} {left right : Expression}
      (left_correct : Correct program names left) (right_correct : Correct program names right) :
      Correct program names (.binary span left operator operatorSpan right)
  | call {span : Span} {callee : Identifier} {arguments : List Expression}
      (callable : program.Callable callee.name arguments.length)
      (inside : ∀ argument ∈ arguments, Correct program names argument) :
      Correct program names (.call span callee arguments)

/-! ### Statements -/

/-- The names that the action declares. -/
def Action.declares : Action → List String
  | .declare declaration => [declaration.name.name]
  | _ => []

/-- The names of the variables that statements declare. -/
def variablesOf (statements : List Statement) : List String :=
  statements.flatMap fun statement => statement.action.declares

/-- A declared shape has not too many elements, and as many as an initial literal. -/
def Declaration.Fits (declaration : Declaration) : Prop :=
  ∀ clause ∈ declaration.shape, ∃ count, Shape.boundedSize? ⟨clause.dimensions⟩ = some count ∧
    ∀ literal, declaration.initializer = .literal literal → literal.numbers.length = count

/-- The statement is correct in a function with the parameters, after the earlier statements. -/
structure Statement.CorrectAfter (program : Program) (parameters : List String)
    (earlier : List Statement) (statement : Statement) : Prop where
  /-- No earlier statement is a return. -/
  reached : ∀ other ∈ earlier, other.action.leaves = false
  /-- No earlier statement declares the variable. -/
  fresh : ∀ name ∈ statement.action.declares, name ∉ variablesOf earlier
  /-- Expressions see the variables of earlier statements, and the parameters. -/
  expressions : ∀ expression ∈ statement.action.expressions,
    expression.Correct program (variablesOf earlier ++ parameters)
  /-- A declared shape fits. -/
  fits : ∀ declaration, statement.action = .declare declaration → declaration.Fits

/-- Statements are correct after the earlier ones. -/
def StatementsCorrect (program : Program) (parameters : List String) (earlier : List Statement)
    (statements : List Statement) : Prop :=
  ∀ front statement back, statements = front ++ statement :: back →
    statement.CorrectAfter program parameters (earlier ++ front)

section Statements

variable {program : Program} {parameters : List String} {earlier rest : List Statement}
variable {statement : Statement}

theorem StatementsCorrect.nil : StatementsCorrect program parameters earlier [] :=
  fun _ _ _ impossible => by simp at impossible

/-- Statements are correct just if the first is, and the rest after it. -/
theorem statementsCorrect_cons_iff :
    StatementsCorrect program parameters earlier (statement :: rest) ↔
      statement.CorrectAfter program parameters earlier ∧
        StatementsCorrect program parameters (earlier ++ [statement]) rest := by
  constructor
  · intro correct
    refine ⟨by simpa using correct [] statement rest rfl, fun front other back rest_eq => ?_⟩
    simpa using correct (statement :: front) other back (by rw [rest_eq, List.cons_append])
  · rintro ⟨first, others⟩ front other back whole
    cases front with
    | nil =>
        obtain ⟨rfl, -⟩ := List.cons.inj whole
        simpa using first
    | cons next front =>
        obtain ⟨rfl, rest_eq⟩ := List.cons.inj whole
        simpa using others front other back rest_eq

end Statements

/-! ### Functions and programs -/

/-- The function is correct in its program. -/
structure FunctionDefinition.Correct (program : Program) (definition : FunctionDefinition) :
    Prop where
  /-- The parameters have different names. -/
  parameters : (definition.parameters.map Identifier.name).Nodup
  /-- Each statement is correct after those before it. -/
  statements : StatementsCorrect program (definition.parameters.map Identifier.name) []
    definition.body.statements

/-- The program is correct. -/
structure Program.Correct (program : Program) : Prop where
  /-- The functions have different names. -/
  names : (program.functions.map fun definition => definition.name.name).Nodup
  /-- No function takes the built-in name. -/
  reserved : ∀ definition ∈ program.functions, definition.name.name ≠ Dataflow.transposeName
  /-- Each function is correct. -/
  functions : ∀ definition ∈ program.functions, definition.Correct program

/-! ### Derivations -/

/-- The literals of a tree from left to right. -/
def Category.literals : (category : Category) → category.Tree → List Literal
  | .literal, tree => [tree]
  | .primary, tree | .term, tree | .expression, tree => tree.literals
  | .statement, tree => tree.action.literals
  | .block, tree => literalsOf tree.statements
  | .function, tree => tree.literals
  | .optional item, found => found.toList.flatMap item.literals
  | .separated item, trees | .listed item, trees | .many item, trees =>
      trees.flatMap item.literals
  | .identifier, _ | .dimension, _ | .shape, _ => []

private theorem Spells.separated_ne_nil {item : Category} {tokens : List Token}
    {trees : List item.Tree} (spelled : Spells (.separated item) tokens trees) : trees ≠ [] := by
  cases spelled <;> exact List.cons_ne_nil _ _

/-- A derivation builds no empty array. -/
theorem Spells.filled {category : Category} {tokens : List Token} {tree : category.Tree}
    (spelled : Spells category tokens tree) :
    ∀ literal ∈ category.literals tree, literal.Filled := by
  induction spelled with
  | number => exact List.forall_mem_singleton.mpr (.number _ _)
  | array _ elements _ inside =>
      refine List.forall_mem_singleton.mpr
        (.array elements.separated_ne_nil fun element member => ?_)
      exact inside element (List.mem_flatMap.mpr ⟨element, member, List.mem_singleton_self _⟩)
  | constant _ whole | factor _ whole | summand _ whole | listed _ whole => exact whole
  | call _ _ _ _ _ inside =>
      simpa only [Category.literals, Expression.literals, Expression.literalsOfAll_eq_flatMap]
        using inside
  | group _ _ _ inside => exact inside
  | multiply _ _ _ front back | matmul _ _ _ front back | add _ _ _ front back =>
      exact List.forall_mem_append.mpr ⟨front, back⟩
  | declare _ _ _ _ _ _ _ inside | print _ _ _ _ _ inside | evaluate _ _ inside =>
      simpa [Category.literals, Action.literals, Action.expressions] using inside
  | leave _ _ _ inside => exact inside
  | block _ _ _ inside => exact inside
  | function _ _ _ _ _ _ _ defined => exact defined
  | present _ whole | last _ whole => simpa [Category.literals] using whole
  | further _ _ _ front back | more _ _ front back =>
      simp only [Category.literals, List.flatMap_cons, List.forall_mem_append] at back ⊢
      exact ⟨front, back⟩
  | «variable» | identifier | dimension | shape | absent | unlisted | none =>
      simp [Category.literals, Expression.literals]

/-- No array of a program is empty. -/
theorem Source.filled_of_program {source : Source} {program : Program}
    (success : source.program = .ok program) :
    ∀ definition ∈ program.functions, ∀ literal ∈ definition.literals, literal.Filled := by
  simp only [Source.program, Except.bind_eq_ok_iff, accept_eq_ok_iff] at success
  obtain ⟨tokens, -, success⟩ := success
  obtain ⟨⟨_, rest⟩, parsed, rfl⟩ := Except.map_eq_ok_iff.mp success
  intro definition member literal inside
  exact (Parser.spells_of_program parsed).2.filled literal
    (List.mem_flatMap.mpr ⟨definition, member, inside⟩)

end TensorLang
