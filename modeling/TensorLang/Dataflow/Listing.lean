import TensorLang.Dataflow

/-!
# Listings of dataflow functions

A listing numbers values in the order of their definitions, so that erased operations leave no
gaps.  The source location of each operation may be added.
-/

namespace TensorLang

namespace Dataflow

/-- How a listing is written. -/
structure ListingStyle where
  /-- Plain or coloured. -/
  ink : Ink
  /-- Whether locations are added. -/
  locations : Bool

/-- The numbers of values, by index. -/
abbrev ValueNumbers : Type := Std.TreeMap Nat Nat

/-- Numbers arguments first and then results in body order. -/
def Function.numbering (function : Function) (operations : List Operation) : ValueNumbers :=
  let values := function.arguments ++ operations.flatMap Operation.results
  values.zipIdx.foldl (fun numbers (value, number) => numbers.insert value.index number) ∅

/-- The name of a value: its number, or what it is when nothing defines it. -/
def valueName (numbers : ValueNumbers) (value : ValueId) : String :=
  match numbers[value.index]? with
  | some number => s!"%{number}"
  | none => s!"%<dangling {value.text}>"

namespace ListingStyle

/-- The name of a value in its colour. -/
def value (style : ListingStyle) (numbers : ValueNumbers) (value : ValueId) : String :=
  style.ink.paint .yellow (valueName numbers value)

/-- Several values with commas between them. -/
def values (style : ListingStyle) (numbers : ValueNumbers) (values : List ValueId) : String :=
  ", ".intercalate (values.map (style.value numbers))

/-- Punctuation in its colour. -/
def mark (style : ListingStyle) (mark : String) : String := style.ink.paint .white mark

end ListingStyle

/-- The types of several values with commas between them. -/
def Function.typesText (function : Function) (values : List ValueId) : Outcome String := do
  let types ← values.mapM function.typeOf
  return ", ".intercalate (types.map TensorType.text)

/-- An operation without the results it defines. -/
def Operation.bodyText (operation : Operation) (style : ListingStyle) (numbers : ValueNumbers)
    (operandTypes resultTypes : String) : Outcome String := do
  let name := style.ink.paint .cyan operation.name
  let operands := style.values numbers operation.operands
  let colon := style.mark ":"
  let arrow := style.mark "->"
  match operation.kind with
  | .constant literal =>
      let text ← Outcome.promised literal.text?
      let dense := style.ink.paint .magenta s!"dense<{text}>"
      return s!"{name} {dense} {colon} {resultTypes}"
  | .leave =>
      return if operation.operands.isEmpty then name
        else s!"{name} {operands} {colon} {operandTypes}"
  | .print => return s!"{name}({operands}) {colon} {operandTypes}"
  | .call callee =>
      let target := style.ink.paint .blue s!"@{callee}"
      return s!"{name} {target}({operands}) {colon} ({operandTypes}) {arrow} {resultTypes}"
  | .add | .multiply | .matmul | .transpose | .reshape _ | .cast =>
      return s!"{name}({operands}) {colon} ({operandTypes}) {arrow} {resultTypes}"

/-- The line of an operation. -/
def Function.operationLine (function : Function) (style : ListingStyle) (numbers : ValueNumbers)
    (operation : Operation) : Outcome String := do
  let operandTypes ← function.typesText operation.operands
  let resultTypes ← function.typesText operation.results
  let body ← operation.bodyText style numbers operandTypes resultTypes
  let results :=
    if operation.results.isEmpty then ""
    else style.values numbers operation.results ++ " " ++ style.mark "=" ++ " "
  let location :=
    if style.locations then " " ++ style.ink.paint .dimmed s!"loc({operation.location.text})"
    else ""
  return "  " ++ results ++ body ++ location ++ "\n"

/-- An argument with its type. -/
def Function.argumentText (function : Function) (style : ListingStyle) (numbers : ValueNumbers)
    (argument : ValueId) : Outcome String :=
  return style.value numbers argument ++ ": " ++ (← function.typeOf argument).text

/-- The listing of a function. -/
def Function.listing (function : Function) (style : ListingStyle) : Outcome String := do
  let operations ← function.bodyOperations
  let numbers := function.numbering operations
  let arguments ← function.arguments.mapM (function.argumentText style numbers)
  let lines ← operations.mapM (function.operationLine style numbers)
  let keyword := style.ink.paint .magenta "func"
  let name := style.ink.paint .blue s!"@{function.name}"
  let parameters := style.mark "(" ++ ", ".intercalate arguments ++ style.mark ")"
  let results :=
    if function.resultTypes.isEmpty then ""
    else " " ++ style.mark "->" ++ " " ++
      ", ".intercalate (function.resultTypes.map TensorType.text)
  return keyword ++ " " ++ name ++ parameters ++ results ++ " " ++ style.mark braceOpen ++ "\n" ++
    String.join lines ++ style.mark braceClose ++ "\n"

/-- The listing of a module: its functions with empty lines between them. -/
def Module.listing (module : Module) (style : ListingStyle) : Outcome String := do
  return "\n".intercalate (← module.functions.mapM fun function => function.listing style)

end Dataflow

end TensorLang
