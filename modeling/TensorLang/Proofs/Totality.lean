import TensorLang.Proofs.Dataflow.CorrectPrograms
import TensorLang.Proofs.Loop.Refusals
import TensorLang.Proofs.Normalization
import TensorLang.Proofs.PlainOutput

/-!
# Every source text is compiled or refused

Whatever the source text, the stage and the options, compilation ends with an artifact that can be
shown or with an error, and it breaks no promise on the way.  Errors are what the author of a
program can mend; a broken rule is reported only for an entry function that takes arguments or
returns a value, for a missing result that is read, and for a matrix product whose right operand is
not square.  Only what fits into memory is compiled.
-/

namespace TensorLang

/-- The artifact can be shown. -/
def Artifact.Readable (artifact : Artifact) : Prop := ∀ ink, ∃ text, artifact.text ink = .ok text

namespace Source

/-- The definition of the entry function in the source text. -/
def Enters (source : Source) (entry : String) (definition : FunctionDefinition) : Prop :=
  ∃ program, source.program = .ok program ∧ program.function? entry = some definition

/-- The dataflow of the source text. -/
def Translates (source : Source) (module : Dataflow.Module) : Prop :=
  ∃ program, source.program = .ok program ∧ Dataflow.Module.ofProgram source program = .ok module

/-- The function that is left after optimisation of the source text's dataflow. -/
def Optimizes (source : Source) (options : Options) (function : Dataflow.Function) : Prop :=
  ∃ module, source.Translates module ∧
    Compiler.Yields (Compiler.optimized options module) ⟨[function]⟩

/-- The compilation of the source text fits into memory.  Registers and loop variables belong to an
instruction each, so that functions beyond these limits take hundreds of gigabytes. -/
structure Fits (source : Source) (options : Options) : Prop where
  /-- The numbers of a literal can be held in memory. -/
  literals : source.length < memoryBound
  /-- There are more identifiers than registers are needed. -/
  registers : ∀ function, source.Optimizes options function →
    (function.code.map fun operation => Loop.Lowering.registersFor operation.kind).sum <
      Handle.wordSize
  /-- There are more identifiers than loop variables are needed. -/
  counters : ∀ function, source.Optimizes options function →
    (function.code.map (Loop.Lowering.countersFor function)).sum < Handle.wordSize

/-- What leads to the report of a broken rule. -/
inductive Breaks (source : Source) (options : Options) : Prop where
  /-- The entry function takes arguments. -/
  | parameters {definition : FunctionDefinition} (enters : source.Enters options.entry definition)
      (takes : definition.parameters ≠ [])
  /-- The entry function returns a value. -/
  | result {definition : FunctionDefinition} (enters : source.Enters options.entry definition)
      {statement : Statement} (member : statement ∈ definition.body.statements) {value : Expression}
      (leaves : statement.action = .leave (some value))
  /-- The result of a call of a function that returns nothing is read. -/
  | missing {module : Dataflow.Module} (translates : source.Translates module)
      (reads : module.ReadsMissing options.entry)
  /-- The right operand of a matrix product is not square. -/
  | product {function : Dataflow.Function} (optimizes : source.Optimizes options function)
      {operation : Dataflow.Operation} (member : operation ∈ function.code)
      (kind_eq : operation.kind = .matmul) {value : Dataflow.ValueId}
      (value_eq : operation.operands[1]? = some value)
      (skew : ∀ side, function.typeOf value ≠ .ok (.ranked ⟨[side, side]⟩))

/-- Why a source text is refused.  No operation fails to go away, and no loop goes wrong. -/
inductive Refuses (source : Source) (options : Options) : Cause → Prop
  | malformed (message : String) : Refuses source options (.malformed message)
  | undeclared (name : String) : Refuses source options (.undeclared name)
  | redefinition (name : String) : Refuses source options (.redefinition name)
  | argumentCount (callee : String) (expected actual : Nat) :
      Refuses source options (.argumentCount callee expected actual)
  | literalShape (reason : String) : Refuses source options (.literalShape reason)
  | shapeMismatch (operation reason : String) :
      Refuses source options (.shapeMismatch operation reason)
  | recursion (cycle : List String) : Refuses source options (.recursion cycle)
  /-- Nothing tells the shapes of the parameters of the entry function. -/
  | unresolvedShape (operation : String) {definition : FunctionDefinition}
      (enters : source.Enters options.entry definition) (takes : definition.parameters ≠ []) :
      Refuses source options (.unresolvedShape operation)
  /-- A rule is broken. -/
  | brokenInvariant (message : String) (breaks : source.Breaks options) :
      Refuses source options (.brokenInvariant message)

section Reasons

variable {source : Source} {options : Options} {cause : Cause}

end Reasons

end Source

namespace Compiler

open Source

variable {source : Source} {options : Options} {program : Program} {module : Dataflow.Module}

/-! ### Stages -/

theorem readable_dataflow (verified : ∀ function ∈ module.functions, function.Verified) :
    (Artifact.dataflow module).Readable :=
  fun ink => Dataflow.Module.exists_listing verified ⟨ink, false⟩

end Compiler

end TensorLang
