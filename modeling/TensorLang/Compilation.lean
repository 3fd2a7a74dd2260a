import TensorLang.Dataflow.Inference
import TensorLang.Dataflow.Inlining
import TensorLang.Dataflow.Listing
import TensorLang.Dataflow.OfProgram
import TensorLang.Dataflow.Sharing
import TensorLang.Dataflow.Simplification
import TensorLang.Dataflow.Verification
import TensorLang.Loop.Execution
import TensorLang.Loop.Listing
import TensorLang.Loop.OfDataflow
import TensorLang.Program.Outline
import TensorLang.Program.Parser

/-!
# Compilation

A source text is taken through the stages in order, up to the one that is asked for.  Dataflow
modules are verified after every pass.  Optimisation inlines everything into the entry function and
then alternates shape inference, simplification and sharing until neither of the last two changes
anything.
-/

namespace TensorLang

/-- How far a source text is taken. -/
inductive Stage where
  | tokens
  | outline
  | dataflow
  | loops
  | run
  deriving DecidableEq

/-- The entry function when none is named. -/
def defaultEntry : String := "main"

/-- What may be asked of a compilation. -/
structure Options where
  /-- The function that everything is inlined into. -/
  entry : String
  /-- Whether dataflow is optimised before it is shown. -/
  optimize : Bool
  /-- Whether modules are recorded after every pass. -/
  trace : Bool

/-- What a stage produces. -/
inductive Artifact where
  | tokens (tokens : List Token)
  | outline (outline : Outline)
  | dataflow (module : Dataflow.Module)
  | loops (module : Loop.Module)
  | output (text : String)

/-- The text of an artifact. -/
def Artifact.text (ink : Ink) : Artifact → Outcome String
  | .tokens found => .ok ("\n".intercalate (found.map Token.listing))
  | .outline tree => .ok (tree.text 0)
  | .dataflow module => module.listing ⟨ink, false⟩
  | .loops module => module.listing ink
  | .output printed => .ok printed

/-- A module as a pass left it. -/
inductive Snapshot where
  | dataflow (pass : String) (module : Dataflow.Module)
  | loops (pass : String) (module : Loop.Module)

/-- The text of a snapshot: a heading and the module with its locations. -/
def Snapshot.text (ink : Ink) (snapshot : Snapshot) : Outcome String := do
  let heading (pass : String) : String :=
    ink.paint .boldCyan s!"// ----- IR after {pass} -----" ++ "\n"
  match snapshot with
  | .dataflow pass module => return heading pass ++ (← module.listing ⟨ink, true⟩) ++ "\n"
  | .loops pass module => return heading pass ++ (← module.listing ink) ++ "\n"

/-- A compilation in progress.  Snapshots are kept when it fails. -/
abbrev Compiler (α : Type) : Type := EStateM Failure (List Snapshot) α

namespace Compiler

/-- An outcome that records nothing. -/
instance : MonadLift Outcome Compiler where
  monadLift outcome := fun snapshots =>
    match outcome with
    | .ok result => .ok result snapshots
    | .error failure => .error failure snapshots

/-- Records a module if that is wanted. -/
def record (options : Options) (snapshot : Snapshot) : Compiler Unit :=
  if options.trace then modify fun snapshots => snapshots ++ [snapshot] else return

/-- Records a dataflow module after a pass, and verifies it. -/
def verified (options : Options) (pass : String) (module : Dataflow.Module) : Compiler Unit := do
  record options (.dataflow pass module)
  module.verify

/-- Bound on the rounds of optimisation: each round but the last simplifies or merges something. -/
def roundBound (module : Dataflow.Module) : Nat :=
  module.functions.foldr
    (fun function total => Dataflow.Simplification.applicationBound function + total) 1

/-- Alternates inference, simplification and sharing until nothing changes. -/
def settle (options : Options) : Nat → Dataflow.Module → Compiler Dataflow.Module
  | 0, _ => throw .fault
  | bound + 1, module => do
      let (inferred, outcome) := module.inferTypes
      outcome
      verified options "shape inference" inferred
      let (simplified, outcome) := inferred.simplify
      let applied ← outcome
      verified options "simplification" simplified
      let (shared, outcome) := simplified.share
      let merged ← outcome
      verified options "common subexpression elimination" shared
      if applied + merged = 0 then return shared else settle options bound shared

/-- Inlines everything into the entry function and optimises it. -/
def optimized (options : Options) (module : Dataflow.Module) : Compiler Dataflow.Module := do
  let inlined ← module.inline options.entry
  verified options "inlining" inlined
  settle options (roundBound inlined) inlined

/-- The loop module of an optimised dataflow module. -/
def loops (options : Options) (module : Dataflow.Module) : Compiler Loop.Module := do
  let lowered ← Loop.Module.ofDataflow module options.entry
  record options (.loops "loop lowering" lowered)
  return lowered

/-- The output of a loop module. -/
def output (options : Options) (module : Loop.Module) : Compiler String := do
  let (output, outcome) := module.run options.entry
  outcome
  return output

/-- The verified dataflow module of a program. -/
def dataflow (options : Options) (source : Source) (program : Program) :
    Compiler Dataflow.Module := do
  let module ← Dataflow.Module.ofProgram source program
  verified options "ast lowering" module
  return module

/-- Takes a source text to a stage. -/
def artifact (source : Source) (stage : Stage) (options : Options) : Compiler Artifact := do
  match stage with
  | .tokens => return .tokens (← source.tokens)
  | .outline =>
      let program ← source.program
      return .outline (program.outline source [options.entry, defaultEntry])
  | .dataflow =>
      let module ← dataflow options source (← source.program)
      if options.optimize then return .dataflow (← optimized options module)
      else return .dataflow module
  | .loops =>
      let module ← dataflow options source (← source.program)
      return .loops (← loops options (← optimized options module))
  | .run =>
      let module ← dataflow options source (← source.program)
      return .output (← output options (← loops options (← optimized options module)))

end Compiler

/-- What a compilation leaves behind. -/
structure Compilation where
  /-- The modules that were recorded on the way. -/
  snapshots : List Snapshot
  /-- The artifact, or why there is none. -/
  outcome : Outcome Artifact

/-- Compiles a source text up to a stage. -/
def Source.compile (source : Source) (stage : Stage) (options : Options) : Compilation :=
  match Compiler.artifact source stage options [] with
  | .ok artifact snapshots => ⟨snapshots, .ok artifact⟩
  | .error failure snapshots => ⟨snapshots, .error failure⟩

/-- Runs a program text; gives what it prints. -/
def runText (text : String) (options : Options) : Outcome String := do
  match ← (Source.mk text .memory |>.compile .run options).outcome with
  | .output output => return output
  | _ => Outcome.fail (.brokenInvariant "running produced something else than output")

end TensorLang
