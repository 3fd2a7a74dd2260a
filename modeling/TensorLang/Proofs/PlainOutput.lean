import TensorLang.Proofs.Compilation
import TensorLang.Proofs.Loop.Completeness

/-!
# Optimisation loses no output

The plain path from a source text to its output leaves out all optimisation: calls are inlined,
types are inferred once, and the loops of what comes out are run.  Where it succeeds the compiler
does too, and prints the same.  The loops of both paths have little in common, so they are compared
through the dataflow functions: reductions keep these legal, and legal functions are lowered and
run.
-/

namespace TensorLang

/-- What a source text prints if its dataflow is lowered without optimisation. -/
def Source.plainOutput (source : Source) (entry : String) : Outcome String := do
  let module ← Dataflow.Module.ofProgram source (← source.program)
  let inlined ← module.inline entry
  let (inferred, outcome) := inlined.inferTypes
  outcome
  let lowered ← Loop.Module.ofDataflow inferred entry
  let (output, outcome) := lowered.run entry
  outcome
  return output

theorem Source.plainOutput_eq_ok {source : Source} {entry text : String}
    (success : source.plainOutput entry = .ok text) :
    ∃ program module inlined inferred lowered, source.program = .ok program ∧
      Dataflow.Module.ofProgram source program = .ok module ∧
      module.inline entry = .ok inlined ∧ inlined.inferTypes = (inferred, .ok ()) ∧
      Loop.Module.ofDataflow inferred entry = .ok lowered ∧
      lowered.run entry = (text, .ok ()) := by
  simp only [plainOutput, Except.bind_eq_ok_iff, Except.pure_eq_ok_iff] at success
  obtain ⟨program, program_eq, module, made, inlined, inlined_eq, ⟨⟩, typing, lowered, lowering,
    ⟨⟩, running, text_eq⟩ := success
  exact ⟨program, module, inlined, _, lowered, program_eq, made, inlined_eq,
    Prod.ext rfl typing, lowering, Prod.ext text_eq running⟩

namespace Dataflow

theorem Inlining.verified_inline {module inlined : Module} {entry : String}
    {allowed : OperationKind → Prop} (cast_allowed : allowed .cast)
    (unique : (module.functions.map Function.name).Nodup)
    (verified : ∀ function ∈ module.functions, function.Verified)
    (proper : ∀ function ∈ module.functions, function.Proper)
    (stocked : ∀ function ∈ module.functions, function.Stocked allowed)
    (success : module.inline entry = .ok inlined) :
    ∀ function ∈ inlined.functions, function.Verified := by
  intro function member
  have returning : ∀ function ∈ module.functions, function.Returning :=
    fun function member id operation found leaves => (verified function member).returns operation
      ((stocked function member).mem_code found) leaves
  obtain ⟨-, recorded⟩ := preserved_recorded.inline cast_allowed stocked
    (fun function member => ⟨stocked function member, (verified function member).toRecorded⟩)
    success function member
  have returns := preserved_returning.inline cast_allowed stocked returning success function member
  obtain ⟨only, functions_eq, wellFormed, -⟩ := inline_eq_ok unique
    (fun function member => (verified function member).wellFormed) proper success
  rw [functions_eq] at member
  obtain rfl := List.mem_singleton.mp member
  refine ⟨recorded, wellFormed.dominated, wellFormed.ending, fun operation member leaves => ?_⟩
  obtain ⟨id, -, found⟩ := Function.mem_code_iff.mp member
  exact returns id operation found leaves

end Dataflow

/-! ### The stages of the compiler -/

namespace Compiler

variable {options : Options} {module inlined settled : Dataflow.Module} {lowered : Loop.Module}

private theorem yields_dataflow (options : Options) {source : Source} {program : Program}
    (made : Dataflow.Module.ofProgram source program = .ok module)
    (accepted : module.verify = .ok ()) : Yields (dataflow options source program) module :=
  .bind (.lift made) (.bind (yields_verified options "ast lowering" accepted) (.pure _))

private theorem yields_loops
    (lowering : Loop.Module.ofDataflow settled options.entry = .ok lowered) :
    Yields (loops options settled) lowered :=
  .bind (.lift lowering) (.bind (yields_record options (Snapshot.readable_loops "loop lowering"
    (Loop.Module.verify_of_ofDataflow lowering))) (.pure _))

theorem yields_output {text : String} (running : lowered.run options.entry = (text, .ok ())) :
    Yields (output options lowered) text := by
  simp only [output, running]
  exact .bind (.lift rfl) (.pure _)

private theorem outcome_of_stages {source : Source} {program : Program} {text : String}
    (program_eq : source.program = .ok program)
    (made : Dataflow.Module.ofProgram source program = .ok module)
    (accepted : module.verify = .ok ())
    (optimizes : Yields (optimized options module) settled)
    (lowering : Loop.Module.ofDataflow settled options.entry = .ok lowered)
    (running : lowered.run options.entry = (text, .ok ())) :
    (source.compile .run options).outcome = .ok (.output text) := by
  have compiles : Yields (artifact source .run options) (.output text) :=
    .bind (.lift program_eq) (.bind (yields_dataflow options made accepted) (.bind optimizes
      (.bind (yields_loops lowering) (.bind (yields_output running) (.pure _)))))
  obtain ⟨after, compiled, -⟩ := compiles []
  rw [Source.compile, compiled]

end Compiler

/-! ### Both paths -/

/-- Where a function is lowered and run as it is, it can be optimised, and what comes out is lowered
and run with the same output. -/
theorem Compiler.exists_settle_of_run (options : Options) {function inferred : Dataflow.Function}
    {plain : Loop.Module} {text : String} (verified : function.Verified) (proper : function.Proper)
    (unsigned : function.Among Dataflow.OperationKind.Unsigned)
    (inferring : Dataflow.Edit.inferTypes function = .ok () inferred)
    (lowering : Loop.Module.ofDataflow ⟨[inferred]⟩ options.entry = .ok plain)
    (running : plain.run options.entry = (text, .ok ())) :
    ∃ settled lowered,
      Yields (settle options (roundBound ⟨[function]⟩) ⟨[function]⟩) settled ∧
      Loop.Module.ofDataflow settled options.entry = .ok lowered ∧
      lowered.run options.entry = (text, .ok ()) := by
  obtain ⟨refines, typed⟩ := Dataflow.Inference.inferTypes_eq_ok inferring
  have inferred_verified := refines.verified verified
  have inferred_proper := refines.proper proper
  have inferred_unsigned : inferred.Among Dataflow.OperationKind.Unsigned :=
    fun operation member => unsigned operation (refines.code_eq ▸ member)
  obtain ⟨named, no_arguments, _, body_eq, checked, -⟩ := Loop.Module.ofDataflow_eq_ok lowering
  have no_results := Loop.Module.resultTypes_of_ofDataflow lowering
  have legal := Loop.Function.legal_ofDataflow inferred_verified.wellFormed inferred_proper typed
    no_arguments body_eq checked
  obtain ⟨effects, evaluates, rfl⟩ := Loop.Module.run_eq_ok inferred_verified.wellFormed
    inferred_proper typed lowering running
  obtain ⟨_, last, reduces, -, -, settles⟩ :=
    exists_settle_roundBound options inferring inferred_verified inferred_proper inferred_unsigned
  obtain ⟨lowered, last_effects, last_lowering, last_evaluates, last_running⟩ :=
    Loop.Module.exists_run_ofDataflow (reduces.extension.name.trans named)
      (reduces.verified inferred_verified).wellFormed (inferred_proper.reduces reduces)
      (typed.reduces reduces inferred_verified) (reduces.extension.arguments.trans no_arguments)
      (reduces.extension.resultTypes.trans no_results)
      (legal.reduces reduces inferred_verified typed)
  have accepts : inferred.Accepts [] :=
    ⟨by rw [no_arguments]; rfl, by rw [no_arguments]; simp⟩
  obtain ⟨same, inferred_eq, last_eq⟩ :=
    reduces.evaluate_eq (fun _ _ => .error .depth) inferred_verified inferred_proper typed accepts
  obtain rfl := Except.ok.inj (inferred_eq.symm.trans (evaluates _))
  obtain rfl := Except.ok.inj (last_eq.symm.trans (last_evaluates _))
  exact ⟨⟨[last]⟩, lowered, settles, last_lowering, last_running⟩

/-- Where the plain path succeeds, the compiler succeeds and prints the same. -/
theorem Source.compile_of_plainOutput {source : Source} {options : Options} {text : String}
    (success : source.plainOutput options.entry = .ok text) :
    (source.compile .run options).outcome = .ok (.output text) := by
  obtain ⟨program, module, inlined, inferred, plain, program_eq, made, inlining, typing, lowering,
    running⟩ := plainOutput_eq_ok success
  have unsigned := unsigned_of_program program_eq
  have unique := Dataflow.names_ofProgram made
  have verified := Dataflow.verified_ofProgram unsigned made
  have wellFormed : ∀ function ∈ module.functions, function.WellFormed :=
    fun function member => (verified function member).wellFormed
  have accepted : module.verify = .ok () := Except.forM_eq_ok_iff.mpr fun function member =>
    Dataflow.Function.verify_eq_ok_iff.mpr (verified function member)
  obtain ⟨-, each, -⟩ := Dataflow.ofProgram_eq_ok unsigned made
  obtain ⟨function, rfl, proper, among, -⟩ :=
    Dataflow.Inlining.inline_unsigned unique wellFormed each inlining
  have inlined_verified : function.Verified := Dataflow.Inlining.verified_inline
    ⟨trivial, trivial⟩ unique verified (fun function member => (each function member).1)
      (fun function member => (each function member).2)
    inlining function (List.mem_singleton_self _)
  obtain ⟨after, inferring, rfl⟩ := Dataflow.Module.inferTypes_eq_ok typing
  obtain ⟨settled, lowered, settles, last_lowering, last_running⟩ :=
    Compiler.exists_settle_of_run options inlined_verified proper among inferring lowering running
  exact Compiler.outcome_of_stages program_eq made accepted
    (Compiler.yields_optimized inlining
      (Dataflow.Module.verify_of_verified inlined_verified) settles)
    last_lowering last_running

/-- Prints a constant that is reshaped twice, and a sum that is computed twice.  Optimisation folds
the one and merges the other. -/
def Source.reshapingTwice : Source where
  contents := "def twice(x) \x7b\n  var first = x + x;\n  var second = x + x;\n" ++
    "  return first * second;\n\x7d\n\n" ++
    "def main() \x7b\n  var row<1, 2> = [3, 4];\n  var column<2, 1> = row;\n" ++
    "  print(column);\n  print(twice(column));\n\x7d\n"
  origin := .memory

theorem Source.compile_of_plainOutput_reshapingTwice :
    reshapingTwice.plainOutput "main" = .ok "[[3],[4]]\n[[36],[64]]\n" ∧
      (reshapingTwice.compile .run ⟨"main", true, true⟩).outcome =
        .ok (.output "[[3],[4]]\n[[36],[64]]\n") := by
  have ran : (reshapingTwice.plainOutput "main").toOption = some "[[3],[4]]\n[[36],[64]]\n" := by
    decide +kernel
  have success : reshapingTwice.plainOutput "main" = .ok "[[3],[4]]\n[[36],[64]]\n" := by
    cases outcome_eq : reshapingTwice.plainOutput "main" with
    | ok text =>
        rw [outcome_eq] at ran
        exact congrArg Except.ok (Option.some.inj ran)
    | error failure =>
        rw [outcome_eq] at ran
        cases ran
  exact ⟨success, compile_of_plainOutput success⟩

end TensorLang
