import TensorLang.Proofs.Dataflow.InlinedCalls
import TensorLang.Proofs.Dataflow.TranslatedPrograms
import TensorLang.Proofs.Loop.Refinement
import TensorLang.Proofs.Optimization

/-!
# Compilation preserves meaning

What a program prints is settled by its evaluation, and each stage of the compiler keeps it: the
translation to dataflow, the inlining of calls, the rounds of optimisation, the lowering to loops
and their execution.
-/

namespace TensorLang

/-! ### Stages -/

namespace Compiler

variable {options : Options} {before after : List Snapshot}

theorem settle_preserves (calls : Dataflow.Calls) {function : Dataflow.Function}
    {settled : Dataflow.Module} (proper : function.Proper)
    (unsigned : function.Among Dataflow.OperationKind.Unsigned)
    (success : settle options (roundBound ⟨[function]⟩) ⟨[function]⟩ before = .ok settled after) :
    ∃ last, settled = ⟨[last]⟩ ∧ last.Verified ∧ last.Proper ∧ last.Typed ∧
      last.arguments = function.arguments ∧ (function.arguments = [] → ∃ effects,
        function.evaluate calls [] = .ok effects ∧ last.evaluate calls [] = .ok effects) := by
  obtain ⟨_, inferred_eq, accepted⟩ := settle_eq_ok success
  obtain ⟨inferred, inferring, rfl⟩ := Dataflow.Module.inferTypes_eq_ok inferred_eq
  have verified := Dataflow.Function.verify_eq_ok_iff.mp
    (Dataflow.Inlining.verify_of_mem accepted (List.mem_singleton_self _))
  obtain ⟨refines, typed⟩ := Dataflow.Inference.inferTypes_eq_ok inferring
  have inferred_proper := refines.proper proper
  obtain ⟨count, last, reduces, -, -, settles⟩ := exists_settle_roundBound options inferring
    verified inferred_proper fun operation member => unsigned operation (refines.code_eq ▸ member)
  obtain ⟨_, settles, -⟩ := settles before
  obtain ⟨rfl, -⟩ := EStateM.Result.ok.inj (settles.symm.trans success)
  refine ⟨last, rfl, reduces.verified verified, inferred_proper.reduces reduces,
    typed.reduces reduces verified, reduces.extension.arguments.trans refines.arguments,
    fun closed => ?_⟩
  have no_arguments := refines.arguments.trans closed
  rw [← refines.evaluate_eq]
  exact reduces.evaluate_eq calls verified inferred_proper typed
    ⟨by rw [no_arguments]; rfl, by rw [no_arguments]; nofun⟩

private theorem dataflow_eq_ok {source : Source} {program : Program} {module : Dataflow.Module}
    (success : dataflow options source program before = .ok module after) :
    Dataflow.Module.ofProgram source program = .ok module ∧ module.verify = .ok () := by
  simp only [dataflow, EStateM.bind_eq_ok_iff, lift_eq_ok_iff, EStateM.pure_eq_ok_iff] at success
  obtain ⟨_, _, ⟨module_eq, rfl⟩, ⟨⟩, _, verified_eq, rfl, -⟩ := success
  exact ⟨module_eq, verified_eq_ok verified_eq⟩

theorem optimized_eq_ok {module settled : Dataflow.Module}
    (success : optimized options module before = .ok settled after) :
    ∃ inlined middle, module.inline options.entry = .ok inlined ∧
      settle options (roundBound inlined) inlined middle = .ok settled after := by
  simp only [optimized, EStateM.bind_eq_ok_iff, lift_eq_ok_iff] at success
  obtain ⟨inlined, _, ⟨inlined_eq, rfl⟩, ⟨⟩, middle, -, settled_eq⟩ := success
  exact ⟨inlined, middle, inlined_eq, settled_eq⟩

private theorem loops_eq_ok {module : Dataflow.Module} {lowered : Loop.Module}
    (success : loops options module before = .ok lowered after) :
    Loop.Module.ofDataflow module options.entry = .ok lowered := by
  simp only [loops, EStateM.bind_eq_ok_iff, lift_eq_ok_iff, EStateM.pure_eq_ok_iff] at success
  obtain ⟨_, _, ⟨lowered_eq, rfl⟩, ⟨⟩, _, -, rfl, -⟩ := success
  exact lowered_eq

private theorem output_eq_ok {module : Loop.Module} {text : String}
    (success : output options module before = .ok text after) :
    module.run options.entry = (text, .ok ()) := by
  rw [output] at success
  cases ran : module.run options.entry with
  | mk printed outcome =>
      simp only [ran, EStateM.bind_eq_ok_iff, lift_eq_ok_iff, EStateM.pure_eq_ok_iff] at success
      obtain ⟨⟨⟩, _, ⟨rfl, -⟩, rfl, -⟩ := success
      rfl

private theorem artifact_run_eq_ok {source : Source} {text : String}
    (success : artifact source .run options before = .ok (.output text) after) :
    ∃ program module settled lowered middle final, source.program = .ok program ∧
      Dataflow.Module.ofProgram source program = .ok module ∧ module.verify = .ok () ∧
      optimized options module middle = .ok settled final ∧
      Loop.Module.ofDataflow settled options.entry = .ok lowered ∧
      lowered.run options.entry = (text, .ok ()) := by
  simp only [artifact, EStateM.bind_eq_ok_iff, lift_eq_ok_iff, EStateM.pure_eq_ok_iff] at success
  obtain ⟨program, _, ⟨program_eq, rfl⟩, module, middle, module_eq, settled, final, settled_eq,
    lowered, _, lowered_eq, output, _, output_eq, same, -⟩ := success
  obtain rfl := Artifact.output.inj same
  obtain ⟨made, checked⟩ := dataflow_eq_ok module_eq
  exact ⟨program, module, settled, lowered, middle, final, program_eq, made, checked, settled_eq,
    loops_eq_ok lowered_eq, output_eq_ok output_eq⟩

end Compiler

/-! ### The whole compiler -/

/-- A lowered module that runs prints what the function prints. -/
theorem Loop.Module.run_eq_ok {function : Dataflow.Function} {entry text : String}
    {lowered : Loop.Module} (wellFormed : function.WellFormed) (proper : function.Proper)
    (typed : function.Typed)
    (lowered_eq : Loop.Module.ofDataflow ⟨[function]⟩ entry = .ok lowered)
    (ran : lowered.run entry = (text, .ok ())) :
    ∃ effects : Dataflow.Effects, (∀ calls, function.evaluate calls [] = .ok effects) ∧
      text = linesOf effects.printed := by
  obtain ⟨-, no_arguments, body, lowering, checked, rfl⟩ := ofDataflow_eq_ok lowered_eq
  rw [Loop.Module.run] at ran
  split at ran
  · rename_i found found_eq
    obtain rfl := List.mem_singleton.mp (List.mem_of_find?_eq_some found_eq)
    rw [Loop.Function.run] at ran
    split at ran
    · cases (Prod.mk.inj ran).2
    · rename_i start start_eq
      split at ran
      · rename_i control final success
        obtain ⟨rfl, -⟩ := Prod.mk.inj ran
        obtain ⟨effects, evaluates, -, output_eq⟩ := Loop.Function.runBlock_ofDataflow
          wellFormed proper typed no_arguments lowering checked start_eq success
        exact ⟨effects, evaluates, output_eq⟩
      · cases (Prod.mk.inj ran).2
  · cases (Prod.mk.inj ran).2

/-- Inlining leaves one function, without signs, which does what a call of the entry does. -/
theorem Dataflow.Inlining.inline_unsigned {module inlined : Dataflow.Module} {entry : String}
    (unique : (module.functions.map Function.name).Nodup)
    (wellFormed : ∀ function ∈ module.functions, function.WellFormed)
    (each : ∀ function ∈ module.functions, function.Proper ∧
      function.Stocked OperationKind.Spelled)
    (success : module.inline entry = .ok inlined) :
    ∃ function : Dataflow.Function, inlined = ⟨[function]⟩ ∧ function.Proper ∧
      function.Among OperationKind.Unsigned ∧
      ∀ depth, module.functions.length < depth → ∀ calls values,
        function.evaluate calls values = module.calls depth entry values := by
  obtain ⟨function, only, function_wellFormed, proper, -, inlines⟩ :=
    inline_eq_ok unique wellFormed (fun function member => (each function member).1) success
  obtain ⟨functions⟩ := inlined
  obtain rfl : functions = [function] := only
  have stocked : function.Stocked OperationKind.Spelled := stocked_inline ⟨trivial, trivial⟩
    (fun function member => (each function member).2) success function (List.mem_singleton_self _)
  exact ⟨function, rfl, proper, fun operation member => (stocked.kind member).unsigned, inlines⟩

/-- What the compiler prints is what the program prints: one line for each tensor that evaluating
the entry function prints, in order. -/
theorem Source.compile_preserves_meaning {source : Source} {options : Options} {text : String}
    (success : (source.compile .run options).outcome = .ok (.output text)) :
    ∃ program printed, source.program = .ok program ∧
      (∀ depth, program.functions.length < depth →
        program.printed depth options.entry = .ok printed) ∧
      text = linesOf printed := by
  rw [compile] at success
  split at success
  · rename_i artifact after compiled
    obtain rfl : artifact = .output text := Except.ok.inj success
    obtain ⟨program, module, settled, lowered, middle, final, program_eq, made, checked,
      optimized_eq, lowering, ran⟩ := Compiler.artifact_run_eq_ok compiled
    obtain ⟨inlined, start, inlined_eq, rounds⟩ := Compiler.optimized_eq_ok optimized_eq
    have unsigned := unsigned_of_program program_eq
    have wellFormed : ∀ function ∈ module.functions, function.WellFormed := fun function member =>
      Dataflow.Function.wellFormed_of_verify (Dataflow.Inlining.verify_of_mem checked member)
    obtain ⟨count, each, -⟩ := Dataflow.ofProgram_eq_ok unsigned made
    obtain ⟨function, rfl, proper, among, inlines⟩ :=
      Dataflow.Inlining.inline_unsigned (Dataflow.names_ofProgram made) wellFormed each inlined_eq
    obtain ⟨last, rfl, last_verified, last_proper, typed, arguments_eq, preserves⟩ :=
      Compiler.settle_preserves (module.calls 0) proper among rounds
    obtain ⟨-, closed, -⟩ := Loop.Module.ofDataflow_eq_ok lowering
    obtain ⟨⟨printed, values⟩, evaluates, last_evaluates⟩ :=
      preserves (arguments_eq.symm.trans closed)
    obtain ⟨effects, evaluates_all, rfl⟩ :=
      Loop.Module.run_eq_ok last_verified.wellFormed last_proper typed lowering ran
    obtain rfl := Except.ok.inj (last_evaluates.symm.trans (evaluates_all _))
    refine ⟨program, printed, program_eq, fun depth deep => ?_, rfl⟩
    rw [inlines depth (by omega)] at evaluates
    have agrees := Dataflow.callsAgree_ofProgram unsigned made wellFormed depth options.entry []
      _ evaluates []
    rw [Program.printed]
    change (Program.calls program depth options.entry [] [] >>= _) = _
    rw [agrees]
    rfl
  · cases success

/-- What a compilation printed, if it went that far. -/
def Compilation.output? (compilation : Compilation) : Option String :=
  match compilation.outcome with
  | .ok (.output text) => some text
  | _ => none

theorem Compilation.outcome_of_output? {compilation : Compilation} {text : String}
    (found : compilation.output? = some text) : compilation.outcome = .ok (.output text) := by
  rw [output?] at found
  split at found
  · rename_i outcome_eq
    obtain rfl := Option.some.inj found
    exact outcome_eq
  · cases found

/-- Doubles a row in another function and prints it as a transposed column. -/
def Source.transposingColumn : Source where
  contents := "def double(row) \x7b\n  return row + row;\n\x7d\n\n" ++
    "def main() \x7b\n  var column<2, 1> = double([1, 2]);\n  print(transpose(column));\n\x7d\n"
  origin := .memory

theorem Source.compile_preserves_meaning_transposingColumn :
    (transposingColumn.compile .run ⟨"main", false, false⟩).outcome = .ok (.output "[[2,4]]\n") ∧
      ∃ program printed, transposingColumn.program = .ok program ∧
        (∀ depth, program.functions.length < depth →
          program.printed depth "main" = .ok printed) ∧
        "[[2,4]]\n" = linesOf printed := by
  have ran : (transposingColumn.compile .run ⟨"main", false, false⟩).output? =
      some "[[2,4]]\n" := by decide +kernel
  have success := Compilation.outcome_of_output? ran
  exact ⟨success, compile_preserves_meaning success⟩

end TensorLang
