import TensorLang.Proofs.Dataflow.NormalForm
import TensorLang.Proofs.Dataflow.Passes
import TensorLang.Proofs.Optimization

/-!
# Optimisation ends in a normal form

What is left of a program after inlining and the rounds of optimisation is one function in normal
form, which no further round would change.  Otherwise an error is reported: the entry could not be
inlined, shapes do not fit, or nothing tells the shapes of parameters.
-/

namespace TensorLang

namespace Compiler

variable {options : Options} {module : Dataflow.Module} {before : List Snapshot}

/-- Why a module is not optimised. -/
inductive Unoptimized (module : Dataflow.Module) (entry : String) : Cause → Prop
  /-- The entry is not inlined. -/
  | inlining {cause : Cause} (refused : module.Refuses entry cause) :
      Unoptimized module entry cause
  /-- Shapes do not fit. -/
  | mismatch (operation reason : String) :
      Unoptimized module entry (.shapeMismatch operation reason)
  /-- Nothing tells the shapes of parameters. -/
  | unresolved (operation : String) {caller : Dataflow.Function}
      (found : module.function? entry = some caller) (open_ : caller.arguments ≠ []) :
      Unoptimized module entry (.unresolvedShape operation)

/-- A function with the same signature is left, whose types are known, and no further round has
anything to do. -/
structure Settles (function settled : Dataflow.Function) : Prop where
  /-- The operations are in order. -/
  inOrder : settled.InOrder Dataflow.OperationKind.Spelled
  /-- All types are known. -/
  typed : settled.Typed
  /-- The name stays. -/
  name : settled.name = function.name
  /-- The arguments stay. -/
  arguments : settled.arguments = function.arguments
  /-- As many values are returned. -/
  arity : settled.resultTypes.length = function.resultTypes.length
  /-- Simplification finds nothing to do. -/
  simplifies : Dataflow.Edit.simplify settled = .ok 0 settled
  /-- Sharing finds nothing to do. -/
  shares : Dataflow.Edit.share settled = .ok 0 settled

/-- A round ends at once if the types cannot be inferred. -/
theorem settle_of_inferTypes_error {function changed : Dataflow.Function} {failure : Failure}
    (inferring : Dataflow.Edit.inferTypes function = .error failure changed) (bound : Nat) :
    settle options (bound + 1) ⟨[function]⟩ before = .error failure before := by
  rw [settle, Dataflow.Module.inferTypes_of_error inferring]
  rfl

private theorem ends_settle {function : Dataflow.Function}
    (inOrder : function.InOrder Dataflow.OperationKind.Spelled) :
    Ends (settle options (roundBound ⟨[function]⟩) ⟨[function]⟩)
      (fun settled => Yields (settle options (roundBound ⟨[function]⟩) ⟨[function]⟩) settled ∧
        ∃ last, settled = ⟨[last]⟩ ∧ Settles function last)
      (Dataflow.Inference.Refuses function) := by
  have inference := Dataflow.Inference.delivers_inferTypes inOrder.verified inOrder.proper
  cases inferring : Dataflow.Edit.inferTypes function with
  | ok result inferred =>
      obtain ⟨refines, typed⟩ := Dataflow.Inference.inferTypes_eq_ok inferring
      have inferred_inOrder := inOrder.refines refines
      obtain ⟨count, last, reduces, simplifies, shares, settles⟩ := exists_settle_roundBound options
        inferring inferred_inOrder.verified inferred_inOrder.proper
        fun operation member => (inferred_inOrder.among operation member).unsigned
      refine settles.ends ⟨settles, last, rfl, ?_⟩
      exact {
        inOrder := inferred_inOrder.reduces Dataflow.OperationKind.reshapable_spelled reduces
        typed := typed.reduces reduces inferred_inOrder.verified
        name := reduces.extension.name.trans refines.name
        arguments := reduces.extension.arguments.trans refines.arguments
        arity := (congrArg List.length reduces.extension.resultTypes).trans refines.arity
        simplifies
        shares }
  | error failure changed =>
      rw [Delivers, inferring] at inference
      cases failure with
      | error error =>
          exact fun before => .of_error (settle_of_inferTypes_error inferring _)
            ⟨inference.2, .refl⟩
      | fault => exact inference.elim

private theorem Unoptimized.of_refuses {function caller : Dataflow.Function} {cause : Cause}
    {entry : String} (refused : Dataflow.Inference.Refuses function cause)
    (found : module.function? entry = some caller)
    (arguments_eq : function.arguments = caller.arguments) (no_calls : function.callees = []) :
    Unoptimized module entry cause := by
  cases refused with
  | mismatch operation reason => exact .mismatch operation reason
  | unresolved operation open_ =>
      refine .unresolved operation found ?_
      rcases open_ with arguments | ⟨call, member, calls⟩
      · exact arguments_eq ▸ arguments
      · obtain ⟨callee, callee_eq⟩ := Option.ne_none_iff_exists'.mp calls
        have called : callee ∈ function.callees :=
          List.mem_filterMap.mpr ⟨call, member, callee_eq⟩
        rw [no_calls] at called
        cases called

/-- Optimisation of a module ends, and it is known for what reasons it reports an error. -/
theorem ends_optimized (options : Options)
    (unique : (module.functions.map Dataflow.Function.name).Nodup)
    (functions : ∀ function ∈ module.functions,
      function.InOrder Dataflow.OperationKind.Spelled) :
    Ends (optimized options module)
      (fun settled => Yields (optimized options module) settled ∧
        ∃ caller last, module.function? options.entry = some caller ∧
          settled = ⟨[last]⟩ ∧ Settles caller last)
      (Unoptimized module options.entry) := by
  refine (Ends.lift ((module.delivers_inline ⟨trivial, trivial⟩ unique functions options.entry).mono
    (fun _ => And.intro) fun _ _ refused => .inlining refused)).bind fun inlined ended => ?_
  obtain ⟨inlining, caller, function, caller_eq, rfl, inOrder, no_calls, extension⟩ := ended
  have accepted := Dataflow.Module.verify_of_verified inOrder.verified
  refine (yields_verified options "inlining" accepted).ends_bind ?_
  refine (ends_settle inOrder).mono (fun settled _ _ _ ended => ?_) fun cause refused =>
    .of_refuses refused caller_eq extension.arguments no_calls
  obtain ⟨yields, last, rfl, settles⟩ := ended
  exact ⟨yields_optimized inlining accepted yields, caller, last, caller_eq, rfl, {
    settles with
    name := settles.name.trans extension.name
    arguments := settles.arguments.trans extension.arguments
    arity := settles.arity.trans (congrArg List.length extension.resultTypes) }⟩

/-- Optimisation of a program ends.  When it leaves a module, this is a single function in normal
form, and inferring its types, simplifying it and sharing in it again change nothing. -/
theorem normal_of_optimized {source : Source} {program : Program} (options : Options)
    (program_eq : source.program = .ok program)
    (module_eq : Dataflow.Module.ofProgram source program = .ok module)
    (before : List Snapshot) :
    (∃ (function : Dataflow.Function) (after : List Snapshot),
      optimized options module before = .ok ⟨[function]⟩ after ∧ function.Normal ∧
      Dataflow.Module.inferTypes ⟨[function]⟩ = (⟨[function]⟩, .ok ()) ∧
      Dataflow.Module.simplify ⟨[function]⟩ = (⟨[function]⟩, .ok 0) ∧
      Dataflow.Module.share ⟨[function]⟩ = (⟨[function]⟩, .ok 0)) ∨
    ∃ error after, optimized options module before = .error (.error error) after := by
  have ends := ends_optimized options (Dataflow.names_ofProgram module_eq)
    (Dataflow.inOrder_ofProgram (source.unsigned_of_program program_eq) module_eq) before
  cases optimized_eq : optimized options module before with
  | ok settled after =>
      rw [Delivers, optimized_eq] at ends
      obtain ⟨⟨-, _, last, -, rfl, settles⟩, -⟩ := ends
      have verified := settles.inOrder.verified
      refine .inl ⟨last, after, rfl, ?_, ?_, ?_, ?_⟩
      · exact Dataflow.Function.normal_of_zero verified settles.inOrder.proper settles.typed
          settles.simplifies settles.shares
      · exact Dataflow.Module.inferTypes_of_ok
          (Dataflow.Inference.inferTypes_of_typed verified.live settles.typed)
      · exact Dataflow.Module.editAll_of_ok settles.simplifies
      · exact Dataflow.Module.editAll_of_ok settles.shares
  | error failure after =>
      rw [Delivers, optimized_eq] at ends
      cases failure with
      | error error => exact .inr ⟨error, after, rfl⟩
      | fault => exact ends.elim

/-- Doubles a column that is laid out as a row first, twice over, and computes something for
nothing. -/
def doublingColumn : Source where
  contents := "def double(x) \x7b\n  var unread = transpose(x);\n  return x + x;\n\x7d\n\n" ++
    "def main() \x7b\n  var row<1, 2> = [3, 4];\n  var column<2, 1> = row;\n" ++
    "  print(double(column));\n  print(double(column));\n\x7d\n"
  origin := .memory

theorem normal_of_optimized_doublingColumn :
    ∃ program module, doublingColumn.program = .ok program ∧
      Dataflow.Module.ofProgram doublingColumn program = .ok module ∧
      ∃ (function : Dataflow.Function) (after : List Snapshot),
        optimized ⟨"main", true, false⟩ module [] = .ok ⟨[function]⟩ after ∧ function.Normal := by
  have ended : (doublingColumn.program.toOption.bind fun program =>
      (Dataflow.Module.ofProgram doublingColumn program).toOption.bind fun module =>
        EStateM.run' (optimized ⟨"main", true, false⟩ module) []).isSome = true := by
    decide +kernel
  obtain ⟨settled, ended⟩ := Option.isSome_iff_exists.mp ended
  obtain ⟨program, program_eq, ended⟩ := Option.bind_eq_some_iff.mp ended
  obtain ⟨module, module_eq, ended⟩ := Option.bind_eq_some_iff.mp ended
  have program_eq := Except.toOption_eq_some_iff.mp program_eq
  have module_eq := Except.toOption_eq_some_iff.mp module_eq
  refine ⟨program, module, program_eq, module_eq, ?_⟩
  rcases normal_of_optimized ⟨"main", true, false⟩ program_eq module_eq [] with
    ⟨function, after, optimized_eq, normal, -⟩ | ⟨error, after, refused⟩
  · exact ⟨function, after, optimized_eq, normal⟩
  · rw [EStateM.run', EStateM.run, refused] at ended
    cases ended

end Compiler

end TensorLang
