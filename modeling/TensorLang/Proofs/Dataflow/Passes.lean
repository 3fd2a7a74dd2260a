import TensorLang.Proofs.Dataflow.InliningEnds
import TensorLang.Proofs.Dataflow.Sharing
import TensorLang.Proofs.Dataflow.Simplification
import TensorLang.Proofs.Dataflow.TranslatedPrograms

/-!
# Passes keep modules well formed

A module is well formed when its functions have different names and each of them is in order.  The
dataflow of a program is well formed, and every pass keeps it so, whatever passes came before and
even where shape inference has given up halfway.  Simplification and sharing never fail, shape
inference and inlining may refuse a module, and no pass ends in a fault.
-/

namespace TensorLang

namespace Dataflow

variable {function changed : Function} {module reached : Module}

/-- Functions have different names, verification accepts each of them, operations have as many
operands and results as their kinds call for, and the elements of literals and of the targets of
reshapes can be counted. -/
structure Module.WellFormed (module : Module) : Prop where
  /-- Names are unique. -/
  names : (module.functions.map Function.name).Nodup
  /-- Every function passes verification. -/
  accepted : ∀ function ∈ module.functions, function.verify = .ok ()
  /-- Operands and results have the right numbers. -/
  proper : ∀ function ∈ module.functions, function.Proper
  /-- Elements can be counted. -/
  counted : ∀ function ∈ module.functions, function.Among OperationKind.Counted

/-- The passes over modules. -/
inductive Pass where
  | infer
  | simplify
  | share
  | inline (entry : String)

/-- The module that a pass leaves: shape inference leaves one also when it fails, and inlining only
when it succeeds. -/
def Pass.module? : Pass → Module → Option Module
  | infer, module => some module.inferTypes.1
  | simplify, module => some module.simplify.1
  | share, module => some module.share.1
  | inline entry, module => (module.inline entry).toOption

/-- The module that passes leave, one after the other. -/
def Module.after? (module : Module) (passes : List Pass) : Option Module :=
  passes.foldlM (fun module pass => pass.module? module) module

/-! ### Functions of a well-formed module -/

theorem Module.WellFormed.inOrder (wellFormed : module.WellFormed)
    (member : function ∈ module.functions) : function.InOrder OperationKind.Counted :=
  ⟨Function.verify_eq_ok_iff.mp (wellFormed.accepted function member),
    wellFormed.proper function member, wellFormed.counted function member⟩

theorem Module.wellFormed_of_inOrder (names : (module.functions.map Function.name).Nodup)
    (each : ∀ function ∈ module.functions, function.InOrder OperationKind.Counted) :
    module.WellFormed where
  names := names
  accepted := fun function member => Function.verify_eq_ok_iff.mpr (each function member).verified
  proper := fun function member => (each function member).proper
  counted := fun function member => (each function member).among

/-! ### Edits of all functions -/

/-- The changed function has the name of the function and is in order. -/
def KeepsOrder (function changed : Function) : Prop :=
  changed.name = function.name ∧ changed.InOrder OperationKind.Counted

private theorem delivers_editFrom {edit : Edit Nat} {refuses : Error → Prop}
    {functions : List Function}
    (inOrder : ∀ function ∈ functions, function.InOrder OperationKind.Counted)
    (each : ∀ function, function.InOrder OperationKind.Counted →
      Delivers edit function (fun _ changed => KeepsOrder function changed)
        fun error changed => KeepsOrder function changed ∧ refuses error) (total : Nat) :
    let edited := Module.editFrom edit total functions
    edited.1.map Function.name = functions.map Function.name ∧
      (∀ changed ∈ edited.1, changed.InOrder OperationKind.Counted) ∧
      edited.2.Delivers (fun _ => True) refuses := by
  induction functions generalizing total with
  | nil => exact ⟨rfl, nofun, trivial⟩
  | cons function rest induction =>
      obtain ⟨first_inOrder, rest_inOrder⟩ := List.forall_mem_cons.mp inOrder
      have first := each function first_inOrder
      rw [Delivers] at first
      rw [Module.editFrom]
      split at first
      · rename_i count changed success
        obtain ⟨names, kept, outcome⟩ := induction rest_inOrder (total + count)
        rw [success]
        exact ⟨congrArg₂ List.cons first.1 names, List.forall_mem_cons.mpr ⟨first.2, kept⟩, outcome⟩
      · rename_i error changed failure
        rw [failure]
        exact ⟨congrArg (· :: rest.map Function.name) first.1.1,
          List.forall_mem_cons.mpr ⟨first.1.2, rest_inOrder⟩, first.2⟩
      · exact first.elim

/-- A module stays well formed when all of its functions are edited. -/
theorem Module.WellFormed.editAll (wellFormed : module.WellFormed) (edit : Edit Nat)
    (refuses : Error → Prop) (each : ∀ function, function.InOrder OperationKind.Counted →
      Delivers edit function (fun _ changed => KeepsOrder function changed)
        fun error changed => KeepsOrder function changed ∧ refuses error) :
    (module.editAll edit).1.WellFormed ∧
      (module.editAll edit).2.Delivers (fun _ => True) refuses := by
  obtain ⟨names, inOrder, outcome⟩ :=
    delivers_editFrom (fun function member => wellFormed.inOrder member) each 0
  exact ⟨Module.wellFormed_of_inOrder (names ▸ wellFormed.names) inOrder, outcome⟩

theorem Module.WellFormed.editAll_reduces (wellFormed : module.WellFormed) {edit : Edit Nat}
    (alike : OperationKind → OperationKind → Prop)
    (each : ∀ function, function.InOrder OperationKind.Counted →
      ∃ count changed, edit function = .ok count changed ∧ Reduces alike count function changed) :
    (module.editAll edit).1.WellFormed ∧ ∃ total, (module.editAll edit).2 = .ok total := by
  obtain ⟨kept, outcome⟩ := wellFormed.editAll edit (fun _ => False)
    fun function inOrder => by
      obtain ⟨count, changed, success, reduces⟩ := each function inOrder
      exact .of_ok success ⟨reduces.extension.name,
        inOrder.reduces OperationKind.reshapable_counted reduces⟩
  refine ⟨kept, ?_⟩
  cases ended : (module.editAll edit).2 with
  | ok total => exact ⟨total, rfl⟩
  | error failure =>
      cases failure with
      | error error => exact (outcome.refused ended).elim
      | fault => exact (outcome.ne_fault ended).elim

/-! ### Passes -/

/-- Shape inference keeps a module well formed, also when it gives up. -/
theorem Module.WellFormed.inferTypes (wellFormed : module.WellFormed) :
    module.inferTypes.1.WellFormed ∧
      module.inferTypes.2.Delivers (fun _ => True) fun _ => True := by
  obtain ⟨kept, outcome⟩ := wellFormed.editAll (do Edit.inferTypes; return 0)
    (fun _ => True) fun function inOrder =>
      ((Inference.delivers_inferTypes inOrder.verified inOrder.proper).mono
        (fun _ changed _ refines => (⟨refines.name, inOrder.refines refines⟩ :
          KeepsOrder function changed))
        fun _ _ _ refused => ⟨⟨refused.1.name, inOrder.refines refused.1⟩, trivial⟩).bind
          fun _ _ _ kept => kept
  refine ⟨kept, ?_⟩
  rw [Module.inferTypes]
  exact outcome.bind fun _ _ _ => trivial

theorem Module.WellFormed.simplify (wellFormed : module.WellFormed) :
    module.simplify.1.WellFormed ∧ ∃ applied, module.simplify.2 = .ok applied :=
  wellFormed.editAll_reduces Eq fun _ inOrder =>
    Simplification.exists_simplify (fun _ _ same => same ▸ rfl) inOrder.verified inOrder.proper

theorem Module.WellFormed.share (wellFormed : module.WellFormed) :
    module.share.1.WellFormed ∧ ∃ merged, module.share.2 = .ok merged :=
  wellFormed.editAll_reduces (fun left right => left.agrees right = true)
    fun _ inOrder => Sharing.exists_share (fun _ _ _ _ agrees => agrees) inOrder.verified
      inOrder.proper inOrder.among

theorem Module.WellFormed.inline (wellFormed : module.WellFormed) (entry : String) :
    (module.inline entry).Delivers Module.WellFormed fun error =>
      module.Refuses entry error.cause :=
  (module.delivers_inline trivial wellFormed.names (fun _ member => wellFormed.inOrder member)
    entry).mono
    (fun _ _ inlined => by
      obtain ⟨-, function, -, rfl, inOrder, -⟩ := inlined
      exact Module.wellFormed_of_inOrder (List.nodup_singleton _) (by simpa using inOrder))
    fun _ _ refused => refused

/-- Every pass leaves a well-formed module, if it leaves one. -/
theorem Module.WellFormed.pass (wellFormed : module.WellFormed) {pass : Pass}
    (left : pass.module? module = some reached) : reached.WellFormed := by
  cases pass with
  | infer => exact Option.some.inj left ▸ wellFormed.inferTypes.1
  | simplify => exact Option.some.inj left ▸ wellFormed.simplify.1
  | share => exact Option.some.inj left ▸ wellFormed.share.1
  | inline entry =>
      exact (wellFormed.inline entry).accepted (Except.toOption_eq_some_iff.mp left)

/-- The passes leave a well-formed module, one after the other. -/
theorem Module.WellFormed.after (wellFormed : module.WellFormed) {passes : List Pass}
    (left : module.after? passes = some reached) : reached.WellFormed := by
  induction passes generalizing module with
  | nil => exact Option.some.inj left ▸ wellFormed
  | cons pass passes induction =>
      obtain ⟨middle, first, rest⟩ := Option.bind_eq_some_iff.mp left
      exact induction (wellFormed.pass first) rest

/-! ### Programs -/

/-- The functions of a program are in order, and of kinds that a program can spell. -/
theorem inOrder_ofProgram {source : Source} {program : Program} (unsigned : program.Unsigned)
    (success : Module.ofProgram source program = .ok module) :
    ∀ function ∈ module.functions, function.InOrder OperationKind.Spelled := by
  obtain ⟨-, each, -⟩ := ofProgram_eq_ok unsigned success
  exact fun function member => ⟨verified_ofProgram unsigned success function member,
    (each function member).1, fun _ => (each function member).2.kind⟩

/-- The dataflow of a program is well formed. -/
theorem wellFormed_ofProgram {source : Source} {program : Program}
    (program_eq : source.program = .ok program)
    (success : Module.ofProgram source program = .ok module) : module.WellFormed := by
  have inOrder := inOrder_ofProgram (source.unsigned_of_program program_eq) success
  exact Module.wellFormed_of_inOrder (names_ofProgram success) fun function member =>
    ⟨(inOrder function member).verified, (inOrder function member).proper,
      fun operation operation_mem =>
        ((inOrder function member).among operation operation_mem).counted⟩

/-- Passes keep modules well formed, in whatever order they come.  Every program has a well-formed
dataflow module.  From any well-formed module passes lead to well-formed modules only, and of these
simplification and sharing always succeed, shape inference breaks no promise, and inlining leaves a
well-formed module or reports an error. -/
theorem wellFormed_passes :
    (∀ (source : Source) program module, source.program = .ok program →
      Module.ofProgram source program = .ok module → module.WellFormed) ∧
    ∀ (module reached : Module) (passes : List Pass), module.WellFormed →
      module.after? passes = some reached →
        reached.WellFormed ∧
        (∃ applied, reached.simplify.2 = .ok applied) ∧
        (∃ merged, reached.share.2 = .ok merged) ∧
        reached.inferTypes.2 ≠ .error .fault ∧
        ∀ entry, (∃ inlined, reached.inline entry = .ok inlined ∧ inlined.WellFormed) ∨
          ∃ error, reached.inline entry = .error (.error error) := by
  refine ⟨fun source program module => wellFormed_ofProgram, ?_⟩
  intro module reached passes start left
  have wellFormed := start.after left
  refine ⟨wellFormed, wellFormed.simplify.2, wellFormed.share.2, wellFormed.inferTypes.2.ne_fault,
    fun entry => ?_⟩
  have inlining := wellFormed.inline entry
  cases inlined : reached.inline entry with
  | ok other => exact .inl ⟨other, rfl, inlining.accepted inlined⟩
  | error failure =>
      cases failure with
      | error error => exact .inr ⟨error, rfl⟩
      | fault => exact (inlining.ne_fault inlined).elim

/-- Shows a row twice, once after a reshape. -/
def showingRow : Source where
  contents := "def show(x) \x7b\n  print(x);\n\x7d\n\n" ++
    "def main() \x7b\n  var row = [1, 2];\n  var column<2, 1> = row;\n  show(row);\n" ++
    "  show(column);\n\x7d\n"
  origin := .memory

theorem wellFormed_passes_showingRow :
    let passes : List Pass := [.infer, .inline "main", .infer, .simplify, .share]
    ∃ program module reached, showingRow.program = .ok program ∧
      Module.ofProgram showingRow program = .ok module ∧ module.WellFormed ∧
      module.after? passes = some reached ∧ reached.WellFormed ∧
      ∃ merged, reached.share.2 = .ok merged := by
  intro passes
  have passed : (showingRow.program.toOption.bind fun program =>
      (Module.ofProgram showingRow program).toOption.bind fun module =>
        module.after? passes).isSome = true := by decide +kernel
  obtain ⟨reached, passed⟩ := Option.isSome_iff_exists.mp passed
  obtain ⟨program, program_eq, passed⟩ := Option.bind_eq_some_iff.mp passed
  obtain ⟨module, module_eq, passed⟩ := Option.bind_eq_some_iff.mp passed
  have program_eq := Except.toOption_eq_some_iff.mp program_eq
  have module_eq := Except.toOption_eq_some_iff.mp module_eq
  have start := wellFormed_passes.1 showingRow program module program_eq module_eq
  obtain ⟨wellFormed, -, merges, -⟩ := wellFormed_passes.2 module reached passes start passed
  exact ⟨program, module, reached, program_eq, module_eq, start, passed, wellFormed, merges⟩

end Dataflow

end TensorLang
