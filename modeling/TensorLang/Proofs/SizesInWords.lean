import TensorLang.Proofs.Loop.FittingBuffers
import TensorLang.Proofs.StableTypes

/-!
# Sizes of compiled programs are words

Sizes, offsets and slices are computed without checks.  Nothing goes wrong: once the types of a
program are inferred, the shapes in all modules that the compiler reaches fit, so that everything
that is computed of them is a word and no dimension is zero.  Until then there are only the modules
that were translated and inlined.
-/

namespace TensorLang

namespace Dataflow

/-- Whatever is computed of the shapes in the module is computed with words, also in the loops of
its functions. -/
structure Module.InWords (module : Module) : Prop where
  /-- The shapes in the functions fit. -/
  shapes : ∀ function ∈ module.functions, ∀ shape, function.Mentions shape →
    shape.Fits ∧ shape.InWords
  /-- Functions that become loops, accepted by verification or not, compute with words. -/
  loops : ∀ function ∈ module.functions, ∀ lowered,
    Loop.Function.ofDataflow function = .ok lowered → lowered.InWords

theorem Function.Shaped.module_inWords {function : Function} (shaped : function.Shaped) :
    Module.InWords ⟨[function]⟩ := by
  constructor
  · intro other member shape mentions
    obtain rfl := List.mem_singleton.mp member
    exact ⟨shaped.fits mentions, (shaped.fits mentions).inWords⟩
  · intro other member lowered lowering
    obtain rfl := List.mem_singleton.mp member
    exact Loop.Function.inWords_ofDataflow shaped.verified.wellFormed
      (fun _ => shaped.fits) lowering

end Dataflow

theorem Loop.Module.inWords_ofDataflow {module : Dataflow.Module} {entry : String}
    {lowered : Loop.Module} (sized : module.InWords)
    (success : Loop.Module.ofDataflow module entry = .ok lowered) :
    ∀ function ∈ lowered.functions, function.InWords := by
  obtain ⟨functions⟩ := module
  rcases functions with _ | ⟨source, _ | ⟨other, rest⟩⟩
  · cases success
  · obtain ⟨-, -, function, lowering, -, rfl⟩ := ofDataflow_eq_ok success
    intro other member
    obtain rfl := List.mem_singleton.mp member
    exact sized.loops source (List.mem_singleton_self _) other lowering
  · cases success

/-- Whatever is computed of the shapes in the snapshot is computed with words. -/
def Snapshot.InWords : Snapshot → Prop
  | .dataflow _ module => module.InWords
  | .loops _ module => ∀ function ∈ module.functions, function.InWords

/-- Whatever is computed of the shapes in the artifact is computed with words. -/
def Artifact.InWords : Artifact → Prop
  | .dataflow module => module.InWords
  | .loops module => ∀ function ∈ module.functions, function.InWords
  | .tokens _ | .outline _ | .output _ => True

namespace Compiler

variable {α β : Type} {options : Options}

/-! ### Steps and what is recorded -/

/-- From snapshots with a property the step leads to snapshots with another, also when it fails.  A
value that it gives has a property as well. -/
def Leads (early late : List Snapshot → Prop) (step : Compiler α) (accepts : α → Prop) : Prop :=
  ∀ before, early before →
    match step before with
    | .ok value after => late after ∧ accepts value
    | .error _ after => late after

namespace Leads

variable {early middle late : List Snapshot → Prop} {step : Compiler α}
variable {others accepts : α → Prop}

theorem mono (leads : Leads early middle step others)
    (weaken : ∀ snapshots, middle snapshots → late snapshots)
    (accepted : ∀ value, others value → accepts value) : Leads early late step accepts := by
  intro before holds
  have reached := leads before holds
  cases step_eq : step before with
  | ok value after =>
      rw [step_eq] at reached
      exact ⟨weaken after reached.1, accepted value reached.2⟩
  | error failure after =>
      rw [step_eq] at reached
      exact weaken after reached

theorem bind {next : α → Compiler β} {accepts : β → Prop}
    (first : Leads early middle step others)
    (weaken : ∀ snapshots, middle snapshots → late snapshots)
    (rest : ∀ value, others value → Leads middle late (next value) accepts) :
    Leads early late (step >>= next) accepts := by
  intro before holds
  have reached := first before holds
  change match EStateM.bind step next before with
    | .ok value after => late after ∧ accepts value
    | .error _ after => late after
  rw [EStateM.bind]
  cases step_eq : step before with
  | ok value after =>
      rw [step_eq] at reached
      exact rest value reached.2 after reached.1
  | error failure after =>
      rw [step_eq] at reached
      exact weaken after reached

theorem pure {value : α} (accepted : accepts value) : Leads late late (Pure.pure value) accepts :=
  fun _ holds => ⟨holds, accepted⟩

theorem throw {failure : Failure} : Leads late late (throw failure : Compiler α) accepts :=
  fun _ holds => holds

theorem lift {outcome : Outcome α} (accepted : ∀ value, outcome = .ok value → accepts value) :
    Leads late late (liftM outcome : Compiler α) accepts := by
  intro before holds
  cases outcome with
  | ok value => exact ⟨holds, accepted value rfl⟩
  | error failure => exact holds

theorem record {snapshot : Snapshot}
    (recorded : ∀ snapshots, late snapshots → late (snapshots ++ [snapshot])) :
    Leads late late (record options snapshot) fun _ => True := by
  intro before holds
  rw [Compiler.record]
  by_cases traced : options.trace = true
  · rw [if_pos traced]
    exact ⟨recorded before holds, trivial⟩
  · rw [if_neg traced]
    exact ⟨holds, trivial⟩

theorem verified {pass : String} {module : Dataflow.Module}
    (recorded : ∀ snapshots, late snapshots → late (snapshots ++ [.dataflow pass module])) :
    Leads late late (verified options pass module) fun _ => True :=
  (record recorded).bind (fun _ holds => holds) fun _ _ => .lift fun _ _ => trivial

end Leads

/-! ### Before and after the first inference -/

/-- No types have been inferred yet. -/
def Untyped (snapshots : List Snapshot) : Prop :=
  ∀ inferred, Snapshot.dataflow "shape inference" inferred ∉ snapshots

/-- From the first inferred module on, modules compute with words. -/
def Sized (snapshots : List Snapshot) : Prop :=
  ∀ early inferred late, snapshots = early ++ .dataflow "shape inference" inferred :: late →
    ∀ snapshot ∈ Snapshot.dataflow "shape inference" inferred :: late, snapshot.InWords

theorem Untyped.append {snapshots : List Snapshot} {pass : String}
    (other : pass ≠ "shape inference") (module : Dataflow.Module) (untyped : Untyped snapshots) :
    Untyped (snapshots ++ [.dataflow pass module]) := by
  intro inferred member
  rcases List.mem_append.mp member with earlier | new
  · exact untyped inferred earlier
  · cases List.mem_singleton.mp new
    exact other rfl

theorem Untyped.sized {snapshots : List Snapshot} (untyped : Untyped snapshots) :
    Sized snapshots := by
  rintro early inferred late rfl
  exact absurd (List.mem_append_right _ List.mem_cons_self) (untyped inferred)

theorem Sized.append {snapshots : List Snapshot} {snapshot : Snapshot} (inWords : snapshot.InWords)
    (sized : Sized snapshots) : Sized (snapshots ++ [snapshot]) := by
  intro early inferred late snapshots_eq
  rcases List.eq_nil_or_concat late with rfl | ⟨others, last, rfl⟩
  · obtain ⟨rfl, last_eq⟩ := List.append_inj' snapshots_eq rfl
    cases last_eq
    exact List.forall_mem_singleton.mpr inWords
  · rw [List.concat_eq_append, ← List.cons_append, ← List.append_assoc] at snapshots_eq
    obtain ⟨earlier_eq, last_eq⟩ := List.append_inj' snapshots_eq rfl
    cases last_eq
    rw [List.concat_eq_append, ← List.cons_append, List.forall_mem_append]
    exact ⟨sized early inferred others earlier_eq, List.forall_mem_singleton.mpr inWords⟩

/-- A module that computes with words is recorded, and verified. -/
theorem leads_verified {pass : String} {module : Dataflow.Module} (inWords : module.InWords) :
    Leads Sized Sized (verified options pass module) fun _ => True :=
  .verified fun _ sized => sized.append inWords

private theorem leads_settle {function : Dataflow.Function} (bound : Nat)
    (shapes : ∀ inferred, Dataflow.Edit.inferTypes function = .ok () inferred → inferred.Shaped) :
    Leads Sized Sized (settle options bound ⟨[function]⟩) Dataflow.Module.InWords := by
  induction bound generalizing function with
  | zero => exact .throw
  | succ bound induction =>
      cases inferring : Dataflow.Edit.inferTypes function with
      | error failure changed =>
          intro before sized
          rw [settle_of_inferTypes_error inferring]
          exact sized
      | ok result inferred =>
          have shaped := shapes inferred inferring
          obtain ⟨applied, simplified, simplifying, simplifies⟩ :=
            Dataflow.Simplification.exists_simplify
              (fun _ _ => Dataflow.OperationKind.isLink_of_agrees) shaped.verified shaped.proper
          have simplified_shaped := shaped.reduces simplifies
          obtain ⟨merged, shared, sharing, merges⟩ := Dataflow.Sharing.exists_share
            (fun _ _ _ _ agrees => agrees) simplified_shaped.verified simplified_shaped.proper
            simplified.among_true
          have shared_shaped := simplified_shaped.reduces merges
          have simplify_eq :
              Dataflow.Module.simplify ⟨[inferred]⟩ = (⟨[simplified]⟩, .ok applied) :=
            Dataflow.Module.editAll_of_ok simplifying
          have share_eq : Dataflow.Module.share ⟨[simplified]⟩ = (⟨[shared]⟩, .ok merged) :=
            Dataflow.Module.editAll_of_ok sharing
          have done {α : Type} {outcome : Outcome α} :
              Leads Sized Sized (liftM outcome : Compiler α) fun _ => True :=
            .lift fun _ _ => trivial
          have keep : ∀ snapshots, Sized snapshots → Sized snapshots := fun _ sized => sized
          rw [settle]
          simp only [Dataflow.Module.inferTypes_of_ok inferring, simplify_eq, share_eq]
          refine done.bind keep fun _ _ => (leads_verified shaped.module_inWords).bind keep
            fun _ _ => ?_
          refine done.bind keep fun _ _ =>
            (leads_verified simplified_shaped.module_inWords).bind keep fun _ _ => ?_
          refine done.bind keep fun _ _ => (leads_verified shared_shaped.module_inWords).bind keep
            fun _ _ => ?_
          split
          · exact .pure shared_shaped.module_inWords
          · refine induction fun again success => ?_
            cases shared_shaped.inferTypes_eq.symm.trans success
            exact shared_shaped

theorem leads_optimized {module : Dataflow.Module}
    (unique : (module.functions.map Dataflow.Function.name).Nodup)
    (functions : ∀ function ∈ module.functions, function.InOrder fun _ => True)
    (unshaped : ∀ function ∈ module.functions, function.Unshaped) :
    Leads Untyped Sized (optimized options module) Dataflow.Module.InWords := by
  have inlines : Leads Untyped Untyped (liftM (module.inline options.entry) : Compiler _)
      fun inlined => ∃ function : Dataflow.Function, inlined = ⟨[function]⟩ ∧ function.Verified ∧
        function.Proper ∧ function.Unshaped := by
    refine .lift fun inlined success => ?_
    have delivers := module.delivers_inline trivial unique functions options.entry
    obtain ⟨_, function, -, rfl, inOrder, -⟩ := delivers.accepted success
    have inlined_unshaped := Dataflow.unshaped_inline unshaped success
    exact ⟨function, rfl, inOrder.verified, inOrder.proper,
      inlined_unshaped function (List.mem_singleton_self _)⟩
  refine inlines.bind (fun _ => Untyped.sized) ?_
  rintro _ ⟨function, rfl, verified, proper, function_unshaped⟩
  have recorded : Leads Untyped Sized (Compiler.verified options "inlining" ⟨[function]⟩)
      fun _ => True :=
    (Leads.verified fun _ => Untyped.append (by decide) _).mono (fun _ => Untyped.sized)
      fun _ _ => trivial
  exact recorded.bind (fun _ sized => sized) fun _ _ => leads_settle _ fun _ success =>
    Dataflow.shaped_of_inferTypes verified proper function_unshaped success

theorem leads_loops {module : Dataflow.Module} (inWords : module.InWords) :
    Leads Sized Sized (loops options module)
      fun lowered => ∀ function ∈ lowered.functions, function.InWords := by
  have lowers : Leads Sized Sized
      (liftM (Loop.Module.ofDataflow module options.entry) : Compiler Loop.Module)
      fun lowered => ∀ function ∈ lowered.functions, function.InWords :=
    .lift fun _ success => Loop.Module.inWords_ofDataflow inWords success
  refine lowers.bind (fun _ sized => sized) fun lowered lowered_inWords => ?_
  have records : Leads Sized Sized (record options (.loops "loop lowering" lowered))
      fun _ => True := .record fun _ sized => sized.append lowered_inWords
  exact records.bind (fun _ sized => sized) fun _ _ => .pure lowered_inWords

theorem leads_dataflow {source : Source} {program : Program}
    (program_eq : source.program = .ok program) :
    Leads Untyped Untyped (dataflow options source program) fun module =>
      (module.functions.map Dataflow.Function.name).Nodup ∧
        (∀ function ∈ module.functions, function.InOrder fun _ => True) ∧
          ∀ function ∈ module.functions, function.Unshaped := by
  have translates : Leads Untyped Untyped
      (liftM (Dataflow.Module.ofProgram source program) : Compiler Dataflow.Module) fun module =>
      (module.functions.map Dataflow.Function.name).Nodup ∧
        (∀ function ∈ module.functions, function.InOrder fun _ => True) ∧
          ∀ function ∈ module.functions, function.Unshaped := by
    refine .lift fun module success => ⟨Dataflow.names_ofProgram success,
      fun function member => ?_, Dataflow.unshaped_ofProgram success⟩
    have inOrder := Dataflow.inOrder_ofProgram (source.unsigned_of_program program_eq) success
      function member
    exact ⟨inOrder.verified, inOrder.proper, function.among_true⟩
  refine translates.bind (fun _ untyped => untyped) fun module facts => ?_
  have records : Leads Untyped Untyped (verified options "ast lowering" module) fun _ => True :=
    .verified fun _ => Untyped.append (by decide) _
  exact records.bind (fun _ untyped => untyped) fun _ _ => .pure facts

private theorem leads_artifact (source : Source) (stage : Stage) (options : Options) :
    Leads Untyped Sized (artifact source stage options) fun artifact =>
      (stage = .dataflow → options.optimize = true) → artifact.InWords := by
  have parses : Leads Untyped Untyped (liftM source.program : Compiler Program)
      fun program => source.program = .ok program := .lift fun _ success => success
  have sized : ∀ snapshots, Untyped snapshots → Sized snapshots := fun _ => Untyped.sized
  have keep : ∀ snapshots, Sized snapshots → Sized snapshots := fun _ holds => holds
  cases stage with
  | tokens =>
      have scans : Leads Untyped Sized (liftM source.tokens : Compiler _) fun _ => True :=
        (Leads.lift fun _ _ => trivial).mono sized fun _ _ => trivial
      exact scans.bind keep fun _ _ => .pure fun _ => trivial
  | outline =>
      exact (parses.mono sized fun _ success => success).bind keep fun _ _ => .pure fun _ => trivial
  | dataflow =>
      refine parses.bind sized fun program program_eq =>
        (leads_dataflow program_eq).bind sized fun module facts => ?_
      split
      · exact (leads_optimized facts.1 facts.2.1 facts.2.2).bind keep
          fun _ inWords => .pure fun _ => inWords
      · rename_i unoptimized
        exact (Leads.pure fun optimize => absurd (optimize rfl) unoptimized).mono sized
          fun _ inWords => inWords
  | loops =>
      exact parses.bind sized fun program program_eq =>
        (leads_dataflow program_eq).bind sized fun module facts =>
          (leads_optimized facts.1 facts.2.1 facts.2.2).bind keep fun _ inWords =>
            (leads_loops inWords).bind keep fun _ lowered => .pure fun _ => lowered
  | run =>
      refine parses.bind sized fun program program_eq =>
        (leads_dataflow program_eq).bind sized fun module facts =>
          (leads_optimized facts.1 facts.2.1 facts.2.2).bind keep fun _ inWords =>
            (leads_loops inWords).bind keep fun lowered _ => ?_
      have outputs : Leads Sized Sized (output options lowered) fun _ => True :=
        (Leads.lift fun _ _ => trivial).bind keep fun _ _ => .pure trivial
      exact outputs.bind keep fun _ _ => .pure fun _ => trivial

end Compiler

/-- Once the types of a program have been inferred, no size goes wrong: in every module that the
compiler reaches from then on, and in the loops that it becomes, dimensions are positive, whichever
of them are multiplied give a word, and everything that is computed of shapes is computed with
words. -/
theorem Source.compile_in_words (source : Source) (stage : Stage) (options : Options) :
    (∀ early inferred late, (source.compile stage options).snapshots =
      early ++ .dataflow "shape inference" inferred :: late →
        ∀ snapshot ∈ Snapshot.dataflow "shape inference" inferred :: late, snapshot.InWords) ∧
    ∀ artifact, (source.compile stage options).outcome = .ok artifact →
      (stage = .dataflow → options.optimize = true) → artifact.InWords := by
  have nothing : Compiler.Untyped [] := fun _ => List.not_mem_nil
  have leads := Compiler.leads_artifact source stage options [] nothing
  rw [compile]
  cases compiled : Compiler.artifact source stage options [] with
  | ok artifact snapshots =>
      rw [compiled] at leads
      refine ⟨leads.1, ?_⟩
      rintro _ ⟨⟩
      exact leads.2
  | error failure snapshots =>
      rw [compiled] at leads
      exact ⟨leads, nofun⟩

/-- Lays numbers out as a square and multiplies it with its transpose, twice over. -/
def squaringTable : Source where
  contents := "def square(x) \x7b\n  return x @ transpose(x);\n\x7d\n\n" ++
    "def main() \x7b\n  var table<2, 2> = [1, 2, 3, 4];\n  print(square(table));\n" ++
    "  print(square(table));\n\x7d\n"
  origin := .memory

/-- Whether the snapshot shows what inference left. -/
def Snapshot.isInferred : Snapshot → Bool
  | .dataflow pass _ => pass == "shape inference"
  | .loops _ _ => false

theorem Source.compile_in_words_squaringTable :
    let compilation := squaringTable.compile .loops ⟨"main", true, true⟩
    ∃ early inferred late artifact,
      compilation.snapshots = early ++ .dataflow "shape inference" inferred :: late ∧
      compilation.outcome = .ok artifact ∧
      (∀ snapshot ∈ Snapshot.dataflow "shape inference" inferred :: late, snapshot.InWords) ∧
      artifact.InWords := by
  intro compilation
  obtain ⟨sized, in_words⟩ := compile_in_words squaringTable .loops ⟨"main", true, true⟩
  have inferred : compilation.snapshots.any Snapshot.isInferred = true := by decide +kernel
  have compiled : compilation.outcome.toOption.isSome = true := by decide +kernel
  obtain ⟨artifact, compiled⟩ := Option.isSome_iff_exists.mp compiled
  have artifact_eq := Except.toOption_eq_some_iff.mp compiled
  obtain ⟨snapshot, member, shows⟩ := List.any_eq_true.mp inferred
  obtain ⟨early, late, split_eq⟩ := List.append_of_mem member
  cases snapshot with
  | loops => cases shows
  | dataflow pass module =>
      obtain rfl := eq_of_beq shows
      exact ⟨early, module, late, artifact, split_eq, artifact_eq, sized early module late split_eq,
        in_words artifact artifact_eq nofun⟩

end TensorLang
