import TensorLang.Proofs.Dataflow.AlikeCalls
import TensorLang.Proofs.Loop.AlikeModules
import TensorLang.Proofs.Loop.Refinement
import TensorLang.Proofs.Recording

/-!
# Compiling alike modules

The stages after translation take alike dataflow modules to artifacts of the same text, or fail for
the same cause.  Snapshots show locations, so what is recorded on the way may differ, but nothing
that is recorded is ever read again.
-/

namespace TensorLang

variable {excused : Prop}

/-- Both artifacts can be shown, and their texts are the same. -/
def Artifact.Agrees (first second : Artifact) : Prop :=
  ∀ ink, ∃ text, first.text ink = .ok text ∧ second.text ink = .ok text

theorem Artifact.agrees_dataflow {first second : Dataflow.Module} (alike : first.Alike second)
    (accepted : first.verify = .ok ()) : Artifact.Agrees (.dataflow first) (.dataflow second) := by
  intro ink
  have verified : ∀ function ∈ first.functions, function.Verified := fun function member =>
    Dataflow.Function.verify_eq_ok_iff.mp (Except.forM_eq_ok_iff.mp accepted function member)
  obtain ⟨text, shown⟩ := Dataflow.Module.exists_listing verified ⟨ink, false⟩
  have listings : (outcomes False).Relates Eq (first.listing ⟨ink, false⟩)
      (second.listing ⟨ink, false⟩) := alike.listing ink
  obtain ⟨_, also, rfl⟩ := outcomes_eq_ok listings shown
  exact ⟨text, shown, also⟩

theorem Artifact.agrees_loops {first second : Loop.Module} (alike : first.Alike second)
    (accepted : ∀ function ∈ first.functions, function.verify = .ok ()) :
    Artifact.Agrees (.loops first) (.loops second) := by
  intro ink
  obtain ⟨text, shown⟩ := Loop.Module.exists_listing accepted ink
  have listings : (outcomes False).Relates Eq (first.listing ink) (second.listing ink) :=
    alike.listing ink
  obtain ⟨_, also, rfl⟩ := outcomes_eq_ok listings shown
  exact ⟨text, shown, also⟩

theorem Artifact.agrees_output (text : String) :
    Artifact.Agrees (.output text) (.output text) :=
  fun _ => ⟨text, rfl, rfl⟩

/-- Compilations that end alike, whatever they have recorded. -/
def compiles (excused : Prop) : Relator Compiler := .estate excused fun _ _ => True

namespace Compiler

variable {α β : Type} {values : α → β → Prop} {options : Options}
variable {first second : Dataflow.Module}

theorem compiles_lift {early : Outcome α} {late : Outcome β}
    (related : (outcomes excused).Relates values early late) :
    (compiles excused).Relates values (liftM early) (liftM late) := by
  intro _ _ _
  cases related with
  | ok related => exact .ok ⟨related, trivial⟩
  | error related => exact .error related
  | excused excuse => exact .excused excuse

theorem compiles_record (snapshot other : Snapshot) :
    (compiles excused).Relates Eq (record options snapshot) (record options other) :=
  (compiles excused).ite (fun _ _ _ _ => .ok ⟨rfl, trivial⟩) fun _ => (compiles excused).pure rfl

theorem compiles_verified (pass : String)
    (related : (outcomes excused).Relates Eq first.verify second.verify) :
    (compiles excused).Relates (fun _ _ => first.verify = .ok ()) (verified options pass first)
      (verified options pass second) := by
  refine (compiles excused).bind_same (compiles_record _ _) fun _ => compiles_lift ?_
  exact (outcomes excused).mono (outcomes_and related fun _ accepted => accepted)
    fun _ _ holds => holds.2

private theorem roundBound_alike (alike : first.Alike second) :
    roundBound second = roundBound first := by
  rw [roundBound, roundBound]
  rw [Dataflow.Module.Alike] at alike
  generalize first.functions = functions at alike ⊢
  generalize second.functions = others at alike ⊢
  induction alike with
  | nil => rfl
  | cons head _ induction =>
      rw [List.foldr_cons, List.foldr_cons, induction, Dataflow.Simplification.applicationBound,
        Dataflow.Simplification.applicationBound, head.body]

private theorem compiles_settle (bound : Nat) (alike : first.Alike second) :
    (compiles excused).Relates (fun first second => first.Alike second ∧ first.verify = .ok ())
      (settle options bound first) (settle options bound second) := by
  induction bound generalizing first second with
  | zero => exact fun _ _ _ => .error .fault
  | succ bound induction =>
      refine (compiles excused).bind (compiles_lift alike.inferTypes) fun _ _ inferred => ?_
      refine (compiles excused).bind (compiles_verified _ inferred.verify) fun _ _ _ => ?_
      refine (compiles excused).bind (compiles_lift inferred.simplify) ?_
      rintro applied _ ⟨rfl, simplified⟩
      refine (compiles excused).bind (compiles_verified _ simplified.verify) fun _ _ _ => ?_
      refine (compiles excused).bind (compiles_lift simplified.share) ?_
      rintro merged _ ⟨rfl, shared⟩
      refine (compiles excused).bind (compiles_verified _ shared.verify) fun _ _ accepted => ?_
      exact (compiles excused).ite (fun _ => (compiles excused).pure ⟨shared, accepted⟩)
        fun _ => induction shared

private theorem compiles_optimized (inlined : (outcomes excused).Relates Dataflow.Module.Alike
      (first.inline options.entry) (second.inline options.entry)) :
    (compiles excused).Relates (fun first second => first.Alike second ∧ first.verify = .ok ())
      (optimized options first) (optimized options second) := by
  refine (compiles excused).bind (compiles_lift inlined) fun before after alike => ?_
  refine (compiles excused).bind (compiles_verified _ alike.verify) fun _ _ _ => ?_
  rw [roundBound_alike alike]
  exact compiles_settle _ alike

theorem compiles_loops (alike : first.Alike second) :
    (compiles excused).Relates
      (fun lowered other => lowered.Alike other ∧
        ∀ function ∈ lowered.functions, function.verify = .ok ())
      (loops options first) (loops options second) := by
  have lowering : (outcomes excused).Relates
      (fun lowered other => lowered.Alike other ∧
        ∀ function ∈ lowered.functions, function.verify = .ok ())
      (Loop.Module.ofDataflow first options.entry) (Loop.Module.ofDataflow second options.entry) :=
    outcomes_and (Loop.outcomes_moduleOfDataflow alike options.entry)
      fun _ => Loop.Module.verify_of_ofDataflow
  refine (compiles excused).bind (compiles_lift lowering) fun _ _ lowered => ?_
  exact (compiles excused).bind_same (compiles_record _ _) fun _ => (compiles excused).pure lowered

private theorem compiles_output {lowered other : Loop.Module} (alike : lowered.Alike other) :
    (compiles excused).Relates Eq (output options lowered) (output options other) := by
  rw [output, output, alike.run]
  exact (compiles excused).bind_same (compiles_lift (outcomes_refl _))
    fun _ => (compiles excused).pure rfl

/-- Where translation gives modules in which inlining does the same, later stages give artifacts of
the same text.  Dataflow that is shown as it is must be alike itself. -/
theorem compiles_artifact {source other : Source} {stage : Stage}
    (late : stage ∈ [Stage.dataflow, Stage.loops, Stage.run]) {programs : Program → Program → Prop}
    {modules : Dataflow.Module → Dataflow.Module → Prop}
    (parsed : (outcomes excused).Relates programs source.program other.program)
    (translated : ∀ program another, programs program another →
      (compiles excused).Relates (fun first second => modules first second ∧ first.verify = .ok ())
        (dataflow options source program) (dataflow options other another))
    (inlined : ∀ first second, modules first second →
      (outcomes excused).Relates Dataflow.Module.Alike (first.inline options.entry)
        (second.inline options.entry))
    (plain : ∀ first second, modules first second →
      stage = .dataflow ∧ options.optimize = false → first.Alike second) :
    (compiles excused).Relates Artifact.Agrees (artifact source stage options)
      (artifact other stage options) := by
  have optimizes (first second : Dataflow.Module) (related : modules first second) :=
    compiles_optimized (inlined first second related)
  simp only [List.mem_cons, List.not_mem_nil, or_false] at late
  rcases late with rfl | rfl | rfl <;> rw [artifact, artifact]
  · refine (compiles excused).bind (compiles_lift parsed) fun program another same => ?_
    refine (compiles excused).bind (translated _ _ same) fun first second related => ?_
    refine (compiles excused).ite (fun _ => ?_) fun unoptimized => ?_
    · exact (compiles excused).bind (optimizes first second related.1)
        fun _ _ settled => (compiles excused).pure (Artifact.agrees_dataflow settled.1 settled.2)
    · have alike := plain first second related.1 ⟨rfl, Bool.eq_false_iff.mpr unoptimized⟩
      exact (compiles excused).pure (Artifact.agrees_dataflow alike related.2)
  · refine (compiles excused).bind (compiles_lift parsed) fun program another same => ?_
    refine (compiles excused).bind (translated _ _ same) fun first second related => ?_
    refine (compiles excused).bind (optimizes first second related.1) fun _ _ settled => ?_
    exact (compiles excused).bind (compiles_loops settled.1)
      fun _ _ lowered => (compiles excused).pure (Artifact.agrees_loops lowered.1 lowered.2)
  · refine (compiles excused).bind (compiles_lift parsed) fun program another same => ?_
    refine (compiles excused).bind (translated _ _ same) fun first second related => ?_
    refine (compiles excused).bind (optimizes first second related.1) fun _ _ settled => ?_
    refine (compiles excused).bind (compiles_loops settled.1) fun _ _ lowered => ?_
    exact (compiles excused).bind_same (compiles_output lowered.1)
      fun text => (compiles excused).pure (Artifact.agrees_output text)

end Compiler

/-- Compilations end as their artifacts do, whatever was recorded. -/
theorem Source.outcomes_compile {source other : Source} {stage : Stage} {options : Options}
    {artifacts : Artifact → Artifact → Prop}
    (related : (compiles excused).Relates artifacts (Compiler.artifact source stage options)
      (Compiler.artifact other stage options)) :
    (outcomes excused).Relates artifacts (source.compile stage options).outcome
      (other.compile stage options).outcome := by
  have ends := related [] [] trivial
  rw [compile, compile]
  generalize Compiler.artifact source stage options [] = before at ends ⊢
  generalize Compiler.artifact other stage options [] = after at ends ⊢
  cases before <;> cases after <;> cases ends
  case ok.ok holds => exact outcomes_ok holds.1
  case error.error.error failed => exact .error failed
  all_goals exact .excused (by assumption)

end TensorLang
