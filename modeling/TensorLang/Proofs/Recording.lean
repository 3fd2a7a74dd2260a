import TensorLang.Compilation
import TensorLang.Proofs.Listing
import TensorLang.Proofs.Refusing

/-!
# Recorded modules

A compiler step may record modules on the way.  Modules are recorded before they are verified, but
the passes leave verified modules only, so whatever is recorded can be shown.
-/

namespace TensorLang

/-- The snapshot can be shown. -/
def Snapshot.Readable (snapshot : Snapshot) : Prop := ∀ ink, ∃ text, snapshot.text ink = .ok text

theorem Snapshot.readable_dataflow (pass : String) {module : Dataflow.Module}
    (accepted : module.verify = .ok ()) : (Snapshot.dataflow pass module).Readable := by
  intro ink
  obtain ⟨text, text_eq⟩ := Dataflow.Module.exists_listing
    (fun function member => Dataflow.Function.verify_eq_ok_iff.mp
      (Except.forM_eq_ok_iff.mp accepted function member)) ⟨ink, true⟩
  exact ⟨_, by simp only [Snapshot.text, text_eq]; rfl⟩

theorem Snapshot.readable_loops (pass : String) {module : Loop.Module}
    (accepted : ∀ function ∈ module.functions, function.verify = .ok ()) :
    (Snapshot.loops pass module).Readable := by
  intro ink
  obtain ⟨text, text_eq⟩ := Loop.Module.exists_listing accepted ink
  exact ⟨_, by simp only [Snapshot.text, text_eq]; rfl⟩

namespace Compiler

variable {α β : Type} {options : Options} {before middle after : List Snapshot}

/-- What is recorded after `before` can be shown. -/
def Records (before after : List Snapshot) : Prop :=
  ∃ new, after = before ++ new ∧ ∀ snapshot ∈ new, snapshot.Readable

theorem Records.refl : Records before before := ⟨[], by simp⟩

theorem Records.trans (early : Records before middle) (late : Records middle after) :
    Records before after := by
  obtain ⟨first, rfl, first_readable⟩ := early
  obtain ⟨second, rfl, second_readable⟩ := late
  exact ⟨first ++ second, List.append_assoc .., List.forall_mem_append.mpr
    ⟨first_readable, second_readable⟩⟩

/-- From any snapshots on, the step gives the value. -/
def Yields (step : Compiler α) (value : α) : Prop :=
  ∀ before, ∃ after, step before = .ok value after ∧ Records before after

namespace Yields

theorem pure (value : α) : Yields (Pure.pure value) value := fun before => ⟨before, rfl, .refl⟩

theorem bind {step : Compiler α} {next : α → Compiler β} {value : α} {result : β}
    (early : Yields step value) (late : Yields (next value) result) :
    Yields (step >>= next) result := by
  intro before
  obtain ⟨middle, step_eq, early_records⟩ := early before
  obtain ⟨after, next_eq, late_records⟩ := late middle
  exact ⟨after, EStateM.bind_eq_ok_iff.mpr ⟨value, middle, step_eq, next_eq⟩,
    early_records.trans late_records⟩

theorem lift {outcome : Outcome α} {value : α} (success : outcome = .ok value) :
    Yields (liftM outcome : Compiler α) value := by
  rw [success]
  exact fun before => ⟨before, rfl, .refl⟩

end Yields

theorem lift_eq_ok_iff {outcome : Outcome α} {result : α} :
    (liftM outcome : Compiler α) before = .ok result after ↔
      outcome = .ok result ∧ before = after := by
  cases outcome with
  | ok value =>
      change (EStateM.Result.ok value before : EStateM.Result Failure _ α) = _ ↔ _
      simp
  | error failure =>
      change (EStateM.Result.error failure before : EStateM.Result Failure _ α) = _ ↔ _
      simp

/-- From any snapshots on, the step ends with a value or an error, each with its property, and not
in a fault. -/
def Ends (step : Compiler α) (accepts : α → Prop) (refuses : Cause → Prop) : Prop :=
  ∀ before, Delivers step before (fun value after => accepts value ∧ Records before after)
    fun error after => refuses error.cause ∧ Records before after

namespace Ends

variable {step : Compiler α} {next : α → Compiler β} {accepts others : α → Prop}
variable {refuses fewer : Cause → Prop}

/-- Properties may be weakened, and of a value it is known how it came about. -/
theorem mono (ends : Ends step others fewer)
    (accepted : ∀ value before after, step before = .ok value after → others value → accepts value)
    (refused : ∀ cause, fewer cause → refuses cause) : Ends step accepts refuses := fun before =>
  (ends before).mono
    (fun value after success ended => ⟨accepted value before after success ended.1, ended.2⟩)
    fun error _ _ ended => ⟨refused error.cause ended.1, ended.2⟩

theorem bind {accepts : β → Prop} (early : Ends step others refuses)
    (late : ∀ value, others value → Ends (next value) accepts refuses) :
    Ends (step >>= next) accepts refuses := by
  intro before
  refine (early before).bind fun value middle _ ended => ?_
  exact (late value ended.1 middle).mono
    (fun _ _ _ last => ⟨last.1, ended.2.trans last.2⟩)
    fun _ _ _ last => ⟨last.1, ended.2.trans last.2⟩

theorem pure {value : α} (accepted : accepts value) : Ends (Pure.pure value) accepts refuses :=
  fun _ => ⟨accepted, .refl⟩

/-- What an outcome delivers it delivers as a step. -/
theorem lift {outcome : Outcome α}
    (delivers : outcome.Delivers accepts fun error => refuses error.cause) :
    Ends (liftM outcome : Compiler α) accepts refuses := by
  intro before
  cases outcome with
  | ok value => exact ⟨delivers, .refl⟩
  | error failure =>
      cases failure with
      | error error => exact ⟨delivers, .refl⟩
      | fault => exact delivers

end Ends

theorem Yields.ends {step : Compiler α} {value : α} {accepts : α → Prop} {refuses : Cause → Prop}
    (yields : Yields step value) (accepted : accepts value) : Ends step accepts refuses := by
  intro before
  obtain ⟨after, step_eq, records⟩ := yields before
  exact .of_ok step_eq ⟨accepted, records⟩

/-- A step that yields a value, and what follows it. -/
theorem Yields.ends_bind {step : Compiler α} {next : α → Compiler β} {value : α}
    {accepts : β → Prop} {refuses : Cause → Prop} (early : Yields step value)
    (late : Ends (next value) accepts refuses) : Ends (step >>= next) accepts refuses := by
  have yields : Ends step (fun result => result = value) refuses := early.ends rfl
  exact yields.bind fun _ same => same ▸ late

/-- Recording does not fail. -/
theorem yields_record (options : Options) {snapshot : Snapshot} (readable : snapshot.Readable) :
    Yields (record options snapshot) () := by
  intro before
  rw [record]
  split
  · exact ⟨_, rfl, [snapshot], rfl, List.forall_mem_singleton.mpr readable⟩
  · exact ⟨_, rfl, .refl⟩

theorem yields_verified (options : Options) (pass : String) {module : Dataflow.Module}
    (accepted : module.verify = .ok ()) : Yields (verified options pass module) () :=
  (yields_record options (Snapshot.readable_dataflow pass accepted)).bind (.lift accepted)

theorem verified_eq_ok {pass : String} {module : Dataflow.Module} {result : Unit}
    (success : verified options pass module before = .ok result after) :
    module.verify = .ok () := by
  obtain ⟨_, _, -, checked⟩ := EStateM.bind_eq_ok_iff.mp success
  exact (lift_eq_ok_iff.mp checked).1

end Compiler

end TensorLang
