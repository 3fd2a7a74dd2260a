import TensorLang.Proofs.Failing

/-!
# Computations that refuse

A computation may refuse to go on and report an error, but it must not break a promise.  These
statements follow a computation from a state: it ends with a result or with an error, each of which
has a property, and never in a fault.
-/

namespace TensorLang

namespace Outcome

variable {α β : Type} {outcome : Outcome α} {accepts others : α → Prop}
variable {refuses fewer : Error → Prop}

/-- The outcome is a value or an error, each with its property, and no fault. -/
def Delivers (outcome : Outcome α) (accepts : α → Prop) (refuses : Error → Prop) : Prop :=
  match outcome with
  | .ok value => accepts value
  | .error (.error error) => refuses error
  | .error .fault => False

namespace Delivers

theorem of_ok {value : α} (success : outcome = .ok value) (accepted : accepts value) :
    Delivers outcome accepts refuses := by
  rw [success]
  exact accepted

/-- Properties may be weakened, and of a value it is known how it came about. -/
theorem mono (delivers : Delivers outcome accepts fewer)
    (accepted : ∀ value, outcome = .ok value → accepts value → others value)
    (refused : ∀ error, outcome = .error (.error error) → fewer error → refuses error) :
    Delivers outcome others refuses := by
  cases outcome with
  | ok value => exact accepted value rfl delivers
  | error failure =>
      cases failure with
      | error error => exact refused error rfl delivers
      | fault => exact delivers

theorem bind {next : α → Outcome β} {accepts : β → Prop} (early : Delivers outcome others refuses)
    (late : ∀ value, outcome = .ok value → others value → Delivers (next value) accepts refuses) :
    Delivers (outcome >>= next) accepts refuses := by
  cases outcome with
  | ok value => exact late value rfl early
  | error failure =>
      cases failure with
      | error error => exact early
      | fault => exact early

theorem failAt {location : Location} {cause : Cause} (refused : refuses ⟨cause, some location⟩) :
    Delivers (Outcome.failAt location cause : Outcome α) accepts refuses := refused

theorem promised {value : α} {value? : Option α} (found : value? = some value)
    (accepted : accepts value) : Delivers (Outcome.promised value?) accepts refuses := by
  rw [found]
  exact accepted

/-- Steps over a list keep an invariant. -/
theorem foldlM {items : List β} {step : α → β → Outcome α} {invariant : α → Prop}
    (each : ∀ state, invariant state → ∀ item ∈ items,
      Delivers (step state item) invariant refuses) {start : α} (holds : invariant start) :
    Delivers (items.foldlM step start) invariant refuses := by
  induction items generalizing start with
  | nil => exact holds
  | cons item items induction =>
      rw [List.foldlM_cons]
      exact (each start holds item List.mem_cons_self).bind fun value _ kept =>
        induction (fun state held other member => each state held other
          (List.mem_cons_of_mem _ member)) kept

/-- A fold is refused for the reasons that its steps are refused for. -/
theorem foldlM_of_each {items : List β} {step : α → β → Outcome α} {start : α}
    (each : ∀ state, ∀ item ∈ items, Delivers (step state item) (fun _ => True) refuses) :
    Delivers (items.foldlM step start) (fun _ => True) refuses :=
  foldlM (fun state _ => each state) trivial

theorem forM {items : List α} {check : α → Outcome Unit}
    (each : ∀ item ∈ items, Delivers (check item) (fun _ => True) refuses) :
    Delivers (items.forM check) (fun _ => True) refuses := by
  induction items with
  | nil => exact trivial
  | cons item items induction =>
      rw [List.forM_eq_forM, List.forM_cons]
      exact (each item List.mem_cons_self).bind fun _ _ _ =>
        induction fun other member => each other (List.mem_cons_of_mem _ member)

/-- A value that comes out is not a fault. -/
theorem ne_fault (delivers : Delivers outcome accepts refuses) : outcome ≠ .error .fault := by
  rintro rfl
  exact delivers

theorem accepted (delivers : Delivers outcome accepts refuses) {value : α}
    (success : outcome = .ok value) : accepts value := by
  rw [success] at delivers
  exact delivers

theorem refused (delivers : Delivers outcome accepts refuses) {error : Error}
    (failure : outcome = .error (.error error)) : refuses error := by
  rw [failure] at delivers
  exact delivers

end Delivers

end Outcome

section Steps

variable {σ α β : Type} {first : EStateM Failure σ α} {state : σ} {middle : α → σ → Prop}
variable {accepts : α → σ → Prop} {refuses fewer : Error → σ → Prop}

/-- From the state on, the step ends with a result or an error, each with its property and with the
state that it leaves, and not in a fault. -/
def Delivers (step : EStateM Failure σ α) (state : σ) (accepts : α → σ → Prop)
    (refuses : Error → σ → Prop) : Prop :=
  match step state with
  | .ok value final => accepts value final
  | .error (.error error) final => refuses error final
  | .error .fault _ => False

namespace Delivers

theorem of_ok {value : α} {final : σ} (success : first state = .ok value final)
    (accepted : accepts value final) : Delivers first state accepts refuses := by
  rw [Delivers, success]
  exact accepted

theorem of_error {error : Error} {final : σ} (failure : first state = .error (.error error) final)
    (refused : refuses error final) : Delivers first state accepts refuses := by
  rw [Delivers, failure]
  exact refused

/-- Properties may be weakened, and of a result it is known how it came about. -/
theorem mono (delivers : Delivers first state middle fewer)
    (accepted : ∀ value final, first state = .ok value final → middle value final →
      accepts value final)
    (refused : ∀ error final, first state = .error (.error error) final → fewer error final →
      refuses error final) : Delivers first state accepts refuses := by
  rw [Delivers] at delivers ⊢
  split at delivers
  · exact accepted _ _ (by assumption) delivers
  · exact refused _ _ (by assumption) delivers
  · exact delivers

/-- What a step gives when it succeeds may be found out apart. -/
theorem of_success (delivers : Delivers first state (fun _ _ => True) refuses)
    (accepted : ∀ value final, first state = .ok value final → accepts value final) :
    Delivers first state accepts refuses :=
  delivers.mono (fun value final success _ => accepted value final success) fun _ _ _ refused =>
    refused

theorem bind {next : α → EStateM Failure σ β} {accepts : β → σ → Prop}
    (early : Delivers first state middle refuses)
    (late : ∀ value final, first state = .ok value final → middle value final →
      Delivers (next value) final accepts refuses) :
    Delivers (first >>= next) state accepts refuses := by
  change match EStateM.bind first next state with
    | .ok value final => accepts value final
    | .error (.error error) final => refuses error final
    | .error .fault _ => False
  rw [Delivers] at early
  rw [EStateM.bind]
  split at early
  · rename_i value final success
    rw [success]
    exact late value final success early
  · rename_i failure
    rw [failure]
    exact early
  · exact early.elim

/-- What is accepted may be weakened. -/
theorem mono_accepted {others : α → σ → Prop} (delivers : Delivers first state middle refuses)
    (accepted : ∀ value final, middle value final → others value final) :
    Delivers first state others refuses :=
  delivers.mono (fun value final _ => accepted value final) fun _ _ _ refused => refused

/-- A step that succeeds, and what follows it. -/
theorem bind_ok {next : α → EStateM Failure σ β} {accepts : β → σ → Prop} {value : α} {final : σ}
    (success : first state = .ok value final)
    (late : Delivers (next value) final accepts refuses) :
    Delivers (first >>= next) state accepts refuses :=
  (of_ok success trivial).bind fun result other success' (_ : True) => by
    rw [success] at success'
    obtain ⟨rfl, rfl⟩ := EStateM.Result.ok.inj success'
    exact late

theorem forM {items : List β} {step : β → EStateM Failure σ PUnit} {invariant : σ → Prop}
    (each : ∀ state, invariant state → ∀ item ∈ items,
      Delivers (step item) state (fun _ => invariant) refuses) (holds : invariant state) :
    Delivers (items.forM step) state (fun _ => invariant) refuses := by
  induction items generalizing state with
  | nil => exact holds
  | cons item items induction =>
      rw [List.forM_eq_forM, List.forM_cons]
      exact (each state holds item List.mem_cons_self).bind fun _ final _ kept =>
        induction (fun between held next member => each between held next
          (List.mem_cons_of_mem _ member)) kept

end Delivers

end Steps

end TensorLang
