import TensorLang.Proofs.Failing

/-!
# Computations that blame known locations

An error may name the location of the construct to blame.  These statements follow a computation
from a state: if it fails, the failure names no other locations than known ones.  What it gives has
a property, so that a location that is looked up on the way is known to be one of them too.
-/

namespace TensorLang

/-- If the failure names a location, it is a known one. -/
def Failure.Within (failure : Failure) (known : Location → Prop) : Prop :=
  match failure with
  | .error blaming => ∀ location ∈ blaming.location, known location
  | .fault => True

theorem Failure.within_of_located {known : Location → Prop} {location : Location} {cause : Cause}
    (known_location : known location) : (Failure.error ⟨cause, some location⟩).Within known := by
  rintro _ ⟨⟩
  exact known_location

theorem Failure.within_of_unlocated {known : Location → Prop} {cause : Cause} :
    (Failure.error ⟨cause, none⟩).Within known := nofun

namespace Outcome

variable {α β : Type} {known : Location → Prop} {outcome : Outcome α} {gives others : α → Prop}

/-- The outcome is a value with the property, or a failure that names a known location if any. -/
def Within (outcome : Outcome α) (known : Location → Prop) (gives : α → Prop) : Prop :=
  match outcome with
  | .ok value => gives value
  | .error failure => failure.Within known

namespace Within

theorem pure {value : α} (given : gives value) :
    Within (Pure.pure value) known gives := given

theorem mono (within : Within outcome known others) (given : ∀ value, others value → gives value) :
    Within outcome known gives := by
  cases outcome with
  | ok value => exact given value within
  | error failure => exact within

/-- Nothing needs to be known of the value. -/
theorem trivial (within : Within outcome known gives) : Within outcome known fun _ => True :=
  within.mono fun _ _ => True.intro

theorem bind {next : α → Outcome β} {gives : β → Prop} (early : Within outcome known others)
    (late : ∀ value, others value → Within (next value) known gives) :
    Within (outcome >>= next) known gives := by
  cases outcome with
  | ok value => exact late value early
  | error failure => exact early

/-- A check that may fail, and what follows it. -/
theorem guard {condition : Prop} [Decidable condition] {check : Outcome Unit}
    {next : Unit → Outcome α} (refused : Within check known fun _ => True)
    (rest : Within (next ()) known gives) :
    Within (if condition then check >>= next else next ()) known gives := by
  split
  · exact refused.bind fun _ _ => rest
  · exact rest

theorem failAt {location : Location} {cause : Cause} (known_location : known location) :
    Within (Outcome.failAt location cause) known gives :=
  Failure.within_of_located known_location

theorem fail {cause : Cause} : Within (Outcome.fail cause) known gives :=
  Failure.within_of_unlocated

theorem promised {value? : Option α} :
    Within (Outcome.promised value?) known fun value => value? = some value := by
  cases value? with
  | some value => exact rfl
  | none => exact True.intro

/-- Steps over a list keep an invariant. -/
theorem foldlM {items : List β} {step : α → β → Outcome α} {invariant : α → Prop}
    (each : ∀ state, invariant state → ∀ item ∈ items, Within (step state item) known invariant)
    {start : α} (holds : invariant start) : Within (items.foldlM step start) known invariant := by
  induction items generalizing start with
  | nil => exact holds
  | cons item items induction =>
      rw [List.foldlM_cons]
      exact (each start holds item List.mem_cons_self).bind fun value kept =>
        induction (fun state held other member => each state held other
          (List.mem_cons_of_mem _ member)) kept

/-- Nothing is known of what goes from step to step. -/
theorem foldlM_of_each {items : List β} {step : α → β → Outcome α} {start : α}
    (each : ∀ state, ∀ item ∈ items, Within (step state item) known fun _ => True) :
    Within (items.foldlM step start) known fun _ => True :=
  foldlM (fun state _ => each state) True.intro

theorem forM {items : List α} {check : α → Outcome Unit}
    (each : ∀ item ∈ items, Within (check item) known fun _ => True) :
    Within (items.forM check) known fun _ => True := by
  induction items with
  | nil => exact True.intro
  | cons item items induction =>
      rw [List.forM_eq_forM, List.forM_cons]
      exact (each item List.mem_cons_self).bind fun _ _ =>
        induction fun other member => each other (List.mem_cons_of_mem _ member)

/-- What is made of the items of a list has the property that each of the steps gives. -/
theorem mapM {items : List α} {step : α → Outcome β} {gives : β → Prop}
    (each : ∀ item ∈ items, Within (step item) known gives) :
    Within (items.mapM step) known fun results => ∀ result ∈ results, gives result := by
  induction items with
  | nil => exact List.forall_mem_nil _
  | cons item items induction =>
      rw [List.mapM_cons]
      refine (each item List.mem_cons_self).bind fun result given => ?_
      refine (induction fun other member => each other (List.mem_cons_of_mem _ member)).bind
        fun results rest => ?_
      exact .pure (List.forall_mem_cons.mpr ⟨given, rest⟩)

theorem findM? {items : List α} {test : α → Outcome Bool}
    (each : ∀ item ∈ items, Within (test item) known fun _ => True) :
    Within (items.findM? test) known fun _ => True := by
  induction items with
  | nil => exact True.intro
  | cons item items induction =>
      rw [List.findM?]
      refine (each item List.mem_cons_self).bind fun passes _ => ?_
      cases passes with
      | true => exact True.intro
      | false => exact induction fun other member => each other (List.mem_cons_of_mem _ member)

theorem allM {items : List α} {test : α → Outcome Bool}
    (each : ∀ item ∈ items, Within (test item) known fun _ => True) :
    Within (items.allM test) known fun _ => True := by
  induction items with
  | nil => exact True.intro
  | cons item items induction =>
      rw [List.allM]
      refine (each item List.mem_cons_self).bind fun passes _ => ?_
      cases passes with
      | true => exact induction fun other member => each other (List.mem_cons_of_mem _ member)
      | false => exact True.intro

end Within

end Outcome

section Steps

variable {σ α β : Type} {known : Location → Prop} {holds : σ → Prop} {step : EStateM Failure σ α}
variable {gives others : α → Prop}

/-- From a state with an invariant, the step leads to a state with it, also when it fails.  A value
that it gives has the property, and if it names a location to blame, this is a known one. -/
def StaysWithin (known : Location → Prop) (holds : σ → Prop) (step : EStateM Failure σ α)
    (gives : α → Prop) : Prop :=
  ∀ state, holds state →
    match step state with
    | .ok value final => gives value ∧ holds final
    | .error failure final => failure.Within known ∧ holds final

namespace StaysWithin

/-- More locations may be known. -/
theorem more {others : Location → Prop} (weaken : ∀ {location}, known location → others location)
    (stays : StaysWithin known holds step gives) : StaysWithin others holds step gives := by
  intro state held
  have reached := stays state held
  split at reached
  · exact reached
  · refine ⟨?_, reached.2⟩
    rename_i failure _ _
    cases failure with
    | fault => exact True.intro
    | error blaming => exact fun location found => weaken (reached.1 location found)

theorem bind {next : α → EStateM Failure σ β} {gives : β → Prop}
    (early : StaysWithin known holds step others)
    (late : ∀ value, others value → StaysWithin known holds (next value) gives) :
    StaysWithin known holds (step >>= next) gives := by
  intro state held
  have reached := early state held
  change match EStateM.bind step next state with
    | .ok value final => gives value ∧ holds final
    | .error failure final => failure.Within known ∧ holds final
  rw [EStateM.bind]
  split at reached
  · rename_i value middle success
    rw [success]
    exact late value reached.1 middle reached.2
  · rename_i failure
    rw [failure]
    exact reached

theorem pure {value : α} (given : gives value) : StaysWithin known holds (Pure.pure value) gives :=
  fun _ held => ⟨given, held⟩

theorem throw {failure : Failure} (within : failure.Within known) :
    StaysWithin known holds (throw failure : EStateM Failure σ α) gives :=
  fun _ held => ⟨within, held⟩

/-- A check that may fail, and what follows it. -/
theorem guard {condition : Prop} [Decidable condition] {check : EStateM Failure σ Unit}
    {next : Unit → EStateM Failure σ α} (refused : StaysWithin known holds check fun _ => True)
    (rest : StaysWithin known holds (next ()) gives) :
    StaysWithin known holds (if condition then check >>= next else next ()) gives := by
  split
  · exact refused.bind fun _ _ => rest
  · exact rest

theorem get : StaysWithin known holds (get : EStateM Failure σ σ) holds :=
  fun _ held => ⟨held, held⟩

theorem set {new : σ} (held : holds new) :
    StaysWithin known holds (set new : EStateM Failure σ PUnit) fun _ => True :=
  fun _ _ => ⟨True.intro, held⟩

theorem modify {change : σ → σ} (each : ∀ state, holds state → holds (change state)) :
    StaysWithin known holds (modify change : EStateM Failure σ PUnit) fun _ => True :=
  fun state held => ⟨True.intro, each state held⟩

theorem modifyGet {change : σ → α × σ} (each : ∀ state, holds state → holds (change state).2) :
    StaysWithin known holds (modifyGet change : EStateM Failure σ α) fun _ => True :=
  fun state held => ⟨True.intro, each state held⟩

theorem foldlM {items : List β} {next : α → β → EStateM Failure σ α} {start : α}
    (each : ∀ value, ∀ item ∈ items, StaysWithin known holds (next value item) fun _ => True) :
    StaysWithin known holds (items.foldlM next start) fun _ => True := by
  induction items generalizing start with
  | nil => exact .pure True.intro
  | cons item items induction =>
      rw [List.foldlM_cons]
      exact (each start item List.mem_cons_self).bind fun value _ =>
        induction fun value other member => each value other (List.mem_cons_of_mem _ member)

theorem forM {items : List β} {next : β → EStateM Failure σ PUnit}
    (each : ∀ item ∈ items, StaysWithin known holds (next item) fun _ => True) :
    StaysWithin known holds (items.forM next) fun _ => True := by
  induction items with
  | nil => exact .pure True.intro
  | cons item items induction =>
      rw [List.forM_eq_forM, List.forM_cons]
      exact (each item List.mem_cons_self).bind fun _ _ =>
        induction fun other member => each other (List.mem_cons_of_mem _ member)

theorem mapM {items : List β} {next : β → EStateM Failure σ α}
    (each : ∀ item, StaysWithin known holds (next item) fun _ => True) :
    StaysWithin known holds (items.mapM next) fun _ => True := by
  induction items with
  | nil => exact .pure True.intro
  | cons item items induction =>
      rw [List.mapM_cons]
      exact (each item).bind fun _ _ => induction.bind fun _ _ => .pure True.intro

end StaysWithin

end Steps

end TensorLang
