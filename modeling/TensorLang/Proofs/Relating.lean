import Mathlib.Data.List.Forall2
import TensorLang.Proofs.Failing

/-!
# Computations side by side

Two runs of one program on different data are compared step by step.  A relator says when two
computations of a monad are related: then so are the values that they return, and sequences of
related steps are related again.  Computations that may fail end alike, with related values or with
errors that differ at most in their location; or the first is excused if it fails, and nothing is
said of the second.
-/

namespace TensorLang

/-- When computations of a monad are related. -/
structure Relator (m : Type → Type) [Monad m] where
  /-- The computations are related, and so are the values that they return. -/
  Relates : {α β : Type} → (α → β → Prop) → m α → m β → Prop
  /-- Related values may be returned. -/
  pure : ∀ {α β : Type} {values : α → β → Prop} {left : α} {right : β},
    values left right → Relates values (pure left) (pure right)
  /-- Related steps may follow each other. -/
  bind : ∀ {α β γ δ : Type} {values : α → β → Prop} {results : γ → δ → Prop} {left : m α}
    {right : m β} {lefts : α → m γ} {rights : β → m δ}, Relates values left right →
    (∀ first second, values first second → Relates results (lefts first) (rights second)) →
    Relates results (left >>= lefts) (right >>= rights)

namespace Relator

variable {m : Type → Type} [Monad m] (relator : Relator m)
variable {α β γ δ : Type} {values items : α → β → Prop} {results : γ → δ → Prop}

theorem ite {condition : Prop} [Decidable condition] {left other : m α} {right another : m β}
    (holds : condition → relator.Relates values left right)
    (fails : ¬ condition → relator.Relates values other another) :
    relator.Relates values (if condition then left else other)
      (if condition then right else another) := by
  split
  · exact holds (by assumption)
  · exact fails (by assumption)

/-- Computations that return the same may be followed by related steps for each value. -/
theorem bind_same {left right : m α} (same : relator.Relates Eq left right)
    {lefts : α → m γ} {rights : α → m δ}
    (next : ∀ value, relator.Relates results (lefts value) (rights value)) :
    relator.Relates results (left >>= lefts) (right >>= rights) :=
  relator.bind same fun value _ equal => equal ▸ next value

/-- Nothing follows computations that cannot both return. -/
theorem stop {left : m α} {right : m β} (stopped : relator.Relates (fun _ _ => False) left right)
    {lefts : α → m γ} {rights : β → m δ} :
    relator.Relates results (left >>= lefts) (right >>= rights) :=
  relator.bind stopped fun _ _ impossible => impossible.elim

/-- Two related steps, of which one is taken, may be followed by the same related steps. -/
theorem branch {condition : Prop} [Decidable condition] {left other : m α} {right another : m β}
    {lefts : α → m γ} {rights : β → m δ} (holds : condition → relator.Relates values left right)
    (fails : ¬ condition → relator.Relates values other another)
    (next : ∀ first second, values first second →
      relator.Relates results (lefts first) (rights second)) :
    relator.Relates results (if condition then left >>= lefts else other >>= lefts)
      (if condition then right >>= rights else another >>= rights) :=
  relator.ite (fun condition => relator.bind (holds condition) next)
    fun condition => relator.bind (fails condition) next

/-! ### Lists -/

theorem foldlM {lefts : List α} {rights : List β} (listed : List.Forall₂ items lefts rights)
    {step : γ → α → m γ} {steps : δ → β → m δ}
    (each : ∀ first second, results first second → ∀ left right, items left right →
      relator.Relates results (step first left) (steps second right)) {first : γ} {second : δ}
    (start : results first second) :
    relator.Relates results (lefts.foldlM step first) (rights.foldlM steps second) := by
  induction listed generalizing first second with
  | nil => exact relator.pure start
  | cons head _ induction =>
      rw [List.foldlM_cons, List.foldlM_cons]
      exact relator.bind (each first second start _ _ head) fun _ _ => induction

theorem findM? (listed : List α) {test other : α → m Bool}
    (each : ∀ item, relator.Relates Eq (test item) (other item)) :
    relator.Relates Eq (listed.findM? test) (listed.findM? other) := by
  induction listed with
  | nil => exact relator.pure rfl
  | cons head _ induction =>
      refine relator.bind (each head) ?_
      rintro (_ | _) _ rfl
      · exact induction
      · exact relator.pure rfl

variable [LawfulMonad m]

theorem mono {more : α → β → Prop} {left : m α} {right : m β}
    (related : relator.Relates values left right)
    (weaker : ∀ first second, values first second → more first second) :
    relator.Relates more left right := by
  rw [← bind_pure left, ← bind_pure right]
  exact relator.bind related fun first second holds => relator.pure (weaker first second holds)

theorem map {left : m α} {right : m β} (related : relator.Relates values left right)
    {change : α → γ} {another : β → δ}
    (changed : ∀ first second, values first second → results (change first) (another second)) :
    relator.Relates results (change <$> left) (another <$> right) := by
  rw [map_eq_pure_bind, map_eq_pure_bind]
  exact relator.bind related fun first second holds => relator.pure (changed first second holds)

theorem mapM {lefts : List α} {rights : List β} (listed : List.Forall₂ items lefts rights)
    {step : α → m γ} {steps : β → m δ}
    (each : ∀ left right, items left right → relator.Relates results (step left) (steps right)) :
    relator.Relates (List.Forall₂ results) (lefts.mapM step) (rights.mapM steps) := by
  induction listed with
  | nil =>
      rw [List.mapM_nil, List.mapM_nil]
      exact relator.pure .nil
  | cons head _ induction =>
      rw [List.mapM_cons, List.mapM_cons]
      refine relator.bind (each _ _ head) fun _ _ first => ?_
      exact relator.bind induction fun _ _ rest => relator.pure (.cons first rest)

theorem mapM_same (listed : List α) {step steps : α → m γ}
    (each : ∀ item, relator.Relates Eq (step item) (steps item)) :
    relator.Relates Eq (listed.mapM step) (listed.mapM steps) := by
  induction listed with
  | nil =>
      rw [List.mapM_nil, List.mapM_nil]
      exact relator.pure rfl
  | cons head _ induction =>
      rw [List.mapM_cons, List.mapM_cons]
      refine relator.bind_same (each head) fun _ => ?_
      exact relator.bind_same induction fun _ => relator.pure rfl

omit [LawfulMonad m] in
theorem forM {lefts : List α} {rights : List β} (listed : List.Forall₂ items lefts rights)
    {step : α → m PUnit} {steps : β → m PUnit}
    (each : ∀ left right, items left right → relator.Relates Eq (step left) (steps right)) :
    relator.Relates Eq (lefts.forM step) (rights.forM steps) := by
  induction listed with
  | nil => exact relator.pure rfl
  | cons head _ induction =>
      rw [List.forM_eq_forM, List.forM_eq_forM, List.forM_cons, List.forM_cons]
      exact relator.bind (each _ _ head) fun _ _ _ => induction

end Relator

/-! ### Failures -/

/-- The computations end alike: with related values, or with related errors.  A first computation
that is excused may fail on its own. -/
inductive EndAlike {ε α β : Type} (excused : Prop) (errors : ε → ε → Prop)
    (values : α → β → Prop) : Except ε α → Except ε β → Prop
  /-- Both return. -/
  | ok {left : α} {right : β} (related : values left right) :
      EndAlike excused errors values (.ok left) (.ok right)
  /-- Both fail. -/
  | error {left right : ε} (related : errors left right) :
      EndAlike excused errors values (.error left) (.error right)
  /-- The first fails and is excused. -/
  | excused (excuse : excused) {left : ε} {right : Except ε β} :
      EndAlike excused errors values (.error left) right

/-- Computations that end alike are related. -/
def Relator.except {ε : Type} (excused : Prop) (errors : ε → ε → Prop) : Relator (Except ε) where
  Relates := EndAlike excused errors
  pure := .ok
  bind := by
    rintro _ _ _ _ _ _ _ _ _ _ (related | related | excuse) next
    · exact next _ _ related
    · exact .error related
    · exact .excused excuse

/-- The same failure, but for the location. -/
inductive Failure.Alike : Failure → Failure → Prop
  /-- Both promises are broken. -/
  | fault : Alike .fault .fault
  /-- No construct is to blame. -/
  | fail (cause : Cause) : Alike (.error ⟨cause, none⟩) (.error ⟨cause, none⟩)
  /-- Some construct is to blame. -/
  | failAt (cause : Cause) (left right : Location) :
      Alike (.error ⟨cause, some left⟩) (.error ⟨cause, some right⟩)

/-- Outcomes that are the same but for locations of errors. -/
def outcomes (excused : Prop) : Relator (Except Failure) := .except excused Failure.Alike

theorem rel_map {α β γ δ : Type} {values : α → β → Prop} {results : γ → δ → Prop}
    {left : Option α} {right : Option β} (related : Option.Rel values left right) {change : α → γ}
    {another : β → δ} (changed : ∀ first second, values first second →
      results (change first) (another second)) :
    Option.Rel results (left.map change) (right.map another) := by
  cases related with
  | none => exact .none
  | some holds => exact .some (changed _ _ holds)

section Outcomes

variable {excused : Prop} {α β : Type} {values : α → β → Prop}

theorem outcomes_ok {left : α} {right : β} (related : values left right) :
    (outcomes excused).Relates values (.ok left) (.ok right) := .ok related

theorem outcomes_failAt (cause : Cause) (left right : Location) :
    (outcomes excused).Relates values (Outcome.failAt left cause) (Outcome.failAt right cause) :=
  .error (.failAt cause left right)

theorem outcomes_fail (cause : Cause) :
    (outcomes excused).Relates values (Outcome.fail cause) (Outcome.fail cause) :=
  .error (.fail cause)

theorem outcomes_promised {left : Option α} {right : Option β}
    (related : Option.Rel values left right) :
    (outcomes excused).Relates values (Outcome.promised left) (Outcome.promised right) := by
  cases related with
  | some related => exact .ok related
  | none => exact .error .fault

/-- Where the first returns, both return. -/
theorem outcomes_eq_ok {left : Outcome α} {right : Outcome β} {value : α}
    (related : (outcomes excused).Relates values left right) (success : left = .ok value) :
    ∃ result, right = .ok result ∧ values value result := by
  subst success
  cases related with
  | ok related => exact ⟨_, rfl, related⟩

/-- An excused computation is related to every one that returns where it does. -/
theorem outcomes_of_eq_ok {left : Outcome α} {right : Outcome β}
    (returns : ∀ value, left = .ok value → ∃ result, right = .ok result ∧ values value result) :
    (outcomes True).Relates values left right := by
  cases left with
  | ok value =>
      obtain ⟨result, rfl, related⟩ := returns value rfl
      exact outcomes_ok related
  | error failure => exact .excused trivial

/-- What the first outcome is known to return may be added. -/
theorem outcomes_and {left : Outcome α} {right : Outcome β} {holds : α → Prop}
    (related : (outcomes excused).Relates values left right)
    (accepted : ∀ value, left = .ok value → holds value) :
    (outcomes excused).Relates (fun first second => values first second ∧ holds first)
      left right := by
  cases related with
  | ok related => exact .ok ⟨related, accepted _ rfl⟩
  | error related => exact .error related
  | excused excuse => exact .excused excuse

/-- An outcome is related to itself. -/
theorem outcomes_refl (outcome : Outcome α) : (outcomes excused).Relates Eq outcome outcome := by
  cases outcome with
  | ok value => exact .ok rfl
  | error failure =>
      cases failure with
      | fault => exact .error .fault
      | error error =>
          obtain ⟨cause, _ | location⟩ := error
          · exact .error (.fail cause)
          · exact .error (.failAt cause location location)

end Outcomes

/-! ### States -/

section States

variable {α β σ : Type}

/-- Values and states are related. -/
def Paired (values : α → β → Prop) (states : σ → σ → Prop) (left : α × σ) (right : β × σ) : Prop :=
  values left.1 right.1 ∧ states left.2 right.2

/-- The value and the state that a run ends with, unless it fails. -/
def ending {ε : Type} : EStateM.Result ε σ α → Except ε (α × σ)
  | .ok value state => .ok (value, state)
  | .error failure _ => .error failure

/-- Computations that lead from related states to related ends are related. -/
def Relator.estate (excused : Prop) (states : σ → σ → Prop) : Relator (EStateM Failure σ) where
  Relates values left right := ∀ first second, states first second →
    (outcomes excused).Relates (Paired values states) (ending (left first)) (ending (right second))
  pure related first second same := .ok ⟨related, same⟩
  bind := by
    intro _ _ _ _ values results left right lefts rights related next first second same
    have early := related first second same
    change (outcomes excused).Relates _ (ending (EStateM.bind left lefts first))
      (ending (EStateM.bind right rights second))
    rw [EStateM.bind, EStateM.bind]
    generalize left first = before at early ⊢
    generalize right second = after at early ⊢
    cases before <;> cases after <;> cases early
    case ok.ok holds => exact next _ _ holds.1 _ _ holds.2
    case error.error.error failed => exact .error failed
    all_goals exact .excused (by assumption)

/-- Computations that lead from related states to related ends are related. -/
def Relator.state {m : Type → Type} [Monad m] (relator : Relator m) (states : σ → σ → Prop) :
    Relator (StateT σ m) where
  Relates values left right := ∀ first second, states first second →
    relator.Relates (Paired values states) (left first) (right second)
  pure related first second same := relator.pure ⟨related, same⟩
  bind := by
    intro _ _ _ _ values results left right lefts rights related next first second same
    exact relator.bind (related first second same) fun before after holds =>
      next before.1 after.1 holds.1 before.2 after.2 holds.2

end States

end TensorLang
