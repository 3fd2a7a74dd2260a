import TensorLang.Error

/-!
# Computations that may fail

A computation in several steps succeeds just if every step does.  These lemmas take such a success
apart, for computations without a state, with a state that is kept on failure, and with a state that
is lost on failure.
-/

namespace TensorLang

namespace Except

variable {ε α β : Type}

theorem bind_eq_ok_iff {first : Except ε α} {next : α → Except ε β} {result : β} :
    (first >>= next) = .ok result ↔ ∃ value, first = .ok value ∧ next value = .ok result := by
  cases first <;> simp [bind, Except.bind]

theorem bind_unit_eq_ok_iff {first : Except ε Unit} {next : Unit → Except ε β} {result : β} :
    (first >>= next) = .ok result ↔ first = .ok () ∧ next () = .ok result := by
  cases first <;> simp [bind, Except.bind]

theorem map_eq_ok_iff {first : Except ε α} {change : α → β} {result : β} :
    (change <$> first) = .ok result ↔ ∃ value, first = .ok value ∧ change value = result := by
  cases first <;> simp [Functor.map, Except.map]

theorem pure_eq_ok_iff {value result : α} :
    (pure value : Except ε α) = .ok result ↔ value = result := by
  simp [pure, Except.pure]

theorem toOption_eq_some_iff {outcome : Except ε α} {result : α} :
    outcome.toOption = some result ↔ outcome = .ok result := by
  cases outcome <;> simp [Except.toOption]

theorem forM_eq_ok_iff {items : List α} {check : α → Except ε Unit} :
    items.forM check = .ok () ↔ ∀ item ∈ items, check item = .ok () := by
  induction items with
  | nil => simp [Except.pure_eq_ok_iff]
  | cons item items induction =>
      rw [List.forM_eq_forM] at induction ⊢
      rw [List.forM_cons, bind_unit_eq_ok_iff, induction]
      simp

theorem mapM_eq_ok_iff {items : List α} {step : α → Except ε β} {results : List β} :
    items.mapM step = .ok results ↔ items.map step = results.map .ok := by
  induction items generalizing results with
  | nil => cases results <;> simp [Except.pure_eq_ok_iff]
  | cons item items induction =>
      simp only [List.mapM_cons, bind_eq_ok_iff, pure_eq_ok_iff, induction, List.map_cons]
      constructor
      · rintro ⟨value, value_eq, values, values_eq, rfl⟩
        rw [value_eq, values_eq, List.map_cons]
      · intro equal
        cases results with
        | nil => cases equal
        | cons value values =>
            rw [List.map_cons, List.cons.injEq] at equal
            exact ⟨value, equal.1, values, equal.2, rfl⟩

/-- What a search finds passes the test. -/
theorem findM?_eq_some {items : List α} {test : α → Except ε Bool} {found : α}
    (success : items.findM? test = .ok (some found)) : found ∈ items ∧ test found = .ok true := by
  induction items with
  | nil => cases success
  | cons item items induction =>
      rw [List.findM?] at success
      obtain ⟨passes, test_eq, rest⟩ := bind_eq_ok_iff.mp success
      cases passes with
      | true =>
          obtain rfl := Option.some.inj (pure_eq_ok_iff.mp rest)
          exact ⟨List.mem_cons_self, test_eq⟩
      | false =>
          obtain ⟨member, found_eq⟩ := induction rest
          exact ⟨List.mem_cons_of_mem _ member, found_eq⟩

/-- A search finds nothing just if nothing passes the test. -/
theorem findM?_eq_none_iff {items : List α} {test : α → Except ε Bool} :
    items.findM? test = .ok none ↔ ∀ item ∈ items, test item = .ok false := by
  induction items with
  | nil => simp [List.findM?, pure_eq_ok_iff]
  | cons item items induction =>
      rw [List.forall_mem_cons, List.findM?, bind_eq_ok_iff, ← induction]
      constructor
      · rintro ⟨_ | _, test_eq, rest⟩
        · exact ⟨test_eq, rest⟩
        · cases rest
      · rintro ⟨test_eq, rest⟩
        exact ⟨false, test_eq, rest⟩

/-- A search ends if each test does. -/
theorem exists_findM? {items : List α} {test : α → Except ε Bool}
    (total : ∀ item ∈ items, ∃ passes, test item = .ok passes) :
    ∃ found, items.findM? test = .ok found := by
  induction items with
  | nil => exact ⟨none, rfl⟩
  | cons item items induction =>
      rw [List.forall_mem_cons] at total
      obtain ⟨passes, test_eq⟩ := total.1
      obtain ⟨found, found_eq⟩ := induction total.2
      cases passes with
      | true => exact ⟨some item, by rw [List.findM?, test_eq]; rfl⟩
      | false => exact ⟨found, by rw [List.findM?, test_eq]; exact found_eq⟩

theorem exists_allM {items : List α} {test : α → Except ε Bool}
    (total : ∀ item ∈ items, ∃ passes, test item = .ok passes) :
    ∃ all, items.allM test = .ok all := by
  induction items with
  | nil => exact ⟨true, rfl⟩
  | cons item items induction =>
      rw [List.forall_mem_cons] at total
      obtain ⟨passes, test_eq⟩ := total.1
      cases passes with
      | false => exact ⟨false, by rw [List.allM, test_eq]; rfl⟩
      | true =>
          obtain ⟨all, all_eq⟩ := induction total.2
          exact ⟨all, by rw [List.allM, test_eq]; exact all_eq⟩

theorem exists_mapM {items : List α} {step : α → Except ε β}
    (total : ∀ item ∈ items, ∃ result, step item = .ok result) :
    ∃ results, items.mapM step = .ok results := by
  induction items with
  | nil => exact ⟨[], rfl⟩
  | cons item items induction =>
      rw [List.forall_mem_cons] at total
      obtain ⟨result, result_eq⟩ := total.1
      obtain ⟨results, results_eq⟩ := induction total.2
      refine ⟨result :: results, ?_⟩
      rw [List.mapM_cons, result_eq, results_eq]
      rfl

end Except

namespace Option

variable {α β : Type}

theorem mapM_eq_some_iff {items : List α} {step : α → Option β} {results : List β} :
    items.mapM step = some results ↔ items.map step = results.map some := by
  induction items generalizing results with
  | nil => cases results <;> simp
  | cons item items induction =>
      simp only [List.mapM_cons, Option.bind_eq_bind, Option.bind_eq_some_iff, Option.pure_def,
        Option.some.injEq, induction, List.map_cons]
      constructor
      · rintro ⟨value, value_eq, values, values_eq, rfl⟩
        rw [value_eq, values_eq, List.map_cons]
      · intro equal
        cases results with
        | nil => cases equal
        | cons value values =>
            rw [List.map_cons, List.cons.injEq] at equal
            exact ⟨value, equal.1, values, equal.2, rfl⟩

end Option

namespace EStateM

variable {ε σ α β : Type}

theorem bind_eq_ok_iff {first : EStateM ε σ α} {next : α → EStateM ε σ β} {state final : σ}
    {result : β} :
    (first >>= next) state = .ok result final ↔
      ∃ value middle, first state = .ok value middle ∧ next value middle = .ok result final := by
  change EStateM.bind first next state = _ ↔ _
  rw [EStateM.bind]
  constructor
  · intro success
    split at success
    · exact ⟨_, _, by assumption, success⟩
    · cases success
  · rintro ⟨value, middle, first_eq, next_eq⟩
    rw [first_eq]
    exact next_eq

/-- What follows a step that succeeds. -/
theorem bind_of_ok {first : EStateM ε σ α} {next : α → EStateM ε σ β} {state middle : σ}
    {value : α} (success : first state = .ok value middle) :
    (first >>= next) state = next value middle := by
  change EStateM.bind first next state = _
  rw [EStateM.bind, success]

theorem pure_eq_ok_iff {value result : α} {state final : σ} :
    (pure value : EStateM ε σ α) state = .ok result final ↔ value = result ∧ state = final := by
  change (EStateM.Result.ok value state : EStateM.Result ε σ α) = _ ↔ _
  simp

theorem get_eq_ok_iff {state final result : σ} :
    (get : EStateM ε σ σ) state = .ok result final ↔ state = result ∧ state = final := by
  change (EStateM.Result.ok state state : EStateM.Result ε σ σ) = _ ↔ _
  simp

theorem set_eq_ok_iff {new state final : σ} {result : PUnit} :
    (set new : EStateM ε σ PUnit) state = .ok result final ↔ new = final := by
  change (EStateM.Result.ok PUnit.unit new : EStateM.Result ε σ PUnit) = _ ↔ _
  simp

theorem modify_eq_ok_iff {change : σ → σ} {state final : σ} {result : PUnit} :
    (modify change : EStateM ε σ PUnit) state = .ok result final ↔ change state = final := by
  change (EStateM.Result.ok PUnit.unit (change state) : EStateM.Result ε σ PUnit) = _ ↔ _
  simp

theorem throw_ne_ok {failure : ε} {state final : σ} {result : α} :
    (throw failure : EStateM ε σ α) state ≠ .ok result final := by
  change (EStateM.Result.error failure state : EStateM.Result ε σ α) ≠ _
  simp

end EStateM

namespace StateT

variable {ε σ α β : Type}

theorem bind_eq_ok_iff {first : StateT σ (Except ε) α} {next : α → StateT σ (Except ε) β}
    {state : σ} {outcome : β × σ} :
    (first >>= next) state = .ok outcome ↔
      ∃ value middle, first state = .ok (value, middle) ∧ next value middle = .ok outcome := by
  change StateT.bind first next state = _ ↔ _
  rw [StateT.bind, Except.bind_eq_ok_iff]
  exact ⟨fun ⟨pair, rest⟩ => ⟨pair.1, pair.2, rest⟩, fun ⟨_, _, rest⟩ => ⟨_, rest⟩⟩

theorem pure_eq_ok_iff {value : α} {state : σ} {outcome : α × σ} :
    (pure value : StateT σ (Except ε) α) state = .ok outcome ↔ (value, state) = outcome := by
  change (pure (value, state) : Except ε (α × σ)) = _ ↔ _
  rw [Except.pure_eq_ok_iff]

theorem get_eq_ok_iff {state : σ} {outcome : σ × σ} :
    (get : StateT σ (Except ε) σ) state = .ok outcome ↔ (state, state) = outcome := by
  change (pure (state, state) : Except ε (σ × σ)) = _ ↔ _
  rw [Except.pure_eq_ok_iff]

theorem set_eq_ok_iff {new state : σ} {outcome : PUnit × σ} :
    (set new : StateT σ (Except ε) PUnit) state = .ok outcome ↔ (⟨⟩, new) = outcome := by
  change (pure (⟨⟩, new) : Except ε (PUnit × σ)) = _ ↔ _
  rw [Except.pure_eq_ok_iff]

theorem modify_eq_ok_iff {change : σ → σ} {state : σ} {outcome : PUnit × σ} :
    (modify change : StateT σ (Except ε) PUnit) state = .ok outcome ↔
      (⟨⟩, change state) = outcome := by
  change (pure (⟨⟩, change state) : Except ε (PUnit × σ)) = _ ↔ _
  rw [Except.pure_eq_ok_iff]

/-- A step that has no state of its own leaves the state alone. -/
theorem lift_eq_ok_iff {step : Except ε α} {state : σ} {outcome : α × σ} :
    (liftM step : StateT σ (Except ε) α) state = .ok outcome ↔
      ∃ value, step = .ok value ∧ (value, state) = outcome := by
  change StateT.lift step state = _ ↔ _
  rw [StateT.lift, Except.bind_eq_ok_iff]
  simp only [Except.pure_eq_ok_iff]

end StateT

/-- An accepted text has the answer for it. -/
theorem Source.accept_eq_ok_iff {α : Type} {source : Source} {answer : Except Rejection α}
    {value : α} : source.accept answer = .ok value ↔ answer = .ok value := by
  cases answer with
  | ok => simp [accept]
  | error rejection =>
      refine ⟨fun success => ?_, fun success => by cases success⟩
      obtain ⟨_, -, failed⟩ := Except.bind_eq_ok_iff.mp success
      cases failed

end TensorLang
