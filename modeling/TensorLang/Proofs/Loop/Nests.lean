import TensorLang.Loop.OfDataflow
import TensorLang.Proofs.Loop.Checks
import TensorLang.Proofs.Tensor.Indices

/-!
# Loop nests

A nest of loops, one for each dimension, runs its body once for each index tuple in row-major order.
So what a nest does is shown for one tuple, with the number of tuples that are done as the index of
an invariant.
-/

namespace TensorLang

namespace Loop

/-- Loops around a body, the first pair outermost. -/
def nested (pairs : List (LoopVariableId × Nat)) (body : List Instruction) : List Instruction :=
  pairs.foldr (fun (counter, dimension) inner => [.loop counter 0 dimension 1 inner]) body

theorem iterations_zero_one (dimension : Nat) : iterations 0 dimension 1 = dimension := by
  rw [iterations, Nat.div_one]
  omega

/-- Inside of a nest, the last value of a loop variable is known. -/
theorem Surroundings.lookup_nested {surroundings : Surroundings}
    {pairs : List (LoopVariableId × Nat)} (distinct : (pairs.map Prod.fst).Nodup)
    (loops_eq : surroundings.loops =
      pairs.map fun (counter, dimension) => (counter, lastValue 0 dimension 1))
    (counter : LoopVariableId) (dimension : Nat) (member : (counter, dimension) ∈ pairs) :
    surroundings.loops.lookup counter = some (lastValue 0 dimension 1) := by
  obtain ⟨front, back, rfl⟩ := List.append_of_mem member
  have apart : ∀ pair ∈ front, counter ≠ pair.1 := by
    rintro pair pair_mem rfl
    rw [List.map_append, List.nodup_append] at distinct
    exact distinct.2.2 pair.1 (List.mem_map_of_mem pair_mem) pair.1
      (by rw [List.map_cons]; exact List.mem_cons_self) rfl
  rw [loops_eq, List.lookup_eq_some_iff, List.map_append, List.map_cons]
  refine ⟨_, _, rfl, fun entry entry_mem => ?_⟩
  obtain ⟨pair, pair_mem, rfl⟩ := List.mem_map.mp entry_mem
  simpa using apart pair pair_mem

theorem RunState.get?_withCounter {state : RunState} {counter : LoopVariableId} (value : Nat)
    (inside : counter.index < state.counters.size) (other : LoopVariableId) :
    (state.withCounter counter value).counters.get? other.index =
      if other = counter then some value else state.counters.get? other.index := by
  obtain ⟨index⟩ := counter
  obtain ⟨place⟩ := other
  rw [withCounter, Cells.get?_set]
  simp only [Handle.mk.injEq]
  by_cases same : place = index
  · subst same
    rw [if_pos ⟨rfl, inside⟩, if_pos rfl]
  · rw [if_neg fun both => same both.1.symm, if_neg same]

private theorem Run.repeatStep_invariant {step : Run Control} {counter : LoopVariableId}
    {count : Nat} (holds : Nat → RunState → Prop)
    (turns : ∀ turn < count, ∀ state, counter.index < state.counters.size → holds turn state →
      ∀ control final, step (state.withCounter counter turn) = .ok control final →
        control = .proceed ∧ holds (turn + 1) final)
    {state final : RunState} {control : Control} (start : holds 0 state)
    (success : Run.repeatStep step counter 1 count 0 state = .ok control final) :
    control = .proceed ∧ holds count final := by
  -- The repetitions that are left start at any turn.
  have general : ∀ left done state, done + left = count → holds done state →
      Run.repeatStep step counter 1 left done state = .ok control final →
      control = .proceed ∧ holds count final := by
    intro left
    induction left with
    | zero =>
        intro done state total reached success
        obtain ⟨rfl, rfl⟩ := EStateM.pure_eq_ok_iff.mp success
        rw [Nat.add_zero] at total
        exact ⟨rfl, total ▸ reached⟩
    | succ left induction =>
        intro done state total reached success
        obtain ⟨inside, first, middle, first_eq, rest⟩ :=
          Run.repeatStep_succ_eq_ok_iff.mp success
        obtain ⟨rfl, next⟩ := turns done (by omega) state inside reached first middle first_eq
        exact induction (done + 1) middle (by omega) next rest
  exact general count 0 state (Nat.zero_add count) start success

namespace Function

variable {function : Function}

/-- A nest that succeeds runs its body once for each index tuple, in row-major order. -/
theorem runBlock_nested {pairs : List (LoopVariableId × Nat)} {body : List Instruction}
    (distinct : (pairs.map Prod.fst).Nodup) (holds : Nat → RunState → Prop)
    (stable : ∀ position state id value, id ∈ pairs.map Prod.fst →
      id.index < state.counters.size → holds position state →
      holds position (state.withCounter id value))
    (turns : ∀ position tuple,
      (Shape.indexTuples (pairs.map Prod.snd))[position]? = some tuple →
      ∀ state control final, holds position state →
        pairs.map (fun pair => state.counters.get? pair.1.index) = tuple.map some →
        function.runBlock body state = .ok control final →
        control = .proceed ∧ final.counters = state.counters ∧ holds (position + 1) final)
    {state final : RunState} {control : Control} (start : holds 0 state)
    (success : function.runBlock (nested pairs body) state = .ok control final) :
    control = .proceed ∧ holds (Shape.mk (pairs.map Prod.snd)).size final := by
  induction pairs generalizing holds state final control with
  | nil =>
      obtain ⟨proceeds, -, done⟩ := turns 0 [] rfl state control final start rfl success
      exact ⟨proceeds, done⟩
  | cons pair rest induction =>
      obtain ⟨counter, dimension⟩ := pair
      rw [List.map_cons, List.nodup_cons] at distinct
      obtain ⟨first, middle, first_eq, rest_eq⟩ := runBlock_cons_eq_ok_iff.mp success
      obtain ⟨-, repeated⟩ := runInstruction_loop_eq_ok_iff.mp first_eq
      rw [iterations_zero_one] at repeated
      let size := (Shape.mk (rest.map Prod.snd)).size
      have outer : first = .proceed ∧ holds (dimension * size) middle := by
        refine Run.repeatStep_invariant (fun turn state => holds (turn * size) state) ?_
          (by simpa using start) repeated
        intro turn running state inside reached control final ran
        have inner := induction distinct.2 (fun position state =>
          holds (turn * size + position) state ∧
            state.counters.get? counter.index = some turn) ?_ ?_ ⟨?_, ?_⟩ ran
        · rw [Nat.succ_mul]
          exact ⟨inner.1, inner.2.1⟩
        · rintro position state id value member there ⟨reached, turn_eq⟩
          refine ⟨stable _ _ _ _ (List.mem_cons_of_mem _ member) there reached, ?_⟩
          have apart : counter ≠ id := fun same => distinct.1 (same ▸ member)
          rw [RunState.get?_withCounter value there, if_neg apart, turn_eq]
        · rintro position tuple found state control final ⟨reached, turn_eq⟩ read ran
          have below : position < size := by
            have inside := (List.getElem?_eq_some_iff.mp found).1
            rwa [Shape.length_indexTuples] at inside
          have whole : (Shape.indexTuples (((counter, dimension) :: rest).map Prod.snd))[
              turn * size + position]? = some (turn :: tuple) := by
            rw [List.map_cons, Shape.indexTuples,
              Shape.getElem?_flatMap_range _ (by simp [size]) running below, List.getElem?_map,
              found]
            rfl
          obtain ⟨proceeds, same, next⟩ := turns _ _ whole state control final reached
            (by rw [List.map_cons, List.map_cons, turn_eq, read]) ran
          exact ⟨proceeds, same, next, by rw [same, turn_eq]⟩
        · exact stable _ _ _ _ List.mem_cons_self inside reached
        · rw [RunState.get?_withCounter turn inside, if_pos rfl]
      obtain ⟨rfl, reached⟩ := outer
      obtain ⟨rfl, rfl⟩ := runBlock_nil_eq_ok_iff.mp rest_eq
      exact ⟨rfl, reached⟩

/-- The loop variables of an accepted nest exist, and differ from each other and from those around
it; and the body is accepted inside of all of them. -/
theorem checkBlock_nested {pairs : List (LoopVariableId × Nat)} {body : List Instruction}
    {surroundings : Surroundings} {progress after : Progress}
    (accepted : function.checkBlock surroundings progress (nested pairs body) = .ok after) :
    (pairs.map Prod.fst).Nodup ∧
      (∀ id ∈ pairs.map Prod.fst, surroundings.loops.lookup id = none ∧
        id.index < function.loopVariableCount) ∧
      ∃ inner finished, function.checkBlock inner progress body = .ok finished ∧
        inner.loops = surroundings.loops ++
          pairs.map fun (counter, dimension) => (counter, lastValue 0 dimension 1) := by
  induction pairs generalizing surroundings after with
  | nil => exact ⟨List.nodup_nil, by simp, surroundings, after, accepted, by simp⟩
  | cons pair rest induction =>
      obtain ⟨counter, dimension⟩ := pair
      obtain ⟨middle, loop, -⟩ := checkBlock_cons_eq_ok_iff.mp accepted
      obtain ⟨around, finished, entered, checked, -⟩ := checkInstruction_loop_eq_ok_iff.mp loop
      obtain ⟨inside, fresh, -, -, around_eq⟩ := enterLoop_eq_ok entered
      obtain ⟨distinct, apart, inner, done, inner_checked, inner_eq⟩ := induction checked
      simp only [around_eq, List.lookup_append, Option.or_eq_none_iff] at apart
      refine ⟨List.nodup_cons.mpr ⟨fun member => ?_, distinct⟩, ?_, inner, done, inner_checked, ?_⟩
      · have refused := (apart counter member).1.2
        simp at refused
      · intro id member
        rcases List.mem_cons.mp member with rfl | later
        · exact ⟨fresh, inside⟩
        · exact ⟨(apart id later).1.1, (apart id later).2⟩
      · rw [inner_eq, around_eq, List.append_assoc]
        rfl

end Function

end Loop

end TensorLang
