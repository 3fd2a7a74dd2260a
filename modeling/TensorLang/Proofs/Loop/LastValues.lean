import TensorLang.Proofs.Loop.Safety
import TensorLang.Proofs.Tensor.Words

/-!
# Last values of loop variables

The verifier computes the last value of a loop variable by one division, and compares it with the
dimension that the variable indexes.  The last value is the greatest of the values that the variable
takes when the loop runs, so the verifier refuses an index exactly when one of these values is out
of bounds.
-/

namespace TensorLang

namespace Loop

variable {lower upper step : Nat}

/-- The values that the variable of a loop takes, in the order of the turns. -/
def loopValues (lower upper step : Nat) : List Nat :=
  (List.range (iterations lower upper step)).map fun turn => lower + turn * step

theorem Instruction.steps_loop (advances : 0 < step) (counter : LoopVariableId)
    (body : List Instruction) :
    (Instruction.loop counter lower upper step body).steps =
      (loopValues lower upper step).flatMap fun value =>
        .assign counter value :: blockSteps body := by
  rw [Instruction.steps, if_neg (Nat.ne_of_gt advances), loopValues, List.flatMap_map]

/-! ### The values of a loop variable -/

/-- A loop has another turn just if its variable stays below the upper bound. -/
theorem lt_iterations_iff (advances : 0 < step) {turn : Nat} :
    turn < iterations lower upper step ↔ lower + turn * step < upper := by
  rw [iterations, Nat.lt_iff_add_one_le, Nat.le_div_iff_mul_le advances, Nat.succ_mul]
  omega

theorem mem_loopValues_iff (advances : 0 < step) {value : Nat} :
    value ∈ loopValues lower upper step ↔ value < upper ∧ ∃ turn, value = lower + turn * step := by
  simp only [loopValues, List.mem_map, List.mem_range, lt_iterations_iff advances]
  constructor
  · rintro ⟨turn, below, rfl⟩
    exact ⟨below, turn, rfl⟩
  · rintro ⟨below, turn, rfl⟩
    exact ⟨turn, below, rfl⟩

theorem ascending_loopValues (advances : 0 < step) :
    (loopValues lower upper step).Pairwise (· < ·) := by
  rw [loopValues, List.pairwise_map]
  refine List.pairwise_lt_range.imp fun less => ?_
  exact Nat.add_lt_add_left (Nat.mul_lt_mul_of_pos_right less advances) lower

theorem lastValue_eq_none_iff (advances : 0 < step) :
    lastValue lower upper step = none ↔ loopValues lower upper step = [] := by
  rw [loopValues, List.map_eq_nil_iff, List.range_eq_nil, lastValue]
  have first_turn : 0 < iterations lower upper step ↔ lower + 0 * step < upper :=
    lt_iterations_iff advances
  rw [Nat.zero_mul, Nat.add_zero] at first_turn
  split
  · exact iff_of_false (Option.some_ne_none _) (by omega)
  · exact iff_of_true rfl (by omega)

theorem lastValue_greatest (advances : 0 < step) {last : Nat}
    (last_eq : lastValue lower upper step = some last) :
    last ∈ loopValues lower upper step ∧ ∀ value ∈ loopValues lower upper step, value ≤ last := by
  constructor
  · rw [lastValue] at last_eq
    split at last_eq
    · obtain rfl := Option.some.inj last_eq
      have room := Nat.div_mul_le_self (upper - lower - 1) step
      exact (mem_loopValues_iff advances).mpr ⟨by omega, _, rfl⟩
    · cases last_eq
  · intro value member
    obtain ⟨turn, running, rfl⟩ := List.mem_map.mp member
    obtain ⟨known, known_eq, below⟩ :=
      turn_le_lastValue (Nat.ne_of_gt advances) (List.mem_range.mp running)
    rw [last_eq] at known_eq
    rwa [Option.some.inj known_eq]

example : loopValues 1 6 2 = [1, 3, 5] ∧ lastValue 1 6 2 = some 5 := by decide

/-! ### The loops around an instruction -/

/-- The variable and the bounds of a loop. -/
structure Header where
  /-- The variable. -/
  counter : LoopVariableId
  /-- The first value, unless it is the upper bound. -/
  lower : Nat
  /-- The bound that all values stay below. -/
  upper : Nat
  /-- What is added after each turn. -/
  step : Nat

namespace Function

variable {function : Function} {surroundings : Surroundings} {headers : List Header}

/-- The verifier has entered loops one inside of the other, the first header outermost. -/
inductive Entered (function : Function) : List Header → Surroundings → Prop where
  | outside : Entered function [] .outside
  | inside {headers : List Header} {surroundings inner : Surroundings} {header : Header}
      {body : List Instruction} (around : Entered function headers surroundings)
      (entered : function.enterLoop surroundings header.counter header.lower header.upper
        header.step body = .ok inner) :
      Entered function (headers ++ [header]) inner

/-- The verifier has noted the last value of every loop that it is in. -/
theorem Entered.lookup {header : Header} (entered : Entered function headers surroundings)
    (member : header ∈ headers) :
    surroundings.loops.lookup header.counter =
      some (lastValue header.lower header.upper header.step) := by
  induction entered with
  | outside => cases member
  | inside around entered induction =>
      obtain ⟨-, fresh, -, -, inner_eq⟩ := enterLoop_eq_ok entered
      rw [inner_eq, List.lookup_append]
      rcases List.mem_append.mp member with outer | innermost
      · rw [induction outer, Option.some_or]
      · obtain rfl := List.mem_singleton.mp innermost
        rw [fresh, Option.none_or, List.lookup_cons_self]

/-! ### The check of an index -/

variable {progress : Progress} {buffer : BufferId} {shape : Shape}

theorem checkBounds_cons {index : Index} {dimension : Nat}
    (bounds : surroundings.Bounds dimension index) (rest : List (Index × Nat)) :
    function.checkBounds surroundings buffer shape ((index, dimension) :: rest) =
      function.checkBounds surroundings buffer shape rest := by
  cases index with
  | constant value => rw [checkBounds, if_neg (Nat.not_le.mpr bounds)]
  | loopVariable id =>
      obtain ⟨last?, found, below⟩ := bounds
      have none_beyond : last?.filter (fun last => decide (dimension ≤ last)) = none := by
        rw [Option.filter_eq_none_iff]
        intro last last_eq
        simpa using below last last_eq
      simp only [checkBounds, found, none_beyond]

private theorem checkBounds_append {dimensions : List Nat} {front : List Index}
    (covers : surroundings.Covers dimensions front) (rest : List (Index × Nat)) :
    function.checkBounds surroundings buffer shape (front.zip dimensions ++ rest) =
      function.checkBounds surroundings buffer shape rest := by
  induction dimensions generalizing front with
  | nil =>
      cases front with
      | nil => rfl
      | cons index front => exact covers.elim
  | cons dimension dimensions induction =>
      cases front with
      | nil => exact covers.elim
      | cons index front =>
          rw [List.zip_cons_cons, List.cons_append, checkBounds_cons covers.1, induction covers.2]

theorem checkBounds_refuses {counter : LoopVariableId} {dimension last : Nat}
    (found : surroundings.loops.lookup counter = some (some last)) (beyond : dimension ≤ last)
    (rest : List (Index × Nat)) :
    function.checkBounds surroundings buffer shape ((.loopVariable counter, dimension) :: rest) =
      function.invalid
        (s!"{counter.text} reaches {last}, out of bounds for {buffer.text} " ++
          s!"of shape {shape.text}") surroundings.location := by
  simp only [checkBounds, found, Option.filter_some, decide_eq_true beyond, if_true]

/-- The check of indices into a live buffer comes to a loop variable: those in front of it fit, and
`rest` is behind it. -/
structure ComesTo (function : Function) (surroundings : Surroundings) (progress : Progress)
    (buffer : BufferId) (shape : Shape) (indices : List Index) (counter : LoopVariableId)
    (dimension : Nat) (rest : List (Index × Nat)) : Prop where
  /-- The buffer exists. -/
  known : ∃ found, function.buffers.get? buffer = some found ∧ found.shape = shape
  /-- The buffer is live. -/
  live : progress.buffers[buffer.index]? = some .live
  /-- There are as many indices as dimensions, and they are split at the loop variable. -/
  splits : ∃ front back outer inner, indices = front ++ .loopVariable counter :: back ∧
    shape.dimensions = outer ++ dimension :: inner ∧ surroundings.Covers outer front ∧
    back.length = inner.length ∧ rest = back.zip inner

theorem ComesTo.checkIndices_eq {indices : List Index} {counter : LoopVariableId} {dimension : Nat}
    {rest : List (Index × Nat)}
    (comes : ComesTo function surroundings progress buffer shape indices counter dimension rest) :
    function.checkIndices surroundings progress buffer indices =
      function.checkBounds surroundings buffer shape
        ((.loopVariable counter, dimension) :: rest) := by
  obtain ⟨found, found_eq, rfl⟩ := comes.known
  obtain ⟨front, back, outer, inner, rfl, dimensions_eq, covers, back_length, rfl⟩ := comes.splits
  have usable : function.usableBuffer progress buffer = .ok found :=
    usableBuffer_eq_ok_iff.mpr ⟨found_eq, comes.live⟩
  have length_eq : (front ++ .loopVariable counter :: back).length = found.shape.rank := by
    rw [Shape.rank, dimensions_eq, List.length_append, List.length_append, covers.length_eq,
      List.length_cons, List.length_cons, back_length]
  have zip_eq : (front ++ .loopVariable counter :: back).zip found.shape.dimensions =
      front.zip outer ++ (.loopVariable counter, dimension) :: back.zip inner := by
    rw [dimensions_eq, List.zip_append covers.length_eq, List.zip_cons_cons]
  rw [checkIndices, usable]
  change (if (front ++ .loopVariable counter :: back).length ≠ found.shape.rank then _ else _) = _
  rw [if_neg (Decidable.not_not.mpr length_eq), zip_eq, checkBounds_append covers]

end Function

/-- The verifier knows the last value of a loop with these bounds. -/
structure ExactLastValue (lower upper step : Nat) : Prop where
  /-- The loop runs its body once for each of the values, which its variable has before each turn.
  -/
  runs : ∀ (function : Function) counter body,
    function.runInstruction (.loop counter lower upper step body) =
      function.runSteps ((loopValues lower upper step).flatMap fun value =>
        .assign counter value :: blockSteps body)
  /-- The values are those that are so many steps from the lower bound and below the upper one. -/
  mem_iff : ∀ value, value ∈ loopValues lower upper step ↔
    value < upper ∧ ∃ turn, value = lower + turn * step
  /-- The values grow from turn to turn. -/
  ascending : (loopValues lower upper step).Pairwise (· < ·)
  /-- There is no last value just if there is no turn. -/
  none_iff : lastValue lower upper step = none ↔ loopValues lower upper step = []
  /-- The last value is the greatest one. -/
  greatest : ∀ last, lastValue lower upper step = some last →
    last ∈ loopValues lower upper step ∧ ∀ value ∈ loopValues lower upper step, value ≤ last
  /-- It is computed with words, without an overflow on the way. -/
  word : Word.lastValue lower upper step = .ok (lastValue lower upper step)
  /-- An index is passed over if all values of its loop are in bounds. -/
  passes : ∀ (function : Function) headers surroundings progress buffer shape indices counter
    dimension rest, Function.Entered function headers surroundings →
    ⟨counter, lower, upper, step⟩ ∈ headers →
    function.ComesTo surroundings progress buffer shape indices counter dimension rest →
    (∀ value ∈ loopValues lower upper step, value < dimension) →
    function.checkIndices surroundings progress buffer indices =
      function.checkBounds surroundings buffer shape rest
  /-- An index is refused if some value of its loop is not in bounds. -/
  refuses : ∀ (function : Function) headers surroundings progress buffer shape indices counter
    dimension rest, Function.Entered function headers surroundings →
    ⟨counter, lower, upper, step⟩ ∈ headers →
    function.ComesTo surroundings progress buffer shape indices counter dimension rest →
    (∃ value ∈ loopValues lower upper step, dimension ≤ value) →
    ∃ last, lastValue lower upper step = some last ∧
      function.checkIndices surroundings progress buffer indices = function.invalid
        (s!"{counter.text} reaches {last}, out of bounds for {buffer.text} " ++
          s!"of shape {shape.text}") surroundings.location

/-- The last value is exact for all bounds and steps that the verifier accepts. -/
theorem exactLastValue_of_proper (advances : 0 < step) (word : upper < countBound) :
    ExactLastValue lower upper step where
  runs := fun function counter body => by
    rw [function.runInstruction_eq_runSteps, Instruction.steps_loop advances]
  mem_iff := fun _ => mem_loopValues_iff advances
  ascending := ascending_loopValues advances
  none_iff := lastValue_eq_none_iff advances
  greatest := fun _ => lastValue_greatest advances
  word := Word.lastValue_of_lt (Nat.ne_of_gt advances) word
  passes := by
    intro function headers surroundings progress buffer shape indices counter dimension rest entered
      member comes inside
    rw [comes.checkIndices_eq]
    have bounds : surroundings.Bounds dimension (.loopVariable counter) :=
      ⟨_, entered.lookup member, fun last last_eq =>
        inside last (lastValue_greatest advances last_eq).1⟩
    exact Function.checkBounds_cons bounds rest
  refuses := by
    rintro function headers surroundings progress buffer shape indices counter dimension
      rest entered member comes ⟨value, value_mem, beyond⟩
    cases last_eq : lastValue lower upper step with
    | none =>
        rw [(lastValue_eq_none_iff advances).mp last_eq] at value_mem
        cases value_mem
    | some last =>
        have value_le := (lastValue_greatest advances last_eq).2 value value_mem
        refine ⟨last, rfl, ?_⟩
        rw [comes.checkIndices_eq]
        refine Function.checkBounds_refuses ?_ (Nat.le_trans beyond value_le) rest
        rw [entered.lookup member, last_eq]

theorem exactLastValue_of_proper_longStep :
    0 < 6148914691236517206 ∧ 18446744073709551615 < countBound ∧
      ExactLastValue 3 18446744073709551615 6148914691236517206 := by
  have advances : 0 < 6148914691236517206 := by decide
  have word : 18446744073709551615 < countBound := by decide
  exact ⟨advances, word, exactLastValue_of_proper advances word⟩

end Loop

end TensorLang
