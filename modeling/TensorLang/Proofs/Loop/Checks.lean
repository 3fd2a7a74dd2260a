import TensorLang.Loop.Verification
import TensorLang.Proofs.Loop.Steps

/-!
# What an accepted instruction fulfils

For each instruction this module says what must hold for the check to accept it, and what is known
afterwards.  Inside a loop nothing becomes known about buffers.
-/

namespace TensorLang

namespace Loop

namespace Surroundings

/-- An index stays below a dimension: a loop variable does if its last value does. -/
def Bounds (surroundings : Surroundings) (dimension : Nat) : Index → Prop
  | .constant value => value < dimension
  | .loopVariable id =>
      ∃ last?, surroundings.loops.lookup id = some last? ∧
        ∀ last, last? = some last → last < dimension

/-- Every index of a tuple stays below its dimension. -/
def Covers (surroundings : Surroundings) : List Nat → List Index → Prop
  | [], [] => True
  | dimension :: dimensions, index :: indices =>
      surroundings.Bounds dimension index ∧ surroundings.Covers dimensions indices
  | _, _ => False

theorem Covers.length_eq {surroundings : Surroundings} {dimensions : List Nat}
    {indices : List Index} (covers : surroundings.Covers dimensions indices) :
    indices.length = dimensions.length := by
  induction dimensions generalizing indices with
  | nil =>
      cases indices with
      | nil => rfl
      | cons index indices => exact covers.elim
  | cons dimension dimensions induction =>
      cases indices with
      | nil => exact covers.elim
      | cons index indices => simpa using induction covers.2

end Surroundings

namespace Function

variable {function : Function} {surroundings : Surroundings} {progress after : Progress}
variable {isLast : Bool}

theorem invalid_ne_ok {α : Type} {message : String} {location : Option Location} {result : α} :
    function.invalid message location ≠ .ok result := by
  intro success
  cases success

theorem checkOutside_eq_ok_iff {instruction : String} {result : Unit} :
    function.checkOutside surroundings instruction = .ok result ↔ surroundings.loops = [] := by
  rw [checkOutside, Surroundings.areNone, ← List.isEmpty_iff]
  split
  · exact iff_of_true rfl (by assumption)
  · exact iff_of_false invalid_ne_ok (by assumption)

theorem knownBuffer_eq_ok_iff {buffer : BufferId} {found : Buffer} :
    function.knownBuffer buffer = .ok found ↔ function.buffers.get? buffer = some found := by
  rw [knownBuffer]
  cases function.buffers.get? buffer with
  | none => exact iff_of_false invalid_ne_ok (by simp)
  | some known => simp

theorem usableBuffer_eq_ok_iff {buffer : BufferId} {found : Buffer} :
    function.usableBuffer progress buffer = .ok found ↔
      function.buffers.get? buffer = some found ∧
        progress.buffers[buffer.index]? = some .live := by
  simp only [usableBuffer, Except.bind_eq_ok_iff, knownBuffer_eq_ok_iff]
  constructor
  · rintro ⟨known, known_eq, success⟩
    split at success
    · obtain rfl := Except.pure_eq_ok_iff.mp success
      exact ⟨known_eq, by assumption⟩
    · exact absurd success invalid_ne_ok
    · exact absurd success invalid_ne_ok
  · rintro ⟨found_eq, live⟩
    refine ⟨found, found_eq, ?_⟩
    rw [live]
    rfl

theorem checkBounds_eq_ok_iff {buffer : BufferId} {shape : Shape} {dimensions : List Nat}
    {indices : List Index} {result : Unit} (length_eq : indices.length = dimensions.length) :
    function.checkBounds surroundings buffer shape (indices.zip dimensions) = .ok result ↔
      surroundings.Covers dimensions indices := by
  induction indices generalizing dimensions with
  | nil =>
      cases dimensions with
      | nil => simp [checkBounds, Surroundings.Covers]
      | cons dimension dimensions => cases length_eq
  | cons index indices induction =>
      cases dimensions with
      | nil => cases length_eq
      | cons dimension dimensions =>
          have rest := induction (Nat.succ.inj length_eq)
          rw [List.zip_cons_cons, Surroundings.Covers]
          cases index with
          | constant value =>
              rw [checkBounds]
              split
              · refine iff_of_false invalid_ne_ok fun covers => ?_
                exact absurd covers.1 (Nat.not_lt.mpr (by assumption))
              · rw [rest]
                exact (and_iff_right (Nat.not_le.mp (by assumption))).symm
          | loopVariable id =>
              rw [checkBounds, Surroundings.Bounds]
              cases surroundings.loops.lookup id with
              | none => exact iff_of_false invalid_ne_ok (by simp)
              | some last? =>
                  cases last? with
                  | none => simpa using rest
                  | some last =>
                      by_cases beyond : dimension ≤ last
                      · have kept : (some last).filter (fun last => decide (dimension ≤ last)) =
                            some last := by
                          rw [Option.filter_some, if_pos (decide_eq_true beyond)]
                        simp only [kept]
                        exact iff_of_false invalid_ne_ok (by simp; omega)
                      · have dropped : (some last).filter (fun last => decide (dimension ≤ last)) =
                            none := by
                          rw [Option.filter_some, if_neg (by simpa using beyond)]
                        simp only [dropped]
                        simpa [Nat.not_le.mp beyond] using rest

theorem checkIndices_eq_ok_iff {buffer : BufferId} {indices : List Index} {result : Unit} :
    function.checkIndices surroundings progress buffer indices = .ok result ↔
      ∃ found, function.buffers.get? buffer = some found ∧
        progress.buffers[buffer.index]? = some .live ∧
        surroundings.Covers found.shape.dimensions indices := by
  simp only [checkIndices, Except.bind_eq_ok_iff, usableBuffer_eq_ok_iff]
  constructor
  · rintro ⟨found, ⟨found_eq, live⟩, success⟩
    split at success
    · exact absurd success invalid_ne_ok
    · rename_i same
      exact ⟨found, found_eq, live,
        (checkBounds_eq_ok_iff (Decidable.not_not.mp same)).mp success⟩
  · rintro ⟨found, found_eq, live, covers⟩
    refine ⟨found, ⟨found_eq, live⟩, ?_⟩
    rw [Shape.rank, if_neg (Decidable.not_not.mpr covers.length_eq)]
    exact (checkBounds_eq_ok_iff covers.length_eq).mpr covers

theorem checkOperand_eq_ok_iff {value : Operand} {result : Unit} :
    function.checkOperand progress value = .ok result ↔
      ∀ register ∈ value.registers, register ∈ progress.visible := by
  cases value with
  | immediate value => simp [checkOperand, Operand.registers]
  | register register =>
      rw [checkOperand]
      split
      · simpa [Operand.registers] using by assumption
      · exact iff_of_false invalid_ne_ok (by simpa [Operand.registers] using by assumption)

theorem writeRegister_eq_ok_iff {register : RegisterId} :
    function.writeRegister progress register = .ok after ↔
      register.index < function.registerCount ∧ ¬ progress.written.contains register.index ∧
        after = { progress with
          visible := progress.visible ++ [register]
          written := progress.written.insert register.index } := by
  rw [writeRegister]
  split
  · rename_i refused
    exact iff_of_false invalid_ne_ok (by grind)
  · rename_i accepted
    rw [not_or, Nat.not_le] at accepted
    simp [accepted, eq_comm]

theorem enterLoop_eq_ok {counter : LoopVariableId} {lower upper step : Nat}
    {body : List Instruction} {inner : Surroundings}
    (entered : function.enterLoop surroundings counter lower upper step body = .ok inner) :
    counter.index < function.loopVariableCount ∧ surroundings.loops.lookup counter = none ∧
      step ≠ 0 ∧ lower ≤ upper ∧
      inner.loops = surroundings.loops ++ [(counter, lastValue lower upper step)] := by
  rw [enterLoop] at entered
  split at entered
  · exact absurd entered invalid_ne_ok
  · split at entered
    · exact absurd entered invalid_ne_ok
    · rename_i fresh proper
      rw [not_or, Nat.not_le, Bool.not_eq_true, Option.isSome_eq_false_iff,
        Option.isNone_iff_eq_none] at fresh
      rw [not_or, Nat.not_lt] at proper
      obtain rfl := Except.ok.inj entered
      exact ⟨fresh.1, fresh.2, proper.1, proper.2, rfl⟩

theorem checkInstruction_alloc_eq_ok_iff {buffer : BufferId} :
    function.checkInstruction surroundings isLast progress (.alloc buffer) = .ok after ↔
      surroundings.loops = [] ∧ (∃ found, function.buffers.get? buffer = some found) ∧
        ¬ progress.buffers.contains buffer.index ∧
        after = { progress with buffers := progress.buffers.insert buffer.index .live } := by
  simp only [checkInstruction, Except.bind_eq_ok_iff, checkOutside_eq_ok_iff,
    knownBuffer_eq_ok_iff]
  constructor
  · rintro ⟨_, outside, found, found_eq, success⟩
    split at success
    · exact absurd success invalid_ne_ok
    · exact ⟨outside, ⟨found, found_eq⟩, by assumption, (Except.pure_eq_ok_iff.mp success).symm⟩
  · rintro ⟨outside, ⟨found, found_eq⟩, fresh, rfl⟩
    refine ⟨⟨⟩, outside, found, found_eq, ?_⟩
    rw [if_neg fresh]
    rfl

theorem checkInstruction_dealloc_eq_ok_iff {buffer : BufferId} :
    function.checkInstruction surroundings isLast progress (.dealloc buffer) = .ok after ↔
      surroundings.loops = [] ∧ (∃ found, function.buffers.get? buffer = some found) ∧
        progress.buffers[buffer.index]? = some .live ∧
        after = { progress with buffers := progress.buffers.insert buffer.index .released } := by
  simp only [checkInstruction, Except.bind_eq_ok_iff, checkOutside_eq_ok_iff,
    usableBuffer_eq_ok_iff, Except.pure_eq_ok_iff]
  constructor
  · rintro ⟨_, outside, found, ⟨found_eq, live⟩, after_eq⟩
    exact ⟨outside, ⟨found, found_eq⟩, live, after_eq.symm⟩
  · rintro ⟨outside, ⟨found, found_eq⟩, live, after_eq⟩
    exact ⟨⟨⟩, outside, found, ⟨found_eq, live⟩, after_eq.symm⟩

theorem checkInstruction_load_eq_ok_iff {destination : RegisterId} {buffer : BufferId}
    {indices : List Index} :
    function.checkInstruction surroundings isLast progress (.load destination buffer indices) =
        .ok after ↔
      function.checkIndices surroundings progress buffer indices = .ok () ∧
        function.writeRegister progress destination = .ok after := by
  simp only [checkInstruction, Except.bind_unit_eq_ok_iff]

theorem checkInstruction_store_eq_ok_iff {value : Operand} {buffer : BufferId}
    {indices : List Index} :
    function.checkInstruction surroundings isLast progress (.store value buffer indices) =
        .ok after ↔
      function.checkOperand progress value = .ok () ∧
        function.checkIndices surroundings progress buffer indices = .ok () ∧
        progress = after := by
  simp only [checkInstruction, Except.bind_unit_eq_ok_iff, Except.pure_eq_ok_iff]

theorem checkInstruction_arithmetic_eq_ok_iff {operator : Arithmetic} {destination : RegisterId}
    {left right : Operand} :
    function.checkInstruction surroundings isLast progress
        (.arithmetic operator destination left right) = .ok after ↔
      function.checkOperand progress left = .ok () ∧
        function.checkOperand progress right = .ok () ∧
        function.writeRegister progress destination = .ok after := by
  simp only [checkInstruction, Except.bind_unit_eq_ok_iff]

theorem checkInstruction_loop_eq_ok_iff {counter : LoopVariableId} {lower upper step : Nat}
    {body : List Instruction} :
    function.checkInstruction surroundings isLast progress
        (.loop counter lower upper step body) = .ok after ↔
      ∃ inner finished,
        function.enterLoop surroundings counter lower upper step body = .ok inner ∧
        function.checkBlock inner progress body = .ok finished ∧
        { finished with visible := progress.visible } = after := by
  simp only [checkInstruction, Except.bind_eq_ok_iff, Except.pure_eq_ok_iff]
  constructor
  · rintro ⟨inner, inner_eq, finished, finished_eq, after_eq⟩
    exact ⟨inner, finished, inner_eq, finished_eq, after_eq⟩
  · rintro ⟨inner, finished, inner_eq, finished_eq, after_eq⟩
    exact ⟨inner, inner_eq, finished, finished_eq, after_eq⟩

theorem checkInstruction_copy_eq_ok_iff {source destination : BufferId} :
    function.checkInstruction surroundings isLast progress (.copy source destination) =
        .ok after ↔
      ∃ from' into, function.usableBuffer progress source = .ok from' ∧
        function.usableBuffer progress destination = .ok into ∧
        from'.shape.size = into.shape.size ∧ progress = after := by
  simp only [checkInstruction, Except.bind_eq_ok_iff]
  constructor
  · rintro ⟨first, first_eq, second, second_eq, success⟩
    split at success
    · exact absurd success invalid_ne_ok
    · exact ⟨first, second, first_eq, second_eq, Decidable.not_not.mp (by assumption),
        Except.pure_eq_ok_iff.mp success⟩
  · rintro ⟨first, second, first_eq, second_eq, same, rfl⟩
    refine ⟨first, first_eq, second, second_eq, ?_⟩
    rw [if_neg (Decidable.not_not.mpr same)]
    rfl

theorem checkInstruction_print_eq_ok_iff {buffer : BufferId} :
    function.checkInstruction surroundings isLast progress (.print buffer) = .ok after ↔
      (∃ found, function.buffers.get? buffer = some found) ∧
        progress.buffers[buffer.index]? = some .live ∧ progress = after := by
  simp only [checkInstruction, Except.bind_eq_ok_iff, usableBuffer_eq_ok_iff,
    Except.pure_eq_ok_iff]
  constructor
  · rintro ⟨found, ⟨found_eq, live⟩, after_eq⟩
    exact ⟨⟨found, found_eq⟩, live, after_eq⟩
  · rintro ⟨⟨found, found_eq⟩, live, after_eq⟩
    exact ⟨found, ⟨found_eq, live⟩, after_eq⟩

theorem checkInstruction_leave_eq_ok_iff :
    function.checkInstruction surroundings isLast progress .leave = .ok after ↔
      surroundings.loops = [] ∧ isLast = true ∧ progress = after := by
  rw [checkInstruction_leave, Surroundings.areNone]
  split
  · rename_i accepted
    rw [Bool.and_eq_true, List.isEmpty_iff] at accepted
    simp [accepted]
  · rename_i refused
    rw [Bool.and_eq_true, List.isEmpty_iff] at refused
    exact iff_of_false invalid_ne_ok fun ⟨outside, last, _⟩ => refused ⟨outside, last⟩

theorem endsFunction_eq_true_iff {instruction : Instruction} :
    endsFunction instruction = true ↔ instruction = .leave := by
  cases instruction <;> simp [endsFunction]

theorem checkBlock_cons_eq_ok_iff {instruction : Instruction} {rest : List Instruction} :
    function.checkBlock surroundings progress (instruction :: rest) = .ok after ↔
      ∃ middle,
        function.checkInstruction surroundings rest.isEmpty progress instruction = .ok middle ∧
        function.checkBlock surroundings middle rest = .ok after := by
  rw [checkBlock, Except.bind_eq_ok_iff]

theorem checkBlock_nil_eq_ok_iff :
    function.checkBlock surroundings progress [] = .ok after ↔ progress = after := by
  rw [checkBlock_nil, Except.ok.injEq]

end Function

end Loop

end TensorLang
