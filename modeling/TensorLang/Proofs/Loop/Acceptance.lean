import TensorLang.Proofs.Loop.Capacity

/-!
# What the verifier accepts

Each instruction is accepted on conditions that only look at the buffers, registers and loop
variables that it names.  While the body of a lowered function is checked, all buffers are live and
registers are written in the order of their handles, so the conditions come down to the index tuples
and to the number of registers.
-/

namespace TensorLang

namespace Loop

/-! ### Index tuples inside of a nest -/

namespace Surroundings

variable {surroundings : Surroundings}

theorem Covers.append {front back : List Nat} {first second : List Index}
    (covers_front : surroundings.Covers front first)
    (covers_back : surroundings.Covers back second) :
    surroundings.Covers (front ++ back) (first ++ second) := by
  induction front generalizing first with
  | nil =>
      cases first with
      | nil => exact covers_back
      | cons index first => exact covers_front.elim
  | cons dimension front induction =>
      cases first with
      | nil => exact covers_front.elim
      | cons index first => exact ⟨covers_front.1, induction covers_front.2⟩

theorem Covers.reverse {dimensions : List Nat} {indices : List Index}
    (covers : surroundings.Covers dimensions indices) :
    surroundings.Covers dimensions.reverse indices.reverse := by
  induction dimensions generalizing indices with
  | nil =>
      cases indices with
      | nil => exact covers
      | cons index indices => exact covers.elim
  | cons dimension dimensions induction =>
      cases indices with
      | nil => exact covers.elim
      | cons index indices =>
          rw [List.reverse_cons, List.reverse_cons]
          exact (induction covers.2).append ⟨covers.1, trivial⟩

/-- Numbers below their dimensions fit. -/
theorem covers_of_within {dimensions indices : List Nat}
    (within : Shape.Within dimensions indices) :
    surroundings.Covers dimensions (indices.map .constant) := by
  induction dimensions generalizing indices with
  | nil =>
      cases indices with
      | nil => exact trivial
      | cons index indices => exact within.elim
  | cons dimension dimensions induction =>
      cases indices with
      | nil => exact within.elim
      | cons index indices => exact ⟨within.1, induction within.2⟩

/-- Inside of a nest, the variable of a loop stays below the dimension that the loop runs to. -/
theorem bounds_of_mem {pairs : List (LoopVariableId × Nat)}
    (distinct : (pairs.map Prod.fst).Nodup)
    (loops_eq : surroundings.loops =
      pairs.map fun (counter, dimension) => (counter, lastValue 0 dimension 1))
    {counter : LoopVariableId} {dimension : Nat} (member : (counter, dimension) ∈ pairs) :
    surroundings.Bounds dimension (.loopVariable counter) := by
  refine ⟨lastValue 0 dimension 1, lookup_nested distinct loops_eq _ _ member,
    fun last last_eq => ?_⟩
  rw [lastValue] at last_eq
  split at last_eq
  · obtain rfl := Option.some.inj last_eq
    omega
  · cases last_eq

/-- The variables of a nest fit its dimensions. -/
theorem covers_counters {counters : List LoopVariableId} {dimensions : List Nat}
    (length_eq : counters.length = dimensions.length)
    (bounds : ∀ counter dimension, (counter, dimension) ∈ counters.zip dimensions →
      surroundings.Bounds dimension (.loopVariable counter)) :
    surroundings.Covers dimensions (counters.map .loopVariable) := by
  induction dimensions generalizing counters with
  | nil =>
      obtain rfl := List.length_eq_zero_iff.mp length_eq
      exact trivial
  | cons dimension dimensions induction =>
      cases counters with
      | nil => cases length_eq
      | cons counter counters =>
          rw [List.zip_cons_cons] at bounds
          exact ⟨bounds counter dimension List.mem_cons_self,
            induction (Nat.succ.inj length_eq) fun other place member =>
              bounds other place (List.mem_cons_of_mem _ member)⟩

end Surroundings

namespace Function

variable {function : Function} {surroundings : Surroundings}
variable {progress middle after : Progress}

/-! ### Accepted blocks -/

/-- The block is accepted wherever it stands, and whatever follows goes on from there. -/
def Passes (function : Function) (surroundings : Surroundings) (progress after : Progress)
    (block : List Instruction) : Prop :=
  ∀ rest, function.checkBlock surroundings progress (block ++ rest) =
    function.checkBlock surroundings after rest

namespace Passes

theorem nil : function.Passes surroundings progress progress [] := fun _ => rfl

theorem append {front back : List Instruction}
    (early : function.Passes surroundings progress middle front)
    (late : function.Passes surroundings middle after back) :
    function.Passes surroundings progress after (front ++ back) := fun rest => by
  rw [List.append_assoc, early, late]

/-- An instruction that is accepted at the end and before it. -/
theorem single {instruction : Instruction}
    (accepted : ∀ isLast, function.checkInstruction surroundings isLast progress instruction =
      .ok after) : function.Passes surroundings progress after [instruction] := fun rest => by
  rw [List.singleton_append, checkBlock, accepted]
  rfl

theorem cons {instruction : Instruction} {rest : List Instruction}
    (accepted : ∀ isLast, function.checkInstruction surroundings isLast progress instruction =
      .ok middle) (others : function.Passes surroundings middle after rest) :
    function.Passes surroundings progress after (instruction :: rest) :=
  (single accepted).append others

theorem checkBlock_eq_ok {block : List Instruction}
    (passes : function.Passes surroundings progress after block) :
    function.checkBlock surroundings progress block = .ok after := by
  rw [← List.append_nil block, passes]
  rfl

end Passes

/-- All buffers are live, only registers before the next one are written, and those that are known
may be read. -/
structure Prepared (function : Function) (next : Nat) (known : List RegisterId)
    (progress : Progress) : Prop where
  /-- Buffers are live. -/
  live : ∀ buffer found, function.buffers.get? buffer = some found →
    progress.buffers[buffer.index]? = some .live
  /-- Registers are written in order. -/
  written : ∀ index, progress.written.contains index = true → index < next
  /-- Known registers are visible. -/
  visible : known ⊆ progress.visible

namespace Prepared

variable {next : Nat} {known : List RegisterId}

theorem forget (prepared : function.Prepared next known progress) (visible : List RegisterId) :
    function.Prepared next [] { progress with visible } :=
  ⟨prepared.live, prepared.written, List.nil_subset _⟩

theorem checkIndices_eq_ok (prepared : function.Prepared next known progress)
    {buffer : BufferId} {found : Buffer} {indices : List Index}
    (found_eq : function.buffers.get? buffer = some found)
    (covers : surroundings.Covers found.shape.dimensions indices) :
    function.checkIndices surroundings progress buffer indices = .ok () :=
  checkIndices_eq_ok_iff.mpr ⟨found, found_eq, prepared.live buffer found found_eq, covers⟩

theorem exists_writeRegister (prepared : function.Prepared next known progress)
    {register : RegisterId} (index_eq : register.index = next)
    (inside : next < function.registerCount) :
    ∃ after, function.writeRegister progress register = .ok after ∧
      function.Prepared (next + 1) (register :: known) after := by
  refine ⟨_, writeRegister_eq_ok_iff.mpr ⟨index_eq ▸ inside, fun written => ?_, rfl⟩, ?_⟩
  · exact Nat.lt_irrefl _ (index_eq ▸ prepared.written _ written)
  · refine ⟨prepared.live, fun index written => ?_, ?_⟩
    · rw [Std.TreeSet.contains_insert, Bool.or_eq_true, beq_iff_eq, Nat.compare_eq_eq] at written
      rcases written with rfl | earlier
      · rw [index_eq]
        exact Nat.lt_succ_self _
      · exact Nat.lt_succ_of_lt (prepared.written index earlier)
    · intro other member
      rcases List.mem_cons.mp member with rfl | earlier
      · exact List.mem_append_right _ (List.mem_singleton_self _)
      · exact List.mem_append_left _ (prepared.visible earlier)

/-- A load into the next register. -/
theorem exists_load (prepared : function.Prepared next known progress)
    {register : RegisterId} {buffer : BufferId} {found : Buffer} {indices : List Index}
    (index_eq : register.index = next) (inside : next < function.registerCount)
    (found_eq : function.buffers.get? buffer = some found)
    (covers : surroundings.Covers found.shape.dimensions indices) :
    ∃ after, function.Prepared (next + 1) (register :: known) after ∧ ∀ isLast,
      function.checkInstruction surroundings isLast progress (.load register buffer indices) =
        .ok after := by
  obtain ⟨after, written, prepared_after⟩ := prepared.exists_writeRegister index_eq inside
  exact ⟨after, prepared_after, fun isLast => checkInstruction_load_eq_ok_iff.mpr
    ⟨prepared.checkIndices_eq_ok found_eq covers, written⟩⟩

/-- An arithmetic instruction with the next register. -/
theorem exists_arithmetic (prepared : function.Prepared next known progress)
    {operator : Arithmetic} {register first second : RegisterId}
    (index_eq : register.index = next) (inside : next < function.registerCount)
    (first_known : first ∈ known) (second_known : second ∈ known) :
    ∃ after, function.Prepared (next + 1) (register :: known) after ∧ ∀ isLast,
      function.checkInstruction surroundings isLast progress
        (.arithmetic operator register (.register first) (.register second)) = .ok after := by
  have readable : ∀ operand ∈ known,
      function.checkOperand progress (.register operand) = .ok () := fun operand member =>
    checkOperand_eq_ok_iff.mpr fun register read => by
      rw [List.mem_singleton.mp read]
      exact prepared.visible member
  obtain ⟨after, written, prepared_after⟩ := prepared.exists_writeRegister index_eq inside
  exact ⟨after, prepared_after, fun isLast => checkInstruction_arithmetic_eq_ok_iff.mpr
    ⟨readable first first_known, readable second second_known, written⟩⟩

/-- A store of an operand that is known. -/
theorem store (prepared : function.Prepared next known progress) {value : Operand}
    {buffer : BufferId} {found : Buffer} {indices : List Index}
    (value_known : value.registers ⊆ known)
    (found_eq : function.buffers.get? buffer = some found)
    (covers : surroundings.Covers found.shape.dimensions indices) (isLast : Bool) :
    function.checkInstruction surroundings isLast progress (.store value buffer indices) =
      .ok progress :=
  checkInstruction_store_eq_ok_iff.mpr
    ⟨checkOperand_eq_ok_iff.mpr fun _ read => prepared.visible (value_known read),
      prepared.checkIndices_eq_ok found_eq covers, rfl⟩

end Prepared

/-- Instructions that each put a buffer of its own into a phase. -/
theorem exists_passes_phase {make : BufferId → Instruction} {phase : BufferPhase}
    (ready : Option BufferPhase → Prop) {ids : List BufferId} (distinct : ids.Nodup)
    (accepted : ∀ id ∈ ids, ∀ progress : Progress, ready progress.buffers[id.index]? → ∀ isLast,
      function.checkInstruction .outside isLast progress (make id) =
        .ok { progress with buffers := progress.buffers.insert id.index phase })
    (start : ∀ id ∈ ids, ready progress.buffers[id.index]?) :
    ∃ buffers, function.Passes .outside progress { progress with buffers } (ids.map make) ∧
      ∀ id : BufferId, buffers[id.index]? =
        if id ∈ ids then some phase else progress.buffers[id.index]? := by
  induction ids generalizing progress with
  | nil => exact ⟨progress.buffers, .nil, by simp⟩
  | cons first rest induction =>
      rw [List.nodup_cons] at distinct
      rw [List.forall_mem_cons] at accepted start
      let after : Progress :=
        { progress with buffers := progress.buffers.insert first.index phase }
      have inserted := fun id =>
        Lowering.getElem?_insert_index progress.buffers first id phase
      have ready_rest : ∀ id ∈ rest, ready after.buffers[id.index]? := by
        intro id member
        rw [inserted, if_neg (ne_of_mem_of_not_mem member distinct.1)]
        exact start.2 id member
      obtain ⟨buffers, passes, buffers_eq⟩ := induction distinct.2 accepted.2 ready_rest
      refine ⟨buffers, .cons (accepted.1 progress start.1) passes, fun id => ?_⟩
      rw [buffers_eq, inserted]
      by_cases same : id = first
      · subst same
        simp
      · simp [same]

/-- A nest is accepted if its loop variables are fresh and its body is accepted inside of it. -/
theorem exists_passes_nested {pairs : List (LoopVariableId × Nat)} {body : List Instruction}
    (distinct : (pairs.map Prod.fst).Nodup)
    (apart : ∀ id ∈ pairs.map Prod.fst, surroundings.loops.lookup id = none)
    (small : ∀ id ∈ pairs.map Prod.fst, id.index < function.loopVariableCount)
    {next : Nat} (accepted : ∀ inner : Surroundings, inner.loops = surroundings.loops ++
        pairs.map (fun (counter, dimension) => (counter, lastValue 0 dimension 1)) →
      ∃ finished known, function.Prepared next known finished ∧
        function.Passes inner progress finished body) :
    ∃ after, function.Prepared next [] after ∧
      function.Passes surroundings progress after (nested pairs body) := by
  induction pairs generalizing surroundings with
  | nil =>
      obtain ⟨finished, _, prepared, passes⟩ := accepted surroundings (List.append_nil _).symm
      exact ⟨finished, prepared.forget _, passes⟩
  | cons pair rest induction =>
      obtain ⟨counter, dimension⟩ := pair
      rw [List.map_cons, List.nodup_cons] at distinct
      rw [List.map_cons, List.forall_mem_cons] at apart small
      obtain ⟨inner, entered⟩ : ∃ inner, function.enterLoop surroundings counter 0 dimension 1
          (nested rest body) = .ok inner := by
        rw [enterLoop, if_neg (by simp [apart.1, small.1]), if_neg (by simp)]
        exact ⟨_, rfl⟩
      have inner_eq := (enterLoop_eq_ok entered).2.2.2.2
      obtain ⟨finished, prepared, passes⟩ := induction distinct.2 (fun id member => by
        rw [inner_eq, List.lookup_append, apart.2 id member, Option.none_or, List.lookup_cons,
          beq_eq_false_iff_ne.mpr (fun same => distinct.1 (same ▸ member) : id ≠ counter)]
        rfl) small.2 (fun deeper deeper_eq => accepted deeper (by
          rw [deeper_eq, inner_eq, List.append_assoc]
          rfl))
      exact ⟨_, prepared.forget progress.visible, .single fun isLast =>
        checkInstruction_loop_eq_ok_iff.mpr
          ⟨inner, finished, entered, passes.checkBlock_eq_ok, rfl⟩⟩

end Function

end Loop

end TensorLang
