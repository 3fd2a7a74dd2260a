import TensorLang.Proofs.Loop.Completeness

/-!
# Products that are not square

The verifier refuses a lowered function only for the right operand of a matrix product, which is
read with the column first.  It blames the first product whose right operand is not square: what
stands before is accepted, and the nest of the product is known by the buffer that it stores to.
-/

namespace TensorLang

namespace Loop

namespace Function

variable {function : Function} {surroundings : Surroundings} {progress middle : Progress}
variable {location : Option Location}

/-! ### Refused blocks -/

/-- The block is refused whatever follows it, and the location is blamed. -/
def Refuses (function : Function) (surroundings : Surroundings) (progress : Progress)
    (location : Option Location) (block : List Instruction) : Prop :=
  ∃ message, ∀ rest, function.checkBlock surroundings progress (block ++ rest) =
    .error (.error ⟨.brokenInvariant message, location⟩)

theorem Passes.refuses {front back : List Instruction}
    (passes : function.Passes surroundings progress middle front)
    (refuses : function.Refuses surroundings middle location back) :
    function.Refuses surroundings progress location (front ++ back) := by
  obtain ⟨message, failed⟩ := refuses
  exact ⟨message, fun rest => by rw [List.append_assoc, passes, failed]⟩

namespace Refuses

theorem append {front : List Instruction}
    (refuses : function.Refuses surroundings progress location front) (back : List Instruction) :
    function.Refuses surroundings progress location (front ++ back) := by
  obtain ⟨message, failed⟩ := refuses
  exact ⟨message, fun rest => by rw [List.append_assoc, failed]⟩

theorem of_instruction {instruction : Instruction} (message : String)
    (failed : ∀ isLast, function.checkInstruction surroundings isLast progress instruction =
      .error (.error ⟨.brokenInvariant message, location⟩)) (rest : List Instruction) :
    function.Refuses surroundings progress location (instruction :: rest) :=
  ⟨message, fun others => by
    rw [List.cons_append, checkBlock, failed]
    rfl⟩

theorem checkBlock_eq_error {block : List Instruction}
    (refuses : function.Refuses surroundings progress location block) :
    ∃ message, function.checkBlock surroundings progress block =
      .error (.error ⟨.brokenInvariant message, location⟩) := by
  obtain ⟨message, failed⟩ := refuses
  exact ⟨message, by rw [← List.append_nil block, failed]⟩

end Refuses

/-! ### Blame -/

/-- The location that is blamed for instructions in a loop: the outermost loop computes what its
first store fills. -/
def blame (function : Function) (surroundings : Surroundings) (block : List Instruction) :
    Option Location :=
  if surroundings.areNone then
    ((firstStored? block).bind function.buffers.get?).map Buffer.location
  else surroundings.location

private theorem firstStored?_nested (pairs : List (LoopVariableId × Nat))
    (body : List Instruction) :
    firstStored? (nested pairs body) = firstStored? body := by
  induction pairs with
  | nil => rfl
  | cons pair rest induction =>
      rw [nested, List.foldr_cons, ← nested, firstStored?, Instruction.target?, induction,
        firstStored?, Option.or_none]

private theorem exists_enterLoop {counter : LoopVariableId} (dimension : Nat)
    (body : List Instruction) (fresh : surroundings.loops.lookup counter = none)
    (small : counter.index < function.loopVariableCount) :
    ∃ inner, function.enterLoop surroundings counter 0 dimension 1 body = .ok inner ∧
      inner.loops = surroundings.loops ++ [(counter, lastValue 0 dimension 1)] ∧
      ∀ block, function.blame inner block = function.blame surroundings body := by
  rw [enterLoop, if_neg (by simp [fresh, small]), if_neg (by simp)]
  refine ⟨_, rfl, rfl, fun block => ?_⟩
  rw [blame, if_neg (by simp [Surroundings.areNone])]
  rfl

private theorem checkInstruction_loop_eq_error {counter : LoopVariableId} {lower upper step : Nat}
    {body : List Instruction} {inner : Surroundings} {failure : Failure} {isLast : Bool}
    (entered : function.enterLoop surroundings counter lower upper step body = .ok inner)
    (failed : function.checkBlock inner progress body = .error failure) :
    function.checkInstruction surroundings isLast progress (.loop counter lower upper step body) =
      .error failure := by
  rw [checkInstruction, entered]
  simp only [bind, Except.bind, failed]

theorem refuses_nested {pairs : List (LoopVariableId × Nat)} {body : List Instruction}
    (distinct : (pairs.map Prod.fst).Nodup)
    (apart : ∀ id ∈ pairs.map Prod.fst, surroundings.loops.lookup id = none)
    (small : ∀ id ∈ pairs.map Prod.fst, id.index < function.loopVariableCount)
    (refused : ∀ inner : Surroundings, inner.loops = surroundings.loops ++
        pairs.map (fun (counter, dimension) => (counter, lastValue 0 dimension 1)) →
      function.blame inner body = function.blame surroundings body →
      function.Refuses inner progress (function.blame surroundings body) body) :
    function.Refuses surroundings progress (function.blame surroundings body)
      (nested pairs body) := by
  induction pairs generalizing surroundings with
  | nil => exact refused surroundings (List.append_nil _).symm rfl
  | cons pair rest induction =>
      obtain ⟨counter, dimension⟩ := pair
      rw [List.map_cons, List.nodup_cons] at distinct
      rw [List.map_cons, List.forall_mem_cons] at apart small
      obtain ⟨inner, entered, inner_eq, blame_eq⟩ := exists_enterLoop dimension
        (nested rest body) apart.1 small.1
      have same_blame : function.blame inner body = function.blame surroundings body := by
        rw [blame_eq, blame, blame, firstStored?_nested]
      have body_refused := induction distinct.2 (fun id member => by
        rw [inner_eq, List.lookup_append, apart.2 id member, Option.none_or, List.lookup_cons,
          beq_eq_false_iff_ne.mpr (fun same => distinct.1 (same ▸ member) : id ≠ counter)]
        rfl) small.2 fun deeper deeper_eq deeper_blame => by
          rw [same_blame] at deeper_blame ⊢
          refine refused deeper ?_ deeper_blame
          rw [deeper_eq, inner_eq, List.append_assoc]
          rfl
      rw [same_blame] at body_refused
      obtain ⟨message, failed⟩ := body_refused.checkBlock_eq_error
      exact Refuses.of_instruction message
        (fun _ => checkInstruction_loop_eq_error entered failed) []

/-! ### Indices out of bounds -/

private theorem checkBounds_eq_error (function : Function) (buffer : BufferId) (shape : Shape)
    {counters : List LoopVariableId} {dimensions : List Nat}
    (length_eq : counters.length = dimensions.length)
    (known : ∀ id ∈ counters, ∃ last?, surroundings.loops.lookup id = some last?)
    (uncovered : ¬ surroundings.Covers dimensions (counters.map .loopVariable)) :
    ∃ message, function.checkBounds surroundings buffer shape
        ((counters.map Index.loopVariable).zip dimensions) =
      .error (.error ⟨.brokenInvariant message, surroundings.location⟩) := by
  induction counters generalizing dimensions with
  | nil =>
      obtain rfl := List.length_eq_zero_iff.mp length_eq.symm
      exact absurd trivial uncovered
  | cons id rest induction =>
      cases dimensions with
      | nil => cases length_eq
      | cons dimension dimensions =>
          rw [List.forall_mem_cons] at known
          obtain ⟨last?, found⟩ := known.1
          rw [List.map_cons, List.zip_cons_cons, checkBounds, found]
          dsimp only
          cases beyond : last?.filter fun last => dimension ≤ last with
          | some last => exact ⟨_, rfl⟩
          | none =>
              refine induction (Nat.succ.inj length_eq) known.2 fun covers => uncovered ⟨?_, covers⟩
              refine ⟨last?, found, fun last last_eq => ?_⟩
              simpa [last_eq] using beyond

theorem Prepared.load_refused {next : Nat} {visible : List RegisterId}
    (prepared : function.Prepared next visible progress) (register : RegisterId) {buffer : BufferId}
    {found : Buffer} (found_eq : function.buffers.get? buffer = some found)
    {counters : List LoopVariableId} (length_eq : counters.length = found.shape.rank)
    (known : ∀ id ∈ counters, ∃ last?, surroundings.loops.lookup id = some last?)
    (uncovered : ¬ surroundings.Covers found.shape.dimensions (counters.map .loopVariable))
    (others : List Instruction) :
    function.Refuses surroundings progress surroundings.location
      (.load register buffer (counters.map .loopVariable) :: others) := by
  obtain ⟨message, bounds_eq⟩ :=
    checkBounds_eq_error function buffer found.shape length_eq known uncovered
  have usable : function.usableBuffer progress buffer = .ok found :=
    usableBuffer_eq_ok_iff.mpr ⟨found_eq, prepared.live buffer found found_eq⟩
  have fits : ¬ (counters.map Index.loopVariable).length ≠ found.shape.rank :=
    fun differs => differs ((List.length_map _).trans length_eq)
  have indices_eq : function.checkIndices surroundings progress buffer
      (counters.map .loopVariable) =
        .error (.error ⟨.brokenInvariant message, surroundings.location⟩) := by
    rw [checkIndices, usable]
    simp only [bind, Except.bind]
    rw [if_neg fits, bounds_eq]
  refine Refuses.of_instruction message (fun isLast => ?_) others
  rw [checkInstruction, indices_eq]
  rfl

end Function

namespace Lowering

variable {source : Dataflow.Function} {lowered : Function} {operation : Dataflow.Operation}
variable {code : List Dataflow.Operation} {available : List Dataflow.ValueId}
variable {before after : Allocation} {block : List Instruction} {shape : Shape}
variable {shapes : List Shape} {resolution : Dataflow.Resolution} {progress : Progress}

/-! ### Refused products -/

theorem refuses_product {first second : RegisterId} {others : List Instruction}
    {left right target : BufferId} {leftFound rightFound targetFound : Buffer}
    {rows columns inner next : Nat} {start row column position : LoopVariableId}
    (prepared : lowered.Prepared next [] progress)
    (first_eq : first.index = next) (room : next < lowered.registerCount)
    (product_eq : [row, column, position] = start.following 3)
    (counter_room : start.index + 3 ≤ lowered.loopVariableCount)
    (counter_word : lowered.loopVariableCount < Handle.wordSize)
    (left_eq : lowered.buffers.get? left = some leftFound)
    (right_eq : lowered.buffers.get? right = some rightFound)
    (left_shape : leftFound.shape = ⟨[rows, inner]⟩)
    (right_shape : rightFound.shape = ⟨[inner, columns]⟩) (skew : inner ≠ columns)
    (target_eq : lowered.buffers.get? target = some targetFound)
    (stored : firstStored? others = some target) :
    lowered.Refuses .outside progress (some targetFound.location)
      (nested ([row, column, position].zip [rows, columns, inner])
        (.load first left [.loopVariable row, .loopVariable position] ::
          .load second right [.loopVariable column, .loopVariable position] :: others)) := by
  have pairs_fst : ([row, column, position].zip [rows, columns, inner]).map Prod.fst =
      start.following 3 := product_eq
  have word := Nat.le_trans counter_room (Nat.le_of_lt counter_word)
  have distinct := pairs_fst ▸ Handle.nodup_following (Nat.le_trans (Nat.le_add_left _ _) word)
  have blamed : lowered.blame .outside
      (.load first left [.loopVariable row, .loopVariable position] ::
        .load second right [.loopVariable column, .loopVariable position] :: others) =
      some targetFound.location := by
    simp [Function.blame, Surroundings.areNone, Surroundings.outside, firstStored?,
      Instruction.target?, stored, target_eq]
  rw [← blamed]
  refine Function.refuses_nested distinct (fun _ _ => rfl) (fun id member => ?_)
    fun around around_eq blame_eq => ?_
  · rw [pairs_fst] at member
    exact Nat.lt_of_lt_of_le (Handle.index_lt_of_mem_following word member) counter_room
  have known := Surroundings.lookup_nested distinct around_eq
  have left_covers : around.Covers leftFound.shape.dimensions
      [.loopVariable row, .loopVariable position] := by
    rw [left_shape]
    exact ⟨Surroundings.bounds_of_mem distinct around_eq (by simp),
      Surroundings.bounds_of_mem distinct around_eq (by simp), trivial⟩
  obtain ⟨after, ready, loaded⟩ := prepared.exists_load first_eq room left_eq left_covers
  have uncovered : ¬ around.Covers rightFound.shape.dimensions
      ([column, position].map .loopVariable) := by
    intro covers
    rw [right_shape] at covers
    exact skew (Nat.le_antisymm (le_of_bounds (known position inner (by simp)) covers.2.1)
      (le_of_bounds (known column columns (by simp)) covers.1))
  have refused := ready.load_refused second right_eq (by rw [right_shape]; rfl)
    (List.forall_mem_cons.mpr ⟨⟨_, known column columns (by simp)⟩,
      List.forall_mem_singleton.mpr ⟨_, known position inner (by simp)⟩⟩) uncovered others
  rw [← blame_eq, Function.blame, if_neg (by simp [Surroundings.areNone, around_eq])]
  exact (Function.Passes.single loaded).refuses refused

/-- The instructions of a matrix product are refused, and the product is blamed, if its right
operand is not square. -/
theorem Lowers.refuses (lowers : Lowers source operation before after block)
    (kept : ∀ id found, after.buffers.get? id = some found →
      lowered.buffers.get? id = some found)
    (fits : Fits source available before) (typed : operation.Typed source shapes resolution)
    (dominated : ∀ operand ∈ operation.operands, operand ∈ available)
    (skew : ¬ SquareRight source operation)
    (counter_word : lowered.loopVariableCount < Handle.wordSize)
    (registers : before.nextRegister.index + registersFor operation.kind ≤ lowered.registerCount)
    (counters : before.nextLoopVariable.index + countersFor source operation ≤
      lowered.loopVariableCount)
    (prepared : lowered.Prepared before.nextRegister.index [] progress) :
    lowered.Refuses .outside progress (some operation.location) block := by
  have is_matmul : operation.kind = .matmul :=
    Classical.byContradiction fun other => skew fun same => absurd same other
  rw [countersFor] at counters
  cases lowers with
  | matmul kind_eq left_lives right_lives left_shape new counters_eq dimensions_eq product_eq
      registers_eq =>
      obtain ⟨_, _, left_found, left_covered, -, right_found, right_covered, rfl, -, square_iff⟩ :=
        matmul_shapes fits typed dominated kind_eq left_lives right_lives left_shape new
          dimensions_eq
      have room : before.nextLoopVariable.index + (2 + 3) ≤ lowered.loopVariableCount := by
        rw [kind_eq] at counters
        dsimp only at counters
        rwa [new.resultRank_eq] at counters
      have few : before.nextLoopVariable.index + 2 ≤ lowered.loopVariableCount := by omega
      have next_counter : (before.nextLoopVariable.skip 2).index =
          before.nextLoopVariable.index + 2 :=
        Handle.index_skip (Nat.lt_of_le_of_lt few counter_word)
      have first_eq := congrArg Handle.index (List.cons.inj registers_eq).1
      have register_room : before.nextRegister.index < lowered.registerCount := by
        rw [kind_eq, registersFor] at registers
        omega
      obtain ⟨cleared, clear_prepared, clear_passes⟩ :=
        exists_passes_clear prepared (new.found kept) counters_eq few counter_word
      have counter_room :
          (before.nextLoopVariable.skip 2).index + 3 ≤ lowered.loopVariableCount := by
        rw [next_counter]
        exact room
      exact clear_passes.refuses (refuses_product clear_prepared first_eq register_room product_eq
        counter_room counter_word (kept _ _ (new.grows _ _ left_found))
        (kept _ _ (new.grows _ _ right_found)) left_covered right_covered
        (fun same => skew (square_iff.mpr same)) (new.found kept) rfl)
  | @combination operator _ _ _ _ _ _ _ kind_eq =>
      rw [kind_eq] at is_matmul
      cases operator <;> cases is_matmul
  | constant kind_eq | transpose kind_eq | reshape kind_eq | cast kind_eq | print kind_eq
  | leave kind_eq =>
      rw [kind_eq] at is_matmul
      cases is_matmul

private theorem LowersAll.append_inv {front back : List Dataflow.Operation}
    (lowers : LowersAll source (front ++ back) before after block) :
    ∃ middle first second, LowersAll source front before middle first ∧
      LowersAll source back middle after second ∧ block = first ++ second := by
  induction front generalizing before block with
  | nil => exact ⟨before, [], block, .nil, lowers, rfl⟩
  | cons operation front induction =>
      cases lowers with
      | cons returns_nothing first rest =>
          obtain ⟨middle, front_block, back_block, front_lowers, back_lowers, rfl⟩ := induction rest
          exact ⟨middle, _, back_block, .cons returns_nothing first front_lowers, back_lowers,
            (List.append_assoc _ _ _).symm⟩

/-- Operations are refused for the first matrix product whose right operand is not square. -/
theorem LowersAll.refuses {front back : List Dataflow.Operation}
    (lowers : LowersAll source (front ++ operation :: back) before after block)
    (kept : ∀ id found, after.buffers.get? id = some found →
      lowered.buffers.get? id = some found)
    (fits : Fits source available before)
    (proper : ∀ operation ∈ front, operation.Proper)
    (typed : ∀ other ∈ front ++ operation :: back,
      ∃ shapes resolution, other.Typed source shapes resolution)
    (dominated : Dataflow.Dominated available (front ++ operation :: back))
    (square : ∀ earlier ∈ front, SquareRight source earlier)
    (skew : ¬ SquareRight source operation)
    (register_word : lowered.registerCount < Handle.wordSize)
    (counter_word : lowered.loopVariableCount < Handle.wordSize)
    (registers : before.nextRegister.index + ((front ++ operation :: back).map
      fun operation => registersFor operation.kind).sum ≤ lowered.registerCount)
    (counters : before.nextLoopVariable.index +
      ((front ++ operation :: back).map (countersFor source)).sum ≤ lowered.loopVariableCount)
    (prepared : lowered.Prepared before.nextRegister.index [] progress) :
    lowered.Refuses .outside progress (some operation.location) block := by
  obtain ⟨middle, first, second, front_lowers, back_lowers, rfl⟩ := lowers.append_inv
  rw [List.forall_mem_append, List.forall_mem_cons] at typed
  rw [Dataflow.Dominated.append_iff] at dominated
  rw [List.map_append, List.sum_append, List.map_cons, List.sum_cons] at registers counters
  obtain ⟨next_register, next_counter⟩ := front_lowers.skips
  have register_eq := congrArg Handle.index next_register
  have counter_eq := congrArg Handle.index next_counter
  rw [Handle.index_skip (by omega)] at register_eq counter_eq
  cases back_lowers with
  | cons returns_nothing here rest =>
      have here_kept := fun id found found_eq => kept id found (rest.grows id found found_eq)
      have front_kept := fun id found found_eq => here_kept id found (here.grows id found found_eq)
      obtain ⟨reached, ready, passes⟩ := front_lowers.exists_passes front_kept fits proper typed.1
        dominated.1 square register_word counter_word (by omega) (by omega) prepared
      obtain ⟨_, _, here_typed⟩ := typed.2.1
      exact passes.refuses ((here.refuses here_kept
        (front_lowers.fits fits proper typed.1 dominated.1 square) here_typed dominated.2.1 skew
        counter_word (by omega) (by omega) ready).append _)

end Lowering

open Lowering

/-- The loops of a function are refused for its first matrix product whose right operand is not
square. -/
theorem Function.verify_ofDataflow_eq_error {source : Dataflow.Function} {lowered : Function}
    {front back : List Dataflow.Operation} {operation : Dataflow.Operation}
    (wellFormed : source.WellFormed) (proper : source.Proper) (typed : source.Typed)
    (no_arguments : source.arguments = [])
    (few_registers : (source.code.map fun operation => registersFor operation.kind).sum <
      Handle.wordSize)
    (few_counters : (source.code.map (countersFor source)).sum < Handle.wordSize)
    (lowering : Function.ofDataflow source = .ok lowered)
    (code_eq : source.code = front ++ operation :: back)
    (square : ∀ earlier ∈ front, SquareRight source earlier)
    (skew : ¬ SquareRight source operation) :
    ∃ message, lowered.verify =
      .error (.error ⟨.brokenInvariant message, some operation.location⟩) := by
  have start : Fits source source.arguments .start := no_arguments ▸ Fits.start source
  obtain ⟨body, after, lowers, buffers_eq, registers_eq, counters_eq, body_eq⟩ :=
    ofDataflow_counts wellFormed lowering few_registers few_counters
  have typed_code := typed
  have dominated := wellFormed.dominated
  have front_proper : ∀ earlier ∈ front, earlier.Proper := fun earlier member =>
    proper earlier (by rw [code_eq]; exact List.mem_append_left _ member)
  rw [Dataflow.Function.Typed] at typed_code
  rw [code_eq] at lowers registers_eq counters_eq few_registers few_counters dominated typed_code
  obtain ⟨progress, allocs, prepared⟩ := exists_prepared lowered
  have refused := lowers.refuses (fun id found found_eq => by rw [buffers_eq, found_eq]) start
    front_proper typed_code dominated square skew (registers_eq ▸ few_registers)
    (counters_eq ▸ few_counters) (registers_eq ▸ Nat.le_of_eq (Nat.zero_add _))
    (counters_eq ▸ Nat.le_of_eq (Nat.zero_add _)) prepared
  rw [← buffers_eq, List.append_assoc, List.append_assoc] at body_eq
  obtain ⟨message, failed⟩ := (allocs.refuses (refused.append _)).checkBlock_eq_error
  rw [← body_eq] at failed
  exact ⟨message, by
    rw [verify, failed]
    rfl⟩

/-- A typed function is lowered to loops just if the right operands of all its matrix products are
square.  Otherwise the first product whose right operand is not square is blamed. -/
theorem Module.ofDataflow_square {source before : Dataflow.Function} {entry : String}
    (verified : source.verify = .ok ()) (proper : source.Proper)
    (inferred : Dataflow.Edit.inferTypes before = .ok () source)
    (named : source.name = entry) (no_arguments : source.arguments = [])
    (no_results : source.resultTypes = [])
    (few_registers : (source.code.map fun operation => registersFor operation.kind).sum <
      Handle.wordSize)
    (few_counters : (source.code.map (countersFor source)).sum < Handle.wordSize) :
    ((∃ module, Module.ofDataflow ⟨[source]⟩ entry = .ok module) ↔
      ∀ operation ∈ source.code, SquareRight source operation) ∧
    ∀ front operation back, source.code = front ++ operation :: back →
      (∀ earlier ∈ front, SquareRight source earlier) → ¬ SquareRight source operation →
      ∃ message, Module.ofDataflow ⟨[source]⟩ entry =
        .error (.error ⟨.brokenInvariant message, some operation.location⟩) := by
  have wellFormed := Dataflow.Function.wellFormed_of_verify verified
  have typed := (Dataflow.Inference.inferTypes_eq_ok inferred).2
  have returns_nothing :=
    (Dataflow.Function.verify_eq_ok_iff.mp verified).returns_nothing no_results
  obtain ⟨lowered, lowering⟩ :=
    Function.exists_lowered wellFormed proper typed no_arguments returns_nothing
  have made := ofDataflow_eq named no_arguments no_results lowering
  rw [made]
  refine ⟨⟨?_, fun square => ?_⟩, fun front operation back code_eq square skew => ?_⟩
  · rintro ⟨module, success⟩
    have accepted := (Except.bind_unit_eq_ok_iff.mp success).1
    exact (Function.legal_ofDataflow wellFormed proper typed no_arguments lowering accepted).square
  · obtain ⟨known, known_eq, accepted⟩ := Function.exists_ofDataflow wellFormed proper typed
      no_arguments ⟨returns_nothing, square, few_registers, few_counters⟩
    obtain rfl := Except.ok.inj (lowering.symm.trans known_eq)
    rw [accepted]
    exact ⟨_, rfl⟩
  · obtain ⟨message, failed⟩ := Function.verify_ofDataflow_eq_error wellFormed proper typed
      no_arguments few_registers few_counters lowering code_eq square skew
    rw [failed]
    exact ⟨message, rfl⟩

/-- Prints the product of a row and a column, whose type is not known yet. -/
def skewProduct : Dataflow.Function :=
  let build : Dataflow.Edit Unit := do
    let row ← Dataflow.Edit.appendValue (.constant ⟨⟨⟨[1, 2]⟩, [1, 0], rfl⟩, by decide⟩) []
      (.ranked ⟨[1, 2]⟩) ⟨"main", 1, 1⟩
    let column ← Dataflow.Edit.appendValue (.constant ⟨⟨⟨[2, 1]⟩, [0, 1], rfl⟩, by decide⟩) []
      (.ranked ⟨[2, 1]⟩) ⟨"main", 2, 1⟩
    let product ← Dataflow.Edit.appendValue .matmul [row, column] .unranked ⟨"main", 3, 1⟩
    let _ ← Dataflow.Edit.append .print [product] [] ⟨"main", 4, 1⟩
    let _ ← Dataflow.Edit.append .leave [] [] ⟨"main", 1, 1⟩
  (build.outcome (Dataflow.Function.new "main" ⟨"main", 1, 1⟩)).1

theorem Module.ofDataflow_square_skewProduct :
    ∃ source, Dataflow.Edit.inferTypes skewProduct = .ok () source ∧
      source.verify = .ok () ∧ source.Proper ∧ source.arguments = [] ∧ source.resultTypes = [] ∧
      ∃ message, Module.ofDataflow ⟨[source]⟩ "main" =
        .error (.error ⟨.brokenInvariant message, some ⟨"main", 3, 1⟩⟩) := by
  let source := (Dataflow.Edit.inferTypes.outcome skewProduct).1
  have inferred : Dataflow.Edit.inferTypes skewProduct = .ok () source := by rfl
  have verified : source.verify = .ok () := by rfl
  have proper : source.Proper := by decide
  have blamed := (ofDataflow_square verified proper inferred rfl rfl rfl (by decide) (by decide)).2
    (source.code.take 2) _ (source.code.drop 3) rfl
  refine ⟨source, inferred, verified, proper, rfl, rfl, blamed ?_ ?_⟩
  · have constants : ∀ earlier ∈ source.code.take 2, earlier.kind.name = "constant" := by decide
    intro earlier member is_matmul
    have named := constants earlier member
    rw [is_matmul] at named
    exact absurd named (by decide)
  · intro square
    obtain ⟨side, type_eq⟩ := square rfl ⟨1⟩ rfl
    have known : source.typeOf ⟨1⟩ = .ok (.ranked ⟨[2, 1]⟩) := rfl
    obtain ⟨⟩ := known.symm.trans type_eq

end Loop

end TensorLang
