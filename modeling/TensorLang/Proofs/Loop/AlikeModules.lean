import TensorLang.Loop.Execution
import TensorLang.Loop.Listing
import TensorLang.Proofs.Loop.Alike

/-!
# Alike loop modules

Loop functions that differ only in the locations of their buffers are in order together or break the
same rule.  Their listings are the same text, and they print the same and stop for the same reason.
-/

namespace TensorLang

namespace Loop

variable {excused : Prop} {left right : Function}

/-! ### Verification -/

/-- The same loops, perhaps around constructs at other locations. -/
structure Surroundings.Alike (left right : Surroundings) : Prop where
  /-- The loops are the same. -/
  loops : right.loops = left.loops
  /-- The construct is known on both sides or on none. -/
  location : Option.Rel (fun _ _ => True) left.location right.location

namespace Function.Alike

theorem invalid {α β : Type} {values : α → β → Prop} (alike : left.Alike right) (message : String)
    {location another : Option Location} (known : Option.Rel (fun _ _ => True) location another) :
    (outcomes excused).Relates values (left.invalid message location)
      (right.invalid message another) := by
  rw [Function.invalid, Function.invalid, alike.name]
  cases known with
  | none => exact .error (.fail _)
  | some => exact .error (.failAt _ _ _)

theorem checkOutside (alike : left.Alike right) {surroundings others : Surroundings}
    (around : surroundings.Alike others) (instruction : String) :
    (outcomes excused).Relates Eq (left.checkOutside surroundings instruction)
      (right.checkOutside others instruction) := by
  rw [Function.checkOutside, Function.checkOutside, Surroundings.areNone, Surroundings.areNone,
    around.loops]
  exact (outcomes excused).ite (fun _ => outcomes_ok rfl) fun _ => alike.invalid _ .none

theorem knownBuffer (alike : left.Alike right) (buffer : BufferId) :
    (outcomes excused).Relates Buffer.Alike (left.knownBuffer buffer)
      (right.knownBuffer buffer) := by
  have related := alike.buffers.lookups buffer
  rw [Function.knownBuffer, Function.knownBuffer]
  generalize left.buffers.get? buffer = before at related ⊢
  generalize right.buffers.get? buffer = after at related ⊢
  cases related with
  | none => exact alike.invalid _ .none
  | some same => exact outcomes_ok same

theorem usableBuffer (alike : left.Alike right) (progress : Progress) (buffer : BufferId) :
    (outcomes excused).Relates Buffer.Alike (left.usableBuffer progress buffer)
      (right.usableBuffer progress buffer) := by
  refine (outcomes excused).bind (alike.knownBuffer buffer) fun found other same => ?_
  split
  · exact outcomes_ok same
  · exact alike.invalid _ .none
  · exact alike.invalid _ .none

theorem checkBounds (alike : left.Alike right) {surroundings others : Surroundings}
    (around : surroundings.Alike others) (buffer : BufferId) (shape : Shape)
    (pairs : List (Index × Nat)) :
    (outcomes excused).Relates Eq (left.checkBounds surroundings buffer shape pairs)
      (right.checkBounds others buffer shape pairs) := by
  induction pairs with
  | nil => exact outcomes_ok rfl
  | cons pair pairs induction =>
      obtain ⟨value | id, dimension⟩ := pair
      · rw [Function.checkBounds, Function.checkBounds]
        exact (outcomes excused).ite (fun _ => alike.invalid _ .none) fun _ => induction
      · rw [Function.checkBounds, Function.checkBounds, around.loops]
        split
        · exact alike.invalid _ .none
        · split
          · exact alike.invalid _ around.location
          · exact induction

theorem checkIndices (alike : left.Alike right) {surroundings others : Surroundings}
    (around : surroundings.Alike others) (progress : Progress) (buffer : BufferId)
    (indices : List Index) :
    (outcomes excused).Relates Eq (left.checkIndices surroundings progress buffer indices)
      (right.checkIndices others progress buffer indices) := by
  refine (outcomes excused).bind (alike.usableBuffer progress buffer) ?_
  rintro found _ ⟨location⟩
  exact (outcomes excused).ite (fun _ => alike.invalid _ .none)
    fun _ => alike.checkBounds around _ _ _

theorem checkOperand (alike : left.Alike right) (progress : Progress) (operand : Operand) :
    (outcomes excused).Relates Eq (left.checkOperand progress operand)
      (right.checkOperand progress operand) := by
  cases operand with
  | immediate value => exact outcomes_ok rfl
  | register id =>
      exact (outcomes excused).ite (fun _ => outcomes_ok rfl) fun _ => alike.invalid _ .none

theorem writeRegister (alike : left.Alike right) (progress : Progress) (register : RegisterId) :
    (outcomes excused).Relates Eq (left.writeRegister progress register)
      (right.writeRegister progress register) := by
  rw [Function.writeRegister, Function.writeRegister, alike.registerCount]
  exact (outcomes excused).ite (fun _ => alike.invalid _ .none) fun _ => outcomes_ok rfl

theorem enterLoop (alike : left.Alike right) {surroundings others : Surroundings}
    (around : surroundings.Alike others) (counter : LoopVariableId) (lower upper step : Nat)
    (body : List Instruction) :
    (outcomes excused).Relates Surroundings.Alike
      (left.enterLoop surroundings counter lower upper step body)
      (right.enterLoop others counter lower upper step body) := by
  rw [Function.enterLoop, Function.enterLoop, alike.loopVariableCount, around.loops]
  refine (outcomes excused).ite (fun _ => alike.invalid _ .none) fun _ => ?_
  refine (outcomes excused).ite (fun _ => alike.invalid _ .none) fun _ => outcomes_ok ⟨rfl, ?_⟩
  have outermost : others.areNone = surroundings.areNone := by
    rw [Surroundings.areNone, Surroundings.areNone, around.loops]
  dsimp only
  rw [outermost]
  split
  · cases firstStored? body with
    | none => exact .none
    | some buffer => exact rel_map (alike.buffers.lookups buffer) fun _ _ _ => trivial
  · exact around.location

mutual

private theorem instruction_checked (alike : left.Alike right) (instruction : Instruction)
    {surroundings others : Surroundings} (around : surroundings.Alike others) (isLast : Bool)
    (progress : Progress) : (outcomes excused).Relates Eq
      (left.checkInstruction surroundings isLast progress instruction)
      (right.checkInstruction others isLast progress instruction) := by
  cases instruction with
  | alloc buffer =>
      rw [Function.checkInstruction, Function.checkInstruction]
      refine (outcomes excused).bind_same (alike.checkOutside around _) fun _ => ?_
      refine (outcomes excused).bind (alike.knownBuffer buffer) fun _ _ _ => ?_
      exact (outcomes excused).ite (fun _ => alike.invalid _ .none) fun _ => outcomes_ok rfl
  | dealloc buffer =>
      rw [Function.checkInstruction, Function.checkInstruction]
      refine (outcomes excused).bind_same (alike.checkOutside around _) fun _ => ?_
      exact (outcomes excused).bind (alike.usableBuffer progress buffer)
        fun _ _ _ => outcomes_ok rfl
  | load destination buffer indices =>
      rw [Function.checkInstruction, Function.checkInstruction]
      refine (outcomes excused).bind_same (alike.checkIndices around _ _ _) fun _ => ?_
      exact alike.writeRegister progress destination
  | store value buffer indices =>
      rw [Function.checkInstruction, Function.checkInstruction]
      refine (outcomes excused).bind_same (alike.checkOperand progress value) fun _ => ?_
      exact (outcomes excused).bind_same (alike.checkIndices around _ _ _) fun _ => outcomes_ok rfl
  | arithmetic operator destination first second =>
      rw [Function.checkInstruction, Function.checkInstruction]
      refine (outcomes excused).bind_same (alike.checkOperand progress first) fun _ => ?_
      refine (outcomes excused).bind_same (alike.checkOperand progress second) fun _ => ?_
      exact alike.writeRegister progress destination
  | loop counter lower upper step body =>
      rw [Function.checkInstruction, Function.checkInstruction]
      refine (outcomes excused).bind (alike.enterLoop around _ _ _ _ body)
        fun inner another within => ?_
      exact (outcomes excused).bind_same (block_checked alike body within progress)
        fun _ => outcomes_ok rfl
  | copy source destination =>
      rw [Function.checkInstruction, Function.checkInstruction]
      refine (outcomes excused).bind (alike.usableBuffer progress source) ?_
      rintro origin _ ⟨_⟩
      refine (outcomes excused).bind (alike.usableBuffer progress destination) ?_
      rintro target _ ⟨_⟩
      exact (outcomes excused).ite (fun _ => alike.invalid _ .none) fun _ => outcomes_ok rfl
  | print buffer =>
      rw [Function.checkInstruction, Function.checkInstruction]
      exact (outcomes excused).bind (alike.usableBuffer progress buffer)
        fun _ _ _ => outcomes_ok rfl
  | leave =>
      rw [checkInstruction_leave, checkInstruction_leave, Surroundings.areNone,
        Surroundings.areNone, around.loops]
      exact (outcomes excused).ite (fun _ => outcomes_ok rfl) fun _ => alike.invalid _ .none

theorem block_checked (alike : left.Alike right) (body : List Instruction)
    {surroundings others : Surroundings} (around : surroundings.Alike others)
    (progress : Progress) : (outcomes excused).Relates Eq
      (left.checkBlock surroundings progress body) (right.checkBlock others progress body) := by
  cases body with
  | nil =>
      rw [checkBlock_nil, checkBlock_nil]
      exact outcomes_ok rfl
  | cons instruction rest =>
      rw [Function.checkBlock, Function.checkBlock]
      exact (outcomes excused).bind_same (instruction_checked alike instruction around _ progress)
        fun _ => block_checked alike rest around _

end

theorem checkReleased (alike : left.Alike right) (progress : Progress) :
    (outcomes excused).Relates Eq (left.checkReleased progress) (right.checkReleased progress) := by
  rw [Function.checkReleased, Function.checkReleased, Arena.ids_of_size alike.buffers.size]
  refine (outcomes excused).forM (List.forall₂_same.mpr fun _ _ => rfl) ?_
  rintro buffer _ rfl
  split
  · exact outcomes_ok rfl
  · exact alike.invalid _ .none
  · exact alike.invalid _ .none

theorem verify (alike : left.Alike right) :
    (outcomes excused).Relates Eq left.verify right.verify := by
  have outside : Surroundings.outside.Alike .outside := ⟨rfl, .none⟩
  rw [Function.verify, Function.verify, alike.body]
  refine (outcomes excused).bind_same (alike.block_checked _ outside _) fun progress => ?_
  refine (outcomes excused).ite (fun _ => ?_) fun _ => alike.checkReleased progress
  exact (outcomes excused).stop (alike.invalid _ .none)

/-! ### Listings -/

mutual

private theorem instruction_listed (alike : left.Alike right) (ink : Ink) (depth : Nat)
    (instruction : Instruction) : (outcomes excused).Relates Eq
      (left.instructionLines ink depth instruction)
      (right.instructionLines ink depth instruction) := by
  cases instruction with
  | alloc buffer =>
      rw [instructionLines, instructionLines]
      refine (outcomes excused).bind (outcomes_promised (alike.buffers.lookups buffer)) ?_
      rintro found _ ⟨_⟩
      exact outcomes_ok rfl
  | loop counter lower upper step body =>
      rw [instructionLines, instructionLines]
      exact (outcomes excused).bind_same (block_listed alike ink (depth + 1) body)
        fun _ => outcomes_ok rfl
  | _ =>
      rw [instructionLines, instructionLines]
      exact outcomes_refl _

theorem block_listed (alike : left.Alike right) (ink : Ink) (depth : Nat)
    (body : List Instruction) : (outcomes excused).Relates Eq (left.blockLines ink depth body)
      (right.blockLines ink depth body) := by
  cases body with
  | nil =>
      rw [blockLines, blockLines]
      exact outcomes_ok rfl
  | cons instruction rest =>
      rw [blockLines, blockLines]
      refine (outcomes excused).bind_same (instruction_listed alike ink depth instruction)
        fun _ => ?_
      exact (outcomes excused).bind_same (block_listed alike ink depth rest)
        fun _ => outcomes_ok rfl

end

theorem listing (alike : left.Alike right) (ink : Ink) :
    (outcomes excused).Relates Eq (left.listing ink) (right.listing ink) := by
  rw [Function.listing, Function.listing, alike.body, alike.name]
  exact (outcomes excused).bind_same (alike.block_listed ink 1 left.body) fun _ => outcomes_ok rfl

/-! ### Execution -/

/-- Nothing that runs on the shape of a buffer tells alike functions apart. -/
theorem bind_buffer (alike : left.Alike right) (buffer : BufferId) {α : Type}
    {next : Buffer → Run α}
    (shaped : ∀ found location, next { found with location } = next found) :
    Run.lift (.promised (right.buffers.get? buffer)) >>= next =
      Run.lift (.promised (left.buffers.get? buffer)) >>= next := by
  have related := alike.buffers.lookups buffer
  generalize left.buffers.get? buffer = before at related ⊢
  generalize right.buffers.get? buffer = after at related ⊢
  cases related with
  | none => rfl
  | @some found _ same =>
      obtain ⟨location⟩ := same
      exact shaped found location

theorem offset (alike : left.Alike right) : Run.offset right = Run.offset left := by
  funext buffer indices
  rw [Run.offset, Run.offset]
  refine congrArg _ (funext fun tuple => ?_)
  exact alike.bind_buffer buffer fun _ _ => rfl

mutual

private theorem instruction_run (alike : left.Alike right) (instruction : Instruction) :
    right.runInstruction instruction = left.runInstruction instruction := by
  cases instruction with
  | alloc buffer =>
      rw [runInstruction, runInstruction]
      exact alike.bind_buffer buffer fun _ _ => rfl
  | load destination buffer indices => rw [runInstruction, runInstruction, alike.offset]
  | store value buffer indices => rw [runInstruction, runInstruction, alike.offset]
  | loop counter lower upper step body =>
      rw [runInstruction, runInstruction, block_run alike body]
  | print buffer =>
      rw [runInstruction, runInstruction]
      exact alike.bind_buffer buffer fun _ _ => rfl
  | leave => rw [runInstruction_leave, runInstruction_leave]
  | _ => rw [runInstruction, runInstruction]

theorem block_run (alike : left.Alike right) (body : List Instruction) :
    right.runBlock body = left.runBlock body := by
  cases body with
  | nil => rw [runBlock_nil, runBlock_nil]
  | cons instruction rest =>
      rw [runBlock, runBlock, instruction_run alike instruction, block_run alike rest]

end

theorem run (alike : left.Alike right) : right.run = left.run := by
  have start_eq : RunState.start? right = RunState.start? left := by
    rw [RunState.start?, RunState.start?, alike.registerCount, alike.loopVariableCount,
      alike.buffers.size]
  rw [Function.run, Function.run, start_eq, alike.body, alike.block_run]

end Function.Alike

/-! ### Modules -/

/-- The same functions in the same order, perhaps with buffers for constructs at other locations. -/
def Module.Alike (left right : Module) : Prop :=
  List.Forall₂ Function.Alike left.functions right.functions

namespace Module.Alike

variable {first second : Module}

theorem listing (alike : first.Alike second) (ink : Ink) :
    (outcomes excused).Relates Eq (first.listing ink) (second.listing ink) := by
  refine (outcomes excused).bind ((outcomes excused).mapM alike fun _ _ same => same.listing ink)
    fun _ _ listed => ?_
  rw [List.forall₂_eq_eq_eq] at listed
  subst listed
  exact outcomes_ok rfl

theorem function? (alike : first.Alike second) (name : String) :
    Option.Rel Function.Alike (first.function? name) (second.function? name) := by
  rw [Module.function?, Module.function?]
  rw [Module.Alike] at alike
  generalize first.functions = functions at alike ⊢
  generalize second.functions = others at alike ⊢
  induction alike with
  | nil => exact .none
  | @cons left right _ _ head _ induction =>
      rw [List.find?_cons, List.find?_cons, head.name]
      cases left.name == name
      · exact induction
      · exact .some head

theorem run (alike : first.Alike second) (entry : String) : second.run entry = first.run entry := by
  have found := alike.function? entry
  rw [Module.run, Module.run]
  generalize first.function? entry = before at found ⊢
  generalize second.function? entry = after at found ⊢
  cases found with
  | none => rfl
  | some same => exact same.run

end Module.Alike

/-- Alike dataflow modules become alike loop modules, or are refused for the same cause. -/
theorem outcomes_moduleOfDataflow {first second : Dataflow.Module} (alike : first.Alike second)
    (entry : String) : (outcomes excused).Relates Module.Alike (Module.ofDataflow first entry)
      (Module.ofDataflow second entry) := by
  rw [Module.ofDataflow, Module.ofDataflow]
  rw [Dataflow.Module.Alike] at alike
  generalize first.functions = functions at alike ⊢
  generalize second.functions = others at alike ⊢
  rcases alike with _ | ⟨same, _ | ⟨another, rest⟩⟩
  · exact outcomes_fail _
  · dsimp only
    rw [same.name, same.arguments, same.resultTypes]
    refine (outcomes excused).ite (fun _ => outcomes_failAt _ _ _) fun _ => ?_
    refine (outcomes excused).ite (fun _ => outcomes_failAt _ _ _) fun _ => ?_
    refine (outcomes excused).bind (outcomes_ofDataflow same) fun lowered other matching => ?_
    exact (outcomes excused).bind_same matching.verify fun _ => outcomes_ok (.cons matching .nil)
  · dsimp only
    rw [List.length_cons, List.length_cons, List.length_cons, List.length_cons, rest.length_eq]
    exact outcomes_fail _

end Loop

end TensorLang
