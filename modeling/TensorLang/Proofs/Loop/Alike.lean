import TensorLang.Proofs.Dataflow.AlikeModules
import TensorLang.Proofs.Loop.OpenBodies

/-!
# Loops of alike dataflow functions

Lowering keeps the locations of operations only in the buffers that it makes for them.  So alike
dataflow functions become loop functions that differ at most in the locations of their buffers, or
both are refused for the same cause.
-/

namespace TensorLang

namespace Loop

variable {excused : Prop}

/-! ### Allocations -/

/-- The same buffer, perhaps for a construct at another location. -/
inductive Buffer.Alike (buffer : Buffer) : Buffer → Prop
  | relocated (location : Location) : Alike buffer { buffer with location }

/-- As many buffers of the same shapes. -/
structure AlikeBuffers (left right : Arena .buffer Buffer) : Prop where
  /-- There are as many. -/
  size : right.size = left.size
  /-- They have the same shapes. -/
  lookups : ∀ id, Option.Rel Buffer.Alike (left.get? id) (right.get? id)

theorem AlikeBuffers.push {left right : Arena .buffer Buffer} (alike : AlikeBuffers left right)
    (shape : Shape) (location another : Location) :
    AlikeBuffers (left.push ⟨shape, location⟩) (right.push ⟨shape, another⟩) where
  size := by rw [Arena.size_push, Arena.size_push, alike.size]
  lookups id := by
    rw [Arena.get?_push, Arena.get?_push, Arena.nextId, Arena.nextId, alike.size]
    split
    · exact .some (.relocated another)
    · exact alike.lookups id

/-- The same given out, perhaps for constructs at other locations. -/
structure Allocation.Alike (left right : Allocation) : Prop where
  /-- The buffers are alike. -/
  buffers : AlikeBuffers left.buffers right.buffers
  /-- Values live in the same buffers. -/
  bufferOf : right.bufferOf = left.bufferOf
  /-- The next register is the same. -/
  nextRegister : right.nextRegister = left.nextRegister
  /-- The next loop variable is the same. -/
  nextLoopVariable : right.nextLoopVariable = left.nextLoopVariable

namespace Lowering

/-! ### Loops and what stands in them -/

/-- Lowerings that produce the same while giving out alike buffers. -/
def alike (excused : Prop) : Relator Lowering := (outcomes excused).state Allocation.Alike

variable {α β : Type} {values : α → β → Prop}

theorem alike_get : (alike excused).Relates Allocation.Alike get get :=
  fun _ _ same => .ok ⟨same, same⟩

theorem alike_set {first second : Allocation} (same : first.Alike second) :
    (alike excused).Relates Eq (set first) (set second) :=
  fun _ _ _ => .ok ⟨rfl, same⟩

theorem alike_lift {first : Outcome α} {second : Outcome β}
    (related : (outcomes excused).Relates values first second) :
    (alike excused).Relates values (liftM first) (liftM second) :=
  fun _ _ same => (outcomes excused).bind related fun _ _ holds => outcomes_ok ⟨holds, same⟩

theorem alike_refl (outcome : Outcome α) :
    (alike excused).Relates Eq (liftM outcome) (liftM outcome) :=
  alike_lift (outcomes_refl outcome)

theorem alike_freshRegister : (alike excused).Relates Eq freshRegister freshRegister := by
  refine (alike excused).bind alike_get fun left right same => ?_
  rw [same.nextRegister]
  refine (alike excused).bind_same (alike_set ?_) fun _ => (alike excused).pure rfl
  exact { same with nextRegister := rfl }

private theorem alike_freshLoopVariable :
    (alike excused).Relates Eq freshLoopVariable freshLoopVariable := by
  refine (alike excused).bind alike_get fun left right same => ?_
  rw [same.nextLoopVariable]
  refine (alike excused).bind_same (alike_set ?_) fun _ => (alike excused).pure rfl
  exact { same with nextLoopVariable := rfl }

theorem alike_load (buffer : BufferId) (indices : List Index) :
    (alike excused).Relates Eq (load buffer indices) (load buffer indices) :=
  (alike excused).bind_same alike_freshRegister fun _ => (alike excused).pure rfl

theorem alike_arithmetic (operator : Arithmetic) (left right : Loop.Operand) :
    (alike excused).Relates Eq (arithmetic operator left right) (arithmetic operator left right) :=
  (alike excused).bind_same alike_freshRegister fun _ => (alike excused).pure rfl

theorem alike_nest {left right : Dataflow.Function} (dimensions : List Nat)
    {body another : List Index → Lowering (List Instruction)}
    (same : ∀ indices, (alike excused).Relates Eq (body indices) (another indices)) :
    (alike excused).Relates Eq (nest left dimensions body) (nest right dimensions another) := by
  rw [nest_eq, nest_eq]
  have counters := (alike excused).mapM_same dimensions fun _ => alike_freshLoopVariable
  refine (alike excused).bind_same counters fun counters => ?_
  exact (alike excused).bind_same (same _) fun _ => (alike excused).pure rfl

private theorem alike_combine (operator : Arithmetic) (left right buffer : BufferId)
    (indices : List Index) : (alike excused).Relates Eq (combine operator left right buffer indices)
      (combine operator left right buffer indices) := by
  refine (alike excused).bind_same (alike_load _ _) fun first => ?_
  refine (alike excused).bind_same (alike_load _ _) fun second => ?_
  exact (alike excused).bind_same (alike_arithmetic _ _ _) fun _ => (alike excused).pure rfl

private theorem alike_accumulate (left right buffer : BufferId) (row column inner : Index) :
    (alike excused).Relates Eq (accumulate left right buffer row column inner)
      (accumulate left right buffer row column inner) := by
  refine (alike excused).bind_same (alike_load _ _) fun first => ?_
  refine (alike excused).bind_same (alike_load _ _) fun second => ?_
  refine (alike excused).bind_same (alike_load _ _) fun third => ?_
  refine (alike excused).bind_same (alike_arithmetic _ _ _) fun product => ?_
  exact (alike excused).bind_same (alike_arithmetic _ _ _) fun _ => (alike excused).pure rfl

/-! ### Operations -/

section Operations

variable {left right : Dataflow.Function} {operation other : Dataflow.Operation}

theorem outcomes_rankedShape (same : left.Alike right) (value : Dataflow.ValueId) :
    (outcomes excused).Relates Eq (rankedShape left value) (rankedShape right value) := by
  rw [rankedShape, rankedShape, same.typeOf]
  refine (outcomes excused).bind (outcomes_refl _) ?_
  rintro (_ | shape) _ rfl
  · exact outcomes_failAt _ _ _
  · exact outcomes_ok rfl

theorem alike_bufferHolding (value : Dataflow.ValueId) : (alike excused).Relates Eq
    (bufferHolding left value) (bufferHolding right value) := by
  refine (alike excused).bind alike_get fun before after same => ?_
  rw [same.bufferOf]
  cases before.bufferOf[value.index]? with
  | none => exact alike_lift (outcomes_failAt _ _ _)
  | some buffer => exact (alike excused).pure rfl

theorem alike_bind (value : Dataflow.ValueId) (buffer : BufferId) :
    (alike excused).Relates Eq (Lowering.bind value buffer) (Lowering.bind value buffer) :=
  fun _ _ same =>
    .ok ⟨rfl, { same with bufferOf := congrArg (·.insert value.index buffer) same.bufferOf }⟩

theorem alike_newBuffer (same : left.Alike right) (moved : operation.Alike other) :
    (alike excused).Relates Eq (newBuffer left operation) (newBuffer right other) := by
  obtain ⟨location⟩ := moved
  refine (alike excused).bind_same (alike_refl _) fun result => ?_
  refine (alike excused).bind_same (alike_lift (outcomes_rankedShape same result)) fun shape => ?_
  refine (alike excused).bind alike_get fun before after given => ?_
  rw [Arena.nextId, Arena.nextId, given.buffers.size]
  refine (alike excused).bind_same (alike_set ?_) fun _ => ?_
  · exact { given with buffers := given.buffers.push shape _ _ }
  · exact (alike excused).bind_same (alike_bind _ _) fun _ => (alike excused).pure rfl

private theorem alike_ofCombination (same : left.Alike right) (moved : operation.Alike other)
    (operator : Arithmetic) : (alike excused).Relates Eq (ofCombination left operation operator)
      (ofCombination right other operator) := by
  have allocated : (alike excused).Relates Eq (newBuffer left operation) (newBuffer right other) :=
    alike_newBuffer same moved
  obtain ⟨location⟩ := moved
  refine (alike excused).bind_same (alike_refl _) fun first => ?_
  refine (alike excused).bind_same (alike_bufferHolding first) fun firstBuffer => ?_
  refine (alike excused).bind_same (alike_refl _) fun second => ?_
  refine (alike excused).bind_same (alike_bufferHolding second) fun secondBuffer => ?_
  refine (alike excused).bind_same allocated fun target => ?_
  exact alike_nest _ (alike_combine _ _ _ _)

private theorem alike_ofMatmul (same : left.Alike right) (moved : operation.Alike other) :
    (alike excused).Relates Eq (ofMatmul left operation) (ofMatmul right other) := by
  have allocated : (alike excused).Relates Eq (newBuffer left operation) (newBuffer right other) :=
    alike_newBuffer same moved
  obtain ⟨location⟩ := moved
  refine (alike excused).bind_same (alike_refl _) fun first => ?_
  refine (alike excused).bind_same (alike_bufferHolding first) fun firstBuffer => ?_
  refine (alike excused).bind_same (alike_refl _) fun second => ?_
  refine (alike excused).bind_same (alike_bufferHolding second) fun secondBuffer => ?_
  refine (alike excused).bind_same (alike_lift (outcomes_rankedShape same first)) fun shape => ?_
  refine (alike excused).bind_same (alike_refl _) fun inner => ?_
  refine (alike excused).bind_same allocated fun target => ?_
  refine (alike excused).bind_same (alike_nest _ fun _ => (alike excused).pure rfl) fun clear => ?_
  split
  · refine (alike excused).bind_same (alike_nest _ fun indices => ?_)
      fun _ => (alike excused).pure rfl
    split
    · exact alike_accumulate _ _ _ _ _ _
    · exact alike_refl _
  · exact alike_refl _

private theorem alike_ofTranspose (same : left.Alike right) (moved : operation.Alike other) :
    (alike excused).Relates Eq (ofTranspose left operation) (ofTranspose right other) := by
  have allocated : (alike excused).Relates Eq (newBuffer left operation) (newBuffer right other) :=
    alike_newBuffer same moved
  obtain ⟨location⟩ := moved
  refine (alike excused).bind_same (alike_refl _) fun operand => ?_
  refine (alike excused).bind_same (alike_bufferHolding operand) fun buffer => ?_
  refine (alike excused).bind_same allocated fun target => ?_
  refine alike_nest _ fun indices => ?_
  exact (alike excused).bind_same (alike_load _ _) fun _ => (alike excused).pure rfl

private theorem alike_ofOperation (same : left.Alike right) (moved : operation.Alike other) :
    (alike excused).Relates Eq (ofOperation left operation) (ofOperation right other) := by
  have allocated : (alike excused).Relates Eq (newBuffer left operation) (newBuffer right other) :=
    alike_newBuffer same moved
  have combined (operator : Arithmetic) : (alike excused).Relates Eq
      (ofCombination left operation operator) (ofCombination right other operator) :=
    alike_ofCombination same moved operator
  have multiplied : (alike excused).Relates Eq (ofMatmul left operation) (ofMatmul right other) :=
    alike_ofMatmul same moved
  have transposed : (alike excused).Relates Eq (ofTranspose left operation)
      (ofTranspose right other) := alike_ofTranspose same moved
  obtain ⟨location⟩ := moved
  obtain ⟨id, kind, operands, results, place⟩ := operation
  rw [ofOperation, ofOperation]
  cases kind with
  | constant literal => exact (alike excused).bind_same allocated fun _ => alike_refl _
  | add => exact combined .add
  | multiply => exact combined .multiply
  | matmul => exact multiplied
  | transpose => exact transposed
  | reshape shape =>
      refine (alike excused).bind_same (alike_refl _) fun operand => ?_
      refine (alike excused).bind_same (alike_bufferHolding operand) fun buffer => ?_
      exact (alike excused).bind_same allocated fun _ => (alike excused).pure rfl
  | cast =>
      refine (alike excused).bind_same (alike_refl _) fun operand => ?_
      refine (alike excused).bind_same (alike_bufferHolding operand) fun buffer => ?_
      refine (alike excused).bind_same (alike_refl _) fun result => ?_
      exact (alike excused).bind_same (alike_bind result buffer) fun _ => (alike excused).pure rfl
  | print =>
      refine (alike excused).bind_same (alike_refl _) fun operand => ?_
      exact (alike excused).bind_same (alike_bufferHolding operand)
        fun _ => (alike excused).pure rfl
  | leave => exact (alike excused).pure rfl
  | call callee => exact alike_lift (outcomes_failAt _ _ _)

private theorem outcomes_checkExpressible (same : left.Alike right)
    (moved : operation.Alike other) :
    (outcomes excused).Relates Eq (checkExpressible left operation)
      (checkExpressible right other) := by
  obtain ⟨location⟩ := moved
  obtain ⟨id, kind, operands, results, place⟩ := operation
  rw [checkExpressible, checkExpressible, same.typeOf]
  refine (outcomes excused).bind (outcomes_refl _) ?_
  rintro (_ | value) _ rfl
  · cases kind with
    | call callee => exact outcomes_failAt _ _ _
    | leave =>
        exact (outcomes excused).ite (fun _ => outcomes_ok rfl) fun _ => outcomes_failAt _ _ _
    | _ => exact outcomes_ok rfl
  · exact outcomes_failAt _ _ _

private theorem alike_ofOperations (same : left.Alike right)
    {operations others : List Dataflow.Operation}
    (moved : List.Forall₂ Dataflow.Operation.Alike operations others) :
    (alike excused).Relates Eq (ofOperations left operations) (ofOperations right others) := by
  induction moved with
  | nil => exact (alike excused).pure rfl
  | cons head _ induction =>
      refine (alike excused).bind_same (alike_lift (outcomes_checkExpressible same head))
        fun _ => ?_
      refine (alike excused).bind_same (alike_ofOperation same head) fun first => ?_
      exact (alike excused).bind_same induction fun _ => (alike excused).pure rfl

end Operations

end Lowering

/-! ### Loop functions -/

/-- The same function, perhaps with buffers for constructs at other locations. -/
structure Function.Alike (left right : Function) : Prop where
  /-- The names are the same. -/
  name : right.name = left.name
  /-- The buffers are alike. -/
  buffers : AlikeBuffers left.buffers right.buffers
  /-- There are as many registers. -/
  registerCount : right.registerCount = left.registerCount
  /-- There are as many loop variables. -/
  loopVariableCount : right.loopVariableCount = left.loopVariableCount
  /-- The instructions are the same. -/
  body : right.body = left.body

theorem outcomes_ofDataflow {left right : Dataflow.Function} (same : left.Alike right) :
    (outcomes excused).Relates Function.Alike (Function.ofDataflow left)
      (Function.ofDataflow right) := by
  refine (outcomes excused).bind same.bodyOperations fun operations others moved => ?_
  have start : Allocation.start.Alike .start :=
    ⟨⟨rfl, fun _ => .none⟩, rfl, rfl, rfl⟩
  have lowered : (Lowering.alike excused).Relates Eq (Lowering.ofOperations left operations)
      (Lowering.ofOperations right others) := Lowering.alike_ofOperations same moved
  refine (outcomes excused).bind (lowered _ _ start) ?_
  rintro ⟨body, allocation⟩ ⟨_, other⟩ ⟨rfl, given⟩
  have ids_eq : other.buffers.ids = allocation.buffers.ids := Arena.ids_of_size given.buffers.size
  refine outcomes_ok ⟨same.name, given.buffers, ?_, ?_, ?_⟩
  · exact congrArg Handle.index given.nextRegister
  · exact congrArg Handle.index given.nextLoopVariable
  · dsimp only
    rw [ids_eq]

end Loop

end TensorLang
