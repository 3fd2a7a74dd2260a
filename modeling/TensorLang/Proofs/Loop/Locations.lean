import TensorLang.Loop.Execution
import TensorLang.Proofs.Dataflow.Locations
import TensorLang.Proofs.Loop.OpenBodies

/-!
# Locations in loop functions

A buffer stems from where the operation does whose result it holds.  Lowering blames the function or
one of its operations, verification blames nothing or a buffer, and a running function blames
nothing.
-/

namespace TensorLang

namespace Loop

variable {known : Location → Prop}

/-- All buffers stem from known locations. -/
def BuffersWithin (buffers : Arena .buffer Buffer) (known : Location → Prop) : Prop :=
  ∀ id buffer, buffers.get? id = some buffer → known buffer.location

/-- The buffers of the functions of the module stem from known locations. -/
def Module.Within (module : Module) (known : Location → Prop) : Prop :=
  ∀ function ∈ module.functions, BuffersWithin function.buffers known

/-! ### Lowering -/

namespace Lowering

section Steps

variable {α β : Type} {gives : α → Prop}

/-- From buffers within known locations, the step leads to such buffers and gives a value with the
property, or it blames a known location if any. -/
def StaysWithin (known : Location → Prop) (step : Lowering α) (gives : α → Prop) : Prop :=
  ∀ allocation, BuffersWithin allocation.buffers known →
    (step allocation).Within known fun outcome =>
      gives outcome.1 ∧ BuffersWithin outcome.2.buffers known

namespace StaysWithin

theorem bind {step : Lowering α} {next : α → Lowering β} {others : β → Prop}
    (early : StaysWithin known step gives)
    (late : ∀ value, gives value → StaysWithin known (next value) others) :
    StaysWithin known (step >>= next) others :=
  fun allocation within => (early allocation within).bind fun outcome reached =>
    late outcome.1 reached.1 outcome.2 reached.2

theorem pure {value : α} (given : gives value) : StaysWithin known (Pure.pure value) gives :=
  fun _ within => ⟨given, within⟩

theorem throw : StaysWithin known (throw .fault : Lowering α) gives := fun _ _ => trivial

theorem lift {outcome : Outcome α} (within : outcome.Within known gives) :
    StaysWithin known (liftM outcome : Lowering α) gives :=
  fun _ kept => within.bind fun _ given => ⟨given, kept⟩

theorem get : StaysWithin known (get : Lowering Allocation)
    fun allocation => BuffersWithin allocation.buffers known :=
  fun _ within => ⟨within, within⟩

theorem set {allocation : Allocation} (within : BuffersWithin allocation.buffers known) :
    StaysWithin known (set allocation : Lowering PUnit) fun _ => True :=
  fun _ _ => ⟨trivial, within⟩

theorem mapM {items : List β} {step : β → Lowering α}
    (each : ∀ item, StaysWithin known (step item) fun _ => True) :
    StaysWithin known (items.mapM step) fun _ => True := by
  induction items with
  | nil => exact pure trivial
  | cons item items induction =>
      rw [List.mapM_cons]
      exact (each item).bind fun _ _ => induction.bind fun _ _ => pure trivial

end StaysWithin

end Steps

section Instructions

variable {function : Dataflow.Function} {operation : Dataflow.Operation}

theorem within_freshRegister : StaysWithin known freshRegister fun _ => True :=
  StaysWithin.get.bind fun _ within => .bind (.set within) fun _ _ => .pure trivial

private theorem within_freshLoopVariable : StaysWithin known freshLoopVariable fun _ => True :=
  StaysWithin.get.bind fun _ within => .bind (.set within) fun _ _ => .pure trivial

theorem within_load (buffer : BufferId) (indices : List Index) :
    StaysWithin known (load buffer indices) fun _ => True :=
  within_freshRegister.bind fun _ _ => .pure trivial

theorem within_arithmetic (operator : Arithmetic) (left right : Operand) :
    StaysWithin known (arithmetic operator left right) fun _ => True :=
  within_freshRegister.bind fun _ _ => .pure trivial

theorem within_nest {dimensions : List Nat} {body : List Index → Lowering (List Instruction)}
    (inside : ∀ indices, StaysWithin known (body indices) fun _ => True) :
    StaysWithin known (nest function dimensions body) fun _ => True := by
  rw [nest_eq]
  exact (StaysWithin.mapM fun _ => within_freshLoopVariable).bind fun _ _ =>
    (inside _).bind fun _ _ => .pure trivial

theorem within_rankedShape (within : function.Within known) (value : Dataflow.ValueId) :
    (rankedShape function value).Within known fun _ => True := by
  refine (function.within_typeOf value).bind fun type _ => ?_
  split
  · exact .pure trivial
  · exact .failAt within.location

theorem within_bufferHolding (within : function.Within known) (value : Dataflow.ValueId) :
    StaysWithin known (bufferHolding function value) fun _ => True := by
  refine StaysWithin.get.bind fun allocation _ => ?_
  split
  · exact .pure trivial
  · exact .lift (.failAt within.location)

/-- The buffer of an operand, and what is done with it. -/
theorem within_operand {α : Type} {gives : α → Prop} (within : function.Within known)
    (position : Nat) {next : BufferId → Lowering α}
    (late : ∀ buffer, StaysWithin known (next buffer) gives) :
    StaysWithin known (do next (← bufferHolding function (← operation.operand position))) gives :=
  (StaysWithin.lift (operation.within_operand position)).bind fun value _ =>
    (within_bufferHolding within value).bind fun buffer _ => late buffer

theorem within_bind (value : Dataflow.ValueId) (buffer : BufferId) :
    StaysWithin known (bind value buffer) fun _ => True :=
  fun _ within => ⟨trivial, within⟩

theorem within_newBuffer (within : function.Within known)
    (known_location : known operation.location) :
    StaysWithin known (newBuffer function operation) fun _ => True := by
  refine (StaysWithin.lift operation.within_result).bind fun result _ => ?_
  refine (StaysWithin.lift (within_rankedShape within result)).bind fun shape _ => ?_
  refine StaysWithin.get.bind fun allocation buffers_within => ?_
  refine (StaysWithin.set (fun id buffer found => ?_)).bind fun _ _ =>
    (within_bind _ _).bind fun _ _ => .pure trivial
  rw [Arena.get?_push] at found
  split at found
  · obtain rfl := Option.some.inj found
    exact known_location
  · exact buffers_within id buffer found

private theorem within_combine (operator : Arithmetic) (left right buffer : BufferId)
    (indices : List Index) :
    StaysWithin known (combine operator left right buffer indices) fun _ => True :=
  (within_load left indices).bind fun _ _ => (within_load right indices).bind fun _ _ =>
    (within_arithmetic operator _ _).bind fun _ _ => .pure trivial

private theorem within_accumulate (left right buffer : BufferId) (row column inner : Index) :
    StaysWithin known (accumulate left right buffer row column inner) fun _ => True :=
  (within_load left _).bind fun _ _ => (within_load right _).bind fun _ _ =>
    (within_load buffer _).bind fun _ _ => (within_arithmetic _ _ _).bind fun _ _ =>
      (within_arithmetic _ _ _).bind fun _ _ => .pure trivial

theorem within_ofCombination (within : function.Within known)
    (known_location : known operation.location) (operator : Arithmetic) :
    StaysWithin known (ofCombination function operation operator) fun _ => True :=
  within_operand within 0 fun _ => within_operand within 1 fun _ =>
    (within_newBuffer within known_location).bind fun _ _ =>
      within_nest fun indices => within_combine operator _ _ _ indices

private theorem within_ofMatmul (within : function.Within known)
    (known_location : known operation.location) :
    StaysWithin known (ofMatmul function operation) fun _ => True := by
  refine (StaysWithin.lift (operation.within_operand 0)).bind fun leftOperand _ => ?_
  refine (within_bufferHolding within leftOperand).bind fun left _ => ?_
  refine within_operand within 1 fun right => ?_
  refine (StaysWithin.lift (within_rankedShape within leftOperand)).bind fun leftShape _ => ?_
  refine (StaysWithin.lift Outcome.Within.promised).bind fun inner _ => ?_
  refine (within_newBuffer within known_location).bind fun pair _ => ?_
  refine (within_nest fun _ => .pure trivial).bind fun clear _ => ?_
  split
  · refine (within_nest fun indices => ?_).bind fun _ _ => .pure trivial
    split
    · exact within_accumulate _ _ _ _ _ _
    · exact .throw
  · exact .throw

private theorem within_ofTranspose (within : function.Within known)
    (known_location : known operation.location) :
    StaysWithin known (ofTranspose function operation) fun _ => True :=
  within_operand within 0 fun _ => (within_newBuffer within known_location).bind fun _ _ =>
    within_nest fun _ => (within_load _ _).bind fun _ _ => .pure trivial

private theorem within_storeLiteral (buffer : BufferId) (shape : Shape) (values : List Float) :
    (storeLiteral buffer shape values).Within known fun _ => True := by
  have stores (value : Float) (offset : Nat) : Outcome.Within (do
      let indices ← Outcome.promised (shape.indices? offset)
      return Instruction.store (.immediate value) buffer (indices.map .constant)) known
      fun _ => True :=
    Outcome.Within.promised.bind fun _ _ => .pure trivial
  exact (Outcome.Within.mapM fun entry _ => stores entry.1 entry.2).trivial

private theorem within_ofOperation (within : function.Within known)
    (known_location : known operation.location) :
    StaysWithin known (ofOperation function operation) fun _ => True := by
  rw [ofOperation]
  split
  · exact (within_newBuffer within known_location).bind fun _ _ =>
      .lift (within_storeLiteral _ _ _)
  · exact within_ofCombination within known_location .add
  · exact within_ofCombination within known_location .multiply
  · exact within_ofMatmul within known_location
  · exact within_ofTranspose within known_location
  · exact within_operand within 0 fun _ =>
      (within_newBuffer within known_location).bind fun _ _ => .pure trivial
  · refine within_operand within 0 fun operand => ?_
    exact (StaysWithin.lift operation.within_result).bind fun result _ =>
      (within_bind result operand).bind fun _ _ => .pure trivial
  · exact within_operand within 0 fun _ => .pure trivial
  · exact .pure trivial
  · exact .lift (.failAt known_location)

private theorem within_checkExpressible (known_location : known operation.location) :
    (checkExpressible function operation).Within known fun _ => True := by
  have unranked : Outcome.Within ((operation.operands ++ operation.results).findM? fun value => do
      return !(← function.typeOf value).isRanked) known fun _ => True :=
    .findM? fun value _ => (function.within_typeOf value).bind fun _ _ => .pure trivial
  rw [checkExpressible]
  refine unranked.bind fun unranked? _ => ?_
  split
  · exact .failAt known_location
  · split
    · exact .failAt known_location
    · split
      · exact trivial
      · exact .failAt known_location
    · exact trivial

private theorem within_ofOperations (within : function.Within known)
    (operations : List Dataflow.Operation)
    (known_locations : ∀ operation ∈ operations, known operation.location) :
    StaysWithin known (ofOperations function operations) fun _ => True := by
  induction operations with
  | nil => exact .pure trivial
  | cons operation rest induction =>
      rw [List.forall_mem_cons] at known_locations
      rw [ofOperations]
      refine (StaysWithin.lift (within_checkExpressible known_locations.1)).bind fun _ _ => ?_
      refine (within_ofOperation within known_locations.1).bind fun first _ => ?_
      exact (induction known_locations.2).bind fun others _ => .pure trivial

end Instructions

end Lowering

theorem Function.within_ofDataflow {source : Dataflow.Function} (within : source.Within known) :
    (Function.ofDataflow source).Within known fun lowered =>
      BuffersWithin lowered.buffers known := by
  refine within.bodyOperations.bind fun operations known_locations => ?_
  have lowers := Lowering.within_ofOperations within operations known_locations .start
    fun id buffer found => ?_
  · exact lowers.bind fun outcome reached => .pure reached.2
  · cases found

/-! ### Verification -/

namespace Function

variable {function : Function} {surroundings : Surroundings} {progress : Progress} {α : Type}

theorem within_invalid {message : String} {gives : α → Prop} :
    (function.invalid message : Outcome α).Within known gives := Failure.within_of_unlocated

theorem within_knownBuffer (buffer : BufferId) :
    (function.knownBuffer buffer).Within known fun _ => True := by
  rw [knownBuffer]
  split
  · exact trivial
  · exact within_invalid

theorem within_usableBuffer (progress : Progress) (buffer : BufferId) :
    (function.usableBuffer progress buffer).Within known fun _ => True := by
  refine (within_knownBuffer buffer).bind fun found _ => ?_
  split
  · exact .pure trivial
  · exact within_invalid
  · exact within_invalid

private theorem within_checkBounds (surrounded : ∀ location ∈ surroundings.location, known location)
    (buffer : BufferId) (shape : Shape) (pairs : List (Index × Nat)) :
    (function.checkBounds surroundings buffer shape pairs).Within known fun _ => True := by
  fun_induction checkBounds function surroundings buffer shape pairs with
  | case1 => trivial
  | case2 => exact within_invalid
  | case3 _ _ _ _ induction => exact induction
  | case4 => exact within_invalid
  | case5 => exact surrounded
  | case6 _ _ _ _ _ _ induction => exact induction

theorem within_checkIndices (surrounded : ∀ location ∈ surroundings.location, known location)
    (progress : Progress) (buffer : BufferId) (indices : List Index) :
    (function.checkIndices surroundings progress buffer indices).Within known fun _ => True := by
  refine (within_usableBuffer progress buffer).bind fun found _ => ?_
  dsimp only
  split
  · exact within_invalid
  · exact within_checkBounds surrounded _ _ _

theorem within_checkOutside (instruction : String) :
    (function.checkOutside surroundings instruction).Within known fun _ => True := by
  rw [checkOutside]
  split
  · exact trivial
  · exact within_invalid

theorem within_checkOperand (value : Operand) :
    (function.checkOperand progress value).Within known fun _ => True := by
  cases value with
  | immediate value => exact trivial
  | register register =>
      rw [checkOperand]
      split
      · exact trivial
      · exact within_invalid

theorem within_writeRegister (progress : Progress) (register : RegisterId) :
    (function.writeRegister progress register).Within known fun _ => True := by
  rw [writeRegister]
  split
  · exact within_invalid
  · exact trivial

private theorem within_enterLoop (buffers : BuffersWithin function.buffers known)
    (surrounded : ∀ location ∈ surroundings.location, known location) (counter : LoopVariableId)
    (lower upper step : Nat) (body : List Instruction) :
    (function.enterLoop surroundings counter lower upper step body).Within known
      fun inner => ∀ location ∈ inner.location, known location := by
  rw [enterLoop]
  split
  · exact within_invalid
  · split
    · exact within_invalid
    · refine Outcome.Within.pure fun location found => ?_
      dsimp only at found
      split at found
      · obtain ⟨buffer, buffer_eq, rfl⟩ := Option.map_eq_some_iff.mp found
        obtain ⟨id, -, id_eq⟩ := Option.bind_eq_some_iff.mp buffer_eq
        exact buffers id buffer id_eq
      · exact surrounded location found

mutual

private theorem within_checkInstruction (buffers : BuffersWithin function.buffers known)
    (surroundings : Surroundings) (surrounded : ∀ location ∈ surroundings.location, known location)
    (isLast : Bool) (progress : Progress) (instruction : Instruction) :
    (function.checkInstruction surroundings isLast progress instruction).Within known
      fun _ => True := by
  cases instruction with
  | alloc buffer =>
      rw [checkInstruction]
      refine (within_checkOutside _).bind fun _ _ => (within_knownBuffer buffer).bind fun _ _ => ?_
      split
      · exact within_invalid
      · exact .pure trivial
  | dealloc buffer =>
      rw [checkInstruction]
      exact (within_checkOutside _).bind fun _ _ =>
        (within_usableBuffer progress buffer).bind fun _ _ => .pure trivial
  | load destination buffer indices =>
      rw [checkInstruction]
      exact (within_checkIndices surrounded progress buffer indices).bind fun _ _ =>
        within_writeRegister progress destination
  | store value buffer indices =>
      rw [checkInstruction]
      exact (within_checkOperand value).bind fun _ _ =>
        (within_checkIndices surrounded progress buffer indices).bind fun _ _ => .pure trivial
  | arithmetic operator destination left right =>
      rw [checkInstruction]
      exact (within_checkOperand left).bind fun _ _ => (within_checkOperand right).bind fun _ _ =>
        within_writeRegister progress destination
  | loop counter lower upper step body =>
      rw [checkInstruction]
      refine (within_enterLoop buffers surrounded counter lower upper step body).bind
        fun inner inner_surrounded => ?_
      exact (within_checkBlock buffers inner inner_surrounded progress body).bind
        fun _ _ => .pure trivial
  | copy source destination =>
      rw [checkInstruction]
      refine (within_usableBuffer progress source).bind fun _ _ => ?_
      refine (within_usableBuffer progress destination).bind fun _ _ => ?_
      dsimp only
      split
      · exact within_invalid
      · exact .pure trivial
  | print buffer =>
      rw [checkInstruction]
      exact (within_usableBuffer progress buffer).bind fun _ _ => .pure trivial
  | leave =>
      rw [checkInstruction_leave]
      split
      · exact trivial
      · exact within_invalid

theorem within_checkBlock (buffers : BuffersWithin function.buffers known)
    (surroundings : Surroundings) (surrounded : ∀ location ∈ surroundings.location, known location)
    (progress : Progress) (body : List Instruction) :
    (function.checkBlock surroundings progress body).Within known fun _ => True := by
  cases body with
  | nil =>
      rw [checkBlock_nil]
      exact trivial
  | cons instruction rest =>
      rw [checkBlock]
      exact (within_checkInstruction buffers surroundings surrounded rest.isEmpty progress
        instruction).bind fun after _ =>
          within_checkBlock buffers surroundings surrounded after rest

end

private theorem within_checkReleased (progress : Progress) :
    (function.checkReleased progress).Within known fun _ => True := by
  refine .forM fun buffer _ => ?_
  split
  · exact trivial
  · exact within_invalid
  · exact within_invalid

private theorem within_verify (buffers : BuffersWithin function.buffers known) :
    function.verify.Within known fun _ => True := by
  refine (within_checkBlock buffers .outside nofun .start function.body).bind fun progress _ => ?_
  exact .guard within_invalid (within_checkReleased progress)

end Function

theorem Module.within_ofDataflow {module : Dataflow.Module} (within : module.Within known)
    (entry : String) :
    (Module.ofDataflow module entry).Within known fun lowered => lowered.Within known := by
  rw [Module.ofDataflow]
  split
  · rename_i function functions_eq
    have function_within := within function (by simp [functions_eq])
    dsimp only
    split
    · exact .failAt function_within.location
    · split
      · exact .failAt function_within.location
      · refine (Function.within_ofDataflow function_within).bind fun lowered buffers => ?_
        exact (Function.within_verify buffers).bind fun _ _ =>
          .pure (List.forall_mem_singleton.mpr buffers)
  · exact .fail

/-! ### Execution -/

namespace Run

variable {α β : Type}

/-- The step blames no location. -/
def Blameless (known : Location → Prop) (step : Run α) : Prop :=
  StaysWithin known (fun _ : RunState => True) step fun _ => True

namespace Blameless

theorem bind {step : Run α} {next : α → Run β} (early : Blameless known step)
    (late : ∀ value, Blameless known (next value)) : Blameless known (step >>= next) :=
  StaysWithin.bind early fun value _ => late value

theorem pure {value : α} : Blameless known (Pure.pure value) := StaysWithin.pure trivial

theorem get : Blameless known (get : Run RunState) := StaysWithin.get

theorem modify {change : RunState → RunState} : Blameless known (modify change : Run PUnit) :=
  StaysWithin.modify fun _ _ => trivial

theorem throw : Blameless known (throw .fault : Run α) := StaysWithin.throw trivial

theorem fail {message : String} : Blameless known (fail message : Run α) :=
  StaysWithin.throw Failure.within_of_unlocated

theorem promised {value? : Option α} : Blameless known (lift (.promised value?)) := by
  intro state _
  cases value? with
  | none => exact ⟨trivial, trivial⟩
  | some value => exact ⟨trivial, trivial⟩

theorem elements {buffer : BufferId} {access : String} :
    Blameless known (elements buffer access) := by
  refine bind (bind get fun _ => promised) fun slot => ?_
  cases slot with
  | live values => exact pure
  | unallocated => exact fail
  | released => exact fail

theorem setRegister {register : RegisterId} {value : Float} :
    Blameless known (setRegister register value) := by
  refine bind get fun state => ?_
  split
  · exact modify
  · exact throw

theorem setCounter {counter : LoopVariableId} {value : Nat} :
    Blameless known (setCounter counter value) := by
  refine bind get fun state => ?_
  split
  · exact modify
  · exact throw

theorem operand {value : Operand} : Blameless known (operand value) := by
  cases value with
  | immediate value => exact pure
  | register register => exact bind get fun _ => promised

theorem index {position : Index} : Blameless known (index position) := by
  cases position with
  | constant value => exact pure
  | loopVariable id => exact bind get fun _ => promised

theorem offset {function : Function} {buffer : BufferId} {indices : List Index} :
    Blameless known (offset function buffer indices) := by
  refine bind (StaysWithin.mapM fun _ => index) fun tuple => ?_
  refine bind promised fun found => ?_
  dsimp only
  split
  · exact pure
  · exact fail

theorem repeatStep {step : Run Control} (once : Blameless known step) {counter : LoopVariableId}
    {stride : Nat} (count value : Nat) :
    Blameless known (repeatStep step counter stride count value) := by
  induction count generalizing value with
  | zero => exact pure
  | succ count induction =>
      refine bind setCounter fun _ => bind once fun control => ?_
      cases control with
      | leave => exact pure
      | proceed => exact induction _

end Blameless

end Run

namespace Function

mutual

private theorem blameless_runInstruction (function : Function) (instruction : Instruction) :
    Run.Blameless known (function.runInstruction instruction) := by
  cases instruction with
  | alloc buffer =>
      rw [runInstruction]
      exact .bind .promised fun _ => .bind .promised fun _ => .bind .modify fun _ => .pure
  | dealloc buffer =>
      rw [runInstruction]
      exact .bind .elements fun _ => .bind .modify fun _ => .pure
  | load destination buffer indices =>
      rw [runInstruction]
      exact .bind .offset fun _ => .bind .elements fun _ => .bind .promised fun _ =>
        .bind .setRegister fun _ => .pure
  | store value buffer indices =>
      rw [runInstruction]
      refine .bind .operand fun _ => .bind .offset fun _ => .bind .elements fun values => ?_
      split
      · exact .bind .modify fun _ => .pure
      · exact .throw
  | arithmetic operator destination left right =>
      rw [runInstruction]
      exact .bind .operand fun _ => .bind .operand fun _ => .bind .setRegister fun _ => .pure
  | loop counter lower upper step body =>
      rw [runInstruction]
      split
      · exact .throw
      · exact .repeatStep (blameless_runBlock function body) _ _
  | copy source destination =>
      rw [runInstruction]
      refine .bind .elements fun values => .bind .elements fun target => ?_
      split
      · exact .fail
      · exact .bind .modify fun _ => .pure
  | print buffer =>
      rw [runInstruction]
      exact .bind .promised fun _ => .bind .elements fun _ => .bind .promised fun _ =>
        .bind .modify fun _ => .pure
  | leave =>
      rw [runInstruction_leave]
      exact .pure

theorem blameless_runBlock (function : Function) (body : List Instruction) :
    Run.Blameless known (function.runBlock body) := by
  cases body with
  | nil =>
      rw [runBlock_nil]
      exact .pure
  | cons instruction rest =>
      rw [runBlock]
      refine .bind (blameless_runInstruction function instruction) fun control => ?_
      cases control with
      | leave => exact .pure
      | proceed => exact blameless_runBlock function rest

end

theorem within_run (function : Function) : function.run.2.Within known fun _ => True := by
  rw [run]
  split
  · exact trivial
  · rename_i start _
    have blameless : Run.Blameless known (function.runBlock function.body) :=
      function.blameless_runBlock function.body
    have runs := blameless start trivial
    split at runs
    · rename_i success
      simp only [success]
      exact trivial
    · rename_i failed
      simp only [failed]
      exact runs.1

end Function

theorem Module.within_run (module : Module) (entry : String) :
    (module.run entry).2.Within known fun _ => True := by
  rw [run]
  split
  · exact Function.within_run _
  · exact .fail

end Loop

end TensorLang
