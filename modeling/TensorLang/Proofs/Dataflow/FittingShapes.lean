import TensorLang.Proofs.Dataflow.Inference
import TensorLang.Proofs.Dataflow.Reductions
import TensorLang.Proofs.Dataflow.UnshapedFunctions

/-!
# Shapes in inferred functions fit

Inference starts from the shapes of literals, which fit, and each rule leads from shapes that fit to
one that fits again: a matrix product has new dimensions in combination, but its elements are
counted, and a reshape has as many elements as its operand.  Reductions keep all of this.
-/

namespace TensorLang

namespace Dataflow

/-- What holds of the available values, and of the results of each operation if it holds of the
operands, holds of all values. -/
theorem Dominated.forall_values {property : ValueId → Prop} {available : List ValueId}
    {code : List Operation} (dominated : Dominated available code)
    (given : ∀ id ∈ available, property id)
    (step : ∀ operation ∈ code, (∀ operand ∈ operation.operands, property operand) →
      ∀ result ∈ operation.results, property result) :
    ∀ id ∈ available ++ code.flatMap Operation.results, property id := by
  induction code generalizing available with
  | nil => simpa using given
  | cons operation rest induction =>
      rw [List.forall_mem_cons] at step
      rw [List.flatMap_cons, ← List.append_assoc]
      refine induction dominated.2 (List.forall_mem_append.mpr ⟨given, ?_⟩) step.2
      exact step.1 fun operand reads => given operand (dominated.1 operand reads)

/-- A rule leads from shapes that fit to one that fits. -/
theorem OperationKind.Gives.fits {kind : OperationKind} {shapes : List Shape} {shape : Shape}
    (gives : kind.Gives shapes shape) (counted : shape.boundedSize?.isSome = true)
    (literal_fits : kind.LiteralFits) (operands : ∀ operand ∈ shapes, operand.Fits) :
    shape.Fits := by
  cases gives with
  | constant => exact literal_fits
  | add | multiply | cast => exact operands _ List.mem_cons_self
  | transpose operand => exact (operands operand List.mem_cons_self).reverse
  | matmul rows inner columns =>
      rw [List.forall_mem_cons, List.forall_mem_singleton] at operands
      exact operands.1.product operands.2 counted
  | @reshape operand target same =>
      have positive := (operands operand List.mem_cons_self).size_pos
      rw [← Shape.size_of_boundedSize? same] at positive
      exact .of_counted positive counted

theorem Function.exists_operand {function : Function} {operands : List ValueId}
    {shapes : List Shape}
    (types_eq : operands.map function.typeOf = shapes.map fun shape => .ok (.ranked shape))
    {shape : Shape} (member : shape ∈ shapes) :
    ∃ operand ∈ operands, function.typeOf operand = .ok (.ranked shape) := by
  have known : .ok (.ranked shape) ∈ operands.map function.typeOf := by
    rw [types_eq]
    exact List.mem_map_of_mem member
  exact List.mem_map.mp known

private theorem reshapable_literalFits : Reshapable OperationKind.LiteralFits := by
  intro literal reshaped shape reshaped_eq literal_fits _
  obtain ⟨-, values_eq⟩ := TensorLiteral.withShape?_eq_some reshaped_eq
  have size_eq : reshaped.shape.size = literal.shape.size := by
    rw [← reshaped.filled, values_eq, literal.filled]
  change reshaped.shape.Fits
  rw [Shape.fits_iff, size_eq]
  exact Shape.fits_iff.mp literal_fits

/-- The function has the shape in it.  Values of operations that are gone are not in a function. -/
inductive Function.Mentions (function : Function) : Shape → Prop
  /-- An argument or the result of an operation is of the shape. -/
  | value {id : ValueId} {shape : Shape} (live : id ∈ function.availableAfter function.code)
      (typed : function.typeOf id = .ok (.ranked shape)) : Mentions function shape
  /-- A value of the shape is returned. -/
  | returned {shape : Shape} (declared : .ranked shape ∈ function.resultTypes) :
      Mentions function shape
  /-- A constant has the shape. -/
  | literal {operation : Operation} {literal : TensorLiteral} (member : operation ∈ function.code)
      (kind_eq : operation.kind = .constant literal) : Mentions function literal.shape
  /-- A value is laid out in the shape. -/
  | target {operation : Operation} {shape : Shape} (member : operation ∈ function.code)
      (kind_eq : operation.kind = .reshape shape) : Mentions function shape

/-- The types of everything but the arguments are known, and the shapes of literals fit. -/
structure Function.Shaped (function : Function) : Prop where
  /-- Verification accepts the function. -/
  verified : function.Verified
  /-- Operands and results have the right numbers. -/
  proper : function.Proper
  /-- All types are known. -/
  typed : function.Typed
  /-- The shapes of literals fit. -/
  literals : function.Among OperationKind.LiteralFits
  /-- Nothing is known of the arguments. -/
  arguments : ∀ id ∈ function.arguments, function.typeOf id = .ok .unranked

/-- Inference finds all shapes of a function whose literals fit. -/
theorem shaped_of_inferTypes {function inferred : Function} (verified : function.Verified)
    (proper : function.Proper) (unshaped : function.Unshaped)
    (success : Edit.inferTypes function = .ok () inferred) : inferred.Shaped := by
  obtain ⟨refines, typed⟩ := Inference.inferTypes_eq_ok success
  refine ⟨refines.verified verified, refines.proper proper, typed, ?_, ?_⟩
  · intro operation member
    rw [refines.code_eq] at member
    exact unshaped.literals.kind member
  · intro id argument
    rw [refines.arguments] at argument
    rw [Inference.confined_of_inferTypes success id ?_]
    · exact unshaped.arguments id argument
    · intro place listed operation found defines
      have member := unshaped.literals.mem_code found
      exact verified.argument_notMem argument (List.mem_flatMap.mpr ⟨operation, member, defines⟩)

namespace Function.Shaped

variable {function changed : Function} {shape : Shape}

theorem inferTypes_eq (shaped : function.Shaped) : Edit.inferTypes function = .ok () function :=
  Inference.inferTypes_of_typed shaped.verified.live shaped.typed

theorem reduces {alike : OperationKind → OperationKind → Prop} {count : Nat}
    (shaped : function.Shaped) (reduces : Reduces alike count function changed) :
    changed.Shaped where
  verified := reduces.verified shaped.verified
  proper := shaped.proper.reduces reduces
  typed := shaped.typed.reduces reduces shaped.verified
  literals := shaped.literals.reduces reshapable_literalFits reduces
  arguments := by
    intro id argument
    rw [reduces.extension.arguments] at argument
    have known := shaped.arguments id argument
    obtain ⟨value, found, -⟩ := typeOf_eq_ok_iff.mp known
    rw [reduces.extension.typeOf (Arena.lt_size_of_get? found)]
    exact known

theorem fits_of_typeOf (shaped : function.Shaped) {id : ValueId}
    (live : id ∈ function.availableAfter function.code)
    (type_eq : function.typeOf id = .ok (.ranked shape)) : shape.Fits := by
  have all : ∀ id ∈ function.availableAfter function.code, ∀ shape,
      function.typeOf id = .ok (.ranked shape) → shape.Fits := by
    refine shaped.verified.dominated.forall_values ?_ ?_
    · intro argument member shape type_eq
      cases (shaped.arguments argument member).symm.trans type_eq
    · intro operation member operands result defines shape type_eq
      obtain ⟨shapes, given, operand_types, result_type, gives, counted⟩ :=
        shaped.typed.exists_shape shaped.proper member defines
      cases result_type.symm.trans type_eq
      apply gives.fits counted (shaped.literals operation member)
      intro operand listed
      obtain ⟨value, reads, value_type⟩ := exists_operand operand_types listed
      exact operands value reads operand value_type
  exact all id live shape type_eq

/-- Whatever shape there is in the function fits. -/
theorem fits (shaped : function.Shaped) (mentions : function.Mentions shape) : shape.Fits := by
  cases mentions with
  | value live type_eq => exact shaped.fits_of_typeOf live type_eq
  | literal member kind_eq =>
      have literal_fits := shaped.literals _ member
      rwa [kind_eq] at literal_fits
  | returned declared =>
      obtain ⟨front, last, last_eq, leaves, -⟩ := shaped.verified.ending.exists_last
      have last_mem : last ∈ function.code := by simp [last_eq]
      obtain ⟨shapes, resultTypes_eq, operand_types⟩ :=
        shaped.typed.resultTypes_eq last_mem leaves (shaped.verified.returns last last_mem leaves)
      rw [resultTypes_eq] at declared
      obtain ⟨_, listed, ⟨⟩⟩ := List.mem_map.mp declared
      obtain ⟨value, reads, value_type⟩ := exists_operand operand_types listed
      have live : value ∈ function.availableAfter function.code :=
        shaped.verified.dominated.operand_mem last_mem reads
      exact shaped.fits_of_typeOf live value_type
  | @target operation _ member kind_eq =>
      have one := (shaped.proper operation member).results
      rw [kind_eq] at one
      obtain ⟨result, results_eq⟩ := List.length_eq_one_iff.mp one
      have defines : result ∈ operation.results := by simp [results_eq]
      obtain ⟨shapes, given, -, result_type, gives, -⟩ :=
        shaped.typed.exists_shape shaped.proper member defines
      rw [kind_eq] at gives
      cases gives
      have live : result ∈ function.availableAfter function.code :=
        List.mem_append_right _ (List.mem_flatMap.mpr ⟨operation, member, defines⟩)
      exact shaped.fits_of_typeOf live result_type

end Function.Shaped

end Dataflow

end TensorLang
