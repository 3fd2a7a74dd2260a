import TensorLang.Proofs.Program.Evaluation
import TensorLang.Proofs.Program.Numbers

/-!
# Literals of programs

Flattening a literal gives the shape and the row-major elements of the tensor that it spells.  None
of these elements has a sign; so literals of programs that agree as numbers are the same, though
equality of numbers does not tell the two zeros apart.
-/

namespace TensorLang

namespace Tensor

variable {shape : Shape} {tensors : List Tensor}

private theorem length_values_of_shape (shapes : ∀ tensor ∈ tensors, tensor.shape = shape) :
    (tensors.flatMap Tensor.values).length = tensors.length * shape.size := by
  induction tensors with
  | nil => simp
  | cons tensor rest induction =>
      have others := induction fun other member => shapes other (List.mem_cons_of_mem _ member)
      rw [List.flatMap_cons, List.length_append, others, tensor.filled,
        shapes tensor List.mem_cons_self, List.length_cons, Nat.succ_mul, Nat.add_comm]

theorem stack?_of_shapes {first : Tensor} {rest : List Tensor}
    (shapes : ∀ tensor ∈ rest, tensor.shape = first.shape) :
    ∃ stacked, stack? (first :: rest) = some stacked ∧
      stacked.shape = ⟨(rest.length + 1) :: first.shape.dimensions⟩ ∧
      stacked.values = first.values ++ rest.flatMap Tensor.values := by
  have filled : ((first :: rest).flatMap Tensor.values).length =
      Shape.size ⟨(rest.length + 1) :: first.shape.dimensions⟩ :=
    length_values_of_shape (List.forall_mem_cons.mpr ⟨rfl, shapes⟩)
  rw [stack?, if_pos shapes, ofValues?, dif_pos filled]
  exact ⟨_, rfl, rfl, rfl⟩

end Tensor

/-- No element of the tensor has a sign. -/
def TensorLiteral.Unsigned (literal : TensorLiteral) : Prop :=
  ∀ value ∈ literal.values, signBit value = false

/-! ### Comparisons -/

private theorem eq_of_beq_of_unsigned_values {left right : List Float}
    (same : (left == right) = true) (left_unsigned : ∀ value ∈ left, signBit value = false)
    (right_unsigned : ∀ value ∈ right, signBit value = false) : left = right := by
  induction left generalizing right with
  | nil =>
      cases right with
      | nil => rfl
      | cons => cases same
  | cons first rest induction =>
      cases right with
      | nil => cases same
      | cons other others =>
          rw [List.cons_beq_cons, Bool.and_eq_true] at same
          rw [List.forall_mem_cons] at left_unsigned right_unsigned
          rw [eq_of_beq_of_unsigned left_unsigned.1 right_unsigned.1 same.1,
            induction same.2 left_unsigned.2 right_unsigned.2]

private theorem doubles_beq_symm {left right : List Float} (same : (left == right) = true) :
    (right == left) = true := by
  induction left generalizing right with
  | nil =>
      cases right with
      | nil => rfl
      | cons => cases same
  | cons first rest induction =>
      cases right with
      | nil => cases same
      | cons other others =>
          rw [List.cons_beq_cons, Bool.and_eq_true] at same ⊢
          exact ⟨double_beq_symm same.1, induction same.2⟩

namespace Dataflow

theorem OperationKind.agrees_symm {left right : OperationKind} (same : left.agrees right = true) :
    right.agrees left = true := by
  cases left with
  | constant literal =>
      cases right with
      | constant other =>
          rw [agrees, TensorLiteral.agrees, Bool.and_eq_true] at same ⊢
          exact ⟨BEq.symm same.1, doubles_beq_symm same.2⟩
      | _ => cases same
  | reshape shape =>
      cases right with
      | reshape other => exact BEq.symm same
      | _ => cases same
  | call callee =>
      cases right with
      | call other => exact BEq.symm same
      | _ => cases same
  | add | multiply | matmul | transpose | leave | cast | print =>
      cases right <;> first | rfl | cases same

theorem TensorLiteral.eq_of_agrees {left right : TensorLiteral} (same : left.agrees right = true)
    (left_unsigned : left.Unsigned) (right_unsigned : right.Unsigned) : left = right := by
  rw [TensorLiteral.agrees, Bool.and_eq_true] at same
  have tensors : left.toTensor = right.toTensor := Tensor.eq_of_values (eq_of_beq same.1)
    (eq_of_beq_of_unsigned_values same.2 left_unsigned right_unsigned)
  obtain ⟨tensor, bounded⟩ := left
  obtain ⟨tensor', bounded'⟩ := right
  obtain rfl : tensor = tensor' := tensors
  rfl

/-- No number of the kind has a sign. -/
def OperationKind.Unsigned : OperationKind → Prop
  | .constant literal => literal.Unsigned
  | _ => True

instance (kind : OperationKind) : Decidable kind.Unsigned :=
  match kind with
  | .constant literal =>
      inferInstanceAs (Decidable (∀ value ∈ literal.values, signBit value = false))
  | .add | .multiply | .matmul | .transpose | .reshape _ | .call _ | .leave | .cast | .print =>
      .isTrue trivial

/-- The elements of the tensor that a kind names can be counted. -/
def OperationKind.Counted : OperationKind → Prop
  | .constant literal => literal.shape.boundedSize?.isSome = true
  | .reshape shape => shape.boundedSize?.isSome = true
  | _ => True

instance (kind : OperationKind) : Decidable kind.Counted :=
  match kind with
  | .constant literal => inferInstanceAs (Decidable (literal.shape.boundedSize?.isSome = true))
  | .reshape shape => inferInstanceAs (Decidable (shape.boundedSize?.isSome = true))
  | .add | .multiply | .matmul | .transpose | .call _ | .leave | .cast | .print => .isTrue trivial

/-- A program can spell the kind: no number has a sign, and elements can be counted. -/
structure OperationKind.Spelled (kind : OperationKind) : Prop where
  /-- No number has a sign. -/
  unsigned : kind.Unsigned
  /-- Elements can be counted. -/
  counted : kind.Counted

/-- Kinds without signs that agree are the same. -/
theorem OperationKind.eq_of_agrees {left right : OperationKind} (same : left.agrees right = true)
    (left_unsigned : left.Unsigned) (right_unsigned : right.Unsigned) : left = right := by
  cases left with
  | constant literal =>
      cases right with
      | constant other =>
          exact congrArg constant (TensorLiteral.eq_of_agrees same left_unsigned right_unsigned)
      | _ => cases same
  | reshape shape =>
      cases right with
      | reshape other => exact congrArg reshape (eq_of_beq same)
      | _ => cases same
  | call callee =>
      cases right with
      | call other => exact congrArg call (eq_of_beq same)
      | _ => cases same
  | add | multiply | matmul | transpose | leave | cast | print =>
      cases right <;> first | rfl | cases same

/-! ### Flattening -/

mutual

/-- A literal that can be flattened spells the tensor of the flattened elements. -/
theorem flatten_eq_ok {source : Source} {flattened : Flattened} :
    (literal : Literal) → flatten source literal = .ok flattened →
      (∃ tensor, literal.tensor? = some tensor ∧ tensor.shape = ⟨flattened.dimensions⟩ ∧
        tensor.values = flattened.values) ∧
      (literal.Unsigned → ∀ value ∈ flattened.values, signBit value = false)
  | .number _ value, success => by
      rw [flatten] at success
      obtain rfl := Except.ok.inj success
      refine ⟨⟨_, rfl, rfl, rfl⟩, fun unsigned => ?_⟩
      cases unsigned with
      | number unsigned => simpa using unsigned
  | .array _ [], success => by
      simp only [flatten, Except.bind_eq_ok_iff] at success
      obtain ⟨_, -, refused⟩ := success
      cases refused
  | .array _ (first :: rest), success => by
      simp only [flatten, Except.bind_eq_ok_iff, Except.pure_eq_ok_iff] at success
      obtain ⟨inner, inner_eq, values, values_eq, rfl⟩ := success
      obtain ⟨⟨tensor, tensor_eq, shape_eq, elements_eq⟩, first_unsigned⟩ :=
        flatten_eq_ok first inner_eq
      obtain ⟨⟨tensors, tensors_eq, count, shapes, rfl⟩, rest_unsigned⟩ :=
        flattenRest_eq_ok rest values_eq
      rw [← shape_eq] at shapes
      obtain ⟨stacked, stacked_eq, stacked_shape, stacked_values⟩ := Tensor.stack?_of_shapes shapes
      refine ⟨⟨stacked, ?_, ?_, ?_⟩, fun unsigned => ?_⟩
      · simp [Literal.tensor?, Literal.tensors?, tensor_eq, tensors_eq, stacked_eq]
      · rw [stacked_shape, shape_eq, count]
      · rw [stacked_values, elements_eq]
      · cases unsigned with
        | array unsigned =>
            rw [List.forall_mem_cons] at unsigned
            rw [List.forall_mem_append]
            exact ⟨first_unsigned unsigned.1, rest_unsigned unsigned.2⟩

/-- Further elements that can be flattened have the shape of the first. -/
theorem flattenRest_eq_ok {source : Source} {dimensions : List Nat} {values : List Float} :
    (rest : List Literal) → flattenRest source dimensions rest = .ok values →
      (∃ tensors, Literal.tensors? rest = some tensors ∧ tensors.length = rest.length ∧
        (∀ tensor ∈ tensors, tensor.shape = ⟨dimensions⟩) ∧
        values = tensors.flatMap Tensor.values) ∧
      ((∀ element ∈ rest, element.Unsigned) → ∀ value ∈ values, signBit value = false)
  | [], success => by
      rw [flattenRest] at success
      obtain rfl := Except.ok.inj success
      exact ⟨⟨[], rfl, rfl, by simp, rfl⟩, by simp⟩
  | element :: rest, success => by
      simp only [flattenRest, Except.bind_eq_ok_iff] at success
      obtain ⟨flattened, flattened_eq, success⟩ := success
      split at success
      · simp only [Except.bind_eq_ok_iff] at success
        obtain ⟨_, -, refused⟩ := success
        cases refused
      · rename_i same
        simp only [Except.bind_eq_ok_iff, Except.pure_eq_ok_iff] at success
        obtain ⟨others, others_eq, rfl⟩ := success
        obtain ⟨⟨tensor, tensor_eq, shape_eq, elements_eq⟩, first_unsigned⟩ :=
          flatten_eq_ok element flattened_eq
        obtain ⟨⟨tensors, tensors_eq, count, shapes, rfl⟩, rest_unsigned⟩ :=
          flattenRest_eq_ok rest others_eq
        rw [Decidable.not_not.mp same] at shape_eq
        refine ⟨⟨tensor :: tensors, ?_, ?_, List.forall_mem_cons.mpr ⟨shape_eq, shapes⟩, ?_⟩,
          fun unsigned => ?_⟩
        · simp [Literal.tensors?, tensor_eq, tensors_eq]
        · rw [List.length_cons, List.length_cons, count]
        · rw [List.flatMap_cons, elements_eq]
        · rw [List.forall_mem_cons] at unsigned
          rw [List.forall_mem_append]
          exact ⟨first_unsigned unsigned.1, rest_unsigned unsigned.2⟩

end

/-- Arrays are not empty. -/
theorem flatten_positive {source : Source} {flattened : Flattened} :
    (literal : Literal) → flatten source literal = .ok flattened → 0 ∉ flattened.dimensions
  | .number _ value, success => by
      rw [flatten] at success
      obtain rfl := Except.ok.inj success
      exact List.not_mem_nil
  | .array _ [], success => by
      simp only [flatten, Except.bind_eq_ok_iff] at success
      obtain ⟨_, -, refused⟩ := success
      cases refused
  | .array _ (first :: rest), success => by
      simp only [flatten, Except.bind_eq_ok_iff, Except.pure_eq_ok_iff] at success
      obtain ⟨inner, inner_eq, _, -, rfl⟩ := success
      rw [List.mem_cons, not_or]
      exact ⟨Nat.succ_ne_zero _ ∘ Eq.symm, flatten_positive first inner_eq⟩

/-- The literal of an operation is the tensor that the program spells, and it can be counted. -/
theorem tensorLiteral_eq_ok {source : Source} {literal : Literal} {result : TensorLiteral}
    (success : tensorLiteral source literal = .ok result) :
    literal.tensor? = some result.toTensor ∧ (literal.Unsigned → result.Unsigned) ∧
      OperationKind.Counted (.constant result) := by
  simp only [tensorLiteral, Except.bind_eq_ok_iff, Outcome.promised_eq_ok_iff] at success
  obtain ⟨flattened, flattened_eq, success⟩ := success
  obtain ⟨⟨tensor, tensor_eq, shape_eq, values_eq⟩, unsigned⟩ := flatten_eq_ok literal flattened_eq
  rw [TensorLiteral.ofValues?] at success
  split at success
  · rename_i fits
    obtain rfl := Option.some.inj success
    refine ⟨tensor_eq.trans (congrArg some (Tensor.eq_of_values shape_eq values_eq)), unsigned, ?_⟩
    have whole : (Shape.mk flattened.dimensions).nonzeroSize =
        (Shape.mk flattened.dimensions).size := by
      rw [Shape.nonzeroSize, List.filter_eq_self.mpr]
      rintro dimension member
      refine decide_eq_true ?_
      rintro rfl
      exact flatten_positive literal flattened_eq member
    have small : (Shape.mk flattened.dimensions).nonzeroSize < countBound := by
      rw [whole, ← fits.1]
      exact Nat.lt_trans fits.2 (by decide)
    exact Option.isSome_iff_exists.mpr ⟨_, Shape.boundedSize?_of_lt small⟩
  · cases success

end Dataflow

end TensorLang
