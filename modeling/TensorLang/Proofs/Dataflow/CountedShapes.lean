import TensorLang.Proofs.Dataflow.Typing
import TensorLang.Proofs.Tensor.Counting

/-!
# Counted shapes in inference

Inference refuses a result whose elements it cannot count.  It never refuses the transpose of a
value of a countable shape for that reason, since the dimensions in opposite order are counted
alike.
-/

namespace TensorLang

namespace Dataflow

namespace Inference

variable {function : Function} {operation : Operation} {result : ValueId} {type : TensorType}

/-- A result whose elements can be counted gets its shape, unless it is declared otherwise. -/
theorem setResult_of_counted {shape : Shape} {count : Nat}
    (counted : shape.boundedSize? = some count) (results_eq : operation.results = [result])
    (typed : function.typeOf result = .ok type) :
    setResult operation shape function =
      match type with
      | .unranked => .ok () (function.withType result (.ranked shape))
      | .ranked declared =>
          if declared = shape then .ok () function
          else .error (.error ⟨.shapeMismatch operation.name
            s!"result is declared as {declared.text} but inferred as {shape.text}",
            some operation.location⟩) function := by
  have known : shape.boundedSize? ≠ none := by
    rw [counted]
    exact Option.some_ne_none _
  have only : operation.result = .ok result := Operation.result_eq_ok_iff.mpr results_eq
  rw [setResult]
  simp only [known, if_false]
  rw [EStateM.bind_of_ok (Edit.lift_eq_ok_iff.mpr ⟨only, rfl⟩),
    EStateM.bind_of_ok (Edit.query_eq_ok_iff.mpr ⟨typed, rfl⟩)]
  cases type with
  | unranked =>
      obtain ⟨value, found, -⟩ := Function.typeOf_eq_ok_iff.mp typed
      have existing : function.hasValues 0 [result] = true := by
        simpa [Function.hasValues] using Arena.lt_size_of_get? found
      simp only
      have allowed : Edit.require (fun function => function.hasValues 0 [result]) function =
          .ok () function := Edit.require_eq_ok_iff.mpr ⟨existing, rfl⟩
      rw [Edit.setType, EStateM.bind_of_ok allowed]
      rfl
  | ranked declared =>
      by_cases same : declared = shape
      · simp only [same, ne_eq, not_true_eq_false, if_false, if_true]
        rfl
      · simp only [same, ne_eq, not_false_eq_true, if_false, if_true]
        rfl

/-- A transpose is given the dimensions of its operand in opposite order. -/
theorem resolveOperation_transpose {id : OperationId} {operand : ValueId} {shape : Shape}
    (found : function.operation? id = some operation) (transposes : operation.kind = .transpose)
    (operands_eq : operation.operands = [operand])
    (ranked : function.typeOf operand = .ok (.ranked shape)) :
    resolveOperation id function =
      (setResult operation shape.reverse >>= fun _ => pure true) function := by
  have all_ranked : allRanked function operation.operands = .ok true := by
    rw [allRanked, operands_eq]
    simp only [List.allM, ranked]
    rfl
  have types_eq : operation.operands.mapM function.typeOf = .ok [.ranked shape] := by
    rw [operands_eq]
    simp [ranked]
  rw [resolveOperation,
    EStateM.bind_of_ok (Edit.query_eq_ok_iff.mpr ⟨Outcome.promised_eq_ok_iff.mpr found, rfl⟩),
    EStateM.bind_of_ok (Edit.query_eq_ok_iff.mpr ⟨all_ranked, rfl⟩)]
  simp only [Bool.not_true, Bool.false_eq_true, if_false]
  rw [EStateM.bind_of_ok (Edit.query_eq_ok_iff.mpr ⟨types_eq, rfl⟩), transposes]
  rfl

/-- Elements are counted exactly when the products of leading dimensions are words.  For countable
shapes, and for no others, the number is given in every order of the dimensions exactly when it is
a word; then a shape and its reverse are counted alike, and a transpose of an accepted value is only
ever refused for another declared shape. -/
theorem counted_exactly_iff_countable (shape : Shape) :
    (∀ count, shape.boundedSize? = some count ↔ count = shape.size ∧
      ∀ front, front <+: shape.dimensions → (Shape.mk front).size < countBound) ∧
    (shape.Countable ↔ ∀ dimensions, dimensions.Perm shape.dimensions →
      Shape.boundedSize? ⟨dimensions⟩ =
        if shape.size < countBound then some shape.size else none) ∧
    (shape.Countable → shape.reverse.boundedSize? = shape.boundedSize? ∧
      ∀ (function : Function) (id : OperationId) (operation : Operation)
        (operand result : ValueId) (type : TensorType) (count : Nat),
        function.operation? id = some operation → operation.kind = .transpose →
        operation.operands = [operand] → operation.results = [result] →
        function.typeOf operand = .ok (.ranked shape) → function.typeOf result = .ok type →
        shape.boundedSize? = some count →
        resolveOperation id function =
          match type with
          | .unranked => .ok true (function.withType result (.ranked shape.reverse))
          | .ranked declared =>
              if declared = shape.reverse then .ok true function
              else .error (.error ⟨.shapeMismatch "transpose"
                s!"result is declared as {declared.text} but inferred as {shape.reverse.text}",
                some operation.location⟩) function) := by
  refine ⟨fun count => Shape.boundedSize?_eq_some_iff, Shape.countable_iff, fun countable => ?_⟩
  refine ⟨countable.boundedSize?_reverse, ?_⟩
  intro function id operation operand result type count found transposes operands_eq results_eq
    ranked typed counted
  rw [resolveOperation_transpose found transposes operands_eq ranked]
  have counted_reverse : shape.reverse.boundedSize? = some count :=
    countable.boundedSize?_reverse.trans counted
  have step := setResult_of_counted counted_reverse results_eq typed
  have name_eq : operation.name = "transpose" := by rw [Operation.name, transposes]; rfl
  rw [name_eq] at step
  change EStateM.bind _ _ _ = _
  rw [EStateM.bind, step]
  cases type with
  | unranked => rfl
  | ranked declared =>
      by_cases same : declared = shape.reverse
      · simp only [same, if_true]
        rfl
      · simp only [same, if_false]

/-- Transposes an argument of a shape. -/
def transposing (shape : Shape) : Function :=
  let build : Edit Unit := do
    let argument ← Edit.pushArgument (.ranked shape)
    let _ ← Edit.appendValue .transpose [argument] .unranked ⟨"main", 1, 1⟩
    let _ ← Edit.append .leave [] [] ⟨"main", 2, 1⟩
  (build.outcome (Function.new "main" ⟨"main", 1, 1⟩)).1

theorem counted_exactly_iff_countable_largestWord :
    (Shape.mk [3, 6148914691236517205]).Countable ∧
      Shape.boundedSize? ⟨[3, 6148914691236517205]⟩ = some 18446744073709551615 ∧
      Shape.boundedSize? ⟨[6148914691236517205, 3]⟩ = some 18446744073709551615 ∧
      resolveOperation ⟨0⟩ (transposing ⟨[3, 6148914691236517205]⟩) =
        .ok true ((transposing ⟨[3, 6148914691236517205]⟩).withType ⟨1⟩
          (.ranked ⟨[6148914691236517205, 3]⟩)) := by
  have countable : (Shape.mk [3, 6148914691236517205]).Countable := by decide
  have counted : Shape.boundedSize? ⟨[3, 6148914691236517205]⟩ = some 18446744073709551615 := by
    decide
  obtain ⟨-, -, alike⟩ := counted_exactly_iff_countable ⟨[3, 6148914691236517205]⟩
  obtain ⟨reversed, accepted⟩ := alike countable
  exact ⟨countable, counted, reversed.trans counted,
    accepted (transposing ⟨[3, 6148914691236517205]⟩) ⟨0⟩ _ ⟨0⟩ ⟨1⟩ .unranked _ rfl rfl rfl rfl rfl
      rfl counted⟩

/-- No element is counted where a dimension of zero comes too late, so that the reverse of such a
shape is accepted and its transpose is not. -/
theorem counted_exactly_fails_zeroLast :
    (Shape.mk [18446744073709551615, 2, 0]).size = 0 ∧
      Shape.boundedSize? ⟨[18446744073709551615, 2, 0]⟩ = none ∧
      Shape.boundedSize? ⟨[0, 2, 18446744073709551615]⟩ = some 0 ∧
      resolveOperation ⟨0⟩ (transposing ⟨[0, 2, 18446744073709551615]⟩) =
        .error (.error ⟨.shapeMismatch "transpose"
          "[18446744073709551615, 2, 0] has too many elements", some ⟨"main", 1, 1⟩⟩)
          (transposing ⟨[0, 2, 18446744073709551615]⟩) := by
  have counted : Shape.boundedSize? ⟨[18446744073709551615, 2, 0]⟩ = none := by decide
  have ranked : (transposing ⟨[0, 2, 18446744073709551615]⟩).typeOf ⟨0⟩ =
      .ok (.ranked ⟨[0, 2, 18446744073709551615]⟩) := by rfl
  refine ⟨by decide, counted, by decide, ?_⟩
  rw [resolveOperation_transpose rfl rfl rfl ranked]
  rfl

end Inference

end Dataflow

end TensorLang
