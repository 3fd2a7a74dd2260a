import TensorLang.Proofs.Dataflow.TranslatedPrograms
import TensorLang.Proofs.Dataflow.Typing
import TensorLang.Proofs.Tensor.Fitting

/-!
# Functions before inference

No array is empty, so the literals of a program have shapes that fit.  Nothing is known of the
arguments of its functions.  Translation builds functions like that, and inlining, which puts in no
other operations than casts and those of the functions, leaves one.
-/

namespace TensorLang

namespace Dataflow

/-- The tensor of a constant has a shape that fits. -/
def OperationKind.LiteralFits : OperationKind → Prop
  | .constant literal => literal.shape.Fits
  | .add | .multiply | .matmul | .transpose | .reshape _ | .call _ | .leave | .cast | .print => True

theorem fits_of_tensorLiteral {source : Source} {literal : Literal} {result : TensorLiteral}
    (success : tensorLiteral source literal = .ok result) : result.shape.Fits := by
  simp only [tensorLiteral, Except.bind_eq_ok_iff, Outcome.promised_eq_ok_iff] at success
  obtain ⟨flattened, flattened_eq, success⟩ := success
  rw [TensorLiteral.ofValues?] at success
  split at success
  · rename_i filled
    obtain rfl := Option.some.inj success
    have positive := Shape.size_pos_of_zero_notMem (flatten_positive literal flattened_eq)
    have small : (Shape.mk flattened.dimensions).size < countBound := by
      rw [← filled.1]
      exact Nat.lt_trans filled.2 (by decide)
    exact Shape.fits_iff.mpr ⟨positive, small⟩
  · cases success

/-- Literals fit, and nothing is known of the arguments. -/
structure Function.Unshaped (function : Function) : Prop where
  /-- The shapes of literals fit. -/
  literals : function.Stocked OperationKind.LiteralFits
  /-- The arguments may be of any shapes. -/
  arguments : ∀ id ∈ function.arguments, function.typeOf id = .ok .unranked

namespace Function.Unshaped

variable {function changed : Function}

theorem new (name : String) (location : Location) : (Function.new name location).Unshaped where
  literals := by
    intro id operation found
    exact absurd (lt_size_of_operation? found) (Nat.not_lt_zero _)
  arguments := nofun

/-- Nothing becomes known of arguments where values keep their types. -/
theorem of_extends (unshaped : function.Unshaped) (extension : Extends function changed)
    (literals : changed.Stocked OperationKind.LiteralFits) : changed.Unshaped where
  literals := literals
  arguments := by
    intro id argument
    rw [extension.arguments] at argument
    have known := unshaped.arguments id argument
    obtain ⟨value, found, -⟩ := typeOf_eq_ok_iff.mp known
    rw [extension.typeOf (Arena.lt_size_of_get? found)]
    exact known

theorem pushArgument (unshaped : function.Unshaped) :
    (function.pushArgument .unranked).1.Unshaped where
  literals := unshaped.literals
  arguments := by
    intro id argument
    apply typeOf_eq_ok_iff.mpr
    change ∃ value, (function.values.push _).get? id = some value ∧ _
    rw [Arena.get?_push]
    split
    · exact ⟨_, rfl, rfl⟩
    · rename_i old
      rcases List.mem_append.mp argument with earlier | new
      · exact typeOf_eq_ok_iff.mp (unshaped.arguments id earlier)
      · exact absurd (List.mem_singleton.mp new) old

section Edits

variable {kind : OperationKind} {operands : List ValueId} {types : List TensorType}
variable {location : Location}

theorem append (kind_fits : kind.LiteralFits) :
    (Edit.append kind operands types location).Keeps Unshaped := by
  intro function changed id unshaped success
  have literals := unshaped.literals.append kind_fits success
  obtain ⟨-, -, rfl⟩ := Edit.append_eq_ok_iff.mp success
  have added : Extends function (function.addOperation kind operands types location).1 :=
    extends_addOperation kind operands types location
  exact unshaped.of_extends ⟨rfl, rfl, rfl, added.values, added.size⟩ literals

theorem insertBefore (kind_fits : kind.LiteralFits) {anchor : OperationId} :
    (Edit.insertBefore anchor kind operands types location).Keeps Unshaped := by
  intro function changed id unshaped success
  have literals := unshaped.literals.insertBefore kind_fits success
  obtain ⟨_, -, -, -, rfl⟩ := Edit.insertBefore_eq_ok_iff.mp success
  have added : Extends function (function.addOperation kind operands types location).1 :=
    extends_addOperation kind operands types location
  exact unshaped.of_extends ⟨rfl, rfl, rfl, added.values, added.size⟩ literals

theorem replaceUses {replaced replacement : ValueId} :
    (Edit.replaceUses replaced replacement).Keeps Unshaped := by
  intro function changed result unshaped success
  have literals := unshaped.literals.replaceUses success
  obtain rfl := Edit.replaceUses_eq_ok success
  exact unshaped.of_extends (redirectUsers_keeps function replaced replacement).1 literals

theorem erase {id : OperationId} : (Edit.erase id).Keeps Unshaped := by
  intro function changed result unshaped success
  have literals := unshaped.literals.erase success
  obtain ⟨operation, -, -, rfl⟩ := Edit.erase_eq_ok success
  exact unshaped.of_extends (extends_removeOperation operation) literals

theorem appendValue {type : TensorType} (kind_fits : kind.LiteralFits) :
    (Edit.appendValue kind operands type location).Keeps Unshaped :=
  .bind (append kind_fits) fun _ => .bind .query fun _ => .lift

end Edits

end Function.Unshaped

/-! ### Translation -/

section Translation

variable {context : Context} {scope : Scope}

private theorem literalFits_kindOf (operator : Operator) : (kindOf operator).LiteralFits := by
  cases operator <;> exact trivial

private theorem Callee.literalFits_kind (callee : Callee) (name : String) :
    (callee.kind name).LiteralFits := by
  cases callee <;> exact trivial

mutual

theorem appendExpression_keeps_unshaped : (expression : Expression) →
    (appendExpression context scope expression).Keeps Function.Unshaped
  | .literal literal => by
      rw [appendExpression]
      refine .bind .lift fun location => .lift_bind fun value value_eq => ?_
      exact Function.Unshaped.appendValue (fits_of_tensorLiteral value_eq)
  | .identifier identifier => by
      rw [appendExpression]
      split
      · exact .pure
      · exact .bind .lift fun _ => .lift
  | .binary _ left operator _ right => by
      rw [appendExpression]
      refine .bind (appendExpression_keeps_unshaped left) fun _ =>
        .bind (appendExpression_keeps_unshaped right) fun _ => .bind .lift fun _ => ?_
      exact Function.Unshaped.appendValue (literalFits_kindOf operator)
  | .call _ callee arguments => by
      rw [appendExpression]
      refine .bind .lift fun _ => ?_
      split
      · exact .bind .lift fun _ => .lift
      · rename_i target _
        split
        · exact .lift
        · refine .bind (appendExpressions_keeps_unshaped arguments) fun _ => ?_
          exact Function.Unshaped.appendValue (target.literalFits_kind callee.name)

theorem appendExpressions_keeps_unshaped : (expressions : List Expression) →
    (appendExpressions context scope expressions).Keeps Function.Unshaped
  | [] => by
      rw [appendExpressions]
      exact .pure
  | expression :: rest => by
      rw [appendExpressions]
      exact .bind (appendExpression_keeps_unshaped expression) fun _ =>
        .bind (appendExpressions_keeps_unshaped rest) fun _ => .pure

end

private theorem appendDeclaration_keeps_unshaped (declaration : Declaration) :
    (appendDeclaration context scope declaration).Keeps Function.Unshaped := by
  rw [appendDeclaration]
  split
  · exact .bind .lift fun _ => .lift
  · refine .bind (appendExpression_keeps_unshaped _) fun _ => ?_
    split
    · exact .pure
    · refine .bind .lift fun _ => .bind .lift fun _ => ?_
      exact .bind (Function.Unshaped.appendValue trivial) fun _ => .pure

private theorem appendStatement_keeps_unshaped (statement : Statement) :
    (appendStatement context scope statement).Keeps Function.Unshaped := by
  rw [appendStatement]
  refine .bind .lift fun _ => ?_
  split
  · exact appendDeclaration_keeps_unshaped _
  · exact .bind (Function.Unshaped.append trivial) fun _ => .pure
  · refine .bind (.modify fun function unshaped => ?_) fun _ => ?_
    · exact ⟨unshaped.literals, unshaped.arguments⟩
    · exact .bind (appendExpression_keeps_unshaped _) fun _ =>
        .bind (Function.Unshaped.append trivial) fun _ => .pure
  · exact .bind (appendExpression_keeps_unshaped _) fun _ =>
      .bind (Function.Unshaped.append trivial) fun _ => .pure
  · exact .bind (appendExpression_keeps_unshaped _) fun _ => .pure

private theorem appendStatements_keeps_unshaped (statements : List Statement) :
    (appendStatements context scope statements).Keeps Function.Unshaped := by
  induction statements generalizing scope with
  | nil =>
      rw [appendStatements]
      exact .bind .get fun _ => .bind (Function.Unshaped.append trivial) fun _ => .pure
  | cons statement rest induction =>
      simp only [appendStatements]
      refine .bind (appendStatement_keeps_unshaped statement) fun after => ?_
      split
      · split
        · exact .pure
        · exact .bind .lift fun _ => .lift
      · exact induction

private theorem declareParameter_keeps_unshaped (parameter : Identifier) :
    (declareParameter context scope parameter).Keeps Function.Unshaped := by
  rw [declareParameter]
  split
  · exact .bind .lift fun _ => .lift
  · refine .bind ?_ fun _ => .pure
    intro function changed id unshaped success
    cases success
    exact unshaped.pushArgument

private theorem unshaped_of_ofDefinition {definition : FunctionDefinition} {function : Function}
    (success : Function.ofDefinition context definition = .ok function) : function.Unshaped := by
  obtain ⟨location, scope, middle, declared, appended⟩ := built_of_ofDefinition success
  have parameters : Edit.Keeps Function.Unshaped
      (definition.parameters.foldlM (declareParameter context) Scope.empty) :=
    .foldlM (fun _ parameter _ => declareParameter_keeps_unshaped parameter) Scope.empty
  have unshaped := parameters _ middle scope (.new _ _) declared
  exact appendStatements_keeps_unshaped _ middle function () unshaped appended

end Translation

theorem unshaped_ofProgram {source : Source} {program : Program} {module : Module}
    (success : Module.ofProgram source program = .ok module) :
    ∀ function ∈ module.functions, function.Unshaped := by
  intro function member
  obtain ⟨callees, -, made⟩ := exists_callees_of_ofProgram success
  obtain ⟨definition, -, built⟩ := definition_of_mem made member
  exact unshaped_of_ofDefinition built

/-! ### Inlining -/

private theorem Inlining.preserved_unshaped :
    Preserved OperationKind.LiteralFits Function.Unshaped where
  inserted := fun kind_fits _ => Function.Unshaped.insertBefore kind_fits
  replaced := Function.Unshaped.replaceUses
  erased := Function.Unshaped.erase

theorem unshaped_inline {module inlined : Module} {entry : String}
    (unshaped : ∀ function ∈ module.functions, function.Unshaped)
    (success : module.inline entry = .ok inlined) :
    ∀ function ∈ inlined.functions, function.Unshaped :=
  Inlining.preserved_unshaped.inline trivial (fun function member =>
    (unshaped function member).literals) unshaped success

end Dataflow

end TensorLang
