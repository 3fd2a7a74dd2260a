import TensorLang.Dataflow.Listing
import TensorLang.Loop.Listing
import TensorLang.Proofs.Dataflow.Typing
import TensorLang.Proofs.Dataflow.Verified
import TensorLang.Proofs.Loop.Safety
import TensorLang.Proofs.Tensor.Text

/-!
# Listings of verified modules

A verified module has a listing: the values of its operations have types, constants have as many
elements as their shapes ask for, and the buffers that are allocated exist.
-/

namespace TensorLang

private theorem TensorLiteral.exists_text (literal : TensorLiteral) :
    ∃ text, literal.text? = some text :=
  ⟨_, nestedText?_of_filled ", " literal.filled⟩

namespace Dataflow

namespace Function

variable {function : Function}

theorem exists_typesText {values : List ValueId}
    (existing : ∀ value ∈ values, value.index < function.values.size) :
    ∃ text, function.typesText values = .ok text := by
  obtain ⟨types, types_eq⟩ := Except.exists_mapM fun value member =>
    exists_typeOf (existing value member)
  exact ⟨_, by rw [typesText, types_eq]; rfl⟩

private theorem exists_bodyText (operation : Operation) (style : ListingStyle)
    (numbers : ValueNumbers) (operandTypes resultTypes : String) :
    ∃ text, operation.bodyText style numbers operandTypes resultTypes = .ok text := by
  rw [Operation.bodyText]
  cases operation.kind with
  | constant literal =>
      obtain ⟨text, text_eq⟩ := literal.exists_text
      simp only [text_eq, Outcome.promised]
      exact ⟨_, rfl⟩
  | _ => exact ⟨_, rfl⟩

private theorem exists_operationLine (verified : function.Verified) (style : ListingStyle)
    (numbers : ValueNumbers) (operation : Operation) (member : operation ∈ function.code) :
    ∃ line, function.operationLine style numbers operation = .ok line := by
  have wellFormed := verified.wellFormed
  obtain ⟨operandTypes, operandTypes_eq⟩ :=
    exists_typesText (wellFormed.existing operation member)
  obtain ⟨resultTypes, resultTypes_eq⟩ := exists_typesText fun result defines =>
    wellFormed.known result
      (List.mem_append_right _ (List.mem_flatMap.mpr ⟨operation, member, defines⟩))
  obtain ⟨body, body_eq⟩ := exists_bodyText operation style numbers operandTypes resultTypes
  rw [operationLine, operandTypes_eq, resultTypes_eq]
  simp only [Except.bind_eq_ok_iff, Except.pure_eq_ok_iff]
  exact ⟨_, _, rfl, _, rfl, body, body_eq, rfl⟩

private theorem exists_argumentText (verified : function.Verified) (style : ListingStyle)
    (numbers : ValueNumbers) (argument : ValueId) (member : argument ∈ function.arguments) :
    ∃ text, function.argumentText style numbers argument = .ok text := by
  obtain ⟨type, type_eq⟩ := exists_typeOf
    (verified.wellFormed.known argument (List.mem_append_left _ member))
  exact ⟨_, by rw [argumentText, type_eq]; rfl⟩

theorem exists_listing (verified : function.Verified) (style : ListingStyle) :
    ∃ text, function.listing style = .ok text := by
  obtain ⟨arguments, arguments_eq⟩ := Except.exists_mapM
    (exists_argumentText verified style (function.numbering function.code))
  obtain ⟨lines, lines_eq⟩ := Except.exists_mapM
    (exists_operationLine verified style (function.numbering function.code))
  simp only [listing, bodyOperations_eq verified.live, Except.bind_eq_ok_iff,
    Except.pure_eq_ok_iff]
  exact ⟨_, _, rfl, arguments, arguments_eq, lines, lines_eq, rfl⟩

end Function

/-- A module of verified functions has a listing. -/
theorem Module.exists_listing {module : Module}
    (verified : ∀ function ∈ module.functions, function.Verified) (style : ListingStyle) :
    ∃ text, module.listing style = .ok text := by
  obtain ⟨texts, texts_eq⟩ := Except.exists_mapM fun function member =>
    Function.exists_listing (verified function member) style
  exact ⟨_, by rw [listing, texts_eq]; rfl⟩

end Dataflow

namespace Loop

namespace Function

variable {function : Function}

mutual

private theorem exists_instructionLines (ink : Ink) (depth : Nat) (instruction : Instruction)
    {surroundings : Surroundings} {isLast : Bool} {progress after : Progress}
    (accepted : function.checkInstruction surroundings isLast progress instruction = .ok after) :
    ∃ lines, function.instructionLines ink depth instruction = .ok lines := by
  cases instruction with
  | alloc buffer =>
      obtain ⟨-, ⟨found, found_eq⟩, -⟩ := checkInstruction_alloc_eq_ok_iff.mp accepted
      rw [instructionLines, found_eq]
      exact ⟨_, rfl⟩
  | loop counter lower upper step body =>
      obtain ⟨_, _, -, checked, -⟩ := checkInstruction_loop_eq_ok_iff.mp accepted
      obtain ⟨lines, lines_eq⟩ := exists_blockLines ink (depth + 1) body checked
      rw [instructionLines, lines_eq]
      exact ⟨_, rfl⟩
  | _ =>
      rw [instructionLines]
      exact ⟨_, rfl⟩

theorem exists_blockLines (ink : Ink) (depth : Nat) (block : List Instruction)
    {surroundings : Surroundings} {progress after : Progress}
    (accepted : function.checkBlock surroundings progress block = .ok after) :
    ∃ lines, function.blockLines ink depth block = .ok lines := by
  cases block with
  | nil =>
      rw [blockLines]
      exact ⟨_, rfl⟩
  | cons instruction rest =>
      obtain ⟨middle, first, others⟩ := checkBlock_cons_eq_ok_iff.mp accepted
      obtain ⟨first_lines, first_eq⟩ := exists_instructionLines ink depth instruction first
      obtain ⟨other_lines, others_eq⟩ := exists_blockLines ink depth rest others
      rw [blockLines, first_eq, others_eq]
      exact ⟨_, rfl⟩

end

theorem exists_listing (accepted : function.verify = .ok ()) (ink : Ink) :
    ∃ text, function.listing ink = .ok text := by
  obtain ⟨progress, checked, -⟩ := verify_eq_ok accepted
  obtain ⟨lines, lines_eq⟩ := exists_blockLines ink 1 function.body checked
  exact ⟨_, by rw [listing, lines_eq]; rfl⟩

end Function

/-- A module of verified functions has a listing. -/
theorem Module.exists_listing {module : Module}
    (accepted : ∀ function ∈ module.functions, function.verify = .ok ()) (ink : Ink) :
    ∃ text, module.listing ink = .ok text := by
  obtain ⟨texts, texts_eq⟩ := Except.exists_mapM fun function member =>
    Function.exists_listing (accepted function member) ink
  exact ⟨_, by rw [listing, texts_eq]; rfl⟩

end Loop

end TensorLang
