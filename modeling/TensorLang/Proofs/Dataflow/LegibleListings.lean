import TensorLang.Proofs.Dataflow.NumberedSheets
import TensorLang.Proofs.Legible

/-!
# Listings of dataflow functions tell the functions

A sheet can be told from its text, and the sheets of two verified functions are the same just if the
functions are equal up to the handles of their values and operations.  What the text of a line
leaves out, the target of a reshape and the shape of a literal, is the type of its result.
-/

namespace TensorLang

private theorem forall_intercalate {α : Type} {items : List α} {text : α → String}
    {holds : Char → Prop}
    (each : ∀ item ∈ items, ∀ char ∈ (text item).toList, holds char) (comma : holds ',')
    (blank : holds ' ') : ∀ char ∈ (", ".intercalate (items.map text)).toList, holds char := by
  cases items with
  | nil => exact fun _ member => absurd member List.not_mem_nil
  | cons item items =>
      rw [List.forall_mem_cons] at each
      rw [intercalate_map_cons, String.toList_append, List.forall_mem_append, String.toList_join]
      refine ⟨each.1, fun char member => ?_⟩
      obtain ⟨part, listed, inside⟩ := List.mem_flatMap.mp member
      obtain ⟨other, other_mem, rfl⟩ := List.mem_map.mp listed
      have marks : ", ".toList = [',', ' '] := rfl
      simp only [String.toList_append, marks, List.cons_append, List.nil_append,
        List.mem_cons] at inside
      rcases inside with rfl | rfl | inside
      · exact comma
      · exact blank
      · exact each.2 other other_mem char inside

theorem nestedText_ne {dimensions : List Nat} {element : List Nat → Float}
    (numbers : ∀ indices, Shape.Within dimensions indices → magnitude (element indices) ≠ .nan) :
    ∀ char ∈ (nestedText ", " dimensions element).toList, char ≠ '>' := by
  induction dimensions generalizing element with
  | nil =>
      intro char member
      have figure := (numberText_figures (numbers [] trivial)).1 char member
      rintro rfl
      cases figure
  | cons outer inner induction =>
      rw [nestedText, String.toList_append, String.toList_append, List.forall_mem_append,
        List.forall_mem_append]
      refine ⟨⟨by simp,
        forall_intercalate (fun index inside => ?_) (by decide) (by decide)⟩, by simp⟩
      exact induction fun indices within =>
        numbers (index :: indices) ⟨List.mem_range.mp inside, within⟩

namespace Dataflow

/-! ### Words of a line -/

theorem legible_numberName : Legible (fun _ => True) Char.isDigit numberName :=
  fun _ _ _ _ => (legible_natural trivial trivial).marked "%"

theorem begins_numberName (number : Nat) : Begins (· == '%') (numberName number) :=
  (Begins.literal rfl rfl).append _

theorem legible_numberNames (stop : Char) (digit : stop.isDigit = false) (percent : stop ≠ '%')
    (comma : stop ≠ ',') :
    Legible (fun _ => True) (· != stop) numberNames := by
  have begins (number : Nat) : Begins (· != stop) (numberName number) :=
    (begins_numberName number).mono (bne_of_part (beq_eq_false_iff_ne.mpr percent))
  exact (legible_numberName.list (fun number _ => begins number) rfl digit comma).restrict
    fun _ _ _ _ => trivial

theorem legible_typeTexts (stop : Char) (letter : stop ≠ 't') (comma : stop ≠ ',') :
    Legible (fun _ => True) (· != stop) typeTexts := by
  have begins (type : TensorType) : Begins (· != stop) type.text :=
    (begins_type type).mono (bne_of_part (beq_eq_false_iff_ne.mpr letter))
  exact (legible_type.list (fun type _ => begins type) rfl rfl comma).restrict
    fun _ _ _ _ => trivial

namespace Line

/-- What a line needs for its text to tell it. -/
structure Valid (line : Line) : Prop where
  /-- Every operand has a type. -/
  operandTypes : line.operandTypes.length = line.operands.length
  /-- The number of operands. -/
  operands : ∀ count, line.kind.operandCount? = some count → line.operands.length = count
  /-- The number of results. -/
  resultTypes : line.resultTypes.length = line.kind.resultCount
  /-- A callee is a word. -/
  callees : ∀ callee, line.kind = .call callee → IsName callee
  /-- The type of a constant has the shape of its literal. -/
  constants : ∀ literal, line.kind = .constant literal → line.resultTypes = [.ranked literal.shape]
  /-- A literal holds numbers. -/
  numbers : ∀ literal, line.kind = .constant literal →
    ∀ value ∈ literal.values, magnitude value ≠ .nan
  /-- The type of a reshape has the target's shape. -/
  reshapes : ∀ shape, line.kind = .reshape shape → line.resultTypes = [.ranked shape]

variable {line first second : Line}

theorem begins_definesText (number : Nat) (numbers : List Nat) :
    Begins (· == '%') (definesText (number :: numbers)) := by
  rw [definesText, numberNames, intercalate_map_cons]
  exact ((((begins_numberName number).append _).append _).append _).append _

theorem legible_definesText :
    Legible (fun _ => True) (· == '%') definesText := by
  intro first second _ _ rest others breaks ends same
  cases first with
  | nil =>
      cases second with
      | nil => exact ⟨rfl, same⟩
      | cons number numbers =>
          exact absurd same.symm ((begins_definesText number numbers).ne breaks)
  | cons number numbers =>
      cases second with
      | nil => exact absurd same ((begins_definesText number numbers).ne ends)
      | cons other others =>
          simp only [definesText, List.isEmpty_cons, Bool.false_eq_true, if_false,
            String.toList_append, List.append_assoc] at same
          obtain ⟨numbers_eq, rest_eq⟩ := (legible_numberNames ' ' rfl (by decide) (by decide)
            trivial trivial).before rfl rfl same
          simp only [List.append_cancel_left_eq] at rest_eq
          exact ⟨numbers_eq, rest_eq⟩

theorem tells_signatureText :
    Tells (· != '\n') (first.operands = second.operands ∧ first.operandTypes = second.operandTypes ∧
      first.resultTypes = second.resultTypes) first.signatureText second.signatureText := by
  intro rest others breaks ends same
  simp only [signatureText, String.toList_append, List.append_assoc,
    List.append_cancel_left_eq] at same
  obtain ⟨operands_eq, types⟩ := (legible_numberNames ')' rfl (by decide) (by decide) trivial
    trivial).before rfl rfl same
  simp only [List.append_cancel_left_eq] at types
  obtain ⟨operandTypes_eq, more⟩ := (legible_typeTexts ')' (by decide) (by decide) trivial
    trivial).before rfl rfl types
  simp only [List.append_cancel_left_eq] at more
  obtain ⟨resultTypes_eq, rest_eq⟩ := legible_typeTexts '\n' (by decide) (by decide) trivial
    trivial breaks ends more
  exact ⟨⟨operands_eq, operandTypes_eq, resultTypes_eq⟩, rest_eq⟩

theorem tells_typed {fact : Prop} {front back : String} {types others : List TensorType}
    (tells : Tells (fun _ => false) fact front back) :
    Tells (· != '\n') (fact ∧ types = others) (front ++ ":" ++ " " ++ typeTexts types)
      (back ++ ":" ++ " " ++ typeTexts others) :=
  ((tells.ended ":" rfl rfl).ended " " rfl rfl).followed
    (legible_typeTexts '\n' (by decide) (by decide) trivial trivial)

/-- What follows the name of an operation says, apart from the name. -/
structure SameDetail (first second : Line) : Prop where
  kinds : first.kind = second.kind
  operands : first.operands = second.operands
  operandTypes : first.operandTypes = second.operandTypes
  resultTypes : first.resultTypes = second.resultTypes

theorem isName_name (kind : OperationKind) : IsName kind.name := by
  cases kind <;> simp [OperationKind.name, IsName, isWordPart]

/-- The name of an operation ends where the rest of its line starts. -/
theorem breaks_detailText (line : Line) (rest : List Char) :
    Breaks isWordPart (line.detailText.toList ++ ("\n".toList ++ rest)) := by
  obtain ⟨kind, operands, operandTypes, results, resultTypes⟩ := line
  cases kind with
  | leave => cases operands <;> simp [Breaks, detailText, isWordPart]
  | _ => simp [Breaks, detailText, signatureText, isWordPart]

theorem Valid.operandTypes_eq_nil (valid : line.Valid) (none_read : line.operands = []) :
    line.operandTypes = [] := by
  rw [← List.length_eq_zero_iff, valid.operandTypes, none_read]
  rfl

theorem Valid.resultTypes_eq_nil (valid : line.Valid) (none_defined : line.kind.resultCount = 0) :
    line.resultTypes = [] := by
  rw [← List.length_eq_zero_iff, valid.resultTypes, none_defined]

/-- The shape of a literal is that of the type, and then its text shows its values. -/
theorem tells_constant {literal other : TensorLiteral} (first_valid : first.Valid)
    (second_valid : second.Valid) (first_kind : first.kind = .constant literal)
    (second_kind : second.kind = .constant other) :
    Tells (· != '\n') (SameDetail first second) first.detailText second.detailText := by
  have first_numbers := first_valid.numbers literal first_kind
  have second_numbers := second_valid.numbers other second_kind
  have values : Tells (· != '>') (literal.text = other.text) literal.text other.text :=
    legible_until '>'
      (nestedText_ne fun indices within =>
        first_numbers _ (getD_rowMajor_mem literal.filled within))
      (nestedText_ne fun indices within => second_numbers _ (getD_rowMajor_mem other.filled within))
  have dense := ((values.marked "dense<").ended ">" rfl rfl).marked " "
  rw [detailText, detailText, first_kind, second_kind]
  refine (tells_typed (dense.ended " " rfl rfl)).imp ?_
  rintro ⟨text_eq, types_eq⟩
  have shape_eq : literal.shape = other.shape := by
    have ranked := first_valid.constants literal first_kind
    rw [types_eq, second_valid.constants other second_kind] at ranked
    simpa using ranked.symm
  have literal_eq : literal = other :=
    (TensorLiteral.tells shape_eq first_numbers second_numbers literal.text?_eq_some
      other.text?_eq_some (.nil) (.nil) (by rw [text_eq])).1
  have first_operands :=
    List.length_eq_zero_iff.mp (first_valid.operands 0 (by rw [first_kind]; rfl))
  have second_operands :=
    List.length_eq_zero_iff.mp (second_valid.operands 0 (by rw [second_kind]; rfl))
  exact ⟨by rw [first_kind, second_kind, literal_eq], first_operands.trans second_operands.symm,
    (first_valid.operandTypes_eq_nil first_operands).trans
      (second_valid.operandTypes_eq_nil second_operands).symm, types_eq⟩

theorem tells_leave (first_valid : first.Valid) (second_valid : second.Valid)
    (first_kind : first.kind = .leave) (second_kind : second.kind = .leave) :
    Tells (· != '\n') (SameDetail first second) first.detailText second.detailText := by
  have kinds := first_kind.trans second_kind.symm
  have resultTypes : first.resultTypes = second.resultTypes :=
    (first_valid.resultTypes_eq_nil (by rw [first_kind]; rfl)).trans
      (second_valid.resultTypes_eq_nil (by rw [second_kind]; rfl)).symm
  have goes_on (line : Line) : Begins (· != '\n')
      (" " ++ numberNames line.operands ++ " " ++ ":" ++ " " ++ typeTexts line.operandTypes) :=
    (((((Begins.literal rfl rfl).append _).append _).append _).append _).append _
  have returned : Tells (· != ' ') (first.operands = second.operands) (numberNames first.operands)
      (numberNames second.operands) := legible_numberNames ' ' rfl (by decide) (by decide)
    trivial trivial
  intro rest others breaks ends same
  simp only [detailText, first_kind, second_kind, List.isEmpty_iff] at same
  by_cases first_none : first.operands = []
  · rw [if_pos first_none] at same
    by_cases second_none : second.operands = []
    · rw [if_pos second_none] at same
      exact ⟨⟨kinds, first_none.trans second_none.symm,
        (first_valid.operandTypes_eq_nil first_none).trans
          (second_valid.operandTypes_eq_nil second_none).symm, resultTypes⟩, same⟩
    · rw [if_neg second_none] at same
      exact absurd same.symm ((goes_on second).ne breaks)
  · rw [if_neg first_none] at same
    by_cases second_none : second.operands = []
    · rw [if_pos second_none] at same
      exact absurd same ((goes_on first).ne ends)
    · rw [if_neg second_none] at same
      obtain ⟨⟨operands_eq, operandTypes_eq⟩, rest_eq⟩ :=
        tells_typed ((returned.marked " ").ended " " rfl rfl) breaks ends same
      exact ⟨⟨kinds, operands_eq, operandTypes_eq, resultTypes⟩, rest_eq⟩

private theorem tells_print (first_valid : first.Valid) (second_valid : second.Valid)
    (first_kind : first.kind = .print) (second_kind : second.kind = .print) :
    Tells (· != '\n') (SameDetail first second) first.detailText second.detailText := by
  have printed : Tells (· != ')') (first.operands = second.operands) (numberNames first.operands)
      (numberNames second.operands) := legible_numberNames ')' rfl (by decide) (by decide)
    trivial trivial
  have enclosed := (printed.marked "(").ended ")" rfl rfl
  rw [detailText, detailText, first_kind, second_kind]
  refine (tells_typed (enclosed.ended " " rfl rfl)).imp ?_
  rintro ⟨operands_eq, operandTypes_eq⟩
  exact ⟨first_kind.trans second_kind.symm, operands_eq, operandTypes_eq,
    (first_valid.resultTypes_eq_nil (by rw [first_kind]; rfl)).trans
      (second_valid.resultTypes_eq_nil (by rw [second_kind]; rfl)).symm⟩

theorem tells_call {callee other : String} (first_valid : first.Valid) (second_valid : second.Valid)
    (first_kind : first.kind = .call callee) (second_kind : second.kind = .call other) :
    Tells (· != '\n') (SameDetail first second) first.detailText second.detailText := by
  have opens (line : Line) (rest : List Char) :
      Breaks isWordPart (line.signatureText.toList ++ rest) := by
    simp [Breaks, signatureText, isWordPart]
  have named : Tells isWordPart (callee = other) callee other :=
    legible_name (first_valid.callees callee first_kind) (second_valid.callees other second_kind)
  rw [detailText, detailText, first_kind, second_kind]
  refine (((named.marked "@").marked " ").append tells_signatureText (opens first)
    (opens second)).imp ?_
  rintro ⟨callee_eq, operands, operandTypes, resultTypes⟩
  exact ⟨by rw [first_kind, second_kind, callee_eq], operands, operandTypes, resultTypes⟩

/-- Where only operands and types follow the name, the kind has to be known from them. -/
theorem tells_of_signatureText (first_eq : first.detailText = first.signatureText)
    (second_eq : second.detailText = second.signatureText)
    (kinds : first.resultTypes = second.resultTypes → first.kind = second.kind) :
    Tells (· != '\n') (SameDetail first second) first.detailText second.detailText := by
  rw [first_eq, second_eq]
  exact tells_signatureText.imp fun ⟨operands, operandTypes, resultTypes⟩ =>
    ⟨kinds resultTypes, operands, operandTypes, resultTypes⟩

private theorem tells_reshape {shape other : Shape} (first_valid : first.Valid)
    (second_valid : second.Valid)
    (first_kind : first.kind = .reshape shape) (second_kind : second.kind = .reshape other) :
    Tells (· != '\n') (SameDetail first second) first.detailText second.detailText := by
  refine tells_of_signatureText (by rw [detailText, first_kind])
    (by rw [detailText, second_kind]) ?_
  intro types_eq
  rw [first_valid.reshapes shape first_kind, second_valid.reshapes other second_kind] at types_eq
  have shape_eq : shape = other := by simpa using types_eq
  rw [first_kind, second_kind, shape_eq]

/-- Kinds with the same name are the same, or their payloads differ. -/
inductive SameName : OperationKind → OperationKind → Prop where
  | constant (literal other : TensorLiteral) : SameName (.constant literal) (.constant other)
  | reshape (shape other : Shape) : SameName (.reshape shape) (.reshape other)
  | call (callee other : String) : SameName (.call callee) (.call other)
  | same (kind : OperationKind) : SameName kind kind

private theorem sameName_of_name {kind other : OperationKind} (names : kind.name = other.name) :
    SameName kind other := by
  cases kind <;> cases other <;>
    first
    | exact .same _
    | exact .constant _ _
    | exact .reshape _ _
    | exact .call _ _
    | simp [OperationKind.name] at names

private theorem tells_detailText (first_valid : first.Valid) (second_valid : second.Valid)
    (names : first.kind.name = second.kind.name) :
    Tells (· != '\n') (SameDetail first second) first.detailText second.detailText := by
  have sameName := sameName_of_name names
  generalize first_kind : first.kind = kind at sameName
  generalize second_kind : second.kind = other at sameName
  cases sameName with
  | constant => exact tells_constant first_valid second_valid first_kind second_kind
  | call => exact tells_call first_valid second_valid first_kind second_kind
  | reshape => exact tells_reshape first_valid second_valid first_kind second_kind
  | same =>
      cases kind with
      | constant => exact tells_constant first_valid second_valid first_kind second_kind
      | call => exact tells_call first_valid second_valid first_kind second_kind
      | leave => exact tells_leave first_valid second_valid first_kind second_kind
      | print => exact tells_print first_valid second_valid first_kind second_kind
      | _ =>
          exact tells_of_signatureText (by rw [detailText, first_kind])
            (by rw [detailText, second_kind]) fun _ => first_kind.trans second_kind.symm

private theorem legible_text : Legible Valid (fun _ => false) text := by
  have no_mark (line : Line) (rest : List Char) :
      Breaks (· == '%') (line.kind.name.toList ++ rest) := by
    cases line.kind <;> simp [Breaks, OperationKind.name]
  intro first second first_valid second_valid rest others _ _ same
  simp only [text, String.toList_append, List.append_assoc, List.append_cancel_left_eq] at same
  obtain ⟨results_eq, named⟩ := legible_definesText trivial trivial
    (no_mark first _) (no_mark second _) same
  obtain ⟨names_eq, detail⟩ := legible_name (isName_name first.kind) (isName_name second.kind)
    (breaks_detailText first rest) (breaks_detailText second others) named
  obtain ⟨⟨kinds, operands, operandTypes, resultTypes⟩, rest_eq⟩ :=
    (tells_detailText first_valid second_valid names_eq).before rfl rfl detail
  refine ⟨?_, rest_eq⟩
  cases first
  cases second
  simp only [mk.injEq]
  exact ⟨kinds, operands, operandTypes, results_eq, resultTypes⟩

end Line

namespace Sheet

/-- What a sheet needs for its text to tell it. -/
structure Valid (sheet : Sheet) : Prop where
  /-- The name is a word. -/
  named : IsName sheet.name
  /-- Every line can be told from its text. -/
  lines : ∀ line ∈ sheet.lines, line.Valid

private theorem legible_argumentText : Legible (fun _ => True) (fun _ => false) argumentText := by
  rintro ⟨number, type⟩ ⟨other, another⟩ - -
  have numbers : Tells Char.isDigit (number = other) _ _ := legible_numberName trivial trivial
  refine ((numbers.ended ": " rfl rfl).followed (legible_type trivial trivial)).imp ?_
  rintro ⟨rfl, rfl⟩
  rfl

private theorem legible_arguments :
    Legible (fun _ => True) (· != ')') fun arguments : List (Nat × TensorType) =>
      ", ".intercalate (arguments.map argumentText) := by
  have begins (argument : Nat × TensorType) : Begins (· != ')') (argumentText argument) :=
    (((begins_numberName argument.1).append _).append _).mono (bne_of_part rfl)
  exact (legible_argumentText.list (fun argument _ => begins argument) rfl rfl (by decide)).restrict
    fun _ _ _ _ => trivial

private theorem legible_openingText : Legible (fun _ => True) (fun _ => false) openingText := by
  intro first second _ _ rest others _ _ same
  simp only [openingText, List.isEmpty_iff] at same
  by_cases first_none : first = []
  · by_cases second_none : second = []
    · rw [if_pos first_none, if_pos second_none] at same
      exact ⟨first_none.trans second_none.symm, List.append_cancel_left same⟩
    · simp [first_none, second_none, braceOpen] at same
  · by_cases second_none : second = []
    · simp [first_none, second_none, braceOpen] at same
    · rw [if_neg first_none, if_neg second_none] at same
      simp only [String.toList_append, List.append_assoc, List.append_cancel_left_eq] at same
      obtain ⟨types_eq, rest_eq⟩ := (legible_typeTexts ' ' (by decide) (by decide)
        trivial trivial).before rfl rfl same
      exact ⟨types_eq, List.append_cancel_left rest_eq⟩

private theorem legible_lines :
    Legible (fun lines : List Line => ∀ line ∈ lines, line.Valid) (· == ' ')
      fun lines : List Line => String.join (lines.map Line.text) :=
  Line.legible_text.join
    (fun _ _ => (((Begins.literal rfl rfl).append _).append _).append _)
    fun _ never => by cases never

/-- Different sheets have different texts. -/
theorem text_inj {first second : Sheet} (first_valid : first.Valid) (second_valid : second.Valid)
    (same : first.text = second.text) : first = second := by
  have lists_eq := congrArg String.toList same
  simp only [text, String.toList_append, List.append_assoc, List.append_cancel_left_eq] at lists_eq
  obtain ⟨name_eq, arguments⟩ :=
    (legible_name first_valid.named second_valid.named).before rfl rfl lists_eq
  obtain ⟨arguments_eq, opening⟩ :=
    (legible_arguments trivial trivial).before rfl rfl arguments
  obtain ⟨types_eq, lines⟩ := legible_openingText trivial trivial (.never _) (.never _) opening
  simp only [List.append_cancel_left_eq] at lines
  obtain ⟨lines_eq, -⟩ :=
    (legible_lines first_valid.lines second_valid.lines).before rfl rfl lines
  cases first
  cases second
  simp only [mk.injEq]
  exact ⟨name_eq, arguments_eq, types_eq, lines_eq⟩

end Sheet

end Dataflow

end TensorLang
