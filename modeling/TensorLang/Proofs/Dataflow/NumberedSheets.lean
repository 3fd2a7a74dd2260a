import TensorLang.Dataflow.Listing
import TensorLang.Proofs.Dataflow.Typing
import TensorLang.Proofs.Dataflow.Verified
import TensorLang.Proofs.Tensor.Text

/-!
# Numbered sheets

A sheet is a listing before it is written: one line for each operation, with values as numbers.  A
verified function is listed as its sheet, in which arguments and results are numbered in the order
of their definitions and every number is defined before it is used.
-/

namespace TensorLang

/-- The literal in nested brackets. -/
def TensorLiteral.text (literal : TensorLiteral) : String :=
  nestedText ", " literal.shape.dimensions fun indices =>
    literal.values.getD (Shape.rowMajor literal.shape.dimensions indices) 0

theorem TensorLiteral.text?_eq_some (literal : TensorLiteral) : literal.text? = some literal.text :=
  nestedText?_of_filled ", " literal.filled

namespace Dataflow

/-! ### Sheets -/

/-- Plain ink without locations. -/
abbrev plainStyle : ListingStyle := ⟨.plain, false⟩

/-- The name of a number. -/
def numberName (number : Nat) : String := s!"%{number}"

/-- Several names with commas between them. -/
def numberNames (numbers : List Nat) : String := ", ".intercalate (numbers.map numberName)

/-- Several types with commas between them. -/
def typeTexts (types : List TensorType) : String := ", ".intercalate (types.map TensorType.text)

/-- The line of an operation: its values are numbers. -/
structure Line where
  /-- What the operation computes. -/
  kind : OperationKind
  /-- The values that the operation reads. -/
  operands : List Nat
  /-- Their types. -/
  operandTypes : List TensorType
  /-- The values that the operation defines. -/
  results : List Nat
  /-- Their types. -/
  resultTypes : List TensorType

/-- A function in lines. -/
structure Sheet where
  /-- The function's name. -/
  name : String
  /-- The values that callers pass, with their types. -/
  arguments : List (Nat × TensorType)
  /-- The types of the returned values. -/
  resultTypes : List TensorType
  /-- The operations in order. -/
  lines : List Line

namespace Line

/-- The results of a line, where there are any. -/
def definesText (results : List Nat) : String :=
  if results.isEmpty then "" else numberNames results ++ " " ++ "=" ++ " "

/-- Operands with their types and the types of results. -/
def signatureText (line : Line) : String :=
  "(" ++ numberNames line.operands ++ ")" ++ " " ++ ":" ++ " " ++ "(" ++
    typeTexts line.operandTypes ++ ")" ++ " " ++ "->" ++ " " ++ typeTexts line.resultTypes

/-- What follows the name of an operation. -/
def detailText (line : Line) : String :=
  match line.kind with
  | .constant literal =>
      " " ++ ("dense<" ++ literal.text ++ ">") ++ " " ++ ":" ++ " " ++ typeTexts line.resultTypes
  | .leave =>
      if line.operands.isEmpty then ""
      else " " ++ numberNames line.operands ++ " " ++ ":" ++ " " ++ typeTexts line.operandTypes
  | .print =>
      "(" ++ numberNames line.operands ++ ")" ++ " " ++ ":" ++ " " ++ typeTexts line.operandTypes
  | .call callee => " " ++ ("@" ++ callee) ++ line.signatureText
  | .add | .multiply | .matmul | .transpose | .reshape _ | .cast => line.signatureText

/-- The line as text. -/
def text (line : Line) : String :=
  "  " ++ definesText line.results ++ (line.kind.name ++ line.detailText) ++ "\n"

end Line

namespace Sheet

/-- An argument as text. -/
def argumentText (argument : Nat × TensorType) : String :=
  numberName argument.1 ++ ": " ++ argument.2.text

/-- The types of returned values, where there are any, and the brace before the lines. -/
def openingText (types : List TensorType) : String :=
  (if types.isEmpty then "" else " " ++ "->" ++ " " ++ typeTexts types) ++ " " ++ braceOpen

/-- The sheet as text. -/
def text (sheet : Sheet) : String :=
  "func" ++ " " ++ ("@" ++ sheet.name) ++
    ("(" ++ ", ".intercalate (sheet.arguments.map argumentText) ++ ")") ++
    openingText sheet.resultTypes ++ "\n" ++
    String.join (sheet.lines.map Line.text) ++ braceClose ++ "\n"

end Sheet

/-- Lines after so many values are defined: each line reads values that are defined before it, and
its results get the next numbers. -/
def Ascending (defined : Nat) : List Line → Prop
  | [] => True
  | line :: rest =>
      (∀ operand ∈ line.operands, operand < defined) ∧
        line.results = List.range' defined line.results.length ∧
        Ascending (defined + line.results.length) rest

/-- Arguments have the first numbers, results the following ones in order, and every number is
defined before it is used. -/
structure Sheet.Ordered (sheet : Sheet) : Prop where
  arguments : sheet.arguments.map Prod.fst = List.range sheet.arguments.length
  lines : Ascending sheet.arguments.length sheet.lines

namespace Function

variable {function : Function}

/-- The type of a value, as far as there is one. -/
def typeAt (function : Function) (id : ValueId) : TensorType :=
  ((function.values.get? id).map Value.type).getD .unranked

/-- The place of a value among those that the function defines. -/
def position (function : Function) (id : ValueId) : Nat :=
  (function.availableAfter function.code).idxOf id

/-- The line of an operation of the function. -/
def line (function : Function) (operation : Operation) : Line where
  kind := operation.kind
  operands := operation.operands.map function.position
  operandTypes := operation.operands.map function.typeAt
  results := operation.results.map function.position
  resultTypes := operation.results.map function.typeAt

/-- The sheet of a function. -/
def sheet (function : Function) : Sheet where
  name := function.name
  arguments := function.arguments.map fun id => (function.position id, function.typeAt id)
  resultTypes := function.resultTypes
  lines := function.code.map function.line

/-! ### Numbers -/

private theorem getElem?_numbered (ids : List ValueId) (distinct : ids.Nodup) (start : Nat)
    (numbers : ValueNumbers) (id : ValueId) :
    ((ids.zipIdx start).foldl (fun numbers (value, number) => numbers.insert value.index number)
        numbers)[id.index]? =
      if id ∈ ids then some (start + ids.idxOf id) else numbers[id.index]? := by
  induction ids generalizing start numbers with
  | nil => rfl
  | cons first ids induction =>
      obtain ⟨fresh, distinct⟩ := List.nodup_cons.mp distinct
      rw [List.zipIdx_cons, List.foldl_cons, induction distinct, Std.TreeMap.getElem?_insert]
      by_cases same : first = id
      · subst same
        simp [fresh]
      · have apart : first.index ≠ id.index := fun equal => same (congrArg Handle.mk equal)
        have later : (first :: ids).idxOf id = ids.idxOf id + 1 := by
          rw [List.idxOf_cons, beq_eq_false_iff_ne.mpr same]
          rfl
        simp only [List.mem_cons, Ne.symm same, false_or, Nat.compare_eq_eq, apart, if_false, later,
          Nat.add_assoc, Nat.add_comm 1]

private theorem getElem?_numbering (distinct : (function.availableAfter function.code).Nodup)
    {id : ValueId} (member : id ∈ function.availableAfter function.code) :
    (function.numbering function.code)[id.index]? = some (function.position id) := by
  have numbered := getElem?_numbered _ distinct 0 ∅ id
  rw [if_pos member, Nat.zero_add] at numbered
  exact numbered

theorem typeOf_eq_typeAt {id : ValueId} (existing : id.index < function.values.size) :
    function.typeOf id = .ok (function.typeAt id) := by
  obtain ⟨type, type_eq⟩ := exists_typeOf existing
  obtain ⟨value, value_eq, rfl⟩ := typeOf_eq_ok_iff.mp type_eq
  rw [type_eq, typeAt, value_eq]
  rfl

theorem value_text (distinct : (function.availableAfter function.code).Nodup) {id : ValueId}
    (member : id ∈ function.availableAfter function.code) :
    plainStyle.value (function.numbering function.code) id = numberName (function.position id) := by
  rw [ListingStyle.value, Ink.paint_plain, valueName, getElem?_numbering distinct member]
  rfl

theorem values_text (distinct : (function.availableAfter function.code).Nodup) {ids : List ValueId}
    (available : ∀ id ∈ ids, id ∈ function.availableAfter function.code) :
    plainStyle.values (function.numbering function.code) ids =
      numberNames (ids.map function.position) := by
  rw [ListingStyle.values, numberNames, List.map_map]
  exact congrArg _ (List.map_congr_left fun id member => value_text distinct (available id member))

theorem typesText_eq {ids : List ValueId} (existing : ∀ id ∈ ids, id.index < function.values.size) :
    function.typesText ids = .ok (typeTexts (ids.map function.typeAt)) := by
  have types_eq : ids.mapM function.typeOf = .ok (ids.map function.typeAt) := by
    rw [Except.mapM_eq_ok_iff, List.map_map]
    exact List.map_congr_left fun id member => typeOf_eq_typeAt (existing id member)
  rw [typesText, types_eq]
  rfl

/-- Operands are available somewhere. -/
theorem Verified.operand_mem (verified : function.Verified) {operation : Operation}
    (member : operation ∈ function.code) {operand : ValueId}
    (reads : operand ∈ operation.operands) : operand ∈ function.availableAfter function.code :=
  verified.dominated.operand_mem member reads

theorem result_mem {operation : Operation} (member : operation ∈ function.code) {result : ValueId}
    (defines : result ∈ operation.results) : result ∈ function.availableAfter function.code :=
  List.mem_append_right _ (List.mem_flatMap.mpr ⟨operation, member, defines⟩)

private theorem bodyText_eq {operation : Operation} {numbers : ValueNumbers}
    {operandTypes resultTypes : String}
    (operands : plainStyle.values numbers operation.operands =
      numberNames (operation.operands.map function.position))
    (operandTypes_eq : operandTypes = typeTexts (operation.operands.map function.typeAt))
    (resultTypes_eq : resultTypes = typeTexts (operation.results.map function.typeAt)) :
    operation.bodyText plainStyle numbers operandTypes resultTypes =
      .ok (operation.kind.name ++ (function.line operation).detailText) := by
  subst operandTypes_eq resultTypes_eq
  have toString_eq (text : String) : toString text = text := rfl
  rw [Operation.bodyText, Line.detailText, line, Operation.name, operands]
  cases operation.kind with
  | constant literal =>
      simp only [TensorLiteral.text?_eq_some, Outcome.promised, Ink.paint_plain, toString_eq,
        String.append_assoc]
      rfl
  | leave =>
      simp only [List.isEmpty_map]
      split
      · simp
        rfl
      · simp only [String.append_assoc]
        rfl
  | _ =>
      simp only [Line.signatureText, String.append_assoc]
      rfl

private theorem operationLine_eq (verified : function.Verified) {operation : Operation}
    (member : operation ∈ function.code) :
    function.operationLine plainStyle (function.numbering function.code) operation =
      .ok (function.line operation).text := by
  have wellFormed := verified.wellFormed
  have operands := values_text wellFormed.distinct
    fun operand reads => verified.operand_mem member reads
  have results := values_text wellFormed.distinct
    fun result defines => result_mem member defines
  have existing := typesText_eq (wellFormed.existing operation member)
  have known := typesText_eq fun result defines =>
    wellFormed.known result (result_mem member defines)
  rw [operationLine, existing, known]
  simp only [Except.bind_eq_ok_iff, Except.pure_eq_ok_iff, Except.ok.injEq, exists_eq_left',
    bodyText_eq operands rfl rfl]
  rw [results, Line.text, Line.definesText, line, List.isEmpty_map]
  simp only [Bool.false_eq_true, if_false, String.append_empty]
  rfl

/-- A verified function is listed as its sheet. -/
theorem listing_eq_sheet (verified : function.Verified) :
    function.listing plainStyle = .ok function.sheet.text := by
  have wellFormed := verified.wellFormed
  have arguments_eq : function.arguments.mapM
      (function.argumentText plainStyle (function.numbering function.code)) =
        .ok (function.sheet.arguments.map Sheet.argumentText) := by
    rw [Except.mapM_eq_ok_iff, sheet, List.map_map, List.map_map]
    refine List.map_congr_left fun argument member => ?_
    have available : argument ∈ function.availableAfter function.code :=
      List.mem_append_left _ member
    rw [argumentText, typeOf_eq_typeAt (wellFormed.known argument available),
      value_text wellFormed.distinct available]
    rfl
  have lines_eq : function.code.mapM
      (function.operationLine plainStyle (function.numbering function.code)) =
        .ok (function.sheet.lines.map Line.text) := by
    rw [Except.mapM_eq_ok_iff, sheet, List.map_map, List.map_map]
    exact List.map_congr_left fun operation member => operationLine_eq verified member
  simp only [listing, bodyOperations_eq verified.live, Except.bind_eq_ok_iff, Except.pure_eq_ok_iff,
    Except.ok.injEq, exists_eq_left', arguments_eq, lines_eq, Sheet.text, Sheet.openingText,
    String.append_assoc]
  rfl

/-! ### The order of the numbers -/

/-- Items in the middle of a list without repetitions have consecutive places. -/
theorem map_idxOf_middle (before middle after : List ValueId)
    (distinct : (before ++ middle ++ after).Nodup) :
    middle.map (before ++ middle ++ after).idxOf = List.range' before.length middle.length := by
  refine List.ext_getElem (by simp) fun place inside _ => ?_
  rw [List.length_map] at inside
  have place_lt : before.length + place < (before ++ middle ++ after).length := by simp; omega
  have item_eq : (before ++ middle ++ after)[before.length + place] = middle[place] := by
    simp [inside]
  rw [List.getElem_map, List.getElem_range', ← item_eq, distinct.idxOf_getElem, Nat.one_mul]

private theorem ascending_lines (distinct : (function.availableAfter function.code).Nodup)
    {front back : List Operation} (code_eq : function.code = front ++ back)
    (dominated : Dominated (function.availableAfter front) back) :
    Ascending (function.availableAfter front).length (back.map function.line) := by
  induction back generalizing front with
  | nil => trivial
  | cons operation back induction =>
      have after_eq : function.availableAfter (front ++ [operation]) =
          function.availableAfter front ++ operation.results := by
        simp [availableAfter]
      have later : Ascending (function.availableAfter (front ++ [operation])).length
          (back.map function.line) :=
        induction (by simp [code_eq]) (after_eq ▸ dominated.2)
      have available_eq : function.availableAfter function.code =
          function.availableAfter front ++ operation.results ++ back.flatMap Operation.results := by
        simp [availableAfter, code_eq]
      have results_eq : operation.results.map function.position =
          List.range' (function.availableAfter front).length operation.results.length := by
        have middle := map_idxOf_middle _ _ _ (available_eq ▸ distinct)
        rwa [← available_eq] at middle
      refine ⟨?_, ?_, ?_⟩
      · intro number listed
        obtain ⟨operand, reads, rfl⟩ := List.mem_map.mp listed
        have early := dominated.1 operand reads
        rw [position, available_eq, List.append_assoc, List.idxOf_append, if_pos early]
        exact List.idxOf_lt_length_of_mem early
      · rw [line, List.length_map, results_eq]
      · rw [after_eq, List.length_append] at later
        rwa [line, List.length_map]

/-- A sheet has its numbers in order. -/
theorem sheet_ordered (verified : function.Verified) : function.sheet.Ordered where
  arguments := by
    have first : function.arguments.map function.position =
        List.range' 0 function.arguments.length :=
      map_idxOf_middle [] _ _ verified.wellFormed.distinct
    rw [sheet, List.map_map, List.length_map, List.range_eq_range']
    exact first
  lines := by
    have nothing : function.availableAfter [] = function.arguments := List.append_nil _
    have lines : Ascending (function.availableAfter []).length (function.code.map function.line) :=
      ascending_lines verified.wellFormed.distinct (List.nil_append _).symm
        (nothing ▸ verified.dominated)
    rw [nothing] at lines
    rwa [sheet, List.length_map]

end Function

end Dataflow

end TensorLang
