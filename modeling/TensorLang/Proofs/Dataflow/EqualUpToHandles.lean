import Mathlib.Data.List.Nodup
import TensorLang.Proofs.Dataflow.LegibleListings

/-!
# Functions that are equal up to handles

Two functions are equal up to handles when values and operations correspond one to one and
everything else is the same.  Values that nothing defines any more and operations that were erased
do not count.  Verified functions are equal up to handles just if their sheets are the same, and so,
when their texts tell their sheets, just if their listings are.
-/

namespace TensorLang

/-! ### Counterparts -/

section Counterparts

variable {α β γ : Type} [DecidableEq α] {left right : List α}

/-- The item at the same place of another list. -/
def counterpart (left right : List α) (item : α) : α := right.getD (left.idxOf item) item

theorem map_counterpart (distinct : left.Nodup) (same_length : left.length = right.length) :
    left.map (counterpart left right) = right := by
  refine List.ext_getElem (by rw [List.length_map, same_length]) fun place inside _ => ?_
  rw [List.length_map] at inside
  rw [List.getElem_map, counterpart, distinct.idxOf_getElem, List.getD_eq_getElem?_getD,
    List.getElem?_eq_getElem (same_length ▸ inside)]
  rfl

theorem eq_counterpart {item other : α} (member : other ∈ right)
    (same_place : left.idxOf item = right.idxOf other) : other = counterpart left right item := by
  rw [counterpart, same_place, List.getD_eq_getElem?_getD, List.getElem?_idxOf member]
  rfl

theorem counterpart_inj (distinct : left.Nodup) (also : right.Nodup)
    (same_length : left.length = right.length) :
    ∀ item ∈ left, ∀ other ∈ left,
      counterpart left right item = counterpart left right other → item = other := by
  rw [← map_counterpart distinct same_length] at also
  exact fun item item_mem other other_mem => List.inj_on_of_nodup_map also item_mem other_mem

theorem idxOf_map {change : α → α} {items : List α}
    (apart : ∀ item ∈ items, ∀ other ∈ items, change item = change other → item = other)
    {item : α} (member : item ∈ items) :
    (items.map change).idxOf (change item) = items.idxOf item := by
  induction items with
  | nil => cases member
  | cons first items induction =>
      rw [List.map_cons, List.idxOf_cons, List.idxOf_cons]
      by_cases same : first = item
      · rw [same, beq_self_eq_true, beq_self_eq_true]
        rfl
      · have changed : change first ≠ change item := fun equal =>
          same (apart first List.mem_cons_self item member equal)
        have later := (List.mem_cons.mp member).resolve_left (Ne.symm same)
        rw [beq_eq_false_iff_ne.mpr same, beq_eq_false_iff_ne.mpr changed,
          induction (fun item item_mem other other_mem =>
            apart item (List.mem_cons_of_mem _ item_mem)
              other (List.mem_cons_of_mem _ other_mem)) later]

/-- Lists that look the same, item by item, also look the same in what follows from that. -/
theorem map_eq_map_of_map_eq {δ ε : Type} {items : List β} {others : List γ} {shown : β → δ}
    {seen : γ → δ} {change : β → ε} {changed : γ → ε} (same : items.map shown = others.map seen)
    (each : ∀ item ∈ items, ∀ other ∈ others, shown item = seen other →
      change item = changed other) :
    items.map change = others.map changed := by
  induction items generalizing others with
  | nil =>
      cases others with
      | nil => rfl
      | cons other others => cases same
  | cons item items induction =>
      cases others with
      | nil => cases same
      | cons other others =>
          obtain ⟨first, later⟩ := List.cons.inj same
          rw [List.map_cons, List.map_cons,
            each item List.mem_cons_self other List.mem_cons_self first,
            induction later fun item item_mem other other_mem =>
              each item (List.mem_cons_of_mem _ item_mem) other (List.mem_cons_of_mem _ other_mem)]

end Counterparts

namespace Dataflow

namespace Function

variable {left right : Function} {values : ValueId → ValueId}
variable {operations : OperationId → OperationId}

/-- Under new handles for values and operations the left function is the right one: it has the same
name and types, and its operations do the same in the same order. -/
structure Renames (left right : Function) (values : ValueId → ValueId)
    (operations : OperationId → OperationId) : Prop where
  name : right.name = left.name
  resultTypes : right.resultTypes = left.resultTypes
  arguments : right.arguments = left.arguments.map values
  body : right.body = left.body.map operations
  actions : ∀ id ∈ left.body, (right.operation? (operations id)).map Operation.action =
    (left.operation? id).map (Operation.renamed values)
  types : ∀ id ∈ left.availableAfter left.code, right.typeOf (values id) = left.typeOf id
  valuesApart : ∀ id ∈ left.availableAfter left.code, ∀ other ∈ left.availableAfter left.code,
    values id = values other → id = other
  operationsApart :
    ∀ id ∈ left.body, ∀ other ∈ left.body, operations id = operations other → id = other

/-- The functions are the same apart from handles, locations and what was erased. -/
def EqualUpToHandles (left right : Function) : Prop :=
  ∃ values operations, Renames left right values operations

theorem Renames.code (renames : Renames left right values operations) :
    right.code.map Operation.action = left.code.map (Operation.renamed values) := by
  rw [Function.code, Function.code, renames.body, List.filterMap_map, List.map_filterMap,
    List.map_filterMap]
  exact List.filterMap_congr renames.actions

theorem typeAt_eq {function : Function} {id : ValueId} {type : TensorType}
    (type_eq : function.typeOf id = .ok type) : function.typeAt id = type := by
  obtain ⟨value, value_eq, rfl⟩ := typeOf_eq_ok_iff.mp type_eq
  rw [typeAt, value_eq]
  rfl

namespace Renames

variable (renames : Renames left right values operations)

include renames

theorem available :
    right.availableAfter right.code = (left.availableAfter left.code).map values := by
  have results := congrArg (List.flatMap fun action => action.2.2) renames.code
  rw [List.flatMap_map, List.flatMap_map] at results
  rw [availableAfter, availableAfter, List.map_append, renames.arguments, List.map_flatMap]
  exact congrArg _ results

theorem position_eq {id : ValueId} (member : id ∈ left.availableAfter left.code) :
    right.position (values id) = left.position id := by
  rw [position, renames.available, idxOf_map renames.valuesApart member]
  rfl

theorem typeAt_values (verified : left.Verified) {id : ValueId}
    (member : id ∈ left.availableAfter left.code) : right.typeAt (values id) = left.typeAt id :=
  typeAt_eq ((renames.types id member).trans
    (typeOf_eq_typeAt (verified.wellFormed.known id member)))

/-- An operation has the same line as its counterpart: values keep their numbers and types. -/
theorem line_eq (verified : left.Verified) {operation other : Operation}
    (member : operation ∈ left.code) (same : operation.renamed values = other.action) :
    left.line operation = right.line other := by
  obtain ⟨kind_eq, lists_eq⟩ := Prod.mk.inj same
  obtain ⟨operands_eq, results_eq⟩ := Prod.mk.inj lists_eq
  rw [line, line, ← kind_eq, ← operands_eq, ← results_eq]
  simp only [List.map_map, Line.mk.injEq, true_and]
  refine ⟨?_, ?_, ?_, ?_⟩ <;> refine List.map_congr_left fun id listed => ?_
  · exact (renames.position_eq (verified.operand_mem member listed)).symm
  · exact (renames.typeAt_values verified (verified.operand_mem member listed)).symm
  · exact (renames.position_eq (result_mem member listed)).symm
  · exact (renames.typeAt_values verified (result_mem member listed)).symm

theorem sheet_eq (verified : left.Verified) : left.sheet = right.sheet := by
  rw [sheet, sheet, Sheet.mk.injEq]
  refine ⟨renames.name.symm, ?_, renames.resultTypes.symm, ?_⟩
  · rw [renames.arguments, List.map_map]
    refine List.map_congr_left fun argument member => ?_
    have available : argument ∈ left.availableAfter left.code := List.mem_append_left _ member
    exact Prod.ext (renames.position_eq available).symm
      (renames.typeAt_values verified available).symm
  · exact map_eq_map_of_map_eq renames.code.symm fun operation member other _ =>
      renames.line_eq verified member

end Renames

/-! ### Functions with the same sheet -/

section Sheets

variable (left_verified : left.Verified) (right_verified : right.Verified)
variable (sheets : left.sheet = right.sheet)

/-- The value with the same number. -/
abbrev valueCounterpart (left right : Function) : ValueId → ValueId :=
  counterpart (left.availableAfter left.code) (right.availableAfter right.code)

/-- The operation at the same place of the body. -/
abbrev operationCounterpart (left right : Function) : OperationId → OperationId :=
  counterpart left.body right.body

theorem eq_map_valueCounterpart {ids others : List ValueId}
    (places : ids.map left.position = others.map right.position)
    (members : ∀ other ∈ others, other ∈ right.availableAfter right.code) :
    others = ids.map (valueCounterpart left right) := by
  have mapped : others.map id = ids.map (valueCounterpart left right) :=
    map_eq_map_of_map_eq places.symm fun other member item _ same =>
      eq_counterpart (members other member) same.symm
  rwa [List.map_id] at mapped

/-- Counterparts have the types that are written with the same numbers. -/
theorem typeAt_valueCounterpart {ids others : List ValueId}
    (places : ids.map left.position = others.map right.position)
    (members : ∀ other ∈ others, other ∈ right.availableAfter right.code)
    (types : ids.map left.typeAt = others.map right.typeAt) :
    ∀ id ∈ ids, right.typeAt (valueCounterpart left right id) = left.typeAt id := by
  rw [eq_map_valueCounterpart places members, List.map_map] at types
  exact fun id member => (List.map_inj_left.mp types id member).symm

include right_verified in
theorem action_eq_renamed {operation other : Operation} (member : other ∈ right.code)
    (same : left.line operation = right.line other) :
    other.action = operation.renamed (valueCounterpart left right) := by
  obtain ⟨kind_eq, operands, -, results, -⟩ := Line.mk.inj same
  have operands_eq := eq_map_valueCounterpart operands fun operand reads =>
    right_verified.operand_mem member reads
  have results_eq := eq_map_valueCounterpart results fun result defines => result_mem member defines
  rw [Operation.action, Operation.renamed, kind_eq, operands_eq, results_eq]

theorem map_operation?_body {function : Function} (verified : function.Verified) :
    function.body.map function.operation? = function.code.map some := by
  rw [body_eq_code verified.live, List.map_map]
  exact List.map_congr_left fun operation member => verified.operation?_of_mem member

include sheets in
theorem arguments_of_sheet_eq :
    left.arguments.map left.position = right.arguments.map right.position ∧
      left.arguments.map left.typeAt = right.arguments.map right.typeAt := by
  have shown := (Sheet.mk.inj sheets).2.1
  exact ⟨map_eq_map_of_map_eq shown fun _ _ _ _ same => (Prod.mk.inj same).1,
    map_eq_map_of_map_eq shown fun _ _ _ _ same => (Prod.mk.inj same).2⟩

include sheets in
theorem lines_of_sheet_eq : left.code.map left.line = right.code.map right.line :=
  (Sheet.mk.inj sheets).2.2.2

include right_verified sheets in
theorem code_of_sheet_eq :
    right.code.map Operation.action =
      left.code.map (Operation.renamed (valueCounterpart left right)) :=
  map_eq_map_of_map_eq (lines_of_sheet_eq sheets).symm fun _ member _ _ same =>
    action_eq_renamed right_verified member same.symm

include sheets in
theorem length_available_of_sheet_eq :
    (left.availableAfter left.code).length = (right.availableAfter right.code).length := by
  have arguments := congrArg List.length (arguments_of_sheet_eq sheets).1
  rw [List.length_map, List.length_map] at arguments
  have results : left.code.map (fun operation => operation.results.length) =
      right.code.map fun operation => operation.results.length :=
    map_eq_map_of_map_eq (lines_of_sheet_eq sheets) fun operation _ other _ same => by
      have lengths := congrArg List.length (Line.mk.inj same).2.2.2.1
      rwa [List.length_map, List.length_map] at lengths
  rw [availableAfter, availableAfter, List.length_append, List.length_append, List.length_flatMap,
    List.length_flatMap, arguments, results]

include sheets in
theorem typeAt_of_sheet_eq {id : ValueId} (member : id ∈ left.availableAfter left.code) :
    right.typeAt (valueCounterpart left right id) = left.typeAt id := by
  rcases List.mem_append.mp member with argument | result
  · obtain ⟨places, types⟩ := arguments_of_sheet_eq sheets
    exact typeAt_valueCounterpart places
      (fun argument member => List.mem_append_left _ member) types id argument
  · obtain ⟨operation, operation_mem, defines⟩ := List.mem_flatMap.mp result
    have listed := List.mem_map_of_mem (f := left.line) operation_mem
    rw [lines_of_sheet_eq sheets] at listed
    obtain ⟨other, other_mem, same⟩ := List.mem_map.mp listed
    obtain ⟨-, -, -, places, types⟩ := Line.mk.inj same.symm
    exact typeAt_valueCounterpart places (fun result defines => result_mem other_mem defines)
      types id defines

include left_verified right_verified sheets in
theorem renames_of_sheet_eq :
    Renames left right (valueCounterpart left right) (operationCounterpart left right) := by
  have bodies : left.body.length = right.body.length := by
    have lengths := congrArg List.length (lines_of_sheet_eq sheets)
    rwa [List.length_map, List.length_map, ← List.length_map Operation.id,
      ← body_eq_code left_verified.live, ← List.length_map Operation.id,
      ← body_eq_code right_verified.live] at lengths
  have body_eq := map_counterpart left_verified.nodup bodies
  have values_eq := map_counterpart left_verified.wellFormed.distinct
    (length_available_of_sheet_eq sheets)
  have arguments := arguments_of_sheet_eq sheets
  have arguments_mem : ∀ argument ∈ right.arguments, argument ∈ right.availableAfter right.code :=
    fun argument member => List.mem_append_left _ member
  refine ⟨(Sheet.mk.inj sheets).1.symm, (Sheet.mk.inj sheets).2.2.1.symm,
    eq_map_valueCounterpart arguments.1 arguments_mem, body_eq.symm, ?_, ?_, ?_, ?_⟩
  · -- Both bodies are lists of live operations, so what they do can be compared list by list.
    have maps_eq : left.body.map (fun id =>
        (right.operation? (operationCounterpart left right id)).map Operation.action) =
        left.body.map fun id =>
          (left.operation? id).map (Operation.renamed (valueCounterpart left right)) := by
      calc left.body.map (fun id =>
              (right.operation? (operationCounterpart left right id)).map Operation.action)
          = ((left.body.map (operationCounterpart left right)).map right.operation?).map
              (Option.map Operation.action) := by rw [List.map_map, List.map_map]; rfl
        _ = (right.code.map Operation.action).map some := by
              rw [body_eq, map_operation?_body right_verified, List.map_map, List.map_map]; rfl
        _ = (left.body.map left.operation?).map
              (Option.map (Operation.renamed (valueCounterpart left right))) := by
              rw [code_of_sheet_eq right_verified sheets, map_operation?_body left_verified,
                List.map_map, List.map_map]
              rfl
        _ = _ := by rw [List.map_map]; rfl
    exact List.map_inj_left.mp maps_eq
  · intro id member
    have counterpart_mem : valueCounterpart left right id ∈ right.availableAfter right.code :=
      values_eq ▸ List.mem_map_of_mem member
    rw [typeOf_eq_typeAt (right_verified.wellFormed.known _ counterpart_mem),
      typeOf_eq_typeAt (left_verified.wellFormed.known id member),
      typeAt_of_sheet_eq sheets member]
  · exact counterpart_inj left_verified.wellFormed.distinct right_verified.wellFormed.distinct
      (length_available_of_sheet_eq sheets)
  · exact counterpart_inj left_verified.nodup right_verified.nodup bodies

end Sheets

/-! ### Listings -/

/-- What a function needs for its listing to tell it.  Names are words, operations have as many
operands and results as their kinds call for, literals hold numbers, and the type of a constant or a
reshape has the shape of the literal or of the target. -/
structure Writable (function : Function) : Prop where
  named : IsName function.name
  proper : function.Proper
  callees : ∀ operation ∈ function.code, ∀ callee, operation.kind = .call callee → IsName callee
  numbers : ∀ operation ∈ function.code, ∀ literal, operation.kind = .constant literal →
    ∀ value ∈ literal.values, magnitude value ≠ .nan
  constants : ∀ operation ∈ function.code, ∀ literal, operation.kind = .constant literal →
    ∀ result ∈ operation.results, function.typeOf result = .ok (.ranked literal.shape)
  reshapes : ∀ operation ∈ function.code, ∀ shape, operation.kind = .reshape shape →
    ∀ result ∈ operation.results, function.typeOf result = .ok (.ranked shape)

/-- The only result of an operation has the only type of its line. -/
theorem resultTypes_line {function : Function} {operation : Operation} {type : TensorType}
    (only : operation.results.length = 1)
    (typed : ∀ result ∈ operation.results, function.typeOf result = .ok type) :
    (function.line operation).resultTypes = [type] := by
  obtain ⟨result, results_eq⟩ := List.length_eq_one_iff.mp only
  have type_eq := typeAt_eq (typed result (results_eq ▸ List.mem_singleton_self result))
  rw [← type_eq, line, results_eq]
  rfl

theorem Writable.sheet_valid {function : Function} (writable : function.Writable) :
    function.sheet.Valid where
  named := writable.named
  lines := by
    intro _ listed
    obtain ⟨operation, member, rfl⟩ := List.mem_map.mp listed
    have proper := writable.proper operation member
    exact {
      operandTypes := by rw [line, List.length_map, List.length_map]
      operands := fun count counted => by rw [line, List.length_map, proper.operands count counted]
      resultTypes := by rw [line, List.length_map, proper.results]
      callees := writable.callees operation member
      numbers := writable.numbers operation member
      constants := fun literal (kind_eq : operation.kind = .constant literal) => resultTypes_line
        (by rw [proper.results, kind_eq]; rfl) (writable.constants operation member literal kind_eq)
      reshapes := fun shape (kind_eq : operation.kind = .reshape shape) => resultTypes_line
        (by rw [proper.results, kind_eq]; rfl) (writable.reshapes operation member shape kind_eq) }

/-- Listings are faithful.  A verified function is listed as a sheet in which every value has a
number, in the order of definitions and with every number defined before it is used; and two
verified functions have the same listing just if they are equal up to handles. -/
theorem listing_faithful (accepted : left.verify = .ok ()) :
    left.listing plainStyle = .ok left.sheet.text ∧ left.sheet.Ordered ∧
      ∀ right : Function, right.verify = .ok () → left.Writable → right.Writable →
        (left.listing plainStyle = right.listing plainStyle ↔ left.EqualUpToHandles right) := by
  have verified := verify_eq_ok_iff.mp accepted
  refine ⟨listing_eq_sheet verified, sheet_ordered verified, ?_⟩
  intro right right_accepted writable right_writable
  have right_verified := verify_eq_ok_iff.mp right_accepted
  rw [listing_eq_sheet verified, listing_eq_sheet right_verified, Except.ok.injEq]
  constructor
  · intro texts_eq
    have sheets := Sheet.text_inj writable.sheet_valid right_writable.sheet_valid texts_eq
    exact ⟨_, _, renames_of_sheet_eq verified right_verified sheets⟩
  · rintro ⟨values, operations, renames⟩
    rw [renames.sheet_eq verified]

/-- Two numbers in a row. -/
def shortRow : TensorLiteral := ⟨⟨⟨[2]⟩, [1, 2.5], rfl⟩, by decide⟩

/-- Prints a row as a column, perhaps after an operation was erased. -/
def printingColumn (erases : Bool) : Function :=
  let build : Edit Unit := do
    if erases then
      let unused ← Edit.append (.constant shortRow) [] [.ranked ⟨[2]⟩] ⟨"main", 1, 1⟩
      Edit.erase unused
    let given ← Edit.appendValue (.constant shortRow) [] (.ranked ⟨[2]⟩) ⟨"main", 2, 1⟩
    let column ← Edit.appendValue (.reshape ⟨[2, 1]⟩) [given] (.ranked ⟨[2, 1]⟩) ⟨"main", 3, 1⟩
    let _ ← Edit.append .print [column] [] ⟨"main", 4, 1⟩
    let _ ← Edit.append .leave [] [] ⟨"main", 1, 1⟩
  (build.outcome (.new "main" ⟨"main", 1, 1⟩)).1

theorem code_printingColumn (erases : Bool) :
    (printingColumn erases).code = [
      ⟨⟨erases.toNat⟩, .constant shortRow, [], [⟨erases.toNat⟩], ⟨"main", 2, 1⟩⟩,
      ⟨⟨erases.toNat + 1⟩, .reshape ⟨[2, 1]⟩, [⟨erases.toNat⟩],
        [⟨erases.toNat + 1⟩], ⟨"main", 3, 1⟩⟩,
      ⟨⟨erases.toNat + 2⟩, .print, [⟨erases.toNat + 1⟩], [], ⟨"main", 4, 1⟩⟩,
      ⟨⟨erases.toNat + 3⟩, .leave, [], [], ⟨"main", 1, 1⟩⟩] := by
  cases erases <;> rfl

theorem typeOf_printingColumn (erases : Bool) :
    (printingColumn erases).typeOf ⟨erases.toNat⟩ = .ok (.ranked ⟨[2]⟩) ∧
      (printingColumn erases).typeOf ⟨erases.toNat + 1⟩ = .ok (.ranked ⟨[2, 1]⟩) := by
  cases erases <;> exact ⟨rfl, rfl⟩

theorem sheet_printingColumn (erases : Bool) :
    (printingColumn erases).sheet = ⟨"main", [], [], [
      ⟨.constant shortRow, [], [], [0], [.ranked ⟨[2]⟩]⟩,
      ⟨.reshape ⟨[2, 1]⟩, [0], [.ranked ⟨[2]⟩], [1], [.ranked ⟨[2, 1]⟩]⟩,
      ⟨.print, [1], [.ranked ⟨[2, 1]⟩], [], []⟩,
      ⟨.leave, [], [], [], []⟩]⟩ := by
  have name_eq : (printingColumn erases).name = "main" := by cases erases <;> rfl
  have arguments_eq : (printingColumn erases).arguments = [] := by cases erases <;> rfl
  have resultTypes_eq : (printingColumn erases).resultTypes = [] := by cases erases <;> rfl
  obtain ⟨row_type, column_type⟩ := typeOf_printingColumn erases
  simp [sheet, line, position, availableAfter, name_eq, arguments_eq, resultTypes_eq,
    code_printingColumn, typeAt_eq row_type, typeAt_eq column_type, List.idxOf_cons]

theorem printingColumn_writable (erases : Bool) : (printingColumn erases).Writable where
  named := by
    have name_eq : (printingColumn erases).name = "main" := by cases erases <;> rfl
    simp [name_eq, IsName, isWordPart]
  proper := by cases erases <;> decide
  callees := by simp [code_printingColumn]
  numbers := by
    have one : magnitude 1 = .finite 4503599627370496 (-52) := rfl
    have fraction : magnitude 2.5 = .finite 5629499534213120 (-51) := rfl
    simp [code_printingColumn, shortRow, ne_nan_of_finite one, ne_nan_of_finite fraction]
  constants := by simp [code_printingColumn, typeOf_printingColumn, shortRow]
  reshapes := by simp [code_printingColumn, typeOf_printingColumn]

theorem listing_faithful_printingColumn :
    (printingColumn false).verify = .ok () ∧ (printingColumn true).verify = .ok () ∧
      (printingColumn false).Writable ∧ (printingColumn true).Writable ∧
      (printingColumn false).EqualUpToHandles (printingColumn true) := by
  have accepted : (printingColumn false).verify = .ok () := by rfl
  have also : (printingColumn true).verify = .ok () := by rfl
  obtain ⟨listed, -, same⟩ := listing_faithful accepted
  refine ⟨accepted, also, printingColumn_writable false, printingColumn_writable true, ?_⟩
  refine (same _ also (printingColumn_writable false) (printingColumn_writable true)).mp ?_
  rw [listed, (listing_faithful also).1, sheet_printingColumn, sheet_printingColumn]

end Function

end Dataflow

end TensorLang
