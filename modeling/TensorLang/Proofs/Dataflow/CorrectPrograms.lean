import TensorLang.Proofs.Dataflow.InferenceRefusals
import TensorLang.Proofs.Dataflow.TranslatedPrograms
import TensorLang.Proofs.Program.Correctness

/-!
# Translation accepts the correct programs

Each construct is appended to a function if it is correct, where the scope knows the names that the
construct can see; otherwise the author of the program is told of a mistake.  No promise is broken,
as all places of the program can be located, all operands exist when they are read, and literals fit
into memory.  The literals become constants of the function, in the order in which they stand.
-/

namespace TensorLang

/-! ### Mistakes -/

/-- What the author of a program may have done wrong before shapes are inferred. -/
inductive Cause.Misuse : Cause → Prop
  | malformed (message : String) : Misuse (.malformed message)
  | undeclared (name : String) : Misuse (.undeclared name)
  | redefinition (name : String) : Misuse (.redefinition name)
  | argumentCount (callee : String) (expected actual : Nat) :
      Misuse (.argumentCount callee expected actual)
  | literalShape (reason : String) : Misuse (.literalShape reason)

/-- The author of a program is told of a mistake, and there is one. -/
def Error.Refutes (error : Error) (correct : Prop) : Prop :=
  error.cause.Misuse ∧ ¬ correct

theorem Error.Refutes.of_part {error : Error} {part whole : Prop} (refutes : error.Refutes part)
    (needs : whole → part) : error.Refutes whole :=
  ⟨refutes.1, fun correct => refutes.2 (needs correct)⟩

/-- A step decides a part of the whole, and what follows it decides the whole. -/
theorem Outcome.Delivers.bind_decided {α β : Type} {first : Outcome α} {next : α → Outcome β}
    {middle : α → Prop} {accepts : β → Prop} {part whole : Prop}
    (early : first.Delivers middle fun error => error.Refutes part) (needs : whole → part)
    (late : ∀ value, first = .ok value → middle value →
      (next value).Delivers accepts fun error => error.Refutes whole) :
    (first >>= next).Delivers accepts fun error => error.Refutes whole :=
  (early.mono (fun _ _ accepted => accepted) fun _ _ refutes => refutes.of_part needs).bind late

/-- A step decides a part of the whole, and what follows it decides the whole. -/
theorem Delivers.bind_decided {σ α β : Type} {first : EStateM Failure σ α}
    {next : α → EStateM Failure σ β} {state : σ} {middle : α → σ → Prop} {accepts : β → σ → Prop}
    {part whole : Prop} (early : Delivers first state middle fun error _ => error.Refutes part)
    (needs : whole → part) (late : ∀ value final, first state = .ok value final →
      middle value final → Delivers (next value) final accepts fun error _ => error.Refutes whole) :
    Delivers (first >>= next) state accepts fun error _ => error.Refutes whole :=
  (early.mono (fun _ _ _ accepted => accepted) fun _ _ _ refutes => refutes.of_part needs).bind late

/-! ### Literals -/

/-- The tensor has the numbers of the literal, from left to right, and the lengths of its arrays. -/
structure Literal.Denotes (literal : Literal) (constant : TensorLiteral) : Prop where
  /-- The dimensions are the lengths of the nested arrays. -/
  lengths : literal.HasLengths constant.shape.dimensions
  /-- The elements are the numbers. -/
  values : constant.values = literal.numbers

namespace Dataflow

section Literals

variable {α : Type} {source : Source} {accepts : α → Prop}

theorem delivers_refused {span : Span} (located : source.Locates span) {cause : Cause}
    {refuses : Error → Prop} (refused : ∀ location, refuses ⟨cause, some location⟩) :
    Outcome.Delivers (do Outcome.failAt (← source.locate span) cause) accepts refuses := by
  obtain ⟨location, location_eq⟩ := located
  rw [location_eq]
  exact Outcome.Delivers.failAt (refused location)

mutual

/-- A literal is flattened to its lengths and numbers if it is rectangular. -/
theorem decides_flatten : (literal : Literal) → literal.Located source → literal.Filled →
    (flatten source literal).Delivers (fun flattened =>
        literal.HasLengths flattened.dimensions ∧ flattened.values = literal.numbers)
      fun error => error.Refutes literal.Rectangular
  | .number _ _, _, _ => by
      rw [flatten]
      exact ⟨.number _ _, rfl⟩
  | .array _ [], _, filled => by
      -- The empty array would be refused, but no derivation builds it.
      cases filled with
      | array nonempty => exact absurd rfl nonempty
  | .array _ (first :: rest), located, filled => by
      cases located with
      | array _ located =>
          cases filled with
          | array _ filled =>
              rw [List.forall_mem_cons] at located filled
              rw [flatten]
              refine (decides_flatten first located.1 filled.1).bind_decided
                (fun | ⟨_, .array inside⟩ => ⟨_, inside first List.mem_cons_self⟩) ?_
              rintro inner _ ⟨inner_lengths, inner_values⟩
              refine (decides_flattenRest inner.dimensions rest located.2 filled.2).bind_decided
                (fun rectangular element member => ?_) ?_
              · obtain ⟨_, whole⟩ := rectangular
                cases whole with
                | array inside =>
                    rw [inner_lengths.unique filled.1 (inside first List.mem_cons_self)]
                    exact inside element (List.mem_cons_of_mem _ member)
              · rintro values _ ⟨lengths, values_eq⟩
                refine ⟨.array (List.forall_mem_cons.mpr ⟨inner_lengths, lengths⟩), ?_⟩
                change inner.values ++ values = _
                rw [inner_values, values_eq, Literal.numbers, Literal.numbersOfAll]

/-- Further elements are flattened to their numbers if the dimensions are their lengths. -/
theorem decides_flattenRest (dimensions : List Nat) : (rest : List Literal) →
    (∀ element ∈ rest, element.Located source) → (∀ element ∈ rest, element.Filled) →
    (flattenRest source dimensions rest).Delivers (fun values =>
        (∀ element ∈ rest, element.HasLengths dimensions) ∧ values = Literal.numbersOfAll rest)
      fun error => error.Refutes (∀ element ∈ rest, element.HasLengths dimensions)
  | [], _, _ => by
      rw [flattenRest]
      exact ⟨by simp, rfl⟩
  | element :: rest, located, filled => by
      rw [List.forall_mem_cons] at located filled
      rw [flattenRest, List.forall_mem_cons]
      refine (decides_flatten element located.1 filled.1).bind_decided
        (fun lengths => ⟨_, lengths.1⟩) ?_
      rintro flattened _ ⟨lengths, values_eq⟩
      split
      · rename_i different
        exact delivers_refused located.1.span fun _ => ⟨.literalShape _, fun all_lengths =>
          different (lengths.unique filled.1 all_lengths.1)⟩
      · rename_i same
        rw [Decidable.not_not.mp same] at lengths
        refine (decides_flattenRest dimensions rest located.2 filled.2).bind_decided And.right ?_
        rintro values _ ⟨rest_lengths, rest_eq⟩
        refine ⟨⟨lengths, rest_lengths⟩, ?_⟩
        rw [values_eq, rest_eq, Literal.numbersOfAll]

end

/-- A literal that fits into memory spells its tensor if it is rectangular. -/
theorem decides_tensorLiteral {literal : Literal} (located : literal.Located source)
    (short : literal.count < memoryBound) (filled : literal.Filled) :
    (tensorLiteral source literal).Delivers literal.Denotes
      fun error => error.Refutes literal.Rectangular := by
  rw [tensorLiteral]
  refine (decides_flatten literal located filled).bind_decided id ?_
  rintro flattened success ⟨lengths, values_eq⟩
  obtain ⟨⟨tensor, -, shape_eq, elements_eq⟩, -⟩ := flatten_eq_ok literal success
  have fits : flattened.values.length = (Shape.mk flattened.dimensions).size ∧
      flattened.values.length < memoryBound := by
    refine ⟨by rw [← elements_eq, ← shape_eq, tensor.filled], ?_⟩
    rw [values_eq, Literal.length_numbers]
    exact short
  exact Outcome.Delivers.promised (dif_pos fits) ⟨lengths, values_eq⟩

end Literals

/-! ### Constants -/

/-- The tensor of a constant. -/
def OperationKind.constant? : OperationKind → Option TensorLiteral
  | .constant value => some value
  | _ => none

/-- The tensors of the constants of a function, in order. -/
def Function.constants (function : Function) : List TensorLiteral :=
  function.code.filterMap fun operation => operation.kind.constant?

/-- The change adds the constants that the literals spell. -/
def Function.Gains (before after : Function) (literals : List Literal) : Prop :=
  ∃ new, after.constants = before.constants ++ new ∧ List.Forall₂ Literal.Denotes literals new

section Constants

variable {before middle after : Function} {first second : List Literal} {operation : Operation}

theorem Function.Gains.refl (function : Function) : function.Gains function [] :=
  ⟨[], (List.append_nil _).symm, .nil⟩

theorem Function.Gains.trans (early : before.Gains middle first)
    (late : middle.Gains after second) : before.Gains after (first ++ second) := by
  obtain ⟨new, middle_eq, new_denoted⟩ := early
  obtain ⟨more, after_eq, more_denoted⟩ := late
  exact ⟨new ++ more, by rw [after_eq, middle_eq, List.append_assoc],
    List.rel_append new_denoted more_denoted⟩

theorem Function.Gains.mute (early : before.Gains middle first) {kind : OperationKind}
    (silent : kind.constant? = none)
    (constants_eq : after.constants = middle.constants ++ kind.constant?.toList) :
    before.Gains after first := by
  obtain ⟨new, middle_eq, new_denoted⟩ := early
  rw [silent, Option.toList_none, List.append_nil] at constants_eq
  exact ⟨new, constants_eq.trans middle_eq, new_denoted⟩

theorem Appends.constants_eq (appends : Appends before after [operation]) :
    after.constants = before.constants ++ operation.kind.constant?.toList := by
  rw [Function.constants, appends.code_eq, List.filterMap_append, Function.constants]
  cases found : operation.kind.constant? <;> simp [found]

end Constants

section Edits

variable {α : Type} {context : Context} {before : Function} {accepts : α → Function → Prop}
variable {refuses : Error → Function → Prop}

theorem delivers_located {span : Span} (located : context.source.Locates span)
    {next : Location → Edit α}
    (late : ∀ location, Delivers (next location) before accepts refuses) :
    Delivers (context.locate span >>= fun location => next location : Edit α) before accepts
      refuses := by
  obtain ⟨location, location_eq⟩ := located
  rw [← context.locate_eq] at location_eq
  exact .bind_ok (Edit.lift_eq_ok_iff.mpr ⟨location_eq, rfl⟩) (late location)

/-- An operation can be appended if its operands are available. -/
theorem exists_append (growing : before.Growing) (kind : OperationKind) (operands : List ValueId)
    (available : ∀ operand ∈ operands, operand ∈ before.availableAfter before.code)
    (types : List TensorType) (location : Location) :
    ∃ id after, Edit.append kind operands types location before = .ok id after := by
  have known : before.hasValues types.length operands = true := by
    rw [Function.hasValues, List.all_eq_true]
    intro operand member
    have small := growing.linked.known operand (available operand member)
    exact decide_eq_true (Nat.lt_add_right _ small)
  exact ⟨_, _, Edit.append_eq_ok_iff.mpr ⟨known, rfl, rfl⟩⟩

end Edits

section Operations

variable {before : Function} {kind : OperationKind} {operands : List ValueId}
variable {refuses : Error → Function → Prop}
variable (growing : before.Growing) (spelled : kind.Spelled)
variable (available : ∀ operand ∈ operands, operand ∈ before.availableAfter before.code)
variable (count : ∀ count, kind.operandCount? = some count → operands.length = count)

include growing spelled available count

/-- An operation without results and with available operands is appended. -/
theorem delivers_append (results : kind.resultCount = 0) (location : Location) :
    Delivers (Edit.append kind operands [] location) before
      (fun _ after => after.constants = before.constants ++ kind.constant?.toList) refuses := by
  obtain ⟨id, after, appended⟩ := exists_append growing kind operands available [] location
  obtain ⟨operation, appends, -, rfl, -⟩ :=
    Appends.append growing spelled available count (show [].length = _ from results.symm) appended
  exact .of_ok appended appends.constants_eq

/-- An operation with one result and with available operands is appended for its value. -/
theorem delivers_appendValue (results : kind.resultCount = 1) (type : TensorType)
    (location : Location) :
    Delivers (Edit.appendValue kind operands type location) before
      (fun _ after => after.constants = before.constants ++ kind.constant?.toList) refuses := by
  obtain ⟨id, after, appended⟩ := exists_append growing kind operands available [type] location
  obtain ⟨operation, appends, -, rfl, -, operation_eq⟩ := Appends.append growing spelled available
    count (show [type].length = _ from results.symm) appended
  obtain ⟨result, results_eq⟩ := List.length_eq_one_iff.mp
    ((appends.proper operation (List.mem_singleton_self _)).2.trans results)
  have success :
      Edit.appendValue operation.kind operands type location before = .ok result after := by
    simp only [Edit.appendValue, EStateM.bind_eq_ok_iff, Edit.query_eq_ok_iff, Edit.lift_eq_ok_iff]
    exact ⟨id, after, appended, operation, after,
      ⟨Outcome.promised_eq_ok_iff.mpr operation_eq, rfl⟩,
      Operation.result_eq_ok_iff.mpr results_eq, rfl⟩
  exact .of_ok success appends.constants_eq

end Operations

/-! ### Names -/

theorem lookup_eq_none_iff_notMem {α : Type} {entries : List (String × α)} {name : String} :
    entries.lookup name = none ↔ name ∉ entries.map Prod.fst := by
  rw [List.lookup_eq_none_iff]
  simp only [List.mem_map, not_exists, not_and, bne_iff_ne, ne_eq]
  exact ⟨fun different entry member same => different entry member same.symm,
    fun absent entry member same => absent entry member same.symm⟩

/-- Under different keys, the value that is looked up is the one that stands with the key. -/
theorem lookup_eq_some_iff_mem {α : Type} {entries : List (String × α)}
    (distinct : (entries.map Prod.fst).Nodup) {name : String} {value : α} :
    entries.lookup name = some value ↔ (name, value) ∈ entries := by
  rw [List.lookup_eq_some_iff]
  constructor
  · rintro ⟨front, back, rfl, -⟩
    exact List.mem_append_right _ List.mem_cons_self
  · intro member
    obtain ⟨front, back, rfl⟩ := List.append_of_mem member
    refine ⟨front, back, rfl, fun entry entry_mem => bne_iff_ne.mpr fun same => ?_⟩
    rw [List.map_append] at distinct
    exact (List.nodup_append.mp distinct).2.2 _ (List.mem_map_of_mem entry_mem) name
      List.mem_cons_self same.symm

/-- The scope has the names of the parameters and of the variables, the last one first. -/
structure Scope.Knows (scope : Scope) (parameters declared : List String) : Prop where
  /-- The names of the parameters. -/
  parameters : scope.parameters.map Prod.fst = parameters.reverse
  /-- The names of the variables. -/
  declared : scope.declared.map Prod.fst = declared.reverse

namespace Scope.Knows

variable {scope : Scope} {parameters declared : List String}

theorem declared_eq_none_iff (knows : scope.Knows parameters declared) {name : String} :
    scope.declared.lookup name = none ↔ name ∉ declared := by
  rw [lookup_eq_none_iff_notMem, knows.declared, List.mem_reverse]

/-- A name has no value just if it is neither a variable nor a parameter. -/
theorem find?_eq_none_iff (knows : scope.Knows parameters declared) {name : String} :
    scope.find? name = none ↔ name ∉ declared ++ parameters := by
  rw [find?, Option.or_eq_none_iff, knows.declared_eq_none_iff, lookup_eq_none_iff_notMem,
    knows.parameters, List.mem_reverse, List.mem_append, not_or]

theorem bindVariable (knows : scope.Knows parameters declared) (name : String) (value : ValueId) :
    (scope.bindVariable name value).Knows parameters (declared ++ [name]) :=
  ⟨knows.parameters, by simp [Scope.bindVariable, knows.declared]⟩

end Scope.Knows

/-- The callees are those of the program. -/
def Callees.Describe (callees : Callees) (program : Program) : Prop :=
  ∀ name count, program.Callable name count ↔
    ∃ target, callees.lookup name = some target ∧ target.arity = count

/-! ### Expressions -/

section Expressions

variable {context : Context} {scope : Scope} {program : Program} {parameters declared : List String}
variable {limit : Nat}

mutual

theorem decides_appendExpression (reserved : context.callees.Reserved)
    (callees : context.callees.Describe program) (bounded : limit < memoryBound)
    (knows : scope.Knows parameters declared) {before : Function} (growing : before.Growing)
    (visible : scope.Within (before.availableAfter before.code)) :
    (expression : Expression) → expression.Unsigned → expression.Located context.source limit →
      (∀ literal ∈ expression.literals, literal.Filled) →
      Delivers (appendExpression context scope expression) before
        (fun _ after => expression.Correct program (declared ++ parameters) ∧
          before.Gains after expression.literals)
        fun error _ => error.Refutes (expression.Correct program (declared ++ parameters))
  | .literal literal, unsigned, located, filled => by
      cases located with
      | literal located short =>
          cases unsigned with
          | literal unsigned =>
              have spells :
                  Delivers (tensorLiteral context.source literal : Edit TensorLiteral) before
                  (fun constant _ => literal.Denotes constant)
                  fun error _ => error.Refutes literal.Rectangular :=
                Edit.delivers_lift (decides_tensorLiteral located
                  (Nat.lt_of_le_of_lt short bounded) (filled literal (List.mem_singleton_self _)))
              rw [appendExpression]
              refine delivers_located located.span fun location => ?_
              refine spells.bind_decided (fun | .literal rectangular => rectangular)
                fun value _ success denoted => ?_
              obtain ⟨value_eq, rfl⟩ := Edit.lift_eq_ok_iff.mp success
              obtain ⟨-, value_unsigned, counted⟩ := tensorLiteral_eq_ok value_eq
              have spelled : OperationKind.Spelled (.constant value) :=
                ⟨value_unsigned unsigned, counted⟩
              refine (delivers_appendValue growing spelled (by simp)
                (by simp [OperationKind.operandCount?]) rfl _ location).mono_accepted
                fun _ after constants_eq => ?_
              exact ⟨.literal ⟨_, denoted.lengths⟩, _, constants_eq, .cons denoted .nil⟩
  | .identifier name, _, located, _ => by
      cases located with
      | identifier located =>
          rw [appendExpression]
          split
          · rename_i value found
            have seen : name.name ∈ declared ++ parameters := by
              by_contra unseen
              rw [knows.find?_eq_none_iff.mpr unseen] at found
              cases found
            exact ⟨.identifier seen, .refl before⟩
          · rename_i missing
            refine delivers_located located fun location =>
              Edit.delivers_lift ⟨.undeclared _, fun correct => ?_⟩
            cases correct with
            | identifier seen => exact knows.find?_eq_none_iff.mp missing seen
  | .binary _ left operator _ right, unsigned, located, filled => by
      cases located with
      | binary _ left_located operator_located right_located =>
          cases unsigned with
          | binary left_unsigned right_unsigned =>
              obtain ⟨left_filled, right_filled⟩ := List.forall_mem_append.mp filled
              rw [appendExpression]
              refine (decides_appendExpression reserved callees bounded knows growing visible left
                left_unsigned left_located left_filled).bind_decided
                (fun | .binary left_correct _ => left_correct) ?_
              rintro first middle left_eq ⟨left_correct, left_gains⟩
              obtain ⟨_, left_appends, left_available, -⟩ :=
                appendExpression_eq_ok reserved growing visible left left_unsigned left_eq
              have middle_visible := visible.mono left_appends.available_subset
              refine (decides_appendExpression reserved callees bounded knows left_appends.growing
                middle_visible right right_unsigned right_located right_filled).bind_decided
                (fun | .binary _ right_correct => right_correct) ?_
              rintro second final right_eq ⟨right_correct, right_gains⟩
              obtain ⟨_, right_appends, right_available, -⟩ := appendExpression_eq_ok reserved
                left_appends.growing middle_visible right right_unsigned right_eq
              refine delivers_located operator_located fun location => ?_
              refine (delivers_appendValue right_appends.growing
                (by cases operator <;> exact ⟨trivial, trivial⟩)
                (by simp [right_appends.available_subset left_available, right_available])
                (by cases operator <;> simp [kindOf, OperationKind.operandCount?])
                (by cases operator <;> rfl) .unranked location).mono_accepted
                fun _ after constants_eq => ⟨.binary left_correct right_correct, ?_⟩
              exact (left_gains.trans right_gains).mute
                (by cases operator <;> rfl) constants_eq
  | .call _ callee arguments, unsigned, located, filled => by
      cases located with
      | call located callee_located inside =>
          cases unsigned with
          | call unsigned =>
              rw [appendExpression]
              refine delivers_located located fun location => ?_
              split
              · rename_i missing
                refine delivers_located callee_located fun location =>
                  Edit.delivers_lift ⟨.undeclared _, fun correct => ?_⟩
                cases correct with
                | call callable =>
                    obtain ⟨target, found, -⟩ := (callees _ _).mp callable
                    rw [missing] at found
                    cases found
              · rename_i target found
                split
                · rename_i count
                  refine Edit.delivers_lift ⟨.argumentCount _ _ _, fun correct => ?_⟩
                  cases correct with
                  | call callable =>
                      obtain ⟨other, other_found, arity⟩ := (callees _ _).mp callable
                      obtain rfl := Option.some.inj (found.symm.trans other_found)
                      exact count arity.symm
                · rename_i count
                  rw [Decidable.not_not] at count
                  refine (decides_appendExpressions reserved callees bounded knows growing visible
                    arguments unsigned inside filled).bind_decided
                    (fun | .call _ arguments_correct => arguments_correct) ?_
                  rintro operands middle success ⟨arguments_correct, gains⟩
                  obtain ⟨length_eq, _, appends, available, -⟩ :=
                    appendExpressions_eq_ok reserved growing visible arguments unsigned success
                  rw [count] at length_eq
                  refine (delivers_appendValue appends.growing
                    (by cases target <;> exact ⟨trivial, trivial⟩) available
                    (by cases target <;> simp_all [Callee.kind, OperationKind.operandCount?,
                      Callee.arity])
                    (by cases target <;> rfl) .unranked location).mono_accepted
                    fun _ after constants_eq => ⟨.call ?_ arguments_correct, ?_⟩
                  · exact (callees _ _).mpr ⟨target, found, count.symm⟩
                  · exact gains.mute (by cases target <;> rfl) constants_eq

theorem decides_appendExpressions (reserved : context.callees.Reserved)
    (callees : context.callees.Describe program) (bounded : limit < memoryBound)
    (knows : scope.Knows parameters declared) {before : Function} (growing : before.Growing)
    (visible : scope.Within (before.availableAfter before.code)) :
    (expressions : List Expression) → (∀ expression ∈ expressions, expression.Unsigned) →
      (∀ expression ∈ expressions, expression.Located context.source limit) →
      (∀ literal ∈ Expression.literalsOfAll expressions, literal.Filled) →
      Delivers (appendExpressions context scope expressions) before
        (fun _ after => (∀ expression ∈ expressions,
            expression.Correct program (declared ++ parameters)) ∧
          before.Gains after (Expression.literalsOfAll expressions))
        fun error _ => error.Refutes (∀ expression ∈ expressions,
          expression.Correct program (declared ++ parameters))
  | [], _, _, _ => by
      rw [appendExpressions]
      exact ⟨by simp, .refl before⟩
  | expression :: rest, unsigned, located, filled => by
      rw [List.forall_mem_cons] at unsigned located
      obtain ⟨first_filled, rest_filled⟩ := List.forall_mem_append.mp filled
      rw [appendExpressions, List.forall_mem_cons]
      refine (decides_appendExpression reserved callees bounded knows growing visible expression
        unsigned.1 located.1 first_filled).bind_decided And.left ?_
      rintro value middle success ⟨first_correct, first_gains⟩
      obtain ⟨_, appends, -, -⟩ :=
        appendExpression_eq_ok reserved growing visible expression unsigned.1 success
      refine (decides_appendExpressions reserved callees bounded knows appends.growing
        (visible.mono appends.available_subset) rest unsigned.2 located.2 rest_filled).bind_decided
        And.right ?_
      rintro values final _ ⟨rest_correct, rest_gains⟩
      exact ⟨⟨first_correct, rest_correct⟩, first_gains.trans rest_gains⟩

end

end Expressions

/-! ### Statements -/

section Statements

variable {context : Context} {scope : Scope} {before : Function} {program : Program}
variable {parameters declared : List String} {earlier : List Statement} {limit : Nat}

theorem decides_checkShapeClause (bounded : limit < memoryBound) {declaration : Declaration}
    (located : declaration.Located context.source limit)
    (filled : ∀ literal ∈ declaration.initializer.literals, literal.Filled)
    (correct : declaration.initializer.Correct program (declared ++ parameters))
    {clause : ShapeClause} (shape_eq : declaration.shape = some clause) :
    (checkShapeClause context declaration clause).Delivers (fun _ => declaration.Fits)
      fun error => error.Refutes declaration.Fits := by
  have clause_located := located.shape clause shape_eq
  rw [checkShapeClause]
  simp only [context.locate_eq]
  split
  · rename_i uncounted
    refine delivers_refused clause_located fun _ => ⟨.literalShape _, fun fits => ?_⟩
    obtain ⟨count, counted, -⟩ := fits clause shape_eq
    rw [uncounted] at counted
    cases counted
  · rename_i count counted
    have fits_iff : declaration.Fits ↔
        ∀ literal, declaration.initializer = .literal literal → literal.numbers.length = count := by
      simp [Declaration.Fits, shape_eq, counted]
    rw [fits_iff]
    split
    · rename_i literal initializer_eq
      have whole := located.initializer
      rw [initializer_eq] at whole correct filled
      cases whole with
      | literal literal_located short =>
          cases correct with
          | literal rectangular =>
              refine (decides_tensorLiteral literal_located (Nat.lt_of_le_of_lt short bounded)
                (filled literal (List.mem_singleton_self _))).bind_decided (fun _ => rectangular)
                fun value _ denoted => ?_
              have size_eq : literal.numbers.length = value.shape.size := by
                rw [← denoted.values, value.filled]
              split
              · rename_i different
                exact delivers_refused clause_located fun _ => ⟨.literalShape _, fun fits =>
                  different (size_eq ▸ fits literal initializer_eq)⟩
              · rename_i same
                intro other other_eq
                obtain rfl := Expression.literal.inj (initializer_eq.symm.trans other_eq)
                exact size_eq.trans (Decidable.not_not.mp same)
    · rename_i different
      exact fun literal initializer_eq => absurd initializer_eq (different literal)

theorem decides_appendDeclaration (reserved : context.callees.Reserved)
    (callees : context.callees.Describe program) (bounded : limit < memoryBound)
    (knows : scope.Knows parameters declared) (growing : before.Growing)
    (visible : scope.Within (before.availableAfter before.code)) {declaration : Declaration}
    (unsigned : declaration.initializer.Unsigned)
    (located : declaration.Located context.source limit)
    (filled : ∀ literal ∈ declaration.initializer.literals, literal.Filled) :
    Delivers (appendDeclaration context scope declaration) before
      (fun after_scope after => (declaration.name.name ∉ declared ∧
          declaration.initializer.Correct program (declared ++ parameters) ∧ declaration.Fits) ∧
        before.Gains after declaration.initializer.literals ∧
        after_scope.Knows parameters (declared ++ [declaration.name.name]))
      fun error _ => error.Refutes (declaration.name.name ∉ declared ∧
        declaration.initializer.Correct program (declared ++ parameters) ∧ declaration.Fits) := by
  rw [appendDeclaration]
  split
  · rename_i taken
    refine delivers_located located.name fun location =>
      Edit.delivers_lift ⟨.redefinition _, fun correct => ?_⟩
    rw [knows.declared_eq_none_iff.mpr correct.1] at taken
    cases taken
  · rename_i free
    refine (decides_appendExpression reserved callees bounded knows growing visible _ unsigned
      located.initializer filled).bind_decided (fun correct => correct.2.1) ?_
    rintro value middle success ⟨correct, gains⟩
    have fresh := knows.declared_eq_none_iff.mp free
    split
    · rename_i undeclared
      refine ⟨⟨fresh, correct, fun clause member => ?_⟩, gains, knows.bindVariable _ _⟩
      rw [undeclared] at member
      cases member
    · rename_i clause shape_eq
      obtain ⟨_, appends, available, -⟩ :=
        appendExpression_eq_ok reserved growing visible _ unsigned success
      have checks : Delivers (checkShapeClause context declaration clause : Edit Unit) middle
          (fun _ _ => declaration.Fits) fun error _ => error.Refutes declaration.Fits :=
        Edit.delivers_lift (decides_checkShapeClause bounded located filled correct shape_eq)
      refine checks.bind_decided (fun correct => correct.2.2) fun _ _ lifted fits => ?_
      obtain ⟨checked, rfl⟩ := Edit.lift_eq_ok_iff.mp lifted
      refine delivers_located located.span fun location => ?_
      refine (delivers_appendValue appends.growing (checkShapeClause_eq_ok checked)
        (List.forall_mem_singleton.mpr available) (by simp [OperationKind.operandCount?]) rfl
        (.ranked ⟨clause.dimensions⟩) location).bind fun reshaped after _ constants_eq => ?_
      exact ⟨⟨fresh, correct, fits⟩, gains.mute rfl constants_eq, knows.bindVariable _ _⟩

/-- The value of an expression is used by an operation at the end just if it is correct. -/
theorem decides_appendUse (reserved : context.callees.Reserved)
    (callees : context.callees.Describe program) (bounded : limit < memoryBound)
    (knows : scope.Knows parameters declared) (growing : before.Growing)
    (visible : scope.Within (before.availableAfter before.code)) {expression : Expression}
    (unsigned : expression.Unsigned) (located : expression.Located context.source limit)
    (filled : ∀ literal ∈ expression.literals, literal.Filled) {kind : OperationKind}
    (spelled : kind.Spelled) (unary : kind.operandCount?.getD 1 = 1)
    (results : kind.resultCount = 0)
    (silent : kind.constant? = none) (location : Location) :
    Delivers (do
        let value ← appendExpression context scope expression
        let _ ← Edit.append kind [value] [] location
        return scope) before
      (fun after_scope after => expression.Correct program (declared ++ parameters) ∧
        before.Gains after expression.literals ∧ after_scope = scope)
      fun error _ => error.Refutes (expression.Correct program (declared ++ parameters)) := by
  refine (decides_appendExpression reserved callees bounded knows growing visible
    expression unsigned located filled).bind_decided id ?_
  rintro value middle success ⟨correct, gains⟩
  obtain ⟨_, appends, available, -⟩ :=
    appendExpression_eq_ok reserved growing visible expression unsigned success
  refine (delivers_append appends.growing spelled (List.forall_mem_singleton.mpr available)
    (fun count count_eq => ?_) results location).bind fun _ after _ constants_eq => ?_
  · rw [count_eq] at unary
    exact unary.symm
  · exact ⟨correct, gains.mute silent constants_eq, rfl⟩

theorem delivers_appendReturn (growing : before.Growing) (location : Location) {α : Type}
    (result : α) {refuses : Error → Function → Prop} :
    Delivers (do
        let _ ← Edit.append .leave [] [] location
        return result) before (fun value after => before.Gains after [] ∧ value = result)
      refuses := by
  have leaves : OperationKind.Spelled .leave := ⟨trivial, trivial⟩
  refine (delivers_append growing leaves (by simp) (by simp [OperationKind.operandCount?]) rfl
    location).bind fun _ after _ constants_eq => ?_
  exact ⟨(Function.Gains.refl before).mute rfl constants_eq, rfl⟩

theorem variablesOf_concat (earlier : List Statement) (statement : Statement) :
    variablesOf (earlier ++ [statement]) = variablesOf earlier ++ statement.action.declares := by
  simp [variablesOf]

/-- A statement that declares nothing is as correct as its expressions. -/
theorem correctAfter_iff_expressions (proceeding : ∀ other ∈ earlier, other.action.leaves = false)
    {statement : Statement} (undeclaring : statement.action.declares = []) :
    statement.CorrectAfter program parameters earlier ↔
      ∀ expression ∈ statement.action.expressions,
        expression.Correct program (variablesOf earlier ++ parameters) := by
  refine ⟨fun correct => correct.expressions,
    fun expressions => ⟨proceeding, ?_, expressions, fun declaration action_eq => ?_⟩⟩
  · rw [undeclaring]
    exact fun name member => absurd member List.not_mem_nil
  · rw [action_eq] at undeclaring
    cases undeclaring

private theorem correctAfter_iff_declaration
    (proceeding : ∀ other ∈ earlier, other.action.leaves = false)
    {statement : Statement} {declaration : Declaration}
    (action_eq : statement.action = .declare declaration) :
    statement.CorrectAfter program parameters earlier ↔
      declaration.name.name ∉ variablesOf earlier ∧
        declaration.initializer.Correct program (variablesOf earlier ++ parameters) ∧
        declaration.Fits := by
  constructor
  · rintro ⟨-, fresh, expressions, fits⟩
    rw [action_eq] at fresh expressions
    exact ⟨fresh _ (List.mem_singleton_self _), expressions _ (List.mem_singleton_self _),
      fits declaration action_eq⟩
  · rintro ⟨fresh, correct, fits⟩
    refine ⟨proceeding, ?_, ?_, fun other other_eq => ?_⟩
    · rw [action_eq]
      exact List.forall_mem_singleton.mpr fresh
    · rw [action_eq]
      exact List.forall_mem_singleton.mpr correct
    · obtain rfl := Action.declare.inj (action_eq.symm.trans other_eq)
      exact fits

/-- What decides the only expression of a statement that declares nothing decides the statement. -/
theorem decides_of_expression (proceeding : ∀ other ∈ earlier, other.action.leaves = false)
    (knows : scope.Knows parameters (variablesOf earlier)) {statement : Statement} {action : Action}
    {expression : Expression} (action_eq : statement.action = action)
    (undeclaring : action.declares = []) (only : action.expressions = [expression])
    {step : Edit Scope} (decides : Delivers step before
      (fun after_scope after => expression.Correct program (variablesOf earlier ++ parameters) ∧
        before.Gains after expression.literals ∧ after_scope = scope)
      fun error _ =>
        error.Refutes (expression.Correct program (variablesOf earlier ++ parameters))) :
    Delivers step before
      (fun after_scope after => statement.CorrectAfter program parameters earlier ∧
        before.Gains after action.literals ∧
        after_scope.Knows parameters (variablesOf (earlier ++ [statement])))
      fun error _ => error.Refutes (statement.CorrectAfter program parameters earlier) := by
  subst action_eq
  rw [correctAfter_iff_expressions proceeding undeclaring, only, List.forall_mem_singleton,
    Action.literals, only, List.flatMap_singleton, variablesOf_concat, undeclaring, List.append_nil]
  refine decides.mono_accepted ?_
  rintro _ after ⟨correct, gains, rfl⟩
  exact ⟨correct, gains, knows⟩

theorem decides_appendStatement (reserved : context.callees.Reserved)
    (callees : context.callees.Describe program) (bounded : limit < memoryBound)
    (knows : scope.Knows parameters (variablesOf earlier)) (growing : before.Growing)
    (visible : scope.Within (before.availableAfter before.code))
    (proceeding : ∀ other ∈ earlier, other.action.leaves = false) {statement : Statement}
    (unsigned : statement.action.Unsigned) (located : statement.Located context.source limit)
    (filled : ∀ expression ∈ statement.action.expressions,
      ∀ literal ∈ expression.literals, literal.Filled) :
    Delivers (appendStatement context scope statement) before
      (fun after_scope after => statement.CorrectAfter program parameters earlier ∧
        before.Gains after statement.action.literals ∧
        after_scope.Knows parameters (variablesOf (earlier ++ [statement])))
      fun error _ => error.Refutes (statement.CorrectAfter program parameters earlier) := by
  rw [appendStatement]
  refine delivers_located located.span fun location => ?_
  have action_located := located.action
  cases action_eq : statement.action with
  | declare declaration =>
      rw [action_eq] at unsigned action_located filled
      rw [correctAfter_iff_declaration proceeding action_eq, variablesOf_concat, action_eq,
        Action.literals, Action.expressions, List.flatMap_singleton, Action.declares]
      exact decides_appendDeclaration reserved callees bounded knows growing visible
        (unsigned _ (List.mem_singleton_self _)) action_located
        (filled _ (List.mem_singleton_self _))
  | leave value =>
      rw [action_eq] at unsigned action_located filled
      cases value with
      | none =>
          have undeclaring : statement.action.declares = [] := by rw [action_eq]; rfl
          rw [correctAfter_iff_expressions proceeding undeclaring, variablesOf_concat, undeclaring,
            List.append_nil, action_eq]
          refine (delivers_appendReturn growing location scope).mono_accepted ?_
          rintro _ after ⟨gains, rfl⟩
          exact ⟨by simp [Action.expressions], gains, knows⟩
      | some value =>
          have spelled : OperationKind.Spelled .leave := ⟨trivial, trivial⟩
          refine decides_of_expression proceeding knows action_eq rfl rfl ?_
          exact decides_appendUse reserved callees bounded knows
            (growing.withResultTypes [.unranked]) visible (unsigned _ (List.mem_singleton_self _))
            (action_located value rfl) (filled _ (List.mem_singleton_self _)) spelled rfl rfl rfl
            location
  | print value =>
      rw [action_eq] at unsigned action_located filled
      have spelled : OperationKind.Spelled .print := ⟨trivial, trivial⟩
      refine decides_of_expression proceeding knows action_eq rfl rfl ?_
      exact decides_appendUse reserved callees bounded knows growing visible
        (unsigned _ (List.mem_singleton_self _)) action_located
        (filled _ (List.mem_singleton_self _)) spelled rfl rfl rfl location
  | evaluate expression =>
      rw [action_eq] at unsigned action_located filled
      refine decides_of_expression proceeding knows action_eq rfl rfl ?_
      refine (decides_appendExpression reserved callees bounded knows growing visible expression
        (unsigned _ (List.mem_singleton_self _)) action_located
        (filled _ (List.mem_singleton_self _))).bind_decided id ?_
      rintro _ after _ ⟨correct, gains⟩
      exact ⟨correct, gains, rfl⟩

theorem decides_appendStatements (reserved : context.callees.Reserved)
    (callees : context.callees.Describe program) (bounded : limit < memoryBound)
    (knows : scope.Knows parameters (variablesOf earlier)) (growing : before.Growing)
    (visible : scope.Within (before.availableAfter before.code))
    (proceeding : ∀ other ∈ earlier, other.action.leaves = false) {statements : List Statement}
    (unsigned : ∀ statement ∈ statements, statement.action.Unsigned)
    (located : ∀ statement ∈ statements, statement.Located context.source limit)
    (filled : ∀ statement ∈ statements, ∀ expression ∈ statement.action.expressions,
      ∀ literal ∈ expression.literals, literal.Filled) :
    Delivers (appendStatements context scope statements) before
      (fun _ after => StatementsCorrect program parameters earlier statements ∧
        before.Gains after (literalsOf statements))
      fun error _ => error.Refutes (StatementsCorrect program parameters earlier statements) := by
  induction statements generalizing scope before earlier with
  | nil =>
      rw [appendStatements]
      refine .bind_ok (EStateM.get_eq_ok_iff.mpr ⟨rfl, rfl⟩) ?_
      refine (delivers_appendReturn growing before.location ()).mono_accepted ?_
      rintro _ after ⟨gains, -⟩
      exact ⟨.nil, gains⟩
  | cons statement rest induction =>
      rw [List.forall_mem_cons] at unsigned located filled
      simp only [appendStatements]
      rw [statementsCorrect_cons_iff, literalsOf, List.flatMap_cons, ← literalsOf]
      refine (decides_appendStatement reserved callees bounded knows growing visible proceeding
        unsigned.1 located.1 filled.1).bind_decided And.left ?_
      rintro after_scope after success ⟨correct, gains, after_knows⟩
      split
      · rename_i leaves
        cases rest with
        | nil => exact ⟨⟨correct, .nil⟩, by simpa [literalsOf] using gains⟩
        | cons next rest =>
            refine delivers_located (located.2 next List.mem_cons_self).span
              fun location => Edit.delivers_lift ⟨.malformed _, fun whole => ?_⟩
            have reached := (statementsCorrect_cons_iff.mp whole.2).1.reached statement
              (List.mem_append_right _ (List.mem_singleton_self _))
            rw [leaves] at reached
            cases reached
      · rename_i proceeds
        rw [Bool.not_eq_true] at proceeds
        obtain ⟨new, continues, after_visible⟩ := continues_of_appendStatement reserved growing
          visible unsigned.1 proceeds success
        have all_proceeding : ∀ other ∈ earlier ++ [statement], other.action.leaves = false :=
          List.forall_mem_append.mpr ⟨proceeding, List.forall_mem_singleton.mpr proceeds⟩
        refine (induction after_knows continues.growing after_visible all_proceeding unsigned.2
          located.2 filled.2).mono ?_ fun _ _ _ refutes => refutes.of_part And.right
        rintro _ final _ ⟨others, more⟩
        exact ⟨⟨correct, others⟩, gains.trans more⟩

end Statements

/-! ### Functions -/

/-- The definition became the function: its literals are the constants. -/
structure RenderedBy (definition : FunctionDefinition) (function : Function) : Prop where
  /-- The name stays. -/
  name : function.name = definition.name.name
  /-- The constants are those that the literals denote, in order. -/
  constants : List.Forall₂ Literal.Denotes definition.literals function.constants

section Functions

variable {context : Context} {program : Program} {limit : Nat}

private theorem decides_declareParameter {parameter : Identifier}
    (located : context.source.Locates parameter.span) (scope : Scope) (before : Function) :
    Delivers (declareParameter context scope parameter) before
      (fun after_scope _ => parameter.name ∉ scope.parameters.map Prod.fst ∧
        after_scope.parameters.map Prod.fst = parameter.name :: scope.parameters.map Prod.fst)
      fun error _ => error.Refutes (parameter.name ∉ scope.parameters.map Prod.fst) := by
  rw [declareParameter, ← lookup_eq_none_iff_notMem]
  split
  · rename_i taken
    refine delivers_located located fun location =>
      Edit.delivers_lift ⟨.redefinition _, fun free => ?_⟩
    rw [taken] at free
    cases free
  · rename_i free
    exact ⟨free, rfl⟩

private theorem decides_declareParameters {parameters : List Identifier}
    (located : ∀ parameter ∈ parameters, context.source.Locates parameter.span) (scope : Scope)
    (before : Function) (distinct : (scope.parameters.map Prod.fst).Nodup) :
    Delivers (parameters.foldlM (declareParameter context) scope) before
      (fun _ _ => ((parameters.map Identifier.name).reverse ++ scope.parameters.map Prod.fst).Nodup)
      fun error _ => error.Refutes
        ((parameters.map Identifier.name).reverse ++ scope.parameters.map Prod.fst).Nodup := by
  induction parameters generalizing scope before with
  | nil => exact distinct
  | cons parameter rest induction =>
      rw [List.forall_mem_cons] at located
      rw [List.foldlM_cons, List.map_cons, List.reverse_cons, List.append_assoc,
        List.singleton_append]
      refine (decides_declareParameter located.1 scope before).bind_decided
        (fun names => (List.nodup_cons.mp (List.nodup_append.mp names).2.1).1) ?_
      rintro after_scope middle _ ⟨fresh, keys_eq⟩
      rw [← keys_eq]
      exact induction located.2 after_scope middle
        (keys_eq ▸ List.nodup_cons.mpr ⟨fresh, distinct⟩)

private theorem knows_declareParameters {name : String} {location : Location} {scope : Scope}
    {parameters : List Identifier} {after : Function}
    (success : parameters.foldlM (declareParameter context) Scope.empty
      (Function.new name location) = .ok scope after) :
    scope.Knows (parameters.map Identifier.name) [] := by
  obtain ⟨ids, count, -, -, -, -, -, rfl, -⟩ := declareParameters_new success
  have names_eq : ((parameters.map Identifier.name).zip ids).map Prod.fst =
      parameters.map Identifier.name :=
    List.map_fst_zip (by rw [List.length_map, count])
  exact ⟨by rw [List.map_reverse, names_eq], rfl⟩

theorem decides_ofDefinition (reserved : context.callees.Reserved)
    (callees : context.callees.Describe program) (bounded : limit < memoryBound)
    {definition : FunctionDefinition} (unsigned : definition.Unsigned)
    (located : definition.Located context.source limit)
    (filled : ∀ literal ∈ definition.literals, literal.Filled) :
    (Function.ofDefinition context definition).Delivers
      (fun function => definition.Correct program ∧ RenderedBy definition function)
      fun error => error.Refutes (definition.Correct program) := by
  obtain ⟨location, location_eq⟩ := located.name
  have inside : ∀ statement ∈ definition.body.statements,
      ∀ expression ∈ statement.action.expressions, ∀ literal ∈ expression.literals,
        literal.Filled :=
    fun statement statement_mem expression expression_mem literal member =>
      filled literal (List.mem_flatMap.mpr
        ⟨statement, statement_mem, List.mem_flatMap.mpr ⟨expression, expression_mem, member⟩⟩)
  have builds : Delivers (do
      let scope ← definition.parameters.foldlM (declareParameter context) Scope.empty
      appendStatements context scope definition.body.statements)
      (Function.new definition.name.name location)
      (fun _ after => definition.Correct program ∧
        List.Forall₂ Literal.Denotes definition.literals after.constants)
      fun error _ => error.Refutes (definition.Correct program) := by
    refine (decides_declareParameters located.parameters .empty _ List.nodup_nil).bind_decided
      (fun correct => by simpa [Scope.empty] using correct.parameters)
      fun scope middle declared names => ?_
    obtain ⟨ids, -, growing, code_eq, -, -, -, -, visible⟩ := declareParameters_new declared
    have knows : scope.Knows (definition.parameters.map Identifier.name) (variablesOf []) :=
      knows_declareParameters declared
    refine (decides_appendStatements reserved callees bounded knows growing visible
      (by simp) unsigned located.statements inside).mono ?_
      fun _ _ _ refutes => refutes.of_part FunctionDefinition.Correct.statements
    rintro _ after _ ⟨statements, new, constants_eq, denoted⟩
    have none_before : middle.constants = [] := by
      rw [Function.constants, code_eq, List.filterMap_nil]
    rw [none_before, List.nil_append] at constants_eq
    exact ⟨⟨by simpa [Scope.empty] using names, statements⟩, constants_eq ▸ denoted⟩
  have decides : (Function.ofDefinition context definition).Delivers
      (fun function => definition.Correct program ∧
        List.Forall₂ Literal.Denotes definition.literals function.constants)
      fun error => error.Refutes (definition.Correct program) := by
    rw [Function.ofDefinition, context.locate_eq, location_eq]
    exact (Edit.delivers_outcome builds).bind fun _ _ accepted => accepted
  refine decides.mono ?_ fun _ _ refutes => refutes
  rintro function success ⟨correct, denoted⟩
  exact ⟨correct, (ofDefinition_eq_ok reserved unsigned success).1, denoted⟩

end Functions

/-! ### Programs -/

section Programs

variable {source : Source} {program : Program} {limit : Nat}

/-- The callee that a definition defines. -/
def calleeOf (definition : FunctionDefinition) : String × Callee :=
  (definition.name.name, .function definition.parameters.length)

private theorem decides_addCallee {definition : FunctionDefinition}
    (located : source.Locates definition.name.span) (callees : Callees) :
    (addCallee source callees definition).Delivers
      (fun after => definition.name.name ∉ callees.map Prod.fst ∧
        after = callees ++ [calleeOf definition])
      fun error => error.Refutes (definition.name.name ∉ callees.map Prod.fst) := by
  rw [addCallee, ← lookup_eq_none_iff_notMem]
  split
  · rename_i taken
    refine delivers_refused located fun _ => ⟨.redefinition _, fun free => ?_⟩
    rw [taken] at free
    cases free
  · rename_i free
    exact ⟨free, rfl⟩

/-- Definitions become callees just if their names differ from each other and from those before. -/
theorem decides_addCallees {definitions : List FunctionDefinition}
    (located : ∀ definition ∈ definitions, definition.Located source limit) {callees : Callees}
    (distinct : (callees.map Prod.fst).Nodup) :
    (definitions.foldlM (addCallee source) callees).Delivers
      (fun after => ((callees ++ definitions.map calleeOf).map Prod.fst).Nodup ∧
        after = callees ++ definitions.map calleeOf)
      fun error => error.Refutes ((callees ++ definitions.map calleeOf).map Prod.fst).Nodup := by
  induction definitions generalizing callees with
  | nil => simpa using ⟨distinct, rfl⟩
  | cons definition rest induction =>
      rw [List.forall_mem_cons] at located
      rw [List.foldlM_cons, List.map_cons, List.append_cons]
      refine (decides_addCallee located.1.name callees).bind_decided (fun names member => ?_) ?_
      · rw [List.map_append, List.map_append] at names
        exact (List.nodup_append.mp (List.nodup_append.mp names).1).2.2 _ member _
          (List.mem_singleton_self _) rfl
      · rintro _ - ⟨fresh, rfl⟩
        refine induction located.2 ?_
        rw [List.map_append]
        exact List.nodup_append.mpr ⟨distinct, List.nodup_singleton _,
          fun name member other other_mem same => by
            obtain rfl : name = definition.name.name := same.trans (List.mem_singleton.mp other_mem)
            exact fresh member⟩

/-- The transposition, and the functions of the program. -/
def Callees.ofProgram (program : Program) : Callees :=
  (transposeName, .transpose) :: program.functions.map calleeOf

theorem Callees.describe_ofProgram
    (distinct : ((Callees.ofProgram program).map Prod.fst).Nodup) :
    (Callees.ofProgram program).Describe program := by
  intro name count
  simp only [lookup_eq_some_iff_mem distinct]
  constructor
  · rintro (_ | member)
    · exact ⟨_, List.mem_cons_self, rfl⟩
    · exact ⟨_, List.mem_cons_of_mem _ (List.mem_map_of_mem member), rfl⟩
  · rintro ⟨target, member, rfl⟩
    rcases List.mem_cons.mp member with same | defined
    · obtain ⟨rfl, rfl⟩ := Prod.mk.inj same
      exact .transpose
    · obtain ⟨definition, definition_mem, same⟩ := List.mem_map.mp defined
      obtain ⟨rfl, rfl⟩ := Prod.mk.inj same
      exact .function definition_mem

theorem Callees.names_ofProgram (program : Program) : (Callees.ofProgram program).map Prod.fst =
    transposeName :: program.functions.map fun definition => definition.name.name := by
  rw [Callees.ofProgram, List.map_cons, List.map_map]
  rfl

private theorem correct_iff : program.Correct ↔ ((Callees.ofProgram program).map Prod.fst).Nodup ∧
    ∀ definition ∈ program.functions, definition.Correct program := by
  rw [Callees.names_ofProgram, List.nodup_cons, List.mem_map, not_exists]
  constructor
  · rintro ⟨names, reserved, functions⟩
    exact ⟨⟨fun definition ⟨member, same⟩ => reserved definition member same, names⟩, functions⟩
  · rintro ⟨⟨reserved, names⟩, functions⟩
    exact ⟨names, fun definition member same => reserved definition ⟨member, same⟩, functions⟩

/-- A function can be added under a new name. -/
theorem Module.add_of_notMem {module : Module} {function : Function}
    (fresh : function.name ∉ module.functions.map Function.name) :
    module.add function = .ok ⟨module.functions ++ [function]⟩ := by
  have missing : module.function? function.name = none := by
    rw [Module.function?, List.find?_eq_none]
    intro other member same
    exact fresh (List.mem_map.mpr ⟨other, member, eq_of_beq same⟩)
  rw [Module.add, missing]

/-- What parsing ensures of the definitions of a program. -/
structure Readable (source : Source) (limit : Nat) (definition : FunctionDefinition) : Prop where
  /-- No number has a sign. -/
  unsigned : definition.Unsigned
  /-- The parts can be located. -/
  located : definition.Located source limit
  /-- No array is empty. -/
  filled : ∀ literal ∈ definition.literals, literal.Filled

private theorem decides_addDefinitions {context : Context} (reserved : context.callees.Reserved)
    (describe : context.callees.Describe program) (bounded : limit < memoryBound)
    {definitions : List FunctionDefinition}
    (readable : ∀ definition ∈ definitions, Readable context.source limit definition)
    {module : Module} (distinct : (module.functions.map Function.name ++
      definitions.map fun definition => definition.name.name).Nodup) :
    (definitions.foldlM (fun (module : Module) definition => do
      module.add (← Function.ofDefinition context definition)) module).Delivers
      (fun after => (∀ definition ∈ definitions, definition.Correct program) ∧
        ∃ added, after.functions = module.functions ++ added ∧
          List.Forall₂ RenderedBy definitions added)
      fun error => error.Refutes (∀ definition ∈ definitions, definition.Correct program) := by
  induction definitions generalizing module with
  | nil => exact ⟨by simp, [], by simp, .nil⟩
  | cons definition rest induction =>
      rw [List.forall_mem_cons] at readable
      obtain ⟨⟨unsigned, located, filled⟩, rest_readable⟩ := readable
      rw [List.foldlM_cons, List.forall_mem_cons, bind_assoc]
      refine (decides_ofDefinition reserved describe bounded unsigned located filled).bind_decided
        And.left ?_
      rintro function _ ⟨correct, rendered⟩
      have fresh : function.name ∉ module.functions.map Function.name := by
        rw [rendered.name]
        exact fun member => (List.nodup_append.mp distinct).2.2 _ member _ List.mem_cons_self rfl
      have rest_distinct : ((module.functions ++ [function]).map Function.name ++
          rest.map fun definition => definition.name.name).Nodup := by
        simpa [rendered.name] using distinct
      rw [Module.add_of_notMem fresh]
      refine (induction rest_readable rest_distinct).mono ?_
        fun _ _ refutes => refutes.of_part And.right
      rintro after _ ⟨others, added, functions_eq, more⟩
      refine ⟨⟨correct, others⟩, function :: added, ?_, .cons rendered more⟩
      rw [functions_eq, List.append_assoc, List.singleton_append]

/-- A program has a dataflow module just if it is correct. -/
theorem decides_ofProgram (bounded : limit < memoryBound)
    (readable : ∀ definition ∈ program.functions, Readable source limit definition) :
    (Module.ofProgram source program).Delivers
      (fun module => program.Correct ∧ List.Forall₂ RenderedBy program.functions module.functions)
      fun error => error.Refutes program.Correct := by
  have start : (([(transposeName, .transpose)] : Callees).map Prod.fst).Nodup :=
    List.nodup_singleton _
  rw [correct_iff, Module.ofProgram]
  refine (decides_addCallees (fun definition member => (readable definition member).located)
    start).bind_decided And.left ?_
  rintro _ callees_eq ⟨distinct, rfl⟩
  have distinct : ((Callees.ofProgram program).map Prod.fst).Nodup := distinct
  have reserved : (Context.ofCallees source (Callees.ofProgram program)).callees.Reserved :=
    calleesOf_reserved callees_eq
  have names : (Module.empty.functions.map Function.name ++
      program.functions.map fun definition => definition.name.name).Nodup := by
    rw [Callees.names_ofProgram, List.nodup_cons] at distinct
    exact distinct.2
  refine (decides_addDefinitions reserved (Callees.describe_ofProgram distinct) bounded readable
    names).mono ?_ fun _ _ refutes => refutes.of_part And.right
  rintro module _ ⟨correct, added, functions_eq, rendered⟩
  have functions_eq : module.functions = added := functions_eq
  exact ⟨⟨distinct, correct⟩, functions_eq ▸ rendered⟩

theorem readable_of_program (success : source.program = .ok program) :
    ∀ definition ∈ program.functions, Readable source source.length definition := by
  have located : program.Located source source.length := source.delivers_program.accepted success
  exact fun definition member => ⟨source.unsigned_of_program success definition member,
    located definition member, source.filled_of_program success definition member⟩

/-- The translation of a parsed text succeeds just if the program is correct; then each literal has
become a constant with its numbers from left to right, and with the lengths of its arrays as shape.
-/
theorem Module.ofProgram_eq_ok_iff_correct (success : source.program = .ok program)
    (short : source.length < memoryBound) :
    ((∃ module, Module.ofProgram source program = .ok module) ↔ program.Correct) ∧
      ∀ module, Module.ofProgram source program = .ok module →
        List.Forall₂ RenderedBy program.functions module.functions := by
  have decides := decides_ofProgram short (readable_of_program success)
  refine ⟨⟨fun ⟨module, module_eq⟩ => (decides.accepted module_eq).1, fun correct => ?_⟩,
    fun module module_eq => (decides.accepted module_eq).2⟩
  cases ended : Module.ofProgram source program with
  | ok module => exact ⟨module, rfl⟩
  | error failure =>
      cases failure with
      | error error => exact absurd correct (decides.refused ended).2
      | fault => exact absurd ended decides.ne_fault

end Programs

/-- Calls a function before its definition, shadows a parameter and declares a shape. -/
def squaring : Source where
  contents := "def main() \x7b\n  var m<2, 2> = [[1, 2], [3, 4]];\n  square(m);\n\x7d\n\n" ++
    "def square(m) \x7b\n  var m = m @ transpose(m);\n  print(m + 5);\n\x7d\n"
  origin := .memory

theorem Module.ofProgram_eq_ok_iff_correct_squaring :
    ∃ program module, squaring.program = .ok program ∧ squaring.length < memoryBound ∧
      Module.ofProgram squaring program = .ok module ∧ program.Correct ∧
      List.Forall₂ RenderedBy program.functions module.functions := by
  have translates : (squaring.program.toOption.bind fun program =>
      (Module.ofProgram squaring program).toOption.map fun module => (program, module)).isSome =
        true := by
    decide +kernel
  have short : squaring.length < memoryBound := by decide +kernel
  obtain ⟨_, translates⟩ := Option.isSome_iff_exists.mp translates
  obtain ⟨program, program_eq, translates⟩ := Option.bind_eq_some_iff.mp translates
  obtain ⟨module, module_eq, -⟩ := Option.map_eq_some_iff.mp translates
  replace program_eq := Except.toOption_eq_some_iff.mp program_eq
  replace module_eq := Except.toOption_eq_some_iff.mp module_eq
  obtain ⟨accepted_iff, rendered⟩ := Module.ofProgram_eq_ok_iff_correct program_eq short
  exact ⟨program, module, program_eq, short, module_eq, accepted_iff.mp ⟨module, module_eq⟩,
    rendered module module_eq⟩

end Dataflow

end TensorLang
