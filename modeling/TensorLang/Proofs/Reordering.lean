import TensorLang.Proofs.AlikeCompilation
import TensorLang.Proofs.Dataflow.AlikePrograms
import TensorLang.Proofs.Dataflow.CorrectPrograms
import TensorLang.Proofs.Dataflow.Passes

/-!
# The order of definitions is irrelevant

Functions are looked up by name only.  Where a program compiles, its definitions may come in any
order, and others may be added: names must stay unique, so nothing that the program calls is ever
replaced, and the walk along the calls and the expansion of the calls never look at what is added.
The larger module only has larger bounds, which a compilation that succeeds does not reach.
-/

namespace TensorLang

variable {starts : Nat → Nat → Prop} {source other : Source} {limit bound : Nat}

/-! ### Places -/

theorem Source.Places.of_locates {left right : Span} (here : source.Locates left)
    (there : other.Locates right) : source.Places other left.start right.start := by
  obtain ⟨first, first_eq⟩ := here
  obtain ⟨second, second_eq⟩ := there
  exact ⟨⟨first, Outcome.promised_eq_ok_iff.mp first_eq⟩,
    second, Outcome.promised_eq_ok_iff.mp second_eq⟩

/-- Members of related lists are related also by what is known of each of them. -/
theorem forall₂_of_located {α : Type} {items located : α → α → Prop} {lefts rights : List α}
    {holds another : α → Prop} (same : List.Forall₂ items lefts rights)
    (each : ∀ left right, items left right → holds left → another right → located left right)
    (first : ∀ left ∈ lefts, holds left) (second : ∀ right ∈ rights, another right) :
    List.Forall₂ located lefts rights := by
  induction same with
  | nil => exact .nil
  | cons head _ induction =>
      rw [List.forall_mem_cons] at first second
      exact .cons (each _ _ head first.1 second.1) (induction first.2 second.2)

mutual

theorem Literal.Alike.places {literal another : Literal} (same : literal.Alike starts another)
    (here : literal.Located source) (there : another.Located other) :
    literal.Alike (source.Places other) another := by
  cases same with
  | number value =>
      cases here with
      | number here =>
          cases there with
          | number there => exact .number value (.of_locates here there)
  | array start inside =>
      cases here with
      | array here firsts =>
          cases there with
          | array there seconds =>
              exact .array (.of_locates here there) (Literal.places_all inside firsts seconds)

theorem Literal.places_all {elements others : List Literal}
    (same : List.Forall₂ (Literal.Alike starts) elements others)
    (here : ∀ element ∈ elements, element.Located source)
    (there : ∀ element ∈ others, element.Located other) :
    List.Forall₂ (Literal.Alike (source.Places other)) elements others := by
  cases same with
  | nil => exact .nil
  | cons head rest =>
      rw [List.forall_mem_cons] at here there
      exact .cons (head.places here.1 there.1) (Literal.places_all rest here.2 there.2)

end

mutual

theorem Expression.Alike.places {expression another : Expression}
    (same : expression.Alike starts another) (here : expression.Located source limit)
    (there : another.Located other bound) : expression.Alike (source.Places other) another := by
  cases same with
  | literal same =>
      cases here with
      | literal here =>
          cases there with
          | literal there => exact .literal (same.places here there)
  | identifier same =>
      cases here with
      | identifier here =>
          cases there with
          | identifier there => exact .identifier ⟨same.name, .of_locates here there⟩
  | binary operator _ _ lefts rights =>
      cases here with
      | binary here left sign right =>
          cases there with
          | binary there first mark second =>
              exact .binary operator (.of_locates here there) (.of_locates sign mark)
                (lefts.places left first) (rights.places right second)
  | call _ callees inside =>
      cases here with
      | call here callee firsts =>
          cases there with
          | call there name seconds =>
              exact .call (.of_locates here there) ⟨callees.name, .of_locates callee name⟩
                (Expression.places_all inside firsts seconds)

theorem Expression.places_all {expressions others : List Expression}
    (same : List.Forall₂ (Expression.Alike starts) expressions others)
    (here : ∀ expression ∈ expressions, expression.Located source limit)
    (there : ∀ expression ∈ others, expression.Located other bound) :
    List.Forall₂ (Expression.Alike (source.Places other)) expressions others := by
  cases same with
  | nil => exact .nil
  | cons head rest =>
      rw [List.forall_mem_cons] at here there
      exact .cons (head.places here.1 there.1) (Expression.places_all rest here.2 there.2)

end

theorem Declaration.Alike.places {declaration another : Declaration}
    (same : declaration.Alike starts another) (here : declaration.Located source limit)
    (there : another.Located other bound) : declaration.Alike (source.Places other) another where
  start := .of_locates here.span there.span
  name := ⟨same.name.name, .of_locates here.name there.name⟩
  shape := by
    have declared := same.shape
    have first := here.shape
    have second := there.shape
    generalize declaration.shape = before at declared first ⊢
    generalize another.shape = after at declared second ⊢
    cases declared with
    | none => exact .none
    | some clause => exact .some ⟨clause.dimensions, .of_locates (first _ rfl) (second _ rfl)⟩
  initializer := same.initializer.places here.initializer there.initializer

theorem Action.Alike.places {action another : Action} (same : action.Alike starts another)
    (here : action.Located source limit) (there : another.Located other bound) :
    action.Alike (source.Places other) another := by
  cases same with
  | declare same => exact .declare (same.places here there)
  | leave same =>
      cases same with
      | none => exact .leave .none
      | some same => exact .leave (.some (same.places (here _ rfl) (there _ rfl)))
  | print same => exact .print (same.places here there)
  | evaluate same => exact .evaluate (same.places here there)

theorem Statement.Alike.places {statement another : Statement}
    (same : statement.Alike starts another)
    (here : statement.Located source limit) (there : another.Located other bound) :
    statement.Alike (source.Places other) another :=
  ⟨.of_locates here.span there.span, same.action.places here.action there.action⟩

/-- A definition that is the same, and whose parts have locations in both texts. -/
theorem FunctionDefinition.Alike.places {definition another : FunctionDefinition}
    (same : definition.Alike starts another) (here : definition.Located source limit)
    (there : another.Located other bound) : definition.Alike (source.Places other) another where
  name := ⟨same.name.name, .of_locates here.name there.name⟩
  parameters := forall₂_of_located same.parameters
    (fun _ _ same here there => ⟨same.name, .of_locates here there⟩)
    here.parameters there.parameters
  statements :=
    forall₂_of_located same.statements (fun _ _ same here there => same.places here there)
    here.statements there.statements

namespace Dataflow

/-! ### Modules in any order -/

namespace Module

variable {first second : Module}

/-- The second module has alike functions in some order, and perhaps others; names are unique. -/
structure Includes (first second : Module) : Prop where
  /-- Functions of the first module have different names. -/
  names : (first.functions.map Function.name).Nodup
  /-- Functions of the second module have different names. -/
  others : (second.functions.map Function.name).Nodup
  /-- The functions of the first module, and perhaps others. -/
  functions : ∃ front more, first.Alike ⟨front⟩ ∧ second.functions.Perm (front ++ more)

theorem Includes.provides (includes : first.Includes second) : first.Provides True second := by
  obtain ⟨-, names, front, more, alike, order⟩ := includes
  intro name
  cases found : first.function? name with
  | none => exact .inr ⟨trivial, rfl⟩
  | some function =>
      have related := alike.function? name
      rw [found] at related
      generalize found_eq : Module.function? ⟨front⟩ name = another at related
      cases related with
      | some alike =>
          have member := order.mem_iff.mpr (List.mem_append_left more (mem_of_function? found_eq))
          have known := function?_of_mem names member
          rw [name_of_function? found_eq] at known
          rw [known]
          exact .inl (.some alike)

theorem Includes.length_le (includes : first.Includes second) :
    first.functions.length ≤ second.functions.length := by
  obtain ⟨-, -, front, more, alike, order⟩ := includes
  have front_length : first.functions.length = front.length := alike.length_eq
  rw [order.length_eq, List.length_append, front_length]
  exact Nat.le_add_right _ _

private theorem Includes.bodySize_le (includes : first.Includes second) :
    first.bodySize ≤ second.bodySize := by
  obtain ⟨-, -, front, more, alike, order⟩ := includes
  have sum_eq (module : Module) : module.bodySize =
      (module.functions.map fun function => function.body.length).sum := by
    rw [bodySize, List.sum_eq_foldr, List.foldr_map]
  rw [← alike.bodySize, sum_eq, sum_eq, (order.map _).sum_nat, List.map_append, List.sum_append]
  exact Nat.le_add_right _ _

private theorem Includes.expansionBound_le (includes : first.Includes second) :
    first.expansionBound ≤ second.expansionBound :=
  (Nat.pow_le_pow_left (Nat.succ_le_succ includes.bodySize_le) _).trans
    (Nat.pow_le_pow_right (Nat.succ_pos _) includes.length_le)

/-- Where inlining succeeds, it does the same in a module that includes more. -/
theorem Includes.inline (includes : first.Includes second) (entry : String) :
    (outcomes True).Relates Module.Alike (first.inline entry) (second.inline entry) :=
  includes.provides.inline includes.names includes.others (.inr ⟨trivial, includes.length_le⟩)
    (.inr ⟨trivial, includes.expansionBound_le⟩) entry

end Module

/-! ### Definitions in any order -/

section Definitions

variable {program larger : Program} {context : Context} {definitions : List FunctionDefinition}
variable {functions : List Function} {module : Module}

/-- The callees are those that a program with different names defines. -/
theorem calleesOf_eq_ok_iff (located : program.Located source limit) {callees : Callees} :
    calleesOf source program = .ok callees ↔
      ((Callees.ofProgram program).map Prod.fst).Nodup ∧ callees = Callees.ofProgram program := by
  have decides := decides_addCallees located
    (show (([(transposeName, .transpose)] : Callees).map Prod.fst).Nodup
      from List.nodup_singleton _)
  refine ⟨decides.accepted, ?_⟩
  rintro ⟨distinct, rfl⟩
  rw [← calleesOf] at decides
  cases ended : calleesOf source program with
  | ok callees => rw [(decides.accepted ended).2]; rfl
  | error failure =>
      cases failure with
      | error error => exact absurd distinct (decides.refused ended).2
      | fault => exact absurd ended decides.ne_fault

theorem names_of_map (reserved : context.callees.Reserved)
    (unsigned : ∀ definition ∈ definitions, definition.Unsigned)
    (made : definitions.map (Function.ofDefinition context) = functions.map .ok) :
    functions.map Function.name = definitions.map fun definition => definition.name.name := by
  induction definitions generalizing functions with
  | nil => rw [List.map_eq_nil_iff.mp made.symm, List.map_nil, List.map_nil]
  | cons definition rest induction =>
      obtain ⟨function, others, rfl, head, made⟩ := List.map_eq_cons_iff.mp made.symm
      rw [List.forall_mem_cons] at unsigned
      rw [List.map_cons, List.map_cons, induction unsigned.2 made.symm,
        (ofDefinition_eq_ok reserved unsigned.1 head.symm).1]

theorem addDefinitions_of_map
    (made : definitions.map (Function.ofDefinition context) = functions.map .ok)
    (names : ((module.functions ++ functions).map Function.name).Nodup) :
    definitions.foldlM (fun (module : Module) definition => do
      module.add (← Function.ofDefinition context definition)) module =
      .ok ⟨module.functions ++ functions⟩ := by
  induction definitions generalizing functions module with
  | nil =>
      obtain rfl := List.map_eq_nil_iff.mp made.symm
      rw [List.append_nil]
      rfl
  | cons definition rest induction =>
      obtain ⟨function, others, rfl, head, made⟩ := List.map_eq_cons_iff.mp made.symm
      have fresh : function.name ∉ module.functions.map Function.name := by
        rw [List.map_append] at names
        exact fun member => (List.nodup_append.mp names).2.2 _ member _ List.mem_cons_self rfl
      rw [List.append_cons] at names ⊢
      rw [List.foldlM_cons, ← head]
      exact (congrArg (· >>= _) (Module.add_of_notMem fresh)).trans (induction made.symm names)

/-- The definition has a dataflow function among the definitions of the program. -/
def TranslatesIn (source : Source) (program : Program) (definition : FunctionDefinition) : Prop :=
  ∃ callees function, calleesOf source program = .ok callees ∧
    Function.ofDefinition (.ofCallees source callees) definition = .ok function

/-- The second program has the definitions of the first in any order, wherever they stand, and
perhaps others that can be translated. -/
def ExtendedBy (other : Source) (program larger : Program) : Prop :=
  ∃ front extra,
    List.Forall₂ (FunctionDefinition.Alike fun _ _ => True) program.functions front ∧
    larger.functions.Perm (front ++ extra) ∧
    ∀ definition ∈ extra, TranslatesIn other larger definition

private theorem calleeOf_alike {definition another : FunctionDefinition}
    (same : definition.Alike starts another) : calleeOf another = calleeOf definition := by
  rw [calleeOf, calleeOf, same.name.name, same.parameters.length_eq]

theorem map_calleeOf_alike {others : List FunctionDefinition}
    (same : List.Forall₂ (FunctionDefinition.Alike starts) definitions others) :
    others.map calleeOf = definitions.map calleeOf := by
  induction same with
  | nil => rfl
  | cons head _ induction => rw [List.map_cons, List.map_cons, calleeOf_alike head, induction]

theorem calleesOf_extendedBy (extended : ExtendedBy other program larger)
    (located : larger.Located other bound)
    (distinct : ((Callees.ofProgram program).map Prod.fst).Nodup) :
    calleesOf other larger = .ok (Callees.ofProgram larger) := by
  obtain ⟨front, extra, same, order, translates⟩ := extended
  cases extra with
  | nil =>
      have callees_perm : (Callees.ofProgram larger).Perm (Callees.ofProgram program) := by
        rw [Callees.ofProgram, Callees.ofProgram, ← map_calleeOf_alike same]
        rw [List.append_nil] at order
        exact (order.map calleeOf).cons _
      exact (calleesOf_eq_ok_iff located).mpr
        ⟨((callees_perm.map Prod.fst).nodup_iff).mpr distinct, rfl⟩
  | cons definition rest =>
      obtain ⟨callees, -, callees_eq, -⟩ := translates definition List.mem_cons_self
      obtain ⟨-, rfl⟩ := (calleesOf_eq_ok_iff located).mp callees_eq
      exact callees_eq

private theorem Context.provides_of_perm (source other : Source)
    {front extra : List FunctionDefinition}
    (same : List.Forall₂ (FunctionDefinition.Alike starts) program.functions front)
    (order : larger.functions.Perm (front ++ extra))
    (distinct : ((Callees.ofProgram program).map Prod.fst).Nodup)
    (also : ((Callees.ofProgram larger).map Prod.fst).Nodup) :
    Context.Provides True (.ofCallees source (.ofProgram program))
      (.ofCallees other (.ofProgram larger)) := by
  have subset : Callees.ofProgram program ⊆ Callees.ofProgram larger := by
    refine List.cons_subset_cons _ ?_
    rw [← map_calleeOf_alike same]
    exact List.map_subset _ fun _ member => order.mem_iff.mpr (List.mem_append_left _ member)
  intro name
  cases found : (Callees.ofProgram program).lookup name with
  | none => exact .inr ⟨trivial, found⟩
  | some callee =>
      have member := (lookup_eq_some_iff_mem distinct).mp found
      exact .inl (((lookup_eq_some_iff_mem also).mpr (subset member)).trans found.symm)

private theorem exists_functions_of_perm {other : Context} {front extra : List FunctionDefinition}
    (provides : context.Provides True other)
    (same : List.Forall₂ (FunctionDefinition.Alike (context.Places other)) definitions front)
    (order : larger.functions.Perm (front ++ extra))
    (translates : ∀ definition ∈ extra, ∃ function,
      Function.ofDefinition other definition = .ok function)
    (made : definitions.map (Function.ofDefinition context) = functions.map .ok) :
    ∃ others : List Function,
      larger.functions.map (Function.ofDefinition other) = others.map .ok ∧
      ∃ front more, List.Forall₂ Function.Alike functions front ∧ others.Perm (front ++ more) := by
  have alike := (outcomes True).mapM same fun _ _ => outcomes_ofDefinition provides
  obtain ⟨fronts, fronts_eq, alike⟩ := outcomes_eq_ok alike (Except.mapM_eq_ok_iff.mpr made)
  rw [Except.mapM_eq_ok_iff] at fronts_eq
  obtain ⟨extras, extras_eq⟩ := Except.exists_mapM translates
  rw [Except.mapM_eq_ok_iff] at extras_eq
  have all_made : (front ++ extra).map (Function.ofDefinition other) =
      (fronts ++ extras).map .ok := by
    rw [List.map_append, List.map_append, fronts_eq, extras_eq]
  have each : ∀ definition ∈ larger.functions,
      ∃ function, Function.ofDefinition other definition = .ok function := by
    intro definition member
    have result_mem :=
      List.mem_map_of_mem (f := Function.ofDefinition other) (order.mem_iff.mp member)
    rw [all_made] at result_mem
    obtain ⟨function, -, function_eq⟩ := List.mem_map.mp result_mem
    exact ⟨function, function_eq.symm⟩
  obtain ⟨others, others_eq⟩ := Except.exists_mapM each
  rw [Except.mapM_eq_ok_iff] at others_eq
  have others_perm := order.map (Function.ofDefinition other)
  rw [others_eq, all_made] at others_perm
  exact ⟨others, others_eq, fronts, extras, alike,
    (List.map_perm_map_iff fun _ _ => Except.ok.inj).mp others_perm⟩

private theorem ofProgram_extendedBy (parsed : source.program = .ok program)
    (reparsed : other.program = .ok larger) (extended : ExtendedBy other program larger)
    (success : Module.ofProgram source program = .ok module) :
    ∃ another, Module.ofProgram other larger = .ok another ∧ module.Includes another := by
  have here : program.Located source source.length := source.delivers_program.accepted parsed
  have there : larger.Located other other.length := other.delivers_program.accepted reparsed
  have distinct_names := names_ofProgram success
  obtain ⟨callees, callees_eq, made⟩ := exists_callees_of_ofProgram success
  obtain ⟨distinct, rfl⟩ := (calleesOf_eq_ok_iff here).mp callees_eq
  have others_eq := calleesOf_extendedBy extended there distinct
  have also := ((calleesOf_eq_ok_iff there).mp others_eq).1
  obtain ⟨front, extra, same, order, translates⟩ := extended
  have provides := Context.provides_of_perm source other same order distinct also
  have placed := forall₂_of_located same (fun _ _ same here there => same.places here there) here
    fun definition member => there definition (order.mem_iff.mpr (List.mem_append_left _ member))
  have translates : ∀ definition ∈ extra, ∃ function,
      Function.ofDefinition (.ofCallees other (.ofProgram larger)) definition = .ok function := by
    intro definition member
    obtain ⟨callees, function, callees_eq, function_eq⟩ := translates definition member
    obtain rfl := Except.ok.inj (others_eq.symm.trans callees_eq)
    exact ⟨function, function_eq⟩
  obtain ⟨others, others_made, included⟩ :=
    exists_functions_of_perm provides placed order translates made
  have names : (others.map Function.name).Nodup := by
    rw [names_of_map (calleesOf_reserved others_eq) (other.unsigned_of_program reparsed)
      others_made]
    rw [Callees.names_ofProgram] at also
    exact also.of_cons
  refine ⟨⟨others⟩, ?_, distinct_names, names, included⟩
  rw [Module.ofProgram, others_eq]
  exact addDefinitions_of_map others_made names

end Definitions

end Dataflow

/-! ### Compilation -/

private theorem Compiler.compiles_extendedBy (options : Options) {program larger : Program}
    (parsed : source.program = .ok program) (reparsed : other.program = .ok larger)
    (extended : Dataflow.ExtendedBy other program larger) :
    (compiles True).Relates
      (fun first second => first.Includes second ∧ first.verify = .ok ())
      (dataflow options source program) (dataflow options other larger) := by
  have translated : (outcomes True).Relates
      (fun first second => first.Includes second ∧ second.verify = .ok ())
      (Dataflow.Module.ofProgram source program) (Dataflow.Module.ofProgram other larger) := by
    refine outcomes_of_eq_ok fun first first_eq => ?_
    obtain ⟨second, second_eq, includes⟩ :=
      Dataflow.ofProgram_extendedBy parsed reparsed extended first_eq
    have wellFormed := Dataflow.wellFormed_ofProgram reparsed second_eq
    exact ⟨second, second_eq, includes, Except.forM_eq_ok_iff.mpr wellFormed.accepted⟩
  refine (compiles True).bind (compiles_lift translated) fun first second related => ?_
  have checked : (outcomes True).Relates Eq first.verify second.verify :=
    outcomes_of_eq_ok fun _ _ => ⟨(), related.2, rfl⟩
  exact (compiles True).bind (compiles_verified _ checked)
    fun _ _ accepted => (compiles True).pure ⟨related.1, accepted⟩

/-- The order of definitions makes no difference, and neither do further definitions.  Where a
program compiles, so does every program that has its definitions in any order and others that can be
translated, and both show the same.  Names are unique in a program that can be translated, so
nothing that the entry reaches calls what was added, be it recursive or not. -/
theorem Source.compile_ignores_order {program larger : Program} {stage : Stage} {options : Options}
    {artifact : Artifact} (parsed : source.program = .ok program)
    (reparsed : other.program = .ok larger) (extended : Dataflow.ExtendedBy other program larger)
    (late : stage ∈ [Stage.dataflow, Stage.loops, Stage.run])
    (optimizes : stage = .dataflow → options.optimize = true)
    (success : (source.compile stage options).outcome = .ok artifact) :
    ∃ another, (other.compile stage options).outcome = .ok another ∧
      ∀ ink, ∃ text, artifact.text ink = .ok text ∧ another.text ink = .ok text := by
  have read : (outcomes True).Relates (fun first second => first = program ∧ second = larger)
      source.program other.program := by
    rw [parsed, reparsed]
    exact outcomes_ok ⟨rfl, rfl⟩
  have translated (first second : Program) (same : first = program ∧ second = larger) :
      (compiles True).Relates (fun first second => first.Includes second ∧ first.verify = .ok ())
        (Compiler.dataflow options source first) (Compiler.dataflow options other second) := by
    obtain ⟨rfl, rfl⟩ := same
    exact Compiler.compiles_extendedBy options parsed reparsed extended
  have compiled := Compiler.compiles_artifact late read translated
    (fun _ _ includes => includes.inline options.entry)
    fun _ _ _ plain => absurd (optimizes plain.1) (Bool.eq_false_iff.mp plain.2)
  exact outcomes_eq_ok (outcomes_compile compiled) success

/-- Prints a row that another function doubles. -/
def Source.mainFirst : Source where
  contents := "def main() \x7b\n  print(double([1, 2]));\n\x7d\n\n" ++
    "def double(row) \x7b\n  return row + row;\n\x7d\n"
  origin := .memory

/-- Has the same functions in another order, and one that calls itself. -/
def Source.mainLast : Source where
  contents := "def forever(row) \x7b\n  return forever(row);\n\x7d\n\n" ++
    "def double(row) \x7b\n  return row + row;\n\x7d\n\n" ++
    "def main() \x7b\n  print(double([1, 2]));\n\x7d\n"
  origin := .memory

theorem Source.compile_ignores_order_mainLast :
    ∃ program larger artifact, mainFirst.program = .ok program ∧ mainLast.program = .ok larger ∧
      Dataflow.ExtendedBy mainLast program larger ∧
      (mainFirst.compile .run ⟨"main", true, false⟩).outcome = .ok artifact ∧
      ∃ another, (mainLast.compile .run ⟨"main", true, false⟩).outcome = .ok another ∧
        ∀ ink, ∃ text, artifact.text ink = .ok text ∧ another.text ink = .ok text := by
  have parsed : (mainFirst.program.toOption.bind fun program =>
      mainLast.program.toOption.filter fun larger =>
        List.Forall₂ (FunctionDefinition.Alike fun _ _ => True) program.functions
            (larger.functions.reverse.take 2) ∧
          (larger.functions.reverse.drop 2).all fun definition =>
            ((Dataflow.calleesOf mainLast larger).toOption.bind fun callees =>
              (Dataflow.Function.ofDefinition (.ofCallees mainLast callees)
                definition).toOption).isSome).isSome = true := by
    decide +kernel
  obtain ⟨larger, parsed⟩ := Option.isSome_iff_exists.mp parsed
  obtain ⟨program, program_eq, parsed⟩ := Option.bind_eq_some_iff.mp parsed
  obtain ⟨larger_eq, known⟩ := Option.filter_eq_some_iff.mp parsed
  obtain ⟨same, translates⟩ := of_decide_eq_true known
  have program_eq := Except.toOption_eq_some_iff.mp program_eq
  have larger_eq := Except.toOption_eq_some_iff.mp larger_eq
  have order : larger.functions.Perm
      (larger.functions.reverse.take 2 ++ larger.functions.reverse.drop 2) := by
    rw [List.take_append_drop]
    exact (List.reverse_perm _).symm
  have extended : Dataflow.ExtendedBy mainLast program larger := by
    refine ⟨_, _, same, order, fun definition member => ?_⟩
    obtain ⟨function, found⟩ :=
      Option.isSome_iff_exists.mp (List.all_eq_true.mp translates definition member)
    obtain ⟨callees, callees_eq, found⟩ := Option.bind_eq_some_iff.mp found
    exact ⟨callees, function, Except.toOption_eq_some_iff.mp callees_eq,
      Except.toOption_eq_some_iff.mp found⟩
  have compiled :
      (mainFirst.compile .run ⟨"main", true, false⟩).outcome.toOption.isSome = true := by
    decide +kernel
  obtain ⟨artifact, artifact_eq⟩ := Option.isSome_iff_exists.mp compiled
  have artifact_eq := Except.toOption_eq_some_iff.mp artifact_eq
  exact ⟨program, larger, artifact, program_eq, larger_eq, extended, artifact_eq,
    compile_ignores_order program_eq larger_eq extended (by decide) (by decide) artifact_eq⟩

end TensorLang
