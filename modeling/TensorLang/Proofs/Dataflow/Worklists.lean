import TensorLang.Proofs.Dataflow.NormalForm

/-!
# Worklists miss nothing

Whether a rule fits an operation depends on the operation, on the kind of what defines its operand,
on types, and on whether its results are used.  A rewrite leaves all of this as it was, except for
the operations that it gives back and for those that define what the replaced operation read, and
these return to the worklist.  So at any time every operation that a rule fits is on the worklist,
and simplification ends where no rule fits any operation.
-/

namespace TensorLang

namespace Dataflow

variable {alike : OperationKind → OperationKind → Prop} {function changed : Function}

namespace Function

theorem Recorded.definer?_of_argument (recorded : function.Recorded) {id : ValueId}
    (argument : id ∈ function.arguments) : function.definer? id = .ok none := by
  obtain ⟨position, found⟩ := List.mem_iff_getElem?.mp argument
  obtain ⟨value, value_eq, defined⟩ :=
    Option.map_eq_some_iff.mp (recorded.argumentsDefined position id found)
  rw [definer?]
  refine Except.bind_eq_ok_iff.mpr ⟨value, value_eq_ok_iff.mpr value_eq, ?_⟩
  rw [defined]
  rfl

/-! ### What a replacement leaves as it was -/

namespace Spot

variable {spot : function.Spot} {replacement : Replacement} {other : Operation}

/-- No other operation defines the result. -/
theorem result_notMem_results (verified : function.Verified)
    (member : other ∈ spot.front ∨ other ∈ spot.back) : spot.result ∉ other.results :=
  verified.wellFormed.result_notMem_results spot.code_eq spot.defines member

/-- Nothing defines the result once its operation is replaced. -/
theorem Replaced.result_undefined (replaced : spot.Replaced replacement changed)
    (verified : function.Verified) (member : other ∈ changed.code) :
    spot.result ∉ other.results := by
  rcases replaced.mem_code member with earlier | made | ⟨before, before_mem, rfl⟩
  · exact result_notMem_results verified (.inl earlier)
  · intro defines
    have inside := verified.lt_size_of_result spot.mem_code spot.defines
    cases replacement with
    | value => cases made
    | made =>
        rw [List.mem_singleton.mp made] at defines
        exact Nat.not_lt.mpr (mem_freshValues.mp defines).1 inside
  · change spot.result ∉ before.results
    exact result_notMem_results verified (.inr before_mem)

private theorem Replaced.result_unread (replaced : spot.Replaced replacement changed)
    (verified : function.Verified) (member : other ∈ changed.code) :
    spot.result ∉ other.operands := by
  intro reads
  have available := replaced.verified.dominated.operand_mem member reads
  rw [replaced.extension.arguments] at available
  rcases List.mem_append.mp available with argument | result
  · apply verified.argument_notMem argument
    exact List.mem_flatMap.mpr ⟨_, spot.mem_code, spot.defines⟩
  · obtain ⟨definer, definer_mem, defines⟩ := List.mem_flatMap.mp result
    exact replaced.result_undefined verified definer_mem defines

/-- Every other operation stays, though it may read something else. -/
theorem Replaced.exists_mem_code (replaced : spot.Replaced replacement changed)
    (member : other ∈ function.code) (apart : other ≠ spot.operation) :
    ∃ after ∈ changed.code, after = other ∨
      after = other.redirected spot.result (replacement.target function) := by
  rw [spot.code_eq, List.mem_append, List.mem_cons] at member
  rw [replaced.code_eq]
  rcases member with earlier | same | later
  · exact ⟨other, List.mem_append_left _ (List.mem_append_left _ earlier), .inl rfl⟩
  · exact absurd same apart
  · exact ⟨_, List.mem_append_right _ (List.mem_map_of_mem later), .inr rfl⟩

private theorem Replaced.exists_definers (replaced : spot.Replaced replacement changed)
    (verified : function.Verified) (old : other ∈ function.code) (kept : other ∈ changed.code)
    {operand : ValueId} (reads : operand ∈ other.operands) :
    ∃ before? after?, function.definer? operand = .ok before? ∧
      changed.definer? operand = .ok after? ∧
      after?.map Operation.kind = before?.map Operation.kind := by
  rcases List.mem_append.mp (verified.dominated.operand_mem old reads) with argument | result
  · refine ⟨none, none, verified.toRecorded.definer?_of_argument argument,
      replaced.verified.toRecorded.definer?_of_argument ?_, rfl⟩
    rwa [replaced.extension.arguments]
  · obtain ⟨definer, definer_mem, defines⟩ := List.mem_flatMap.mp result
    have apart : definer ≠ spot.operation := by
      rintro rfl
      rw [spot.results_eq, List.mem_singleton] at defines
      exact replaced.result_unread verified kept (defines ▸ reads)
    have before_eq := verified.toRecorded.definer?_of_mem definer_mem defines
    obtain ⟨after, after_mem, rfl | rfl⟩ := replaced.exists_mem_code definer_mem apart
    · exact ⟨_, _, before_eq, replaced.verified.toRecorded.definer?_of_mem after_mem defines, rfl⟩
    · exact ⟨_, _, before_eq, replaced.verified.toRecorded.definer?_of_mem after_mem defines, rfl⟩

/-- Unless the replaced operation read it, what was used is used. -/
theorem Replaced.isUsed (replaced : spot.Replaced replacement changed)
    (verified : function.Verified) {id : ValueId} (apart : id ≠ spot.result)
    (unread : id ∉ spot.operation.operands) (used : function.isUsed id = true) :
    changed.isUsed id = true := by
  have users : function.usersOf id ≠ [] := by simpa [Function.isUsed] using used
  obtain ⟨user, uses⟩ := List.exists_mem_of_ne_nil _ users
  obtain ⟨reader, reader_mem, reads, -⟩ :=
    mem_readers_iff.mp ((verified.users id).mem_iff.mp uses)
  have others : reader ≠ spot.operation := fun same => unread (same ▸ reads)
  have still : ∃ after ∈ changed.code, id ∈ after.operands := by
    obtain ⟨after, after_mem, rfl | rfl⟩ := replaced.exists_mem_code reader_mem others
    · exact ⟨after, after_mem, reads⟩
    · exact ⟨_, after_mem, List.mem_map.mpr ⟨id, reads, if_neg apart⟩⟩
  obtain ⟨after, after_mem, after_reads⟩ := still
  have listed : after.id ∈ changed.usersOf id := (replaced.verified.users id).mem_iff.mpr
    (mem_readers_iff.mpr ⟨after, after_mem, after_reads, rfl⟩)
  have nonempty : changed.usersOf id ≠ [] := List.ne_nil_of_mem listed
  simpa [Function.isUsed] using nonempty

end Spot

end Function

namespace Simplification

variable {spot : function.Spot} {replacement : Replacement} {other : Operation}
variable {id : OperationId} {worklist touched : List OperationId}

/-! ### Operations that no rule fits -/

/-- No rule applies to the operation. -/
def Quiet (function : Function) (operation : Operation) : Prop :=
  ∀ rule : SimplificationRule, rule.applies function operation = .ok false

theorem quiet_iff : Quiet function other ↔ SimplificationRule.first? function other = .ok none := by
  rw [SimplificationRule.first?, Except.findM?_eq_none_iff]
  exact ⟨fun quiet rule _ => quiet rule, fun fails rule => fails rule (by cases rule <;> decide)⟩

private theorem exists_operandDefinitions (replaced : spot.Replaced replacement changed)
    (verified : function.Verified) (old : other ∈ function.code) (kept : other ∈ changed.code) :
    ∃ before? after?, SimplificationRule.operandDefinition? function other = .ok before? ∧
      SimplificationRule.operandDefinition? changed other = .ok after? ∧
      after?.map Operation.kind = before?.map Operation.kind := by
  simp only [SimplificationRule.operandDefinition?]
  split
  · rename_i operand only
    apply replaced.exists_definers verified old kept
    rw [Operation.onlyOperand?_eq_some_iff.mp only]
    exact List.mem_singleton_self _
  · exact ⟨none, none, rfl, rfl, rfl⟩

private theorem keepsType_of_replaced (replaced : spot.Replaced replacement changed)
    (verified : function.Verified) (old : other ∈ function.code) :
    SimplificationRule.keepsType changed other = SimplificationRule.keepsType function other := by
  simp only [SimplificationRule.keepsType]
  split
  · rename_i operand result operands_eq results_eq
    have operand_type := replaced.extension.typeOf
      (verified.lt_size_of_operand old (by simp [operands_eq] : operand ∈ other.operands))
    have result_type := replaced.extension.typeOf
      (verified.lt_size_of_result old (by simp [results_eq] : result ∈ other.results))
    rw [operand_type, result_type]
  · rfl

/-- A replacement makes no rule fit an operation that it leaves as it was, unless the operation
defines what the replaced one read. -/
theorem Quiet.replaced (quiet : Quiet function other) (replaced : spot.Replaced replacement changed)
    (verified : function.Verified) (old : other ∈ function.code) (kept : other ∈ changed.code)
    (apart : ∀ operand ∈ spot.operation.operands, operand ∉ other.results) :
    Quiet changed other := by
  obtain ⟨before?, after?, before_eq, after_eq, kinds⟩ :=
    exists_operandDefinitions replaced verified old kept
  have literals : (after?.bind fun inner => inner.kind.literal?) =
      before?.bind fun inner => inner.kind.literal? := by
    cases before? <;> cases after? <;> simp_all
  have targets : (after?.any fun inner => inner.kind.reshapeTarget?.isSome) =
      before?.any fun inner => inner.kind.reshapeTarget?.isSome := by
    cases before? <;> cases after? <;> simp_all
  have keeps := keepsType_of_replaced replaced verified old
  intro rule
  have fails := quiet rule
  cases rule with
  | deadOperation =>
      have fails := Except.pure_eq_ok_iff.mp fails
      refine Except.pure_eq_ok_iff.mpr ?_
      cases effects : other.kind.hasEffects with
      | true => rfl
      | false =>
          rw [effects, Bool.not_false, Bool.true_and, List.all_eq_false] at fails
          obtain ⟨result, defines, used⟩ := fails
          have used : function.isUsed result = true := by simpa using used
          have still := replaced.isUsed verified
            (fun same => replaced.result_undefined verified kept (same ▸ defines))
            (fun reads => apart result reads defines) used
          rw [Bool.not_false, Bool.true_and, List.all_eq_false]
          exact ⟨result, defines, by simp [still]⟩
  | redundantCast =>
      rw [SimplificationRule.applies] at fails ⊢
      rwa [keeps]
  | redundantReshape =>
      simp only [SimplificationRule.applies] at fails ⊢
      cases target : other.kind.reshapeTarget? <;> simp_all
  | reshapeOfConstant | reshapeOfReshape =>
      simp only [SimplificationRule.applies, before_eq, after_eq] at fails ⊢
      cases target : other.kind.reshapeTarget? with
      | none => rfl
      | some shape =>
          simp only [target, bind, Except.bind, literals, targets] at fails ⊢
          exact fails

/-! ### Steps -/

/-- Every operation that a rule fits is on the worklist. -/
def Covers (worklist : List OperationId) (function : Function) : Prop :=
  ∀ operation ∈ function.code, operation.id ∈ worklist ∨ Quiet function operation

theorem Covers.idle (covers : Covers [] function) : Idle function :=
  fun operation member => (covers operation member).resolve_left List.not_mem_nil

private theorem step_eq_some (stepped : step id function = .ok (some touched) changed) :
    ∃ operation rule definitions given, function.operation? id = some operation ∧
      SimplificationRule.first? function operation = .ok (some rule) ∧
      operation.operands.mapM function.definer? = .ok definitions ∧
      SimplificationRule.apply rule id function = .ok given changed ∧
      touched = given ++ definitions.filterMap fun definition? => definition?.map Operation.id := by
  simp only [step, EStateM.bind_eq_ok_iff, EStateM.get_eq_ok_iff] at stepped
  obtain ⟨_, _, ⟨rfl, rfl⟩, stepped⟩ := stepped
  cases found : function.operation? id with
  | none =>
      simp only [found] at stepped
      cases (EStateM.pure_eq_ok_iff.mp stepped).1
  | some operation =>
      simp only [found, EStateM.bind_eq_ok_iff, Edit.query_eq_ok_iff] at stepped
      obtain ⟨rule?, _, ⟨first_eq, rfl⟩, stepped⟩ := stepped
      cases rule? with
      | none => cases (EStateM.pure_eq_ok_iff.mp stepped).1
      | some rule =>
          simp only [EStateM.bind_eq_ok_iff, Edit.query_eq_ok_iff,
            EStateM.pure_eq_ok_iff] at stepped
          obtain ⟨definitions, _, ⟨definitions_eq, rfl⟩, given, _, applied, same, rfl⟩ := stepped
          exact ⟨operation, rule, definitions, given, rfl, first_eq, definitions_eq, applied,
            (Option.some.inj same).symm⟩

/-- What a step puts back on the worklist is all that a rule may fit now. -/
theorem Covers.step (covers : Covers (id :: worklist) function) (verified : function.Verified)
    (proper : function.Proper) (listed : ¬ function.Stray id)
    (stepped : step id function = .ok (some touched) changed) :
    Covers (enqueue worklist touched) changed := by
  obtain ⟨operation, rule, definitions, given, found, first_eq, definitions_eq, applied, rfl⟩ :=
    step_eq_some stepped
  have id_mem : id ∈ function.body :=
    Decidable.not_not.mp fun unlisted => listed ⟨by rw [found]; rfl, unlisted⟩
  obtain ⟨known, known_eq, rfl⟩ := verified.live id id_mem
  obtain rfl := Option.some.inj (found.symm.trans known_eq)
  have fits := (Except.findM?_eq_some first_eq).2
  have pure : operation.kind.hasEffects = false := by
    refine (Bool.not_eq_true _).mp fun effects => ?_
    cases (SimplificationRule.first?_of_hasEffects effects).symm.trans first_eq
  obtain ⟨spot, rfl⟩ := Function.Spot.exists_of_mem proper
    (Function.mem_code_iff.mpr ⟨_, id_mem, found⟩) pure
  obtain ⟨replacement, -, _, _, applied', replaced, -, fresh⟩ :=
    SimplificationRule.replaces_of_applies Eq verified proper fits
  obtain ⟨rfl, rfl⟩ := EStateM.Result.ok.inj (applied.symm.trans applied')
  intro other kept
  rw [mem_enqueue, List.mem_append]
  rcases fresh other kept with one | old
  · exact .inl (.inr (.inl one))
  by_cases around : ∃ operand ∈ spot.operation.operands, operand ∈ other.results
  · obtain ⟨operand, reads, defines⟩ := around
    have definer_eq := verified.toRecorded.definer?_of_mem old defines
    have listed : Except.ok (some other) ∈ definitions.map (Except.ok (ε := Failure)) := by
      rw [← Except.mapM_eq_ok_iff.mp definitions_eq]
      exact List.mem_map.mpr ⟨operand, reads, definer_eq⟩
    obtain ⟨_, definition_mem, same⟩ := List.mem_map.mp listed
    rw [Except.ok.inj same] at definition_mem
    exact .inl (.inr (.inr (List.mem_filterMap.mpr ⟨_, definition_mem, rfl⟩)))
  · have apart : ∀ operand ∈ spot.operation.operands, operand ∉ other.results :=
      fun operand reads defines => around ⟨operand, reads, defines⟩
    rcases covers other old with waits | quiet
    · rcases List.mem_cons.mp waits with same | later
      · obtain rfl := Option.some.inj (found.symm.trans
          (same ▸ verified.toRecorded.operation?_of_mem old))
        exact absurd spot.defines (replaced.result_undefined verified kept)
      · exact .inl (.inl later)
    · exact .inr (quiet.replaced replaced verified old kept apart)

/-- An operation at which a step finds nothing to do need not wait. -/
theorem Covers.skip (covers : Covers (id :: worklist) function) (verified : function.Verified)
    (stepped : Simplification.step id function = .ok none changed) : Covers worklist function := by
  intro other member
  rcases covers other member with waits | quiet
  · rcases List.mem_cons.mp waits with rfl | later
    · exact .inr (quiet_iff.mpr ((step_eq_none stepped).2 other
        (verified.toRecorded.operation?_of_mem member)))
    · exact .inl later
  · exact .inr quiet

/-! ### Runs -/

/-- Working through a worklist keeps it complete. -/
theorem Covers.advance? (covers : Covers worklist function) (verified : function.Verified)
    (proper : function.Proper) (listed : ∀ id ∈ worklist, ¬ function.Stray id)
    {rest? : Option (List OperationId)}
    (advanced : Simplification.advance? worklist function = .ok rest? changed) :
    (rest? = none → Idle function ∧ changed = function) ∧
      ∀ rest, rest? = some rest → Covers rest changed := by
  induction worklist with
  | nil =>
      obtain ⟨rfl, rfl⟩ := EStateM.pure_eq_ok_iff.mp advanced
      exact ⟨fun _ => ⟨covers.idle, rfl⟩, by simp⟩
  | cons id worklist induction =>
      rw [List.forall_mem_cons] at listed
      rw [Simplification.advance?, EStateM.bind_eq_ok_iff] at advanced
      obtain ⟨touched?, _, stepped, advanced⟩ := advanced
      cases touched? with
      | none =>
          obtain rfl := (step_eq_none stepped).1
          exact induction (covers.skip verified stepped) listed.2 advanced
      | some touched =>
          obtain ⟨rfl, rfl⟩ := EStateM.pure_eq_ok_iff.mp advanced
          refine ⟨by simp, ?_⟩
          rintro _ ⟨⟩
          exact covers.step verified proper listed.1 stepped

/-- A run ends where no rule fits any operation. -/
theorem Covers.run (covers : Covers worklist function) (verified : function.Verified)
    (proper : function.Proper) (listed : ∀ id ∈ worklist, ¬ function.Stray id)
    {budget applied total : Nat}
    (ran : Simplification.run budget applied worklist function = .ok total changed) :
    Idle changed := by
  induction budget generalizing function applied worklist with
  | zero =>
      rw [Simplification.run, EStateM.bind_eq_ok_iff] at ran
      obtain ⟨rest?, _, advanced, ran⟩ := ran
      cases rest? with
      | none =>
          obtain ⟨rfl, rfl⟩ := EStateM.pure_eq_ok_iff.mp ran
          obtain ⟨idle, rfl⟩ := (covers.advance? verified proper listed advanced).1 rfl
          exact idle
      | some rest => exact absurd ran EStateM.throw_ne_ok
  | succ budget induction =>
      rw [Simplification.run, EStateM.bind_eq_ok_iff] at ran
      obtain ⟨rest?, _, advanced, ran⟩ := ran
      have kept := covers.advance? verified proper listed advanced
      rcases exists_advance? Eq verified proper listed with
        ends | ⟨rest, middle, advanced', reduction, listed⟩
      · obtain ⟨rfl, rfl⟩ := EStateM.Result.ok.inj (advanced.symm.trans ends)
        obtain ⟨rfl, rfl⟩ := EStateM.pure_eq_ok_iff.mp ran
        exact (kept.1 rfl).1
      · obtain ⟨rfl, rfl⟩ := EStateM.Result.ok.inj (advanced.symm.trans advanced')
        exact induction (kept.2 rest rfl) ((Reduces.single reduction).verified verified)
          (proper.reduction reduction) listed ran

theorem simplify_of_idle (verified : function.Verified) (idle : Idle function) :
    Edit.simplify function = .ok 0 function := by
  have steps : ∀ id ∈ enqueue [] function.body, step id function = .ok none function := by
    intro id listed
    obtain ⟨operation, found, rfl⟩ :=
      verified.live id ((mem_enqueue.mp listed).resolve_left List.not_mem_nil)
    have member : operation ∈ function.code :=
      Function.mem_code_iff.mpr ⟨_, (mem_enqueue.mp listed).resolve_left List.not_mem_nil, found⟩
    exact step_of_first?_none found (quiet_iff.mp (idle operation member))
  have advanced : advance? (enqueue [] function.body) function = .ok none function := by
    generalize enqueue [] function.body = worklist at steps
    induction worklist with
    | nil => rfl
    | cons id worklist induction =>
        rw [List.forall_mem_cons] at steps
        rw [advance?]
        exact EStateM.bind_eq_ok_iff.mpr ⟨none, function, steps.1, induction steps.2⟩
  refine EStateM.bind_eq_ok_iff.mpr ⟨function, function, rfl, ?_⟩
  rw [run]
  exact EStateM.bind_eq_ok_iff.mpr ⟨none, function, advanced, rfl⟩

/-! ### Counts -/

theorem stray_of_reduces {count : Nat} (reduces : Reduces alike count function changed)
    {id : OperationId} (stray : changed.Stray id) : function.Stray id := by
  induction reduces with
  | refl => exact stray
  | step first _ induction =>
      obtain ⟨_, _, _, replaced⟩ := first
      exact replaced.strays id (induction stray)

private theorem undefined_of_reduces {count : Nat} (reduces : Reduces alike count function changed)
    {value : ValueId} (inside : value.index < function.values.size)
    (undefined : ∀ other ∈ function.code, value ∉ other.results) :
    ∀ other ∈ changed.code, value ∉ other.results := by
  induction reduces with
  | refl => exact undefined
  | step first _ induction =>
      obtain ⟨spot, replacement, -, replaced⟩ := first
      apply induction (Nat.lt_of_lt_of_le inside replaced.extension.size)
      intro other member defines
      rcases replaced.mem_code member with earlier | made | ⟨original, original_mem, rfl⟩
      · exact undefined other (spot.front_subset earlier) defines
      · cases replacement with
        | value => cases made
        | made =>
            rw [List.mem_singleton.mp made] at defines
            exact Nat.not_lt.mpr (Function.mem_freshValues.mp defines).1 inside
      · exact undefined original (spot.back_subset original_mem) defines

private theorem body_ne_of_reduces {count : Nat} (verified : function.Verified)
    (reduces : Reduces alike (count + 1) function changed) : changed.body ≠ function.body := by
  intro same
  have changed_verified := reduces.verified verified
  have extension := reduces.extension
  cases reduces with
  | step first rest =>
      obtain ⟨spot, replacement, -, replaced⟩ := first
      have inside := verified.lt_size_of_result spot.mem_code spot.defines
      have undefined := undefined_of_reduces rest
        (Nat.lt_of_lt_of_le inside replaced.extension.size)
        fun other => replaced.result_undefined verified
      have listed : spot.operation.id ∈ changed.body := by
        rw [same, Function.body_eq_code verified.live]
        exact List.mem_map_of_mem spot.mem_code
      obtain ⟨operation, found, -⟩ := changed_verified.live _ listed
      obtain ⟨value, value_eq, defined⟩ := Option.map_eq_some_iff.mp
        (verified.resultsDefined spot.operation spot.mem_code 0 spot.result
          (by rw [spot.results_eq]; rfl))
      rw [← extension.values _ inside] at value_eq
      obtain ⟨entry, entry_eq, keeps⟩ := changed.coherent _ value _ 0 value_eq defined
      have entry_some : entry = some operation := by
        rwa [Function.operation?, entry_eq, Option.join_some] at found
      exact undefined operation (Function.mem_code_iff.mpr ⟨_, listed, found⟩)
        (List.mem_of_getElem? (keeps operation entry_some))

end Simplification

namespace Function

/-- Simplification comes to an end where no rule fits any operation: doing it again applies nothing
and changes nothing.  It has applied nothing just if the body is what it was, and no operation is
left behind outside of the body. -/
theorem simplify_exhausts_rules (accepted : function.verify = .ok ()) (proper : function.Proper) :
    ∃ count simplified, Edit.simplify function = .ok count simplified ∧
      (∀ operation ∈ simplified.code, ∀ rule : SimplificationRule,
        rule.applies simplified operation = .ok false) ∧
      (∀ id, (simplified.operation? id).isSome → id ∉ simplified.body →
        (function.operation? id).isSome ∧ id ∉ function.body) ∧
      Edit.simplify simplified = .ok 0 simplified ∧
      (count = 0 → simplified = function) ∧
      (count = 0 ↔ simplified.body = function.body) := by
  have verified := verify_eq_ok_iff.mp accepted
  have links : ∀ left right : OperationKind, left = right → left.isLink = right.isLink :=
    fun _ _ => congrArg OperationKind.isLink
  obtain ⟨count, simplified, simplifies, reduces⟩ :=
    Simplification.exists_simplify links verified proper
  have ran := simplifies
  rw [Edit.simplify, EStateM.bind_eq_ok_iff] at ran
  obtain ⟨_, _, found, ran⟩ := ran
  obtain ⟨rfl, rfl⟩ := EStateM.get_eq_ok_iff.mp found
  have covers : Simplification.Covers (Simplification.enqueue [] function.body) function := by
    intro operation member
    refine .inl (Simplification.mem_enqueue.mpr (.inr ?_))
    rw [body_eq_code verified.live]
    exact List.mem_map_of_mem member
  have idle := covers.run verified proper (fun id member =>
    not_stray_of_mem ((Simplification.mem_enqueue.mp member).resolve_left List.not_mem_nil)) ran
  have again := Simplification.simplify_of_idle (reduces.verified verified) idle
  refine ⟨count, simplified, simplifies, idle, fun id live unlisted =>
    Simplification.stray_of_reduces reduces ⟨live, unlisted⟩, again, fun none_applied => ?_,
    fun none_applied => ?_, fun same => ?_⟩
  · subst none_applied
    exact reduces.eq_of_zero
  · subst none_applied
    rw [reduces.eq_of_zero]
  · cases count with
    | zero => rfl
    | succ count => exact absurd same (Simplification.body_ne_of_reduces verified reduces)

theorem simplify_exhausts_rules_layingOutColumn :
    layingOutColumn.verify = .ok () ∧ layingOutColumn.Proper ∧
      ∃ simplified, Edit.simplify layingOutColumn = .ok 1 simplified ∧
        layingOutColumn.body = [⟨0⟩, ⟨1⟩, ⟨2⟩, ⟨3⟩, ⟨4⟩] ∧
        simplified.body = [⟨0⟩, ⟨5⟩, ⟨2⟩, ⟨3⟩, ⟨4⟩] ∧
        Edit.simplify simplified = .ok 0 simplified := by
  have accepted : layingOutColumn.verify = .ok () := by rfl
  have proper : layingOutColumn.Proper := by decide
  obtain ⟨count, simplified, simplifies, -, -, again, -⟩ := simplify_exhausts_rules accepted proper
  have count_eq : (Edit.simplify.outcome layingOutColumn).2.toOption = some 1 := by
    decide +kernel
  have body_eq : (Edit.simplify.outcome layingOutColumn).1.body = [⟨0⟩, ⟨5⟩, ⟨2⟩, ⟨3⟩, ⟨4⟩] := by
    decide +kernel
  rw [Edit.outcome, simplifies] at count_eq body_eq
  obtain rfl := Option.some.inj count_eq
  exact ⟨accepted, proper, simplified, simplifies, by decide, body_eq, again⟩

end Function

end Dataflow

end TensorLang
