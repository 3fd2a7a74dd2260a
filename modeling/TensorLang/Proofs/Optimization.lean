import TensorLang.Proofs.Dataflow.Sharing
import TensorLang.Proofs.Dataflow.Simplification
import TensorLang.Proofs.Recording

/-!
# Optimisation reduces

After the first inference each round takes a typed function to a typed function by reductions, and a
later inference has nothing to add.  Every round but the last lowers the weight of the function, so
the rounds come to an end within their bound.
-/

namespace TensorLang

namespace Dataflow

variable {function inferred : Function}

/-! ### Passes over a single function -/

namespace Module

theorem editAll_singleton (edit : Edit Nat) (function : Function) :
    editAll ⟨[function]⟩ edit = match edit function with
      | .ok count changed => (⟨[changed]⟩, .ok count)
      | .error failure changed => (⟨[changed]⟩, .error failure) := by
  rw [editAll, editFrom]
  cases edit function with
  | ok count changed => simp [editFrom]
  | error failure changed => rfl

private theorem editAll_eq_ok {edit : Edit Nat} {changed : Module} {count : Nat}
    (success : editAll ⟨[function]⟩ edit = (changed, .ok count)) :
    ∃ after, edit function = .ok count after ∧ changed = ⟨[after]⟩ := by
  rw [editAll_singleton] at success
  split at success
  · rename_i found after edit_eq
    obtain ⟨rfl, counts⟩ := Prod.mk.inj success
    obtain rfl := Except.ok.inj counts
    exact ⟨after, edit_eq, rfl⟩
  · cases (Prod.mk.inj success).2

theorem inferTypes_eq_ok {changed : Module}
    (success : inferTypes ⟨[function]⟩ = (changed, .ok ())) :
    ∃ after, Edit.inferTypes function = .ok () after ∧ changed = ⟨[after]⟩ := by
  rw [inferTypes] at success
  cases edited : editAll ⟨[function]⟩ (do Edit.inferTypes; return 0) with
  | mk inferred outcome =>
      simp only [edited] at success
      obtain ⟨rfl, mapped⟩ := Prod.mk.inj success
      cases outcome with
      | error failure => cases mapped
      | ok count =>
          obtain ⟨after, edit_eq, rfl⟩ := editAll_eq_ok edited
          obtain ⟨⟨⟩, middle, inferred_eq, done⟩ := EStateM.bind_eq_ok_iff.mp edit_eq
          obtain ⟨-, rfl⟩ := EStateM.pure_eq_ok_iff.mp done
          exact ⟨middle, inferred_eq, rfl⟩

theorem editAll_of_ok {edit : Edit Nat} {changed : Function} {count : Nat}
    (success : edit function = .ok count changed) :
    editAll ⟨[function]⟩ edit = (⟨[changed]⟩, .ok count) := by
  rw [editAll_singleton, success]

theorem inferTypes_of_ok (success : Edit.inferTypes function = .ok () inferred) :
    inferTypes ⟨[function]⟩ = (⟨[inferred]⟩, .ok ()) := by
  have counted : (do Edit.inferTypes; return 0 : Edit Nat) function = .ok 0 inferred :=
    EStateM.bind_eq_ok_iff.mpr ⟨(), inferred, success, rfl⟩
  rw [inferTypes, editAll_of_ok counted]
  rfl

theorem inferTypes_of_error {changed : Function} {failure : Failure}
    (failed : Edit.inferTypes function = .error failure changed) :
    inferTypes ⟨[function]⟩ = (⟨[changed]⟩, .error failure) := by
  have counted : (do Edit.inferTypes; return 0 : Edit Nat) function = .error failure changed := by
    simp only [bind, EStateM.bind, failed]
  rw [inferTypes, editAll_singleton, counted]
  rfl

theorem verify_of_verified (verified : function.Verified) : verify ⟨[function]⟩ = .ok () :=
  Except.forM_eq_ok_iff.mpr fun other member => by
    rw [List.mem_singleton.mp member]
    exact Function.verify_eq_ok_iff.mpr verified

end Module

end Dataflow

namespace Compiler

variable {options : Options} {before after : List Snapshot}

/-- The first round begins with an inference that succeeds. -/
theorem settle_eq_ok {bound : Nat} {module settled : Dataflow.Module}
    (success : settle options bound module before = .ok settled after) :
    ∃ inferred, module.inferTypes = (inferred, .ok ()) ∧ inferred.verify = .ok () := by
  cases bound with
  | zero => exact absurd success EStateM.throw_ne_ok
  | succ bound =>
      rw [settle] at success
      cases inferred_eq : module.inferTypes with
      | mk inferred outcome =>
          simp only [inferred_eq, EStateM.bind_eq_ok_iff, lift_eq_ok_iff] at success
          obtain ⟨⟨⟩, _, ⟨rfl, rfl⟩, ⟨⟩, _, accepted, -⟩ := success
          exact ⟨inferred, rfl, verified_eq_ok accepted⟩

section Rounds

variable {function inferred simplified shared : Dataflow.Function} {applied merged bound : Nat}
variable {alike : Dataflow.OperationKind → Dataflow.OperationKind → Prop}
variable {allowed : Dataflow.OperationKind → Prop}

theorem yields_settle_of_round (inferring : Dataflow.Edit.inferTypes function = .ok () inferred)
    (inferred_verified : inferred.Verified)
    (simplifying : Dataflow.Edit.simplify inferred = .ok applied simplified)
    (simplified_verified : simplified.Verified)
    (sharing : Dataflow.Edit.share simplified = .ok merged shared)
    (shared_verified : shared.Verified) {settled : Dataflow.Module}
    (rest : applied + merged = 0 ∧ settled = ⟨[shared]⟩ ∨ applied + merged ≠ 0 ∧
      Yields (settle options bound ⟨[shared]⟩) settled) :
    Yields (settle options (bound + 1) ⟨[function]⟩) settled := by
  have simplify_eq : Dataflow.Module.simplify ⟨[inferred]⟩ = (⟨[simplified]⟩, .ok applied) :=
    Dataflow.Module.editAll_of_ok simplifying
  have share_eq : Dataflow.Module.share ⟨[simplified]⟩ = (⟨[shared]⟩, .ok merged) :=
    Dataflow.Module.editAll_of_ok sharing
  simp only [settle, Dataflow.Module.inferTypes_of_ok inferring, simplify_eq, share_eq]
  refine .bind (.lift rfl) (.bind (yields_verified options "shape inference"
    (Dataflow.Module.verify_of_verified inferred_verified)) ?_)
  refine .bind (.lift rfl) (.bind (yields_verified options "simplification"
    (Dataflow.Module.verify_of_verified simplified_verified)) ?_)
  refine .bind (.lift rfl) (.bind (yields_verified options "common subexpression elimination"
    (Dataflow.Module.verify_of_verified shared_verified)) ?_)
  rcases rest with ⟨nothing, rfl⟩ | ⟨something, later⟩
  · rw [if_pos nothing]
    exact .pure _
  · rw [if_neg something]
    exact later

/-- Optimisation comes to an end within its bound, and all it does are reductions.  The last round
finds nothing to do. -/
theorem exists_settle (links : ∀ left right, alike left right → left.isLink = right.isLink)
    (exact : ∀ left right : Dataflow.OperationKind, allowed left → allowed right →
      left.agrees right = true → alike left right)
    (reshapable : Dataflow.Reshapable allowed)
    (inferring : Dataflow.Edit.inferTypes function = .ok () inferred)
    (verified : inferred.Verified) (proper : inferred.Proper) (typed : inferred.Typed)
    (among : inferred.Among allowed)
    {rank : Dataflow.ValueId → Nat} (ranks : Dataflow.Ranks rank inferred.code)
    (enough : Dataflow.weight rank inferred.code < bound) :
    ∃ count last, Dataflow.Reduces alike count inferred last ∧
      Dataflow.Edit.simplify last = .ok 0 last ∧ Dataflow.Edit.share last = .ok 0 last ∧
      Yields (settle options bound ⟨[function]⟩) ⟨[last]⟩ := by
  induction bound generalizing function inferred rank with
  | zero => exact absurd enough (Nat.not_lt_zero _)
  | succ bound induction =>
      obtain ⟨applied, simplified, simplifying, simplifies⟩ :=
        Dataflow.Simplification.exists_simplify links verified proper
      have simplified_verified := simplifies.verified verified
      obtain ⟨merged, shared, sharing, shares⟩ := Dataflow.Sharing.exists_share exact
        simplified_verified (proper.reduces simplifies) (among.reduces reshapable simplifies)
      have reduces := simplifies.trans shares
      have shared_verified := reduces.verified verified
      have shared_typed := typed.reduces reduces verified
      by_cases nothing : applied + merged = 0
      · have settles : Yields (settle options (bound + 1) ⟨[function]⟩) ⟨[shared]⟩ :=
          yields_settle_of_round inferring verified simplifying simplified_verified sharing
            shared_verified (.inl ⟨nothing, rfl⟩)
        obtain ⟨rfl, rfl⟩ : applied = 0 ∧ merged = 0 := by omega
        obtain rfl := simplifies.eq_of_zero
        obtain rfl := shares.eq_of_zero
        exact ⟨_, _, reduces, simplifying, sharing, settles⟩
      · obtain ⟨lower, lower_ranks, less⟩ := reduces.exists_ranks links verified ranks
        obtain ⟨count, last, others, simplifies_last, shares_last, later⟩ := induction
          (Dataflow.Inference.inferTypes_of_typed shared_verified.live shared_typed)
          shared_verified (proper.reduces reduces) shared_typed
          (among.reduces reshapable reduces) lower_ranks (by omega)
        exact ⟨_, last, reduces.trans others, simplifies_last, shares_last,
          yields_settle_of_round inferring verified simplifying simplified_verified sharing
            shared_verified (.inr ⟨nothing, later⟩)⟩

/-- Optimisation of a function whose types can be inferred. -/
theorem exists_settle_of_exact (options : Options)
    (links : ∀ left right, alike left right → left.isLink = right.isLink)
    (exact : ∀ left right : Dataflow.OperationKind, allowed left → allowed right →
      left.agrees right = true → alike left right)
    (reshapable : Dataflow.Reshapable allowed)
    (inferring : Dataflow.Edit.inferTypes function = .ok () inferred)
    (verified : inferred.Verified) (proper : inferred.Proper) (among : inferred.Among allowed) :
    ∃ count last, Dataflow.Reduces alike count inferred last ∧
      Dataflow.Edit.simplify last = .ok 0 last ∧ Dataflow.Edit.share last = .ok 0 last ∧
      Yields (settle options (roundBound ⟨[function]⟩) ⟨[function]⟩) ⟨[last]⟩ := by
  obtain ⟨refines, typed⟩ := Dataflow.Inference.inferTypes_eq_ok inferring
  obtain ⟨rank, ranks, bounded⟩ := verified.exists_ranks proper
  refine exists_settle links exact reshapable inferring verified proper typed among ranks
    (Nat.lt_succ_of_le ?_)
  rw [Dataflow.Simplification.applicationBound, refines.body] at bounded
  exact bounded

end Rounds

/-- Where no constant is negative, equal kinds are the same. -/
theorem exists_settle_roundBound (options : Options) {function inferred : Dataflow.Function}
    (inferring : Dataflow.Edit.inferTypes function = .ok () inferred)
    (verified : inferred.Verified) (proper : inferred.Proper)
    (unsigned : inferred.Among Dataflow.OperationKind.Unsigned) :
    ∃ count last, Dataflow.Reduces Eq count inferred last ∧
      Dataflow.Edit.simplify last = .ok 0 last ∧ Dataflow.Edit.share last = .ok 0 last ∧
      Yields (settle options (roundBound ⟨[function]⟩) ⟨[function]⟩) ⟨[last]⟩ :=
  exists_settle_of_exact options (fun _ _ => congrArg Dataflow.OperationKind.isLink)
    (fun _ _ left right agrees => Dataflow.OperationKind.eq_of_agrees agrees left right)
    Dataflow.OperationKind.reshapable_unsigned inferring verified proper unsigned

theorem yields_optimized {options : Options} {module inlined settled : Dataflow.Module}
    (inlining : module.inline options.entry = .ok inlined) (accepted : inlined.verify = .ok ())
    (settles : Yields (settle options (roundBound inlined) inlined) settled) :
    Yields (optimized options module) settled :=
  .bind (.lift inlining) (.bind (yields_verified options "inlining" accepted) settles)

end Compiler

end TensorLang
