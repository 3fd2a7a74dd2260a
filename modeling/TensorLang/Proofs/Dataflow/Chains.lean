import Mathlib.Algebra.GroupWithZero.Nat
import TensorLang.Dataflow.Simplification
import TensorLang.Proofs.Dataflow.Reductions

/-!
# Chains of reshapes and casts

Reductions come to an end.  A ranking bounds, for every value, the number of reshapes and casts in a
row that it comes out of.  The weight of a function counts its operations together with the ranks of
their results, and each reduction lowers it: it takes out an operation, or it puts one of a lower
rank in its place.  The positions in the body are a ranking, so there are no more reductions than
their sum.
-/

namespace TensorLang

namespace Dataflow

/-- Whether the elements of the operand are passed on as they are. -/
def OperationKind.isLink : OperationKind → Bool
  | reshape _ | cast => true
  | constant _ | add | multiply | matmul | transpose | call _ | leave | print => false

/-- Number of reshapes and casts in a row that end with the operation, for those of its operands. -/
def Operation.links (rank : ValueId → Nat) (operation : Operation) : Nat :=
  if operation.kind.isLink then 1 + (operation.operands.map rank).sum else 0

/-- No chain of reshapes and casts is longer than the rank of the value that comes out of it. -/
def Ranks (rank : ValueId → Nat) (code : List Operation) : Prop :=
  ∀ operation ∈ code, ∀ result ∈ operation.results, operation.links rank ≤ rank result

/-- Number of operations and the ranks of their results, all together. -/
def weight (rank : ValueId → Nat) (code : List Operation) : Nat :=
  (code.map fun operation => 1 + (operation.results.map rank).sum).sum

variable {rank lower : ValueId → Nat} {code front back : List Operation}

theorem weight_append : weight rank (front ++ back) = weight rank front + weight rank back := by
  rw [weight, List.map_append, List.sum_append]
  rfl

theorem weight_cons (operation : Operation) :
    weight rank (operation :: code) =
      1 + (operation.results.map rank).sum + weight rank code := by
  rw [weight, List.map_cons, List.sum_cons]
  rfl

theorem sum_map_le {ids : List ValueId} (below : ∀ id ∈ ids, lower id ≤ rank id) :
    (ids.map lower).sum ≤ (ids.map rank).sum := by
  induction ids with
  | nil => exact Nat.le_refl _
  | cons id rest induction =>
      rw [List.map_cons, List.map_cons, List.sum_cons, List.sum_cons]
      exact Nat.add_le_add (below id List.mem_cons_self)
        (induction fun other member => below other (List.mem_cons_of_mem _ member))

theorem weight_mono
    (below : ∀ operation ∈ code, ∀ result ∈ operation.results, lower result ≤ rank result) :
    weight lower code ≤ weight rank code := by
  induction code with
  | nil => exact Nat.le_refl _
  | cons operation rest induction =>
      rw [weight_cons, weight_cons]
      exact Nat.add_le_add
        (Nat.add_le_add_left (sum_map_le (below operation List.mem_cons_self)) 1)
        (induction fun other member => below other (List.mem_cons_of_mem _ member))

theorem weight_le (results : ∀ operation ∈ code, operation.results.length ≤ 1) {depth : Nat}
    (bounded : ∀ id, rank id ≤ depth) : weight rank code ≤ code.length * (depth + 1) := by
  induction code with
  | nil => exact Nat.zero_le _
  | cons operation rest induction =>
      rw [List.forall_mem_cons] at results
      have first : (operation.results.map rank).sum ≤ depth := by
        cases results_eq : operation.results with
        | nil => exact Nat.zero_le _
        | cons result others =>
            rw [results_eq, List.length_cons] at results
            obtain rfl := List.length_eq_zero_iff.mp
              (Nat.le_zero.mp (Nat.le_of_succ_le_succ results.1))
            exact bounded result
      rw [weight_cons, List.length_cons, Nat.succ_mul, Nat.add_comm, Nat.add_comm 1]
      exact Nat.add_le_add (induction results.2) (Nat.add_le_add_right first 1)

theorem weight_map_reading (change : ValueId → ValueId) :
    weight rank (code.map (Operation.reading change)) = weight rank code := by
  rw [weight, List.map_map]
  rfl

theorem Operation.links_mono {operation : Operation}
    (below : ∀ operand ∈ operation.operands, lower operand ≤ rank operand) :
    operation.links lower ≤ operation.links rank := by
  rw [links, links]
  split
  · exact Nat.add_le_add_left (sum_map_le below) 1
  · exact Nat.le_refl _

private theorem Operation.links_reading_le {operation : Operation} {change : ValueId → ValueId}
    (below : ∀ operand ∈ operation.operands, lower (change operand) ≤ rank operand) :
    (operation.reading change).links lower ≤ operation.links rank := by
  have moved : (operation.reading change).links lower =
      operation.links (lower ∘ change) := by
    rw [links, links, reading, List.map_map]
  rw [moved]
  exact links_mono below

theorem Operation.links_of_isLink {operation : Operation} {operand : ValueId}
    (link : operation.kind.isLink = true) (operands_eq : operation.operands = [operand]) :
    operation.links rank = 1 + rank operand := by
  rw [links, if_pos link, operands_eq]
  rfl

theorem Operation.Proper.links_le {operation : Operation} (proper : operation.Proper) {depth : Nat}
    (bounded : ∀ operand ∈ operation.operands, rank operand ≤ depth) :
    operation.links rank ≤ depth + 1 := by
  by_cases link : operation.kind.isLink = true
  · have count : operation.operands.length = 1 := proper.operands 1 (by
      cases kind_eq : operation.kind <;> first | rfl | simp [kind_eq, OperationKind.isLink] at link)
    obtain ⟨operand, operands_eq⟩ := List.length_eq_one_iff.mp count
    rw [links_of_isLink link operands_eq, Nat.add_comm]
    exact Nat.add_le_add_right (bounded operand (by simp [operands_eq])) 1
  · rw [links, if_neg link]
    exact Nat.zero_le _

theorem Operation.links_congr (rank : ValueId → Nat) {operation other : Operation}
    (same : other.kind.isLink = operation.kind.isLink)
    (operands_eq : other.operands = operation.operands) :
    other.links rank = operation.links rank := by
  rw [links, links, same, operands_eq]

/-! ### Reductions lower the weight -/

namespace Function.Spot

variable {alike : OperationKind → OperationKind → Prop} {function changed : Function}
variable {spot : function.Spot} {replacement : Replacement}

/-- The ranks of old values may be lowered as far as their chains allow, and those of new values are
free, as long as a new operation weighs less than the one that it replaces. -/
theorem Replaced.ranks (replaced : spot.Replaced replacement changed)
    (verified : function.Verified)
    (below : ∀ id : ValueId, id.index < function.values.size → lower id ≤ rank id)
    (capped : ∀ operation ∈ function.code, ∀ result ∈ operation.results,
      operation.links rank ≤ lower result)
    (target : lower (replacement.target function) ≤ rank spot.result)
    (new : Ranks lower (replacement.operations function spot.operation.location))
    (new_weight : weight lower (replacement.operations function spot.operation.location) ≤
      rank spot.result) :
    Ranks lower changed.code ∧ weight lower changed.code < weight rank function.code := by
  constructor
  · intro operation member result defines
    rcases replaced.mem_code member with earlier | made | ⟨before, before_mem, rfl⟩
    · have old := spot.front_subset earlier
      exact Nat.le_trans
        (Operation.links_mono fun operand reads =>
          below operand (verified.lt_size_of_operand old reads))
        (capped operation old result defines)
    · exact new operation made result defines
    · have old := spot.back_subset before_mem
      refine Nat.le_trans (Operation.links_reading_le fun operand reads => ?_)
        (capped before old result defines)
      rw [redirect]
      split
      · rename_i same
        rw [same]
        exact target
      · exact below operand (verified.lt_size_of_operand old reads)
  · have front_weight : weight lower spot.front ≤ weight rank spot.front :=
      weight_mono fun operation member result defines =>
        below result (verified.lt_size_of_result (spot.front_subset member) defines)
    have back_weight : weight lower spot.back ≤ weight rank spot.back :=
      weight_mono fun operation member result defines =>
        below result (verified.lt_size_of_result (spot.back_subset member) defines)
    rw [replaced.code_eq, spot.code_eq, weight_append, weight_append, weight_append,
      weight_map_reading, weight_cons, spot.results_eq, List.map_singleton, List.sum_singleton]
    omega

/-- Another rank for one value. -/
def ranked (rank : ValueId → Nat) (id : ValueId) (length : Nat) : ValueId → Nat :=
  fun other => if other = id then length else rank other

theorem ranked_self {id : ValueId} {length : Nat} : ranked rank id length id = length := if_pos rfl

theorem ranked_fresh {function : Function} {length : Nat} {id : ValueId}
    (existing : id.index < function.values.size) :
    ranked rank ⟨function.values.size⟩ length id = rank id := by
  refine if_neg ?_
  rintro rfl
  exact Nat.lt_irrefl _ existing

theorem Replaced.ranks_of_made {kind : OperationKind} {operands : List ValueId} {type : TensorType}
    (replaced : spot.Replaced (.made kind operands type) changed) (verified : function.Verified)
    (ranks : Ranks rank function.code) (length : Nat)
    (shorter : 1 + length ≤ rank spot.result)
    (new : (function.nextOperation kind operands 1 spot.operation.location).links
      (ranked rank ⟨function.values.size⟩ length) ≤ length) :
    ∃ lower, Ranks lower changed.code ∧ weight lower changed.code < weight rank function.code := by
  have only : ∀ operation ∈ Replacement.operations function spot.operation.location
      (.made kind operands type), operation.results = [⟨function.values.size⟩] := by
    intro operation member
    rw [List.mem_singleton.mp member]
    rfl
  refine ⟨ranked rank ⟨function.values.size⟩ length, replaced.ranks verified
    (fun id existing => Nat.le_of_eq (ranked_fresh existing))
    (fun operation member result defines => ?_) ?_ (fun operation member result defines => ?_) ?_⟩
  · rw [ranked_fresh (verified.lt_size_of_result member defines)]
    exact ranks operation member result defines
  · rw [Replacement.target_made, ranked_self]
    exact Nat.le_trans (Nat.le_add_left _ _) shorter
  · rw [only operation member, List.mem_singleton] at defines
    rw [List.mem_singleton.mp member, defines, ranked_self]
    exact new
  · rw [Replacement.operations, weight_cons, only _ (List.mem_singleton_self _), List.map_singleton,
      List.sum_singleton, ranked_self]
    exact shorter

/-- Each reduction lowers the weight. -/
theorem Replaceable.exists_ranks (replaceable : spot.Replaceable alike replacement)
    (links : ∀ left right, alike left right → left.isLink = right.isLink)
    (replaced : spot.Replaced replacement changed) (verified : function.Verified)
    (ranks : Ranks rank function.code) :
    ∃ lower, Ranks lower changed.code ∧ weight lower changed.code < weight rank function.code := by
  have own := ranks spot.operation spot.mem_code spot.result spot.defines
  cases replaceable with
  | unread =>
      exact ⟨rank, replaced.ranks verified (fun _ _ => Nat.le_refl _) ranks (Nat.le_refl _)
        nofun (Nat.zero_le _)⟩
  | reshape kind_eq operands_eq | cast kind_eq operands_eq =>
      rw [Operation.links_of_isLink (by rw [kind_eq]; rfl) operands_eq] at own
      exact ⟨rank, replaced.ranks verified (fun _ _ => Nat.le_refl _) ranks
        (Nat.le_trans (Nat.le_add_left _ _) own) nofun (Nat.zero_le _)⟩
  | constant _ kind_eq operands_eq =>
      rw [Operation.links_of_isLink (by rw [kind_eq]; rfl) operands_eq] at own
      exact replaced.ranks_of_made verified ranks 0 (Nat.le_trans (Nat.le_add_right _ _) own)
        (Nat.le_refl _)
  | @reshapes inner shape innerShape operand origin type inner_mem kind_eq operands_eq inner_kind
      inner_operands inner_results =>
      have inner_code := spot.front_subset inner_mem
      have inner_rank := ranks inner inner_code operand (by simp [inner_results])
      rw [Operation.links_of_isLink (by rw [inner_kind]; rfl) inner_operands] at inner_rank
      rw [Operation.links_of_isLink (by rw [kind_eq]; rfl) operands_eq] at own
      refine replaced.ranks_of_made verified ranks (1 + rank origin) (by omega) ?_
      exact Nat.le_of_eq (by rw [Operation.links_of_isLink rfl rfl, ranked_fresh
        (verified.lt_size_of_operand inner_code (by simp [inner_operands]))])
  | @equal earlier value type earlier_mem same operands_eq results_eq =>
      have earlier_code := spot.front_subset earlier_mem
      have links_eq := Operation.links_congr rank (links _ _ same) operands_eq
      refine ⟨ranked rank value (min (rank value) (rank spot.result)), replaced.ranks verified
        (fun id _ => ?_) (fun operation member result defines => ?_) ?_ nofun (Nat.zero_le _)⟩
      · rw [ranked]
        split
        · rename_i equal
          rw [equal]
          exact Nat.min_le_left _ _
        · exact Nat.le_refl _
      · have rule := ranks operation member result defines
        rw [ranked]
        split
        · rename_i equal
          subst equal
          obtain rfl := verified.toRecorded.eq_of_defines member earlier_code defines
            (by simp [results_eq])
          exact Nat.le_min.mpr ⟨rule, links_eq ▸ own⟩
        · exact rule
      · rw [Replacement.target_value, ranked_self]
        exact Nat.min_le_right _ _

end Function.Spot

/-- There are no more reductions than the weight allows. -/
theorem Reduces.exists_ranks {alike : OperationKind → OperationKind → Prop} {count : Nat}
    {function changed : Function} (reduces : Reduces alike count function changed)
    (links : ∀ left right, alike left right → left.isLink = right.isLink)
    (verified : function.Verified) (ranks : Ranks rank function.code) :
    ∃ lower, Ranks lower changed.code ∧
      count + weight lower changed.code ≤ weight rank function.code := by
  induction reduces generalizing rank with
  | refl => exact ⟨rank, ranks, Nat.le_of_eq (Nat.zero_add _)⟩
  | step first _ induction =>
      have middle_verified := (Reduces.single first).verified verified
      obtain ⟨spot, replacement, replaceable, replaced⟩ := first
      obtain ⟨middle, middle_ranks, less⟩ :=
        replaceable.exists_ranks links replaced verified ranks
      obtain ⟨lower, lower_ranks, more⟩ := induction middle_verified middle_ranks
      exact ⟨lower, lower_ranks, by omega⟩

/-! ### Positions -/

/-- Operations may be ranked one by one, each above all that stands before it. -/
theorem Dominated.exists_ranks {available : List ValueId} (dominated : Dominated available code)
    (proper : ∀ operation ∈ code, operation.Proper)
    (distinct : (available ++ code.flatMap Operation.results).Nodup) {depth : Nat}
    (rank : ValueId → Nat) (bounded : ∀ id, rank id ≤ depth) :
    ∃ higher, Ranks higher code ∧ (∀ id ∈ available, higher id = rank id) ∧
      ∀ id, higher id ≤ depth + code.length := by
  induction code generalizing available rank depth with
  | nil => exact ⟨rank, nofun, fun _ _ => rfl, bounded⟩
  | cons operation rest induction =>
      obtain ⟨usable, others⟩ := dominated
      rw [List.forall_mem_cons] at proper
      rw [List.flatMap_cons, ← List.append_assoc] at distinct
      have fresh : ∀ id ∈ available, id ∉ operation.results := fun id member defined =>
        (List.nodup_append.mp (List.nodup_append.mp distinct).1).2.2 id member id defined rfl
      have raised : ∀ id, (if id ∈ operation.results then depth + 1 else rank id) ≤ depth + 1 := by
        intro id
        split
        · exact Nat.le_refl _
        · exact Nat.le_succ_of_le (bounded id)
      obtain ⟨higher, ranks, agrees, bound⟩ := induction others proper.2 distinct _ raised
      have kept : ∀ id ∈ available, higher id = rank id := fun id member =>
        (agrees id (List.mem_append_left _ member)).trans (if_neg (fresh id member))
      refine ⟨higher, ?_, kept, fun id => ?_⟩
      · intro other member result defines
        rcases List.mem_cons.mp member with rfl | later
        · rw [agrees result (List.mem_append_right _ defines), if_pos defines]
          refine proper.1.links_le fun operand reads => ?_
          rw [kept operand (usable operand reads)]
          exact bounded operand
        · exact ranks other later result defines
      · rw [List.length_cons, Nat.add_comm rest.length, ← Nat.add_assoc]
        exact bound id

namespace Function

/-- A verified function has a ranking under which it weighs no more than the sum of its positions
allows. -/
theorem Verified.exists_ranks {function : Function} (verified : function.Verified)
    (proper : function.Proper) :
    ∃ rank, Ranks rank function.code ∧
      weight rank function.code ≤ Simplification.applicationBound function := by
  obtain ⟨rank, ranks, -, bound⟩ := verified.dominated.exists_ranks proper
    verified.wellFormed.distinct (fun _ => 0) fun _ => Nat.le_refl 0
  rw [Nat.zero_add] at bound
  refine ⟨rank, ranks, ?_⟩
  rw [Simplification.applicationBound, body_eq_code verified.live, List.length_map]
  exact weight_le (fun operation member => (proper operation member).results ▸
    OperationKind.resultCount_le _) bound

end Function

end Dataflow

end TensorLang
