import TensorLang.Arena

/-!
# What an arena holds

The identifier of a number finds what was stored last for it: the entry that was pushed, replaced
and changed by all that was done to it since.  Identifiers are 32-bit words, so numbers that agree
modulo the word size have the same identifier.  Below the word size an arena is a map that only
grows; beyond it the identifier of a number finds the entry of a smaller one.
-/

namespace TensorLang

theorem Handle.ofNumber_eq_iff {entity : Entity} {left right : Nat} :
    (ofNumber left : Handle entity) = ofNumber right ↔ left % wordSize = right % wordSize := by
  rw [ofNumber, ofNumber, Handle.mk.injEq]

namespace Arena

variable {entity : Entity} {α : Type}

/-- What is done to an arena.  Entries are addressed by the identifiers of numbers. -/
inductive Change (α : Type) where
  /-- An entry is pushed. -/
  | push (entry : α)
  /-- The entry of a number is replaced; this fails, and does nothing, when there is none. -/
  | write (number : Nat) (entry : α)
  /-- The entry of a number is changed, if there is one. -/
  | update (number : Nat) (change : α → α)

/-- The arena after a change. -/
def apply (arena : Arena entity α) : Change α → Arena entity α
  | .push entry => arena.push entry
  | .write number entry => arena.set (.ofNumber number) entry
  | .update number change => arena.modify (.ofNumber number) change

/-- The arena after changes to a new one. -/
def after (changes : List (Change α)) : Arena entity α := changes.foldl apply empty

namespace Change

/-- Whether an entry is pushed. -/
def isPush : Change α → Bool
  | .push _ => true
  | .write _ _ => false
  | .update _ _ => false

/-- The change is one of the entry at a place. -/
def Addresses : Change α → Nat → Prop
  | .push _, _ => False
  | .write number _, place => number % Handle.wordSize = place
  | .update number _, place => number % Handle.wordSize = place

/-- The entry at a place after a change. -/
def rewrite (place : Nat) (entry : α) : Change α → α
  | .push _ => entry
  | .write number new => if number % Handle.wordSize = place then new else entry
  | .update number change => if number % Handle.wordSize = place then change entry else entry

theorem rewrite_of_not_addresses {change : Change α} {place : Nat}
    (apart : ¬ change.Addresses place) (entry : α) : change.rewrite place entry = entry := by
  cases change with
  | push => rfl
  | write => exact if_neg apart
  | update => exact if_neg apart

end Change

/-- The entry stored last for a place, where `count` entries were pushed before the changes: what is
pushed as the entry of the place, after all later changes that address the place. -/
def lastStored (count : Nat) : List (Change α) → Nat → Option α
  | [], _ => none
  | .push entry :: later, place =>
      if place = count then some (later.foldl (Change.rewrite place) entry)
      else lastStored (count + 1) later place
  | .write _ _ :: later, place => lastStored count later place
  | .update _ _ :: later, place => lastStored count later place

/-! ### What one change does -/

theorem size_apply (arena : Arena entity α) (change : Change α) :
    (arena.apply change).size = arena.size + if change.isPush then 1 else 0 := by
  cases change with
  | push entry => exact size_push arena entry
  | write number entry => exact size_modify arena _ _
  | update number change => exact size_modify arena _ _

theorem get?_apply_of_lt {arena : Arena entity α} {place : Nat} (inside : place < arena.size)
    (change : Change α) :
    (arena.apply change).get? ⟨place⟩ =
      (arena.get? ⟨place⟩).map fun entry => change.rewrite place entry := by
  cases change with
  | push entry =>
      have old : (⟨place⟩ : Handle entity) ≠ arena.nextId := by
        rw [nextId, ne_eq, Handle.mk.injEq]
        exact Nat.ne_of_lt inside
      simp only [apply, get?_push, if_neg old, Change.rewrite, Option.map_id']
  | write number entry =>
      simp only [apply, set, get?_modify, Handle.ofNumber, Handle.mk.injEq, Change.rewrite,
        eq_comm (a := place)]
      split <;> simp
  | update number change =>
      simp only [apply, get?_modify, Handle.ofNumber, Handle.mk.injEq, Change.rewrite,
        eq_comm (a := place)]
      split <;> simp

/-! ### What all changes do -/

private theorem size_foldl_apply (arena : Arena entity α) (changes : List (Change α)) :
    (changes.foldl apply arena).size = arena.size + changes.countP Change.isPush := by
  induction changes generalizing arena with
  | nil => rfl
  | cons change changes induction =>
      rw [List.foldl_cons, induction, size_apply, List.countP_cons]
      omega

private theorem get?_foldl_apply_of_lt {arena : Arena entity α} {place : Nat}
    (inside : place < arena.size) (changes : List (Change α)) :
    (changes.foldl apply arena).get? ⟨place⟩ =
      (arena.get? ⟨place⟩).map fun entry => changes.foldl (Change.rewrite place) entry := by
  induction changes generalizing arena with
  | nil => simp
  | cons change changes induction =>
      have still : place < (arena.apply change).size := by
        rw [size_apply]
        omega
      rw [List.foldl_cons, induction still, get?_apply_of_lt inside, Option.map_map]
      rfl

private theorem get?_foldl_apply_of_le {arena : Arena entity α} {place : Nat}
    (outside : arena.size ≤ place) (changes : List (Change α)) :
    (changes.foldl apply arena).get? ⟨place⟩ = lastStored arena.size changes place := by
  induction changes generalizing arena with
  | nil => exact (get?_eq_none_iff arena ⟨place⟩).mpr outside
  | cons change changes induction =>
      rw [List.foldl_cons]
      have size_eq := size_apply arena change
      cases change with
      | push entry =>
          rw [lastStored]
          split
          · rename_i next
            have inside : place < (arena.apply (.push entry)).size := by
              rw [size_eq, next]
              exact Nat.lt_succ_self _
            have pushed : (arena.apply (.push entry)).get? ⟨place⟩ = some entry := by
              rw [apply, get?_push, if_pos (by rw [next]; rfl)]
            rw [get?_foldl_apply_of_lt inside, pushed]
            rfl
          · rename_i later
            have beyond : (arena.apply (.push entry)).size ≤ place := by
              rw [size_eq]
              exact Nat.lt_of_le_of_ne outside (Ne.symm later)
            rw [induction beyond, size_eq]
            rfl
      | write number entry => rw [induction (size_eq ▸ outside), size_eq]; rfl
      | update number change => rw [induction (size_eq ▸ outside), size_eq]; rfl

private theorem size_after (changes : List (Change α)) :
    (after changes : Arena entity α).size = changes.countP Change.isPush := by
  rw [after, size_foldl_apply]
  exact Nat.zero_add _

/-- After the changes, the identifier of a number finds what was stored last for it, as far as
identifiers tell numbers apart. -/
structure HoldsLastStored (entity : Entity) (changes : List (Change α)) : Prop where
  /-- There are as many entries as were pushed. -/
  size_eq : (after changes : Arena entity α).size = changes.countP Change.isPush
  /-- A number finds what was stored last for the number modulo the word size. -/
  get?_eq : ∀ number, (after changes : Arena entity α).get? (.ofNumber number) =
    lastStored 0 changes (number % Handle.wordSize)
  /-- It finds something just if that number is one of an entry. -/
  isSome_iff : ∀ number, ((after changes : Arena entity α).get? (.ofNumber number)).isSome ↔
    number % Handle.wordSize < changes.countP Change.isPush
  /-- Numbers have one identifier just if they agree modulo the word size. -/
  same_iff : ∀ left right, (Handle.ofNumber left : Handle entity) = .ofNumber right ↔
    left % Handle.wordSize = right % Handle.wordSize
  /-- A number below the word size finds what was stored last for it. -/
  get?_of_lt : ∀ number < Handle.wordSize,
    (after changes : Arena entity α).get? (.ofNumber number) = lastStored 0 changes number
  /-- Different numbers below the word size have different identifiers. -/
  distinct : ∀ left < Handle.wordSize, ∀ right < Handle.wordSize,
    (Handle.ofNumber left : Handle entity) = .ofNumber right → left = right
  /-- A further change leaves every entry alone that it does not address. -/
  untouched : ∀ change place, place < changes.countP Change.isPush → ¬ change.Addresses place →
    (after (changes ++ [change]) : Arena entity α).toList[place]? =
      (after changes : Arena entity α).toList[place]?

/-- An arena holds what was stored last, after any changes. -/
theorem holdsLastStored (entity : Entity) (changes : List (Change α)) :
    HoldsLastStored entity changes := by
  have found : ∀ number, (after changes : Arena entity α).get? (.ofNumber number) =
      lastStored 0 changes (number % Handle.wordSize) :=
    fun number => get?_foldl_apply_of_le (Nat.zero_le _) changes
  have size_eq : (after changes : Arena entity α).size = changes.countP Change.isPush :=
    size_after changes
  exact {
    size_eq
    get?_eq := found
    isSome_iff := fun number => by
      rw [← size_eq, Option.isSome_iff_ne_none, ne_eq, get?_eq_none_iff, Nat.not_le,
        Handle.ofNumber]
    same_iff := fun _ _ => Handle.ofNumber_eq_iff
    get?_of_lt := fun number small => by rw [found, Nat.mod_eq_of_lt small]
    distinct := fun left left_lt right right_lt same => by
      rwa [Handle.ofNumber_eq_iff, Nat.mod_eq_of_lt left_lt, Nat.mod_eq_of_lt right_lt] at same
    untouched := fun change place inside apart => by
      rw [← size_eq] at inside
      have kept := get?_apply_of_lt inside change
      simp only [Change.rewrite_of_not_addresses apart, Option.map_id'] at kept
      simpa [after, toList, get?] using kept }

/-- Beyond the word size a number finds the entry of a smaller one, though it is the number of none,
and shares its identifier. -/
theorem get?_after_wordSize :
    (after [.push "a"] : Arena .value String).size ≤ 4294967296 ∧
      (after [.push "a"] : Arena .value String).get? (.ofNumber 4294967296) = some "a" ∧
      (Handle.ofNumber 0 : Handle .value) = .ofNumber 4294967296 := by
  decide

end Arena

end TensorLang
