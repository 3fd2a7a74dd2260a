import TensorLang.Arena

/-!
# Handles given out one after the other

A counter gives out the handle after the last one, and starts again with the first one once the word
size is reached.  So handles that are given out one after the other differ from each other as long
as there are no more of them than there are words.
-/

namespace TensorLang

namespace Handle

variable {entity : Entity}

private theorem advance_lt_wordSize (id : Handle entity) (amount : Nat) :
    (id.advance amount).index < wordSize :=
  Nat.mod_lt _ (by decide)

/-- Up to four places further on, a handle is another one. -/
theorem advance_ne (id : Handle entity) :
    id ≠ id.advance 1 ∧ id ≠ (id.advance 1).advance 1 := by
  obtain ⟨index⟩ := id
  simp only [advance, ofNumber, wordSize, ne_eq, Handle.mk.injEq]
  omega

/-- The handle that is given out after so many others. -/
def skip (id : Handle entity) : Nat → Handle entity
  | 0 => id
  | count + 1 => (id.advance 1).skip count

/-- So many handles as they are given out, from a first one on. -/
def following (id : Handle entity) : Nat → List (Handle entity)
  | 0 => []
  | count + 1 => id :: (id.advance 1).following count

@[simp]
theorem length_following (id : Handle entity) (count : Nat) :
    (id.following count).length = count := by
  induction count generalizing id with
  | zero => rfl
  | succ count induction => rw [following, List.length_cons, induction]

theorem skip_lt_wordSize {id : Handle entity} (small : id.index < wordSize) (count : Nat) :
    (id.skip count).index < wordSize := by
  induction count generalizing id with
  | zero => exact small
  | succ count induction => exact induction (id.advance_lt_wordSize 1)

theorem skip_skip (id : Handle entity) (first second : Nat) :
    (id.skip first).skip second = id.skip (first + second) := by
  induction first generalizing id with
  | zero => rw [Nat.zero_add]; rfl
  | succ first induction => rw [Nat.succ_add]; exact induction (id.advance 1)

theorem following_append (id : Handle entity) (first second : Nat) :
    id.following first ++ (id.skip first).following second = id.following (first + second) := by
  induction first generalizing id with
  | zero => rw [Nat.zero_add]; rfl
  | succ first induction =>
      rw [Nat.succ_add]
      exact congrArg (id :: ·) (induction (id.advance 1))

/-- Without wrapping round, handles are given out in the order of their numbers. -/
theorem following_eq {id : Handle entity} {count : Nat} (room : id.index + count ≤ wordSize) :
    id.following count = (List.range' id.index count).map Handle.mk := by
  induction count generalizing id with
  | zero => rfl
  | succ count induction =>
      rw [following, List.range'_succ, List.map_cons, List.cons.injEq]
      refine ⟨rfl, ?_⟩
      cases count with
      | zero => rfl
      | succ count =>
          have next_eq : id.advance 1 = ⟨id.index + 1⟩ := ofNumber_of_lt (by omega)
          rw [next_eq]
          exact induction (by simp only; omega)

theorem index_skip_succ (id : Handle entity) (count : Nat) :
    (id.skip (count + 1)).index = (id.index + (count + 1)) % wordSize := by
  induction count generalizing id with
  | zero => rfl
  | succ count induction =>
      rw [skip, induction, advance, ofNumber, Nat.mod_add_mod]
      congr 1
      omega

private theorem skip_ne {id : Handle entity} {first second : Nat} (less : first < second)
    (room : second < wordSize) : id.skip first ≠ id.skip second := by
  obtain ⟨second, rfl⟩ := Nat.exists_eq_add_one_of_ne_zero (Nat.ne_of_gt (Nat.zero_lt_of_lt less))
  intro same
  have index_eq := congrArg Handle.index same
  rw [index_skip_succ] at index_eq
  cases first with
  | zero =>
      simp only [skip, wordSize] at room index_eq
      omega
  | succ first =>
      simp only [index_skip_succ, wordSize] at room index_eq
      omega

private theorem following_eq_map (id : Handle entity) (count : Nat) :
    id.following count = (List.range count).map id.skip := by
  induction count generalizing id with
  | zero => rfl
  | succ count induction =>
      rw [following, induction, List.range_succ_eq_map, List.map_cons, List.map_map]
      rfl

theorem nodup_following {id : Handle entity} {count : Nat} (room : count ≤ wordSize) :
    (id.following count).Nodup := by
  rw [following_eq_map, List.nodup_iff_pairwise_ne, List.pairwise_map]
  refine List.pairwise_lt_range.imp_of_mem fun _ member less => ?_
  exact skip_ne less (Nat.lt_of_lt_of_le (List.mem_range.mp member) room)

theorem index_lt_of_mem_following {id other : Handle entity} {count : Nat}
    (room : id.index + count ≤ wordSize) (member : other ∈ id.following count) :
    other.index < id.index + count := by
  rw [following_eq room] at member
  obtain ⟨index, index_mem, rfl⟩ := List.mem_map.mp member
  exact (List.mem_range'_1.mp index_mem).2

theorem index_skip {id : Handle entity} {count : Nat} (room : id.index + count < wordSize) :
    (id.skip count).index = id.index + count := by
  induction count generalizing id with
  | zero => rfl
  | succ count induction =>
      have next_eq : id.advance 1 = ⟨id.index + 1⟩ := ofNumber_of_lt (by omega)
      rw [skip, next_eq, induction (by simp only; omega)]
      simp only
      omega

/-- Handles that all stay below a word's number have not wrapped round. -/
theorem index_skip_of_below {id : Handle entity} {count bound : Nat} (small : bound < wordSize)
    (below : ∀ other ∈ id.following count, other.index < bound) :
    (id.skip count).index = id.index + count := by
  induction count generalizing id with
  | zero => rfl
  | succ count induction =>
      rw [following, List.forall_mem_cons] at below
      have next_eq : id.advance 1 = ⟨id.index + 1⟩ := ofNumber_of_lt (by omega)
      rw [skip, induction below.2, next_eq]
      simp only
      omega

end Handle

end TensorLang
