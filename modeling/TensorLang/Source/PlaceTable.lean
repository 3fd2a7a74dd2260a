import TensorLang.Source

/-!
# Tables of places

A table of places holds the line and column of every position of a text, so that many positions can
be looked up after one pass over the text.  It gives the answers of `Source.lineColumn?`.
-/

namespace TensorLang

/-- The line and column after a character. -/
def placeAfter (place : Nat × Nat) (char : Char) : Nat × Nat :=
  if char = '\n' then (place.1 + 1, 1) else (place.1, place.2 + char.utf8Size)

/-- The line and column of each position of a text, from zero to its length; a position inside a
character has none. -/
structure PlaceTable where
  /-- The entries by position. -/
  places : Array (Option (Nat × Nat))

namespace PlaceTable

/-- Adds the positions of characters, of which the first has the given line and column. -/
def collect (places : Array (Option (Nat × Nat))) (place : Nat × Nat) :
    List Char → Array (Option (Nat × Nat))
  | [] => places.push (some place)
  | char :: chars =>
      collect (places.push (some place) ++ Array.replicate (char.utf8Size - 1) none)
        (placeAfter place char) chars

/-- The line and column of a position; positions past the end stand for the end. -/
def lineColumn? (table : PlaceTable) (position : Nat) : Option (Nat × Nat) :=
  table.places[min position (table.places.size - 1)]?.join

theorem size_collect (places : Array (Option (Nat × Nat))) (place : Nat × Nat)
    (chars : List Char) :
    (collect places place chars).size = places.size + byteCount chars + 1 := by
  induction chars generalizing places place with
  | nil => simp [collect]
  | cons char chars induction =>
      have positive : 0 < char.utf8Size := Char.utf8Size_pos char
      rw [collect, induction, byteCount_cons, Array.size_append, Array.size_push,
        Array.size_replicate]
      omega

theorem getElem?_collect_of_lt (places : Array (Option (Nat × Nat))) (place : Nat × Nat)
    (chars : List Char) {position : Nat} (there : position < places.size) :
    (collect places place chars)[position]? = places[position]? := by
  induction chars generalizing places place with
  | nil => rw [collect, Array.getElem?_push, if_neg (by omega)]
  | cons char chars induction =>
      rw [collect, induction, Array.getElem?_append, Array.size_push, if_pos (by omega),
        Array.getElem?_push, if_neg (by omega)]
      rw [Array.size_append, Array.size_push]
      omega

private theorem getElem?_collect (places : Array (Option (Nat × Nat))) (place : Nat × Nat)
    (chars : List Char) {offset : Nat} (inside : offset ≤ byteCount chars) :
    (collect places place chars)[places.size + offset]? =
      some ((splitAtByte? offset chars).map fun (before, _) => before.foldl placeAfter place) := by
  induction chars generalizing places place offset with
  | nil =>
      obtain rfl : offset = 0 := by simpa using inside
      simp [collect, splitAtByte?]
  | cons char chars induction =>
      have positive : 0 < char.utf8Size := Char.utf8Size_pos char
      rw [byteCount_cons] at inside
      rw [collect]
      cases offset with
      | zero =>
          rw [getElem?_collect_of_lt _ _ _ (by simp; omega)]
          simp [splitAtByte?, Array.getElem?_append]
      | succ offset =>
          rw [splitAtByte?]
          split
          case isTrue fits =>
            have left : offset + 1 - char.utf8Size ≤ byteCount chars := by omega
            have shifted := induction
              (places.push (some place) ++ Array.replicate (char.utf8Size - 1) none)
              (placeAfter place char) left
            have position_eq : (places.push (some place) ++
                Array.replicate (char.utf8Size - 1) none).size + (offset + 1 - char.utf8Size) =
                places.size + (offset + 1) := by
              rw [Array.size_append, Array.size_push, Array.size_replicate]
              omega
            rw [position_eq] at shifted
            rw [shifted, Option.map_map]
            rfl
          case isFalse cut =>
            rw [getElem?_collect_of_lt _ _ _ (by simp; omega), Array.getElem?_append,
              Array.size_push, if_neg (by omega), Array.getElem?_replicate, if_pos (by omega)]
            rfl

end PlaceTable

/-- Line feeds start lines, and the bytes since the last line feed count as columns.  The characters
are given from the last to the first. -/
theorem foldr_placeAfter (place : Nat × Nat) (reversed : List Char) :
    reversed.foldr (fun char place => placeAfter place char) place =
      (place.1 + reversed.count '\n',
        (if '\n' ∈ reversed then 1 else place.2) +
          byteCount (reversed.takeWhile (· ≠ '\n'))) := by
  induction reversed with
  | nil => simp
  | cons char reversed induction =>
      rw [List.foldr_cons, induction, placeAfter]
      by_cases feed : char = '\n'
      · simp [feed, Nat.add_assoc]
      · have other : ¬ '\n' = char := fun same => feed same.symm
        simp [feed, other]
        omega

namespace Source

/-- The table of all places of a text. -/
def placeTable (source : Source) : PlaceTable :=
  ⟨PlaceTable.collect #[] (1, 1) source.contents.toList⟩

/-- The table has the line and column of every position. -/
theorem lineColumn?_placeTable (source : Source) (position : Nat) :
    source.placeTable.lineColumn? position = source.lineColumn? position := by
  have inside : min position source.length ≤ byteCount source.contents.toList :=
    Nat.min_le_right _ _
  have entry := PlaceTable.getElem?_collect #[] (1, 1) source.contents.toList inside
  have size_eq := PlaceTable.size_collect #[] (1, 1) source.contents.toList
  rw [Array.size_empty, Nat.zero_add] at entry size_eq
  rw [PlaceTable.lineColumn?, placeTable, size_eq, Nat.add_sub_cancel]
  change (PlaceTable.collect #[] (1, 1) source.contents.toList)[
    min position source.length]?.join = _
  rw [entry, Option.join_some, lineColumn?]
  congr 1
  funext ⟨before, _⟩
  have folded := foldr_placeAfter (1, 1) before.reverse
  rw [List.foldr_reverse, List.count_reverse] at folded
  simpa [Nat.add_comm] using folded

end Source

end TensorLang
