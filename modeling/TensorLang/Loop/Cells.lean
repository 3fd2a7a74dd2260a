import TensorLang.Tensor.Shape

/-!
# Memory cells

A running function keeps its numbers in rows of cells.  All cells of a row hold one value until they
are written.  Only the cells up to the last written one are stored, so that a long row costs nothing
before it is used.
-/

namespace TensorLang

namespace Loop

/-- A row of cells. -/
structure Cells (α : Type) where
  /-- Number of cells. -/
  size : Nat
  /-- The value of a cell that has not been written. -/
  initial : α
  /-- The cells up to the last one that has been written. -/
  written : Array α
  /-- No cell is written beyond the end. -/
  written_le : written.size ≤ size

namespace Cells

variable {α : Type}

/-- Cells that have not been written. -/
def fresh (size : Nat) (initial : α) : Cells α := ⟨size, initial, #[], Nat.zero_le size⟩

/-- New cells, unless there are too many. -/
def allocate? (size : Nat) (initial : α) : Option (Cells α) :=
  if size < memoryBound then some (fresh size initial) else none

/-- The value of a cell. -/
def get? (cells : Cells α) (position : Nat) : Option α :=
  if position < cells.size then some (cells.written.getD position cells.initial) else none

/-- The stored cells, with initial ones after them up to a length. -/
def padded (written : Array α) (initial : α) (size : Nat) : Array α :=
  written ++ Array.replicate (size - written.size) initial

/-- Writes a cell; beyond the end nothing changes. -/
def set (cells : Cells α) (position : Nat) (value : α) : Cells α :=
  match cells with
  | ⟨size, initial, written, written_le⟩ =>
      if inside : position < size then
        if stored : position < written.size then
          ⟨size, initial, written.setIfInBounds position value, by simpa using written_le⟩
        else
          ⟨size, initial, (padded written initial position).push value, by
            simp only [padded, Array.size_push, Array.size_append, Array.size_replicate]
            omega⟩
      else
        ⟨size, initial, written, written_le⟩

/-- The values of all cells. -/
def toList (cells : Cells α) : List α :=
  cells.written.toList ++ List.replicate (cells.size - cells.written.size) cells.initial

@[simp]
theorem size_fresh (size : Nat) (initial : α) : (fresh size initial).size = size := rfl

@[simp]
theorem length_toList (cells : Cells α) : cells.toList.length = cells.size := by
  have bound := cells.written_le
  simp only [toList, List.length_append, Array.length_toList, List.length_replicate]
  omega

/-- Positions look values up in the list of all values. -/
theorem getElem?_toList (cells : Cells α) (position : Nat) :
    cells.toList[position]? = cells.get? position := by
  have bound := cells.written_le
  by_cases stored : position < cells.written.size
  · have inside : position < cells.size := by omega
    simp [toList, get?, List.getElem?_append, Array.getD, stored, inside]
  · by_cases inside : position < cells.size
    · have left : position - cells.written.size < cells.size - cells.written.size := by omega
      simp [toList, get?, List.getElem?_append, Array.getD, stored, inside, left]
    · have left : ¬ position - cells.written.size < cells.size - cells.written.size := by omega
      simp [toList, get?, List.getElem?_append, stored, inside, left]

@[simp]
theorem size_set (cells : Cells α) (position : Nat) (value : α) :
    (cells.set position value).size = cells.size := by
  unfold set
  split
  split
  · split <;> rfl
  · rfl

/-- Writing changes one cell and no other. -/
theorem get?_set (cells : Cells α) (position other : Nat) (value : α) :
    (cells.set position value).get? other =
      if position = other ∧ other < cells.size then some value else cells.get? other := by
  obtain ⟨size, initial, written, written_le⟩ := cells
  by_cases inside : position < size
  · by_cases stored : position < written.size
    · simp only [set, inside, stored, dite_true, get?, Array.getD_eq_getD_getElem?,
        Array.getElem?_setIfInBounds]
      grind
    · simp only [set, inside, stored, dite_true, dite_false, get?, padded,
        Array.getD_eq_getD_getElem?, Array.getElem?_push, Array.getElem?_append,
        Array.getElem?_replicate, Array.size_append, Array.size_replicate]
      grind
  · simp only [set, inside, dite_false, get?]
    grind

end Cells

end Loop

end TensorLang
