import TensorLang.Loop.Verification
import TensorLang.Proofs.Tensor.Counting
import TensorLang.Proofs.Tensor.Text

/-!
# Computing with words

Sizes, offsets, bounds of slices and last values of loops are computed with 64-bit words.  This
module computes them once more, step by step, and stops where a value is no word, where a divisor is
zero, or where a slice ends behind the last value.  Under the conditions stated here no computation
stops, and each gives what is computed with numbers of any size.
-/

namespace TensorLang

/-- What stops a computation with words. -/
inductive WordFault where
  /-- A value is no word. -/
  | overflow
  /-- A divisor is zero. -/
  | zeroDivisor
  /-- A slice ends behind the last value. -/
  | missingValues
  deriving DecidableEq

namespace Word

/-- A computation with words. -/
abbrev Computed (α : Type) : Type := Except WordFault α

/-- A value, if it is a word. -/
def fit (value : Nat) : Computed Nat :=
  if value < countBound then .ok value else .error .overflow

/-- The sum of two words. -/
def plus (left right : Nat) : Computed Nat := fit (left + right)

/-- The difference of two words. -/
def minus (left right : Nat) : Computed Nat :=
  if right ≤ left then .ok (left - right) else .error .overflow

/-- The product of two words. -/
def times (left right : Nat) : Computed Nat := fit (left * right)

/-- The quotient of two words. -/
def quotient (left right : Nat) : Computed Nat :=
  if right = 0 then .error .zeroDivisor else .ok (left / right)

/-- The remainder of two words. -/
def remainder (left right : Nat) : Computed Nat :=
  if right = 0 then .error .zeroDivisor else .ok (left % right)

theorem fit_of_lt {value : Nat} (below : value < countBound) : fit value = .ok value := if_pos below

/-! ### Sizes -/

/-- Continues a product through further dimensions. -/
def productFrom (product : Nat) : List Nat → Computed Nat
  | [] => .ok product
  | dimension :: dimensions => do productFrom (← times product dimension) dimensions

/-- Number of elements of a shape. -/
def size (shape : Shape) : Computed Nat := productFrom 1 shape.dimensions

private theorem productFrom_of_bounded {product count : Nat} {dimensions : List Nat}
    (counted : Shape.boundedProduct? product dimensions = some count) :
    productFrom product dimensions = .ok count := by
  induction dimensions generalizing product with
  | nil =>
      rw [productFrom]
      exact congrArg Except.ok (Option.some.inj counted)
  | cons dimension dimensions induction =>
      rw [Shape.boundedProduct?] at counted
      split at counted
      · rename_i below
        rw [productFrom, times, fit_of_lt below]
        exact induction counted
      · cases counted

/-- The number of elements of an accepted shape is computed as it is checked. -/
theorem size_of_boundedSize? {shape : Shape} {count : Nat}
    (counted : shape.boundedSize? = some count) : size shape = .ok count :=
  productFrom_of_bounded counted

/-! ### Offsets -/

/-- Continues a row-major offset through further dimensions and indices. -/
def offsetFrom (offset : Nat) : List Nat → List Nat → Computed (Option Nat)
  | dimension :: dimensions, index :: indices =>
      if index < dimension then do
        let start ← times offset dimension
        offsetFrom (← plus start index) dimensions indices
      else
        .ok none
  | _, _ => .ok (some offset)

/-- Row-major offset of an index tuple of the right length, if each index is below its dimension. -/
def offset (shape : Shape) (indices : List Nat) : Computed (Option Nat) :=
  if indices.length = shape.rank then offsetFrom 0 shape.dimensions indices else .ok none

private theorem offsetFrom_of_bounded {product count start : Nat} {dimensions indices : List Nat}
    (counted : Shape.boundedProduct? product dimensions = some count) (inside : start < product)
    (matching : indices.length = dimensions.length) :
    offsetFrom start dimensions indices = .ok (Shape.offsetFrom? start dimensions indices) := by
  induction dimensions generalizing product start indices with
  | nil =>
      obtain rfl := List.length_eq_zero_iff.mp matching
      rfl
  | cons dimension dimensions induction =>
      cases indices with
      | nil => cases matching
      | cons index indices =>
          rw [Shape.boundedProduct?] at counted
          split at counted
          · rename_i below
            rw [offsetFrom, Shape.offsetFrom?]
            split
            · rename_i within
              have next : start * dimension + index < product * dimension := by
                calc
                  start * dimension + index < start * dimension + dimension :=
                    Nat.add_lt_add_left within _
                  _ = (start + 1) * dimension := by rw [Nat.succ_mul]
                  _ ≤ product * dimension := Nat.mul_le_mul_right _ inside
              rw [times, fit_of_lt (by omega)]
              change (do offsetFrom (← plus (start * dimension) index) dimensions indices) = _
              rw [plus, fit_of_lt (by omega)]
              exact induction counted next (Nat.succ.inj matching)
            · rfl
          · cases counted

/-- In an accepted shape every offset is computed, also that of a tuple that has none. -/
theorem offset_of_boundedSize? {shape : Shape} {count : Nat}
    (counted : shape.boundedSize? = some count) (indices : List Nat) :
    offset shape indices = .ok (shape.offset? indices) := by
  rw [offset]
  split
  · rename_i matching
    exact offsetFrom_of_bounded counted Nat.one_pos matching
  · rename_i mismatched
    refine congrArg Except.ok (Eq.symm (Option.eq_none_iff_forall_ne_some.mpr ?_))
    intro found offset_eq
    exact mismatched (Shape.within_iff.mp (Shape.offset?_eq_some_iff.mp offset_eq).1).1

/-! ### Indices -/

/-- Splits an offset into the indices of the given dimensions and what is left over for dimensions
further out. -/
def indicesFrom (offset : Nat) : List Nat → Computed (List Nat × Nat)
  | [] => .ok ([], offset)
  | dimension :: dimensions => do
      let (indices, rest) ← indicesFrom offset dimensions
      let index ← remainder rest dimension
      let outer ← quotient rest dimension
      return (index :: indices, outer)

/-- Row-major index tuple of an offset. -/
def indices (shape : Shape) (offset : Nat) : Computed (List Nat) :=
  Prod.fst <$> indicesFrom offset shape.dimensions

private theorem indicesFrom_of_nonzero {dimensions : List Nat} (offset : Nat)
    (nonzero : 0 ∉ dimensions) :
    indicesFrom offset dimensions = .ok (Shape.indicesFrom offset dimensions) := by
  induction dimensions with
  | nil => rfl
  | cons dimension dimensions induction =>
      obtain ⟨positive, others⟩ := not_or.mp (fun member => nonzero (List.mem_cons.mpr member))
      rw [indicesFrom, induction others, Shape.indicesFrom]
      simp only [remainder, quotient, if_neg (Ne.symm positive)]
      rfl

/-- Where a shape has index tuples at all, they are computed without a division by zero. -/
theorem indices_of_indices? {shape : Shape} {offset : Nat} {tuple : List Nat}
    (found : shape.indices? offset = some tuple) : indices shape offset = .ok tuple := by
  rw [Shape.indices?] at found
  split at found
  · cases found
  · obtain rfl := Option.some.inj found
    rw [indices, indicesFrom_of_nonzero offset (by assumption)]
    rfl

/-! ### Texts -/

/-- The values from `start` up to `stop`. -/
def slice (values : List Float) (start stop : Nat) : Computed (List Float) :=
  if start ≤ stop ∧ stop ≤ values.length then .ok ((values.drop start).take (stop - start))
  else .error .missingValues

/-- The piece at an index of values that are cut into pieces of `stride` values. -/
def piece (values : List Float) (stride index : Nat) : Computed (List Float) := do
  let start ← times index stride
  let stop ← times (← plus index 1) stride
  slice values start stop

/-- Writes row-major values as nested brackets. -/
def nestedText (separator : String) : List Nat → List Float → Computed String
  | [], values => .ok (numberText (values.head?.getD 0))
  | outer :: inner, values => do
      let stride ← size ⟨inner⟩
      let parts ← (List.range outer).mapM fun index => do
        nestedText separator inner (← piece values stride index)
      return "[" ++ separator.intercalate parts ++ "]"

private theorem mapM_eq_ok {α β : Type} {items : List α} {step : α → Computed β} {result : α → β}
    (each : ∀ item ∈ items, step item = .ok (result item)) :
    items.mapM step = .ok (items.map result) := by
  induction items with
  | nil => rfl
  | cons item items induction =>
      rw [List.mapM_cons, each item List.mem_cons_self,
        induction fun other member => each other (List.mem_cons_of_mem _ member)]
      rfl

private theorem piece_of_le {values : List Float} {index count stride : Nat}
    (inside : index < count) (enough : count * stride ≤ values.length) (small : count < countBound)
    (small_size : count * stride < countBound) :
    piece values stride index = .ok ((values.drop (index * stride)).take stride) := by
  have last : (index + 1) * stride ≤ count * stride := Nat.mul_le_mul_right _ inside
  have step : (index + 1) * stride = index * stride + stride := Nat.succ_mul index stride
  have start_eq : times index stride = .ok (index * stride) := fit_of_lt (by omega)
  have next_eq : plus index 1 = .ok (index + 1) := fit_of_lt (by omega)
  have stop_eq : times (index + 1) stride = .ok ((index + 1) * stride) := fit_of_lt (by omega)
  have slice_eq : slice values (index * stride) ((index + 1) * stride) =
      .ok ((values.drop (index * stride)).take stride) := by
    rw [slice, if_pos ⟨by omega, by omega⟩, step, Nat.add_sub_cancel_left]
  simp only [piece, start_eq, next_eq, stop_eq, slice_eq, bind, Except.bind]

/-- Enough values have a text, if the dimensions other than zero multiply to a word. -/
theorem nestedText_of_le (separator : String) {dimensions : List Nat} {values : List Float}
    (enough : (Shape.mk dimensions).size ≤ values.length)
    (small : (Shape.mk dimensions).nonzeroSize < countBound) :
    nestedText separator dimensions values =
      .ok (TensorLang.nestedText separator dimensions fun indices =>
        values.getD (Shape.rowMajor dimensions indices) 0) := by
  induction dimensions generalizing values with
  | nil =>
      rw [nestedText, TensorLang.nestedText, List.head?_eq_getElem?, List.getD_eq_getElem?_getD]
      rfl
  | cons outer inner induction =>
      rw [Shape.size_cons] at enough
      have small_inner := Nat.lt_of_le_of_lt (Shape.nonzeroSize_le_cons outer) small
      have small_size := Nat.lt_of_le_of_lt (Shape.size_le_nonzeroSize ⟨outer :: inner⟩) small
      have parts_eq : ((List.range outer).mapM fun index => do
            nestedText separator inner (← piece values (Shape.mk inner).size index)) =
          (.ok ((List.range outer).map fun index =>
            TensorLang.nestedText separator inner fun indices =>
              values.getD (Shape.rowMajor (outer :: inner) (index :: indices)) 0) :
            Computed (List String)) := by
        refine mapM_eq_ok fun index member => ?_
        have inside := List.mem_range.mp member
        have small_outer : outer < countBound := by
          rw [Shape.nonzeroSize_cons (by omega)] at small
          exact Nat.lt_of_le_of_lt
            (Nat.le_mul_of_pos_right outer (Shape.nonzeroSize_pos ⟨inner⟩)) small
        rw [piece_of_le inside enough small_outer small_size]
        change nestedText separator inner _ = _
        rw [induction (Nat.le_of_eq (length_piece inside enough).symm) small_inner,
          nestedText_piece separator outer index inner values]
      rw [nestedText, size_of_boundedSize? (Shape.boundedSize?_of_lt small_inner)]
      change ((List.range outer).mapM fun index => do
        nestedText separator inner (← piece values (Shape.mk inner).size index)) >>= _ = _
      rw [parts_eq]
      rfl

/-! ### Loops -/

/-- The last value of a loop variable, if the loop runs at all. -/
def lastValue (lower upper step : Nat) : Computed (Option Nat) :=
  if lower < upper then do
    let room ← minus (← minus upper lower) 1
    let distance ← times (← quotient room step) step
    some <$> plus lower distance
  else
    .ok none

/-- The last value of a loop variable is below the upper bound, and so are the values on the way. -/
theorem lastValue_of_lt {lower upper step : Nat} (steps : step ≠ 0) (small : upper < countBound) :
    lastValue lower upper step = .ok (Loop.lastValue lower upper step) := by
  rw [lastValue, Loop.lastValue]
  split
  · have distance := Nat.div_mul_le_self (upper - lower - 1) step
    have room_eq : minus upper lower = .ok (upper - lower) := if_pos (by omega)
    have less_eq : minus (upper - lower) 1 = .ok (upper - lower - 1) := if_pos (by omega)
    have steps_eq : quotient (upper - lower - 1) step = .ok ((upper - lower - 1) / step) :=
      if_neg steps
    have distance_eq : times ((upper - lower - 1) / step) step =
        .ok ((upper - lower - 1) / step * step) := fit_of_lt (by omega)
    have last_eq : plus lower ((upper - lower - 1) / step * step) =
        .ok (lower + (upper - lower - 1) / step * step) := fit_of_lt (by omega)
    simp only [room_eq, less_eq, steps_eq, distance_eq, bind, Except.bind, last_eq]
    rfl
  · rfl

end Word

end TensorLang
