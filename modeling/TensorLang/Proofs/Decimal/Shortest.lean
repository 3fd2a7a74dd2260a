import Mathlib
import TensorLang.Decimal.Shortest
import TensorLang.Proofs.Decimal.Rounding

/-!
# Shortest decimals read back

The decimal that is chosen for a double lies in the rounding interval of the double.  Where fewer
digits are tried, that is checked; seventeen digits always suffice, since their grid is finer than
the doubles are.
-/

namespace TensorLang

/-- The number that a decimal stands for. -/
def Decimal.value (decimal : Decimal) : ℚ := decimal.digits * 10 ^ decimal.exponent

theorem Decimal.value_succ (digits : ℕ) (exponent : ℤ) :
    Decimal.value ⟨digits + 1, exponent⟩ = Decimal.value ⟨digits, exponent⟩ + 10 ^ exponent := by
  simp only [Decimal.value]
  push_cast
  ring

theorem cast_powerOfTen (exponent : ℕ) : (powerOfTen exponent : ℚ) = 10 ^ exponent := by
  simp [powerOfTen]

theorem ten_zpow_pos (exponent : ℤ) : (0 : ℚ) < 10 ^ exponent := zpow_pos (by norm_num) exponent

theorem lt_pow_digitCount (number : ℕ) : number < 10 ^ digitCount number := by
  rw [digitCount]
  split
  · rename_i zero
    rw [zero]
    norm_num
  · exact (Nat.length_toDigits_le_iff (by norm_num) Nat.length_toDigits_pos).mp le_rfl

theorem pow_digitCount_le {number : ℕ} (positive : 0 < number) :
    10 ^ (digitCount number - 1) ≤ number := by
  rw [digitCount, if_neg positive.ne']
  by_contra below
  have length_pos : 0 < (Nat.toDigits 10 number).length := Nat.length_toDigits_pos
  rcases Nat.eq_zero_or_pos ((Nat.toDigits 10 number).length - 1) with single | several
  · rw [single] at below
    omega
  · have shorter := (Nat.length_toDigits_le_iff (by norm_num) several).mpr (not_le.mp below)
    omega

theorem div_between (numerator : ℕ) {denominator : ℕ} (positive : 0 < denominator) :
    ((numerator / denominator : ℕ) : ℚ) ≤ numerator / denominator ∧
      (numerator : ℚ) / denominator < (numerator / denominator : ℕ) + 1 := by
  have denominator_pos : (0 : ℚ) < denominator := by exact_mod_cast positive
  constructor
  · exact Nat.cast_div_le
  · rw [div_lt_iff₀ denominator_pos]
    have below := Nat.lt_mul_div_succ numerator positive
    rw [mul_comm] at below
    exact_mod_cast below

namespace RoundingInterval

open Magnitude

variable {significand : ℕ} {exponent : ℤ} {decimal : Decimal}

/-! ### The interval as an interval of rationals -/

/-- The common denominator of an end of the interval and of a decimal. -/
def unit (exponent place : ℤ) : ℚ := 2 ^ (2 - exponent).toNat * 10 ^ (-place).toNat

theorem unit_pos (exponent place : ℤ) : 0 < unit exponent place := by
  unfold unit
  positivity

theorem cast_end (numerator : ℕ) (exponent place : ℤ) :
    ((numerator * powerOfTwo (exponent - 2).toNat * powerOfTen (-place).toNat : ℕ) : ℚ) =
      numerator * 2 ^ (exponent - 2) * unit exponent place := by
  have scale := pow_toNat_div_pow_toNat (two_ne_zero : (2 : ℚ) ≠ 0) (exponent - 2)
  rw [neg_sub, div_eq_iff (by positivity)] at scale
  push_cast
  rw [cast_powerOfTwo, cast_powerOfTen, scale, unit]
  ring

theorem cast_point (decimal : Decimal) (exponent : ℤ) :
    ((decimal.digits * powerOfTen decimal.exponent.toNat * powerOfTwo (2 - exponent).toNat : ℕ) :
      ℚ) = decimal.value * unit exponent decimal.exponent := by
  have scale := pow_toNat_div_pow_toNat (by norm_num : (10 : ℚ) ≠ 0) decimal.exponent
  rw [div_eq_iff (by positivity)] at scale
  push_cast
  rw [cast_powerOfTwo, cast_powerOfTen, scale, unit, Decimal.value]
  ring

private theorem contains_iff {interval : RoundingInterval} :
    interval.contains decimal = true ↔
      if interval.closed = true then
        interval.lower * powerOfTen (-decimal.exponent).toNat ≤
            decimal.digits * powerOfTen decimal.exponent.toNat * interval.denominator ∧
          decimal.digits * powerOfTen decimal.exponent.toNat * interval.denominator ≤
            interval.upper * powerOfTen (-decimal.exponent).toNat
      else
        interval.lower * powerOfTen (-decimal.exponent).toNat <
            decimal.digits * powerOfTen decimal.exponent.toNat * interval.denominator ∧
          decimal.digits * powerOfTen decimal.exponent.toNat * interval.denominator <
            interval.upper * powerOfTen (-decimal.exponent).toNat := by
  rw [contains]
  split <;> simp

/-- Where an end of the interval lies, in multiples of the last bit. -/
theorem end_le_point_iff (numerator : ℕ) :
    numerator * powerOfTwo (exponent - 2).toNat * powerOfTen (-decimal.exponent).toNat ≤
        decimal.digits * powerOfTen decimal.exponent.toNat * powerOfTwo (2 - exponent).toNat ↔
      (numerator : ℚ) / 4 ≤ decimal.value / 2 ^ exponent := by
  rw [← @Nat.cast_le ℚ, cast_end, cast_point, mul_le_mul_iff_of_pos_right (unit_pos _ _),
    le_div_iff₀ (two_zpow_pos exponent), zpow_sub₀ two_ne_zero]
  norm_num
  rw [mul_div_assoc', div_mul_eq_mul_div]

theorem point_le_end_iff (numerator : ℕ) :
    decimal.digits * powerOfTen decimal.exponent.toNat * powerOfTwo (2 - exponent).toNat ≤
        numerator * powerOfTwo (exponent - 2).toNat * powerOfTen (-decimal.exponent).toNat ↔
      decimal.value / 2 ^ exponent ≤ (numerator : ℚ) / 4 := by
  rw [← @Nat.cast_le ℚ, cast_end, cast_point, mul_le_mul_iff_of_pos_right (unit_pos _ _),
    div_le_iff₀ (two_zpow_pos exponent), zpow_sub₀ two_ne_zero]
  norm_num
  rw [mul_div_assoc', div_mul_eq_mul_div]

theorem lower_eq (positive : 0 < significand) :
    ((4 * significand - if significand = leastNormal then 1 else 2 : ℕ) : ℚ) / 4 =
      significand - reachDown significand := by
  have power : leastNormal = 2 ^ 52 := rfl
  rw [reachDown, power, Nat.cast_sub (by split <;> omega)]
  push_cast
  split <;> ring

theorem upper_eq (significand : ℕ) : ((4 * significand + 2 : ℕ) : ℚ) / 4 = significand + 1 / 2 := by
  push_cast
  ring

/-- The interval holds the decimals that are nearest to the double. -/
theorem contains_ofFinite_iff (positive : 0 < significand) :
    (ofFinite significand exponent).contains decimal = true ↔
      Nearest (decimal.value / 2 ^ exponent) significand := by
  rw [contains_iff]
  simp only [ofFinite, decide_eq_true_eq]
  split
  · rw [end_le_point_iff, point_le_end_iff, lower_eq positive, upper_eq]
    exact ⟨fun ⟨lower, upper⟩ => ⟨lower, upper, fun odd => by omega⟩,
      fun nearest => ⟨nearest.lower, nearest.upper⟩⟩
  · rw [← not_le, ← not_le, end_le_point_iff, point_le_end_iff, lower_eq positive, upper_eq,
      not_le, not_le]
    exact ⟨fun ⟨lower, upper⟩ => ⟨lower.le, upper.le, fun _ => ⟨lower, upper⟩⟩,
      fun nearest => nearest.strict (by omega)⟩

/-! ### Grids -/

private theorem contains_of_onGrid? {interval : RoundingInterval} {place : ℤ}
    (found : interval.onGrid? place = some decimal) : interval.contains decimal = true := by
  rw [onGrid?] at found
  split at found
  · rename_i chosen
    obtain rfl := Option.some.inj found
    exact (Bool.and_eq_true_iff.mp chosen).1
  · split at found
    · rename_i inside
      obtain rfl := Option.some.inj found
      exact inside
    · cases found

theorem isSome_onGrid? {interval : RoundingInterval} {place : ℤ}
    (inside : interval.contains ⟨interval.value * powerOfTen (-place).toNat /
        (interval.denominator * powerOfTen place.toNat), place⟩ = true ∨
      interval.contains ⟨interval.value * powerOfTen (-place).toNat /
        (interval.denominator * powerOfTen place.toNat) + 1, place⟩ = true) :
    (interval.onGrid? place).isSome = true := by
  rw [onGrid?]
  split
  · rfl
  · rename_i refused
    split
    · rfl
    · rename_i outside
      rcases inside with below | above
      · simp [below, outside] at refused
      · exact absurd above outside

/-- The decimal that is chosen lies in the interval if one of seventeen digits does. -/
theorem contains_shortest {interval : RoundingInterval}
    (found : (interval.onGrid? (interval.decimalExponent - 17)).isSome = true) :
    interval.contains interval.shortest = true := by
  have tried : 17 ∈ List.range' 1 maxDigits := by decide
  cases chosen : (List.range' 1 maxDigits).findSome? fun count : ℕ =>
      interval.onGrid? (interval.decimalExponent - count) with
  | none =>
      have missing := List.findSome?_eq_none_iff.mp chosen 17 tried
      rw [Nat.cast_ofNat] at missing
      rw [missing] at found
      cases found
  | some decimal =>
      obtain ⟨count, -, onGrid⟩ := List.exists_of_findSome?_eq_some chosen
      rw [shortest, chosen]
      exact contains_of_onGrid? onGrid

theorem pow_decimalExponent_le {interval : RoundingInterval} (value_pos : 0 < interval.value)
    (denominator_pos : 0 < interval.denominator) :
    (10 : ℚ) ^ (interval.decimalExponent - 1) ≤ interval.value / interval.denominator := by
  have divisor : (0 : ℚ) < interval.denominator := by exact_mod_cast denominator_pos
  rw [decimalExponent]
  split
  · rename_i whole
    have quotient_pos : 0 < interval.value / interval.denominator :=
      Nat.div_pos whole denominator_pos
    have count_pos : 0 < digitCount (interval.value / interval.denominator) := by
      rw [digitCount, if_neg quotient_pos.ne']
      exact Nat.length_toDigits_pos
    calc
      (10 : ℚ) ^ ((digitCount (interval.value / interval.denominator) : ℤ) - 1)
        = ((10 ^ (digitCount (interval.value / interval.denominator) - 1) : ℕ) : ℚ) := by
          rw [← Nat.cast_one, ← Nat.cast_sub count_pos, zpow_natCast]
          push_cast
          rfl
      _ ≤ (interval.value / interval.denominator : ℕ) := by
          exact_mod_cast pow_digitCount_le quotient_pos
      _ ≤ interval.value / interval.denominator := Nat.cast_div_le
  · have room := lt_pow_digitCount ((interval.denominator - 1) / interval.value)
    rw [Nat.div_lt_iff_lt_mul value_pos] at room
    have enough : interval.denominator ≤
        10 ^ digitCount ((interval.denominator - 1) / interval.value) * interval.value := by omega
    have exponent_eq :
        (1 - (digitCount ((interval.denominator - 1) / interval.value) : ℤ) - 1) =
          -(digitCount ((interval.denominator - 1) / interval.value) : ℤ) := by ring
    rw [exponent_eq, zpow_neg, zpow_natCast, inv_le_comm₀ (by positivity) (by positivity), inv_div,
      div_le_iff₀ (by exact_mod_cast value_pos)]
    exact_mod_cast enough

private theorem value_ofFinite (significand : ℕ) (exponent : ℤ) :
    ((ofFinite significand exponent).value : ℚ) / (ofFinite significand exponent).denominator =
      significand * 2 ^ exponent := by
  have scale := pow_toNat_div_pow_toNat (two_ne_zero : (2 : ℚ) ≠ 0) (exponent - 2)
  rw [neg_sub] at scale
  simp only [ofFinite]
  push_cast
  rw [cast_powerOfTwo, cast_powerOfTwo, mul_div_assoc, scale, zpow_sub₀ two_ne_zero]
  norm_num
  ring

private theorem value_between {interval : RoundingInterval}
    (denominator_pos : 0 < interval.denominator)
    (place : ℤ) {below : ℕ} (below_eq : below = interval.value * powerOfTen (-place).toNat /
      (interval.denominator * powerOfTen place.toNat)) :
    Decimal.value ⟨below, place⟩ ≤ interval.value / interval.denominator ∧
      (interval.value : ℚ) / interval.denominator < Decimal.value ⟨below, place⟩ + 10 ^ place := by
  have scale_pos := ten_zpow_pos place
  have unit_pos : 0 < interval.denominator * powerOfTen place.toNat :=
    Nat.mul_pos denominator_pos (Nat.pow_pos (by norm_num))
  obtain ⟨lower, upper⟩ := div_between (interval.value * powerOfTen (-place).toNat) unit_pos
  have scaled : ((interval.value * powerOfTen (-place).toNat : ℕ) : ℚ) /
      (interval.denominator * powerOfTen place.toNat : ℕ) =
        interval.value / interval.denominator / 10 ^ place := by
    push_cast
    rw [cast_powerOfTen, cast_powerOfTen, mul_pow_div_mul_pow (by norm_num)]
  rw [scaled, ← below_eq] at lower upper
  rw [le_div_iff₀ scale_pos] at lower
  rw [div_lt_iff₀ scale_pos, add_mul, one_mul] at upper
  exact ⟨lower, upper⟩

private theorem nearest_neighbour {multiple step : ℚ} (fine : step < 10 / 11)
    (finer : significand = 2 ^ 52 → step < 1 / 2) (below : multiple ≤ significand)
    (above : (significand : ℚ) < multiple + step) :
    Nearest multiple significand ∨ Nearest (multiple + step) significand := by
  by_cases close : (significand : ℚ) + 1 / 2 ≤ multiple + step
  · left
    have other : significand ≠ 2 ^ 52 := fun power => by linarith [finer power]
    apply Nearest.of_lt
    · rw [reachDown, if_neg other]
      linarith
    · linarith
  · right
    have reach_pos : 0 < reachDown significand := by
      rw [reachDown]
      split <;> norm_num
    exact Nearest.of_lt (by linarith) (not_le.mp close)

/-- Seventeen digits come so close to a double that they are rounded to it. -/
theorem isSome_onGrid?_seventeen (double : IsDouble significand exponent) :
    ((ofFinite significand exponent).onGrid?
      ((ofFinite significand exponent).decimalExponent - 17)).isSome = true := by
  let interval := ofFinite significand exponent
  have positive := double.positive
  have denominator_pos : 0 < interval.denominator := powerOfTwo_pos _
  have value_pos : 0 < interval.value :=
    Nat.mul_pos (Nat.mul_pos (by norm_num) positive) (powerOfTwo_pos _)
  have value_eq : (interval.value : ℚ) / interval.denominator = significand * 2 ^ exponent :=
    value_ofFinite significand exponent
  have scale_pos := two_zpow_pos exponent
  have step_le : (10 : ℚ) ^ (interval.decimalExponent - 17) / 2 ^ exponent ≤
      significand / 10 ^ 16 := by
    have leading := pow_decimalExponent_le value_pos denominator_pos
    rw [value_eq] at leading
    have place_eq : interval.decimalExponent - 17 = interval.decimalExponent - 1 - 16 := by ring
    rw [div_le_iff₀ scale_pos, place_eq, zpow_sub₀ (by norm_num), div_mul_eq_mul_div]
    exact div_le_div_of_nonneg_right leading (by norm_num)
  have small : (significand : ℚ) < 2 ^ 53 := by exact_mod_cast double.small
  obtain ⟨lower, upper⟩ := value_between denominator_pos (interval.decimalExponent - 17) rfl
  rw [value_eq, ← div_le_iff₀ scale_pos] at lower
  rw [value_eq, ← lt_div_iff₀ scale_pos, add_div] at upper
  apply isSome_onGrid?
  rw [contains_ofFinite_iff positive, contains_ofFinite_iff positive, Decimal.value_succ, add_div]
  apply nearest_neighbour _ _ lower upper
  · calc
      (10 : ℚ) ^ (interval.decimalExponent - 17) / 2 ^ exponent ≤ significand / 10 ^ 16 := step_le
      _ < 10 / 11 := by
        rw [div_lt_iff₀ (by norm_num)]
        linarith
  · intro power
    calc
      (10 : ℚ) ^ (interval.decimalExponent - 17) / 2 ^ exponent ≤ significand / 10 ^ 16 := step_le
      _ < 1 / 2 := by
        rw [power]
        norm_num

/-- The shortest decimal of a double is rounded to the double. -/
theorem nearest_shortest (double : IsDouble significand exponent) :
    Nearest ((ofFinite significand exponent).shortest.value / 2 ^ exponent) significand :=
  (contains_ofFinite_iff double.positive).mp (contains_shortest (isSome_onGrid?_seventeen double))

end RoundingInterval

end TensorLang
