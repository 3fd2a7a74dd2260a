import Mathlib
import TensorLang.Decimal.Binary

/-!
# Rounding to the nearest double

A quotient of natural numbers is rounded to a double whenever it lies in the rounding interval of
that double: the rationals that are nearer to it than to any other double, together with the ends if
the significand is even.  Below a power of two the doubles lie twice as dense, so the interval
reaches only half as far down.
-/

namespace TensorLang

/-! ### Powers over a common denominator -/

/-- A power with a whole exponent, over a common denominator. -/
theorem pow_toNat_div_pow_toNat {base : ℚ} (nonzero : base ≠ 0) (exponent : ℤ) :
    base ^ exponent.toNat / base ^ (-exponent).toNat = base ^ exponent := by
  rw [← zpow_natCast, ← zpow_natCast, ← zpow_sub₀ nonzero]
  congr 1
  omega

theorem cast_powerOfTwo (exponent : ℕ) : (powerOfTwo exponent : ℚ) = 2 ^ exponent := by
  simp [powerOfTwo]

theorem powerOfTwo_pos (exponent : ℕ) : 0 < powerOfTwo exponent := Nat.two_pow_pos exponent

theorem two_zpow_pos (exponent : ℤ) : (0 : ℚ) < 2 ^ exponent := zpow_pos (by norm_num) exponent

/-- Scaling numerator and denominator scales the quotient. -/
theorem mul_pow_div_mul_pow {base : ℚ} (nonzero : base ≠ 0) (numerator denominator : ℚ)
    (exponent : ℤ) :
    numerator * base ^ (-exponent).toNat / (denominator * base ^ exponent.toNat) =
      numerator / denominator / base ^ exponent := by
  rw [mul_div_mul_comm, ← inv_div (base ^ exponent.toNat), pow_toNat_div_pow_toNat nonzero,
    ← div_eq_mul_inv]

theorem scaled_div_scaled (numerator denominator : ℕ) (exponent : ℤ) :
    ((numerator * powerOfTwo (-exponent).toNat : ℕ) : ℚ) /
        (denominator * powerOfTwo exponent.toNat : ℕ) =
      numerator / denominator / 2 ^ exponent := by
  push_cast
  rw [cast_powerOfTwo, cast_powerOfTwo, mul_pow_div_mul_pow two_ne_zero]

namespace Magnitude

/-! ### The nearest whole number -/

/-- The whole number nearest to a quotient, the even one of two equally near ones. -/
def nearestEven (scaled unit : ℕ) : ℕ :=
  if unit < 2 * (scaled % unit) ∨ (2 * (scaled % unit) = unit ∧ scaled / unit % 2 = 1) then
    scaled / unit + 1
  else
    scaled / unit

/-- The rationals that are rounded to a whole number. -/
structure RoundsTo (value : ℚ) (rounded : ℕ) : Prop where
  /-- The number is not too small. -/
  lower : (rounded : ℚ) - 1 / 2 ≤ value
  /-- The number is not too large. -/
  upper : value ≤ rounded + 1 / 2
  /-- Halves are rounded to even numbers. -/
  strict : rounded % 2 = 1 → (rounded : ℚ) - 1 / 2 < value ∧ value < rounded + 1 / 2

theorem nearestEven_eq {scaled unit rounded : ℕ} (positive : 0 < unit)
    (rounds : RoundsTo ((scaled : ℚ) / unit) rounded) : nearestEven scaled unit = rounded := by
  have unit_pos : (0 : ℚ) < unit := by exact_mod_cast positive
  have lower : 2 * rounded * unit ≤ 2 * scaled + unit := by
    have bound := rounds.lower
    rw [le_div_iff₀ unit_pos] at bound
    have doubled : (2 * rounded * unit : ℚ) ≤ 2 * scaled + unit := by linarith
    exact_mod_cast doubled
  have upper : 2 * scaled ≤ 2 * rounded * unit + unit := by
    have bound := rounds.upper
    rw [div_le_iff₀ unit_pos] at bound
    have doubled : (2 * scaled : ℚ) ≤ 2 * rounded * unit + unit := by linarith
    exact_mod_cast doubled
  have strict : rounded % 2 = 1 →
      2 * rounded * unit < 2 * scaled + unit ∧ 2 * scaled < 2 * rounded * unit + unit := by
    intro odd
    have bounds := rounds.strict odd
    rw [lt_div_iff₀ unit_pos, div_lt_iff₀ unit_pos] at bounds
    have below : (2 * rounded * unit : ℚ) < 2 * scaled + unit := by linarith
    have above : (2 * scaled : ℚ) < 2 * rounded * unit + unit := by linarith
    exact ⟨by exact_mod_cast below, by exact_mod_cast above⟩
  have parts := Nat.div_add_mod scaled unit
  have rest_lt := Nat.mod_lt scaled positive
  have front := Nat.mul_div_le scaled unit
  have quotient_le : scaled / unit ≤ rounded := by
    by_contra above
    have more := Nat.mul_le_mul_left unit (Nat.not_le.mp above)
    rw [Nat.mul_succ] at more
    linarith
  have le_quotient : rounded ≤ scaled / unit + 1 := by
    by_contra below
    have less := Nat.mul_le_mul_left unit (Nat.not_le.mp below)
    rw [Nat.mul_succ, Nat.mul_succ] at less
    linarith
  rw [nearestEven]
  rcases Nat.lt_or_eq_of_le quotient_le with below | same
  · have next : rounded = scaled / unit + 1 := by omega
    rw [next] at lower strict ⊢
    have rest : unit ≤ 2 * (scaled % unit) := by linarith
    have odd : 2 * (scaled % unit) = unit → scaled / unit % 2 = 1 := by
      intro half
      by_contra even
      have := (strict (by omega)).1
      linarith
    rw [if_pos]
    omega
  · rw [← same] at upper strict ⊢
    have rest : 2 * (scaled % unit) ≤ unit := by linarith
    have even : 2 * (scaled % unit) = unit → scaled / unit % 2 ≠ 1 := by
      intro half odd
      have := (strict odd).2
      linarith
    rw [if_neg]
    omega

/-! ### The leading bit -/

/-- Exponent of the leading bit of a quotient. -/
def leadingExponent (numerator denominator : ℕ) : ℤ :=
  let estimate : ℤ := (numerator.log2 : ℤ) - denominator.log2
  let reached :=
    decide (denominator * powerOfTwo estimate.toNat ≤ numerator * powerOfTwo (-estimate).toNat)
  if reached then estimate else estimate - 1

theorem pow_log2_le {number : ℕ} (positive : 0 < number) :
    (2 : ℚ) ^ (number.log2 : ℤ) ≤ number := by
  rw [zpow_natCast]
  exact_mod_cast Nat.log2_self_le positive.ne'

theorem lt_pow_log2 (number : ℕ) : (number : ℚ) < 2 ^ ((number.log2 : ℤ) + 1) := by
  have below : number < 2 ^ (number.log2 + 1) := Nat.lt_log2_self
  have cast_eq : (2 : ℚ) ^ ((number.log2 : ℤ) + 1) = ((2 ^ (number.log2 + 1) : ℕ) : ℚ) := by
    rw [← Nat.cast_succ, zpow_natCast]
    push_cast
    rfl
  rw [cast_eq]
  exact_mod_cast below

private theorem reached_iff {numerator denominator : ℕ} (positive : 0 < denominator)
    (exponent : ℤ) :
    denominator * powerOfTwo exponent.toNat ≤ numerator * powerOfTwo (-exponent).toNat ↔
      (2 : ℚ) ^ exponent ≤ numerator / denominator := by
  have unit_pos : (0 : ℚ) < denominator * powerOfTwo exponent.toNat := by
    exact_mod_cast Nat.mul_pos positive (powerOfTwo_pos _)
  have scaled := scaled_div_scaled numerator denominator exponent
  push_cast at scaled
  rw [← one_le_div₀ (two_zpow_pos exponent), ← scaled, one_le_div₀ unit_pos]
  exact_mod_cast Iff.rfl

theorem leadingExponent_spec {numerator denominator : ℕ} (positive : 0 < numerator)
    (divisor : 0 < denominator) :
    (2 : ℚ) ^ leadingExponent numerator denominator ≤ numerator / denominator ∧
      (numerator : ℚ) / denominator < 2 ^ (leadingExponent numerator denominator + 1) := by
  have denominator_pos : (0 : ℚ) < denominator := by exact_mod_cast divisor
  have two_ne : (2 : ℚ) ≠ 0 := two_ne_zero
  have below : (2 : ℚ) ^ ((numerator.log2 : ℤ) - denominator.log2 - 1) ≤
      numerator / denominator := by
    rw [le_div_iff₀ denominator_pos]
    calc
      (2 : ℚ) ^ ((numerator.log2 : ℤ) - denominator.log2 - 1) * denominator
        ≤ 2 ^ ((numerator.log2 : ℤ) - denominator.log2 - 1) *
            2 ^ ((denominator.log2 : ℤ) + 1) :=
          mul_le_mul_of_nonneg_left (lt_pow_log2 denominator).le (two_zpow_pos _).le
      _ = 2 ^ (numerator.log2 : ℤ) := by
          rw [← zpow_add₀ two_ne]
          congr 1
          ring
      _ ≤ numerator := pow_log2_le positive
  have above : (numerator : ℚ) / denominator <
      2 ^ ((numerator.log2 : ℤ) - denominator.log2 + 1) := by
    rw [div_lt_iff₀ denominator_pos]
    calc
      (numerator : ℚ) < 2 ^ ((numerator.log2 : ℤ) + 1) := lt_pow_log2 numerator
      _ = 2 ^ ((numerator.log2 : ℤ) - denominator.log2 + 1) * 2 ^ (denominator.log2 : ℤ) := by
          rw [← zpow_add₀ two_ne]
          congr 1
          ring
      _ ≤ 2 ^ ((numerator.log2 : ℤ) - denominator.log2 + 1) * denominator :=
          mul_le_mul_of_nonneg_left (pow_log2_le divisor) (two_zpow_pos _).le
  simp only [leadingExponent, decide_eq_true_eq, reached_iff divisor]
  split
  · exact ⟨by assumption, above⟩
  · rename_i missed
    rw [sub_add_cancel]
    exact ⟨below, not_le.mp missed⟩

theorem leadingExponent_eq {numerator denominator : ℕ} {exponent : ℤ} (positive : 0 < numerator)
    (divisor : 0 < denominator) (lower : (2 : ℚ) ^ exponent ≤ numerator / denominator)
    (upper : (numerator : ℚ) / denominator < 2 ^ (exponent + 1)) :
    leadingExponent numerator denominator = exponent := by
  obtain ⟨reached, missed⟩ := leadingExponent_spec positive divisor
  have strict : StrictMono fun exponent : ℤ => (2 : ℚ) ^ exponent :=
    zpow_right_strictMono₀ one_lt_two
  have not_less := strict.lt_iff_lt.mp (lt_of_le_of_lt lower missed)
  have not_more := strict.lt_iff_lt.mp (lt_of_le_of_lt reached upper)
  omega

/-! ### Doubles -/

private theorem roundQuotient_eq_nearestEven {numerator denominator : ℕ}
    (positive : 0 < numerator) :
    roundQuotient numerator denominator =
      min ((max (leadingExponent numerator denominator - 52) (-1074) + 1074).toNat * 2 ^ 52 +
        nearestEven
          (numerator * powerOfTwo
            (-(max (leadingExponent numerator denominator - 52) (-1074))).toNat)
          (denominator * powerOfTwo
            (max (leadingExponent numerator denominator - 52) (-1074)).toNat))
        infinityBits := by
  rw [roundQuotient, if_neg positive.ne']
  rfl

/-- On a grid with the right leading bit, the bits are read off the nearest whole number. -/
theorem roundQuotient_of_roundsTo {numerator denominator rounded : ℕ} {exponent : ℤ}
    (positive : 0 < numerator) (divisor : 0 < denominator)
    (grid : max (leadingExponent numerator denominator - 52) (-1074) = exponent)
    (rounds : RoundsTo ((numerator : ℚ) / denominator / 2 ^ exponent) rounded) :
    roundQuotient numerator denominator =
      min ((exponent + 1074).toNat * 2 ^ 52 + rounded) infinityBits := by
  rw [roundQuotient_eq_nearestEven positive, grid,
    nearestEven_eq (Nat.mul_pos divisor (powerOfTwo_pos _))]
  rwa [scaled_div_scaled]

/-- Significand and exponent of a positive finite double. -/
structure IsDouble (significand : ℕ) (exponent : ℤ) : Prop where
  /-- The double is not zero. -/
  positive : 0 < significand
  /-- There are 53 bits at most. -/
  small : significand < 2 ^ 53
  /-- The exponent is not too small. -/
  least : -1074 ≤ exponent
  /-- The exponent is not too large. -/
  greatest : exponent ≤ 971
  /-- Above the least exponent the leading bit is set. -/
  normal : exponent = -1074 ∨ 2 ^ 52 ≤ significand

/-- The bits of a positive finite double. -/
def doubleBits (significand : ℕ) (exponent : ℤ) : ℕ :=
  (exponent + 1074).toNat * 2 ^ 52 + significand

/-- How far the rounding interval of a significand reaches down. -/
def reachDown (significand : ℕ) : ℚ := if significand = 2 ^ 52 then 1 / 4 else 1 / 2

/-- The rationals nearest to a double, as multiples of the power of two of its last bit. -/
structure Nearest (multiple : ℚ) (significand : ℕ) : Prop where
  /-- The number is not too small. -/
  lower : (significand : ℚ) - reachDown significand ≤ multiple
  /-- The number is not too large. -/
  upper : multiple ≤ significand + 1 / 2
  /-- The ends belong to doubles with an even significand. -/
  strict : significand % 2 = 1 →
    (significand : ℚ) - reachDown significand < multiple ∧ multiple < significand + 1 / 2

theorem Nearest.of_lt {multiple : ℚ} {significand : ℕ}
    (lower : (significand : ℚ) - reachDown significand < multiple)
    (upper : multiple < significand + 1 / 2) : Nearest multiple significand :=
  ⟨lower.le, upper.le, fun _ => ⟨lower, upper⟩⟩

theorem doubleBits_lt {significand : ℕ} {exponent : ℤ} (double : IsDouble significand exponent) :
    doubleBits significand exponent < infinityBits := by
  have small := double.small
  have greatest := double.greatest
  have infinity_eq : infinityBits = 2047 * 2 ^ 52 := rfl
  rw [doubleBits, infinity_eq]
  omega

theorem reachDown_le (significand : ℕ) : reachDown significand ≤ 1 / 2 := by
  rw [reachDown]
  split <;> norm_num

theorem Nearest.roundsTo {multiple : ℚ} {significand : ℕ} (nearest : Nearest multiple significand) :
    RoundsTo multiple significand := by
  have reach := reachDown_le significand
  constructor
  · linarith [nearest.lower]
  · exact nearest.upper
  · intro odd
    obtain ⟨below, above⟩ := nearest.strict odd
    exact ⟨by linarith, above⟩

section Quotient

variable {numerator denominator significand : ℕ} {exponent : ℤ}

/-- In multiples of the last bit of a double, the leading bit is set from the greatest power. -/
theorem leadingExponent_of_multiple (positive : 0 < numerator) (divisor : 0 < denominator)
    (places : ℤ) (lower : (2 : ℚ) ^ places ≤ (numerator : ℚ) / denominator / 2 ^ exponent)
    (upper : (numerator : ℚ) / denominator / 2 ^ exponent < 2 ^ (places + 1)) :
    leadingExponent numerator denominator = places + exponent := by
  have two_ne : (2 : ℚ) ≠ 0 := two_ne_zero
  apply leadingExponent_eq positive divisor
  · rwa [le_div_iff₀ (two_zpow_pos exponent), ← zpow_add₀ two_ne] at lower
  · rw [div_lt_iff₀ (two_zpow_pos exponent), ← zpow_add₀ two_ne] at upper
    rwa [add_right_comm]

private theorem leadingExponent_le (positive : 0 < numerator) (divisor : 0 < denominator)
    (upper : (numerator : ℚ) / denominator / 2 ^ exponent < 2 ^ 53) :
    leadingExponent numerator denominator ≤ 52 + exponent := by
  obtain ⟨reached, -⟩ := leadingExponent_spec positive divisor
  have strict : StrictMono fun exponent : ℤ => (2 : ℚ) ^ exponent :=
    zpow_right_strictMono₀ one_lt_two
  rw [div_lt_iff₀ (two_zpow_pos exponent)] at upper
  have below : (2 : ℚ) ^ leadingExponent numerator denominator < 2 ^ (53 + exponent) := by
    rw [zpow_add₀ two_ne_zero]
    exact lt_of_le_of_lt reached (by exact_mod_cast upper)
  have := strict.lt_iff_lt.mp below
  omega

private theorem roundQuotient_below_power (positive : 0 < numerator) (divisor : 0 < denominator)
    (double : IsDouble (2 ^ 52) exponent) (above_least : exponent ≠ -1074)
    (lower : (2 : ℚ) ^ 52 - 1 / 4 ≤ (numerator : ℚ) / denominator / 2 ^ exponent)
    (upper : (numerator : ℚ) / denominator / 2 ^ exponent < 2 ^ 52) :
    roundQuotient numerator denominator = doubleBits (2 ^ 52) exponent := by
  have finite := doubleBits_lt double
  have least := double.least
  have finer : (numerator : ℚ) / denominator / 2 ^ (exponent - 1) =
      2 * ((numerator : ℚ) / denominator / 2 ^ exponent) := by
    rw [zpow_sub_one₀ two_ne_zero, div_mul_eq_div_div_swap, div_inv_eq_mul, mul_comm,
      mul_div_assoc]
  have leading : leadingExponent numerator denominator = 52 + (exponent - 1) := by
    apply leadingExponent_of_multiple positive divisor
    · rw [finer]
      norm_num at lower ⊢
      linarith
    · rw [finer]
      norm_num at upper ⊢
      linarith
  have rounds : RoundsTo ((numerator : ℚ) / denominator / 2 ^ (exponent - 1)) (2 ^ 53) := by
    rw [finer]
    constructor
    · push_cast
      linarith
    · push_cast
      linarith
    · intro odd
      exact absurd odd (by decide)
  have same_bits : (exponent - 1 + 1074).toNat * 2 ^ 52 + 2 ^ 53 =
      doubleBits (2 ^ 52) exponent := by
    rw [doubleBits]
    omega
  rw [roundQuotient_of_roundsTo positive divisor (by omega) rounds, same_bits]
  exact min_eq_left finite.le

/-- Every rational nearest to a double is rounded to it. -/
theorem roundQuotient_eq_doubleBits (positive : 0 < numerator) (divisor : 0 < denominator)
    (double : IsDouble significand exponent)
    (nearest : Nearest ((numerator : ℚ) / denominator / 2 ^ exponent) significand) :
    roundQuotient numerator denominator = doubleBits significand exponent := by
  have finite := doubleBits_lt double
  have small : (significand : ℚ) ≤ 2 ^ 53 - 1 := by
    have bound : significand + 1 ≤ 2 ^ 53 := double.small
    have cast_bound : ((significand + 1 : ℕ) : ℚ) ≤ ((2 ^ 53 : ℕ) : ℚ) := by exact_mod_cast bound
    push_cast at cast_bound
    linarith
  have upper : (numerator : ℚ) / denominator / 2 ^ exponent < 2 ^ 53 := by
    linarith [nearest.upper]
  -- Either nothing lies below the last bit of the double, or its leading bit is 52 places above.
  have onGrid : max (leadingExponent numerator denominator - 52) (-1074) = exponent →
      roundQuotient numerator denominator = doubleBits significand exponent := by
    intro grid
    rw [roundQuotient_of_roundsTo positive divisor grid nearest.roundsTo]
    exact min_eq_left finite.le
  by_cases least : exponent = -1074
  · apply onGrid
    have := leadingExponent_le positive divisor upper
    omega
  · have normal := double.normal.resolve_left least
    by_cases reached : (2 : ℚ) ^ 52 ≤ (numerator : ℚ) / denominator / 2 ^ exponent
    · apply onGrid
      have leading := leadingExponent_of_multiple positive divisor 52
        (by exact_mod_cast reached) (by exact_mod_cast upper)
      have := double.least
      omega
    · have power : significand = 2 ^ 52 := by
        by_contra other
        have above : 2 ^ 52 + 1 ≤ significand := by omega
        have cast_above : ((2 ^ 52 + 1 : ℕ) : ℚ) ≤ significand := by exact_mod_cast above
        push_cast at cast_above
        linarith [nearest.lower, reachDown_le significand]
      subst power
      have lower := nearest.lower
      rw [reachDown, if_pos rfl] at lower
      push_cast at lower
      exact roundQuotient_below_power positive divisor double least lower (not_le.mp reached)

end Quotient

end Magnitude

end TensorLang
