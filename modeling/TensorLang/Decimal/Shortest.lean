import TensorLang.Decimal.Binary

/-!
# Shortest decimals

Among the decimals that read back as a given double, the one with the fewest digits is written,
and among those the nearest to the double; of two equally near ones the larger.  For each number
of digits only the two neighbours of the double on that decimal grid have to be tried.
-/

namespace TensorLang

/-- A power of ten. -/
def powerOfTen (exponent : Nat) : Nat := Nat.pow 10 exponent

/-- The decimal number `digits * 10 ^ exponent`. -/
structure Decimal where
  /-- All digits, read as one whole number. -/
  digits : Nat
  /-- Power of ten of the last digit. -/
  exponent : Int
  deriving DecidableEq

/-- Number of decimal digits; zero has none. -/
def digitCount (n : Nat) : Nat :=
  if n = 0 then 0 else (Nat.toDigits 10 n).length

/-- The positive reals that round to one double, over a common denominator. -/
structure RoundingInterval where
  /-- Numerator of the double itself. -/
  value : Nat
  /-- Numerator of the lower end. -/
  lower : Nat
  /-- Numerator of the upper end. -/
  upper : Nat
  /-- The common denominator. -/
  denominator : Nat
  /-- Whether both ends belong to the interval. -/
  closed : Bool

namespace RoundingInterval

/-- The reals nearer to `significand * 2 ^ exponent` than to any other double.  Below a power of
two the doubles lie twice as dense, so the interval reaches only half as far down. -/
def ofFinite (significand : Nat) (exponent : Int) : RoundingInterval :=
  let scale := powerOfTwo (exponent - 2).toNat
  { value := 4 * significand * scale
    lower :=
      (4 * significand - if significand = Magnitude.leastNormal then 1 else 2) * scale
    upper := (4 * significand + 2) * scale
    denominator := powerOfTwo (2 - exponent).toNat
    closed := significand % 2 = 0 }

/-- The power of ten just above the value: `10 ^ (k - 1) ≤ value < 10 ^ k` for this `k`. -/
def decimalExponent (interval : RoundingInterval) : Int :=
  if interval.denominator ≤ interval.value then
    digitCount (interval.value / interval.denominator)
  else
    1 - (digitCount ((interval.denominator - 1) / interval.value) : Int)

/-- Whether the decimal rounds to the double of the interval. -/
def contains (interval : RoundingInterval) (decimal : Decimal) : Bool :=
  let point := decimal.digits * powerOfTen decimal.exponent.toNat * interval.denominator
  let unit := powerOfTen (-decimal.exponent).toNat
  if interval.closed then
    interval.lower * unit ≤ point && point ≤ interval.upper * unit
  else
    interval.lower * unit < point && point < interval.upper * unit

/-- The better neighbour of the value on the grid of multiples of `10 ^ exponent`, if one of them
rounds to the double: the nearer, and of two equally near ones the upper. -/
def onGrid? (interval : RoundingInterval) (exponent : Int) : Option Decimal :=
  let scaled := interval.value * powerOfTen (-exponent).toNat
  let unit := interval.denominator * powerOfTen exponent.toNat
  let below : Decimal := ⟨scaled / unit, exponent⟩
  let above : Decimal := ⟨scaled / unit + 1, exponent⟩
  if interval.contains below && (2 * (scaled % unit) < unit || !interval.contains above) then
    some below
  else if interval.contains above then
    some above
  else
    none

/-- Seventeen digits always identify a double. -/
def maxDigits : Nat := 17

/-- The shortest decimal in the interval. -/
def shortest (interval : RoundingInterval) : Decimal :=
  let top := interval.decimalExponent
  ((List.range' 1 maxDigits).findSome? fun (count : Nat) =>
    interval.onGrid? (top - count)).getD ⟨0, 0⟩

end RoundingInterval

end TensorLang
