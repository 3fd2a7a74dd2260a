/-!
# Binary fractions

A finite double is a whole significand times a power of two.  This module takes doubles apart into
that form and rounds a quotient of natural numbers to the nearest double, a tie going to the even
significand.
-/

namespace TensorLang

/-- What a double holds, its sign apart. -/
inductive Magnitude where
  /-- Not a number. -/
  | nan
  /-- Greater than every finite double. -/
  | infinite
  /-- The value `significand * 2 ^ exponent`. -/
  | finite (significand : Nat) (exponent : Int)
  deriving DecidableEq

/-- A power of two. -/
def powerOfTwo (exponent : Nat) : Nat := Nat.pow 2 exponent

namespace Magnitude

/-- Number of bits that hold the fraction of a double. -/
def fractionBits : Nat := 52

/-- The least significand of a double whose leading bit is not stored. -/
def leastNormal : Nat := powerOfTwo fractionBits

/-- Exponent of the least positive double. -/
def leastExponent : Int := -1074

/-- Bits of positive infinity: all exponent bits set and no fraction. -/
def infinityBits : Nat := 2047 * leastNormal

/-- The magnitude that the 64 bits of a double hold. -/
def ofBits (bits : Nat) : Magnitude :=
  let fraction := bits % leastNormal
  let exponent := bits / leastNormal % 2048
  if exponent = 2047 then
    if fraction = 0 then infinite else nan
  else if exponent = 0 then
    finite fraction leastExponent
  else
    finite (leastNormal + fraction) (leastExponent + (exponent - 1 : Nat))

/-- Bits of the double nearest to `numerator / denominator`, ties to the even significand. -/
def roundQuotient (numerator denominator : Nat) : Nat :=
  if numerator = 0 then
    0
  else
    let estimate : Int := (numerator.log2 : Int) - denominator.log2
    let reached :=
      decide
        (denominator * powerOfTwo estimate.toNat ≤ numerator * powerOfTwo (-estimate).toNat)
    let leading := if reached then estimate else estimate - 1
    let exponent := max (leading - fractionBits) leastExponent
    let scaled := numerator * powerOfTwo (-exponent).toNat
    let unit := denominator * powerOfTwo exponent.toNat
    let quotient := scaled / unit
    let rest := 2 * (scaled % unit)
    let rounded :=
      if unit < rest ∨ (rest = unit ∧ quotient % 2 = 1) then quotient + 1 else quotient
    min ((exponent - leastExponent).toNat * leastNormal + rounded) infinityBits

end Magnitude

/-- Whether the sign bit of a double is set; a zero may carry it. -/
def signBit (value : Float) : Bool :=
  value.toBits.toNat.testBit 63

/-- What a double holds, its sign apart. -/
def magnitude (value : Float) : Magnitude :=
  .ofBits value.toBits.toNat

/-- The double nearest to `numerator / denominator`; infinite when it is too large. -/
def nearestDouble (numerator denominator : Nat) : Float :=
  Float.ofBits (Magnitude.roundQuotient numerator denominator).toUInt64

end TensorLang
